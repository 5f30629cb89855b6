import ScanBounds.Compound.Bounds

/-!
# Bounds that are one range

Points on the leading fields, then at most one interval, then all values: such bounds are one contiguous
range of compound keys, and a scan needs no more than its two ends.
-/

namespace ScanBounds

/-- A range of compound keys, one value for each field at either end. -/
structure KeyRange where
  start : List Value
  startInclusive : Bool
  stop : List Value
  stopInclusive : Bool

namespace KeyRange

/-- Extends both ends over a trailing field that takes all values.  An end that is included takes in every
key below it, and one that is excluded leaves them all out; an interval of other values adds nothing. -/
def appendAllValues (r : KeyRange) (i : Interval) : KeyRange :=
  let extend (low high : Value) : KeyRange :=
    { r with
      start := r.start ++ [if r.startInclusive then low else high]
      stop := r.stop ++ [if r.stopInclusive then high else low] }
  if i.isMinToMax then extend .minKey .maxKey
  else if i.isMaxToMin then extend .maxKey .minKey
  else r

/-- Takes in trailing fields, each of which must take all values. -/
def appendTrailing? (r : KeyRange) : List IntervalList → Option KeyRange
  | [] => some r
  | list :: rest =>
    match list.intervals with
    | [i] => if i.isMinToMax || i.isMaxToMin then (r.appendAllValues i).appendTrailing? rest else none
    | _ => none

/-- Takes in the fields after leading points, whose values are given last first. -/
def afterPoints? (starts stops : List Value) : List IntervalList → Option KeyRange
  | [] => some ⟨starts.reverse, true, stops.reverse, true⟩
  | list :: rest =>
    match list.intervals with
    | [i] =>
      if i.isPoint then afterPoints? (i.start :: starts) (i.stop :: stops) rest
      else
        let r : KeyRange :=
          ⟨(i.start :: starts).reverse, i.startInclusive, (i.stop :: stops).reverse, i.stopInclusive⟩
        r.appendTrailing? rest
    | _ => none

end KeyRange

/-- The one range that the bounds are, if they are one. -/
def CompoundBounds.singleRange? (b : CompoundBounds) : Option KeyRange :=
  KeyRange.afterPoints? [] [] b.lists

end ScanBounds

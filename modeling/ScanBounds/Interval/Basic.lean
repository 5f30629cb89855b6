import ScanBounds.Value.Order
import ScanBounds.Value.Writer

/-!
# Intervals of values

An interval has two ends, each of which may belong to it or not.  Intervals that are built from
predicates ascend; a scan that walks backwards turns them around, so `start` is where the scan enters and
`stop` where it leaves.
-/

namespace ScanBounds

/-- Which ends of an interval belong to it. -/
inductive Inclusion where
  | neither
  | startOnly
  | stopOnly
  | both
deriving DecidableEq, Repr

namespace Inclusion

def ofEnds : Bool → Bool → Inclusion
  | true, true => both
  | true, false => startOnly
  | false, true => stopOnly
  | false, false => neither

def start : Inclusion → Bool
  | both | startOnly => true
  | _ => false

def stop : Inclusion → Bool
  | both | stopOnly => true
  | _ => false

end Inclusion

/-- Which way an interval runs; a point and an interval without values run neither way. -/
inductive Direction where
  | ascending
  | descending
  | none
deriving DecidableEq, Repr

structure Interval where
  start : Value
  startInclusive : Bool
  stop : Value
  stopInclusive : Bool
deriving Inhabited

namespace Interval

/-! ## Making intervals -/

def range (start stop : Value) (inclusion : Inclusion) : Interval :=
  ⟨start, inclusion.start, stop, inclusion.stop⟩

def point (v : Value) : Interval := ⟨v, true, v, true⟩

/-- From `MinKey` to `MaxKey`. -/
def allValuesWith (inclusion : Inclusion) : Interval := range .minKey .maxKey inclusion

def allValues : Interval := allValuesWith .both

/-- An interval without values. -/
def empty : Interval := ⟨.minKey, false, .minKey, false⟩

/-- Turned around, each end keeping its inclusion. -/
def reverse (i : Interval) : Interval := ⟨i.stop, i.stopInclusive, i.start, i.startInclusive⟩

/-! ## Looking at one interval -/

def inclusion (i : Interval) : Inclusion := .ofEnds i.startInclusive i.stopInclusive

def isPoint (i : Interval) : Bool := i.startInclusive && i.stopInclusive && i.start == i.stop

/-- Whether both ends are one value that does not fully belong to the interval, as in `[5, 5)`. -/
def isVoid (i : Interval) : Bool := !(i.startInclusive && i.stopInclusive) && i.start == i.stop

def isMinToMax (i : Interval) : Bool := i.start.isMinKey && i.stop.isMaxKey

def isMaxToMin (i : Interval) : Bool := i.start.isMaxKey && i.stop.isMinKey

/-- Whether every key is inside, in either direction. -/
def isFull (i : Interval) : Bool :=
  (i.isMinToMax || i.isMaxToMin) && i.startInclusive && i.stopInclusive

def direction (i : Interval) : Direction :=
  match i.start.compare i.stop with
  | .lt => .ascending
  | .eq => .none
  | .gt => .descending

/-- The same ends, by the order of values, with the same inclusions. -/
instance : BEq Interval where
  beq i j :=
    i.startInclusive == j.startInclusive && i.stopInclusive == j.stopInclusive &&
      i.start == j.start && i.stop == j.stop

def text (i : Interval) : String :=
  (if i.startInclusive then "[" else "(") ++ i.start.text ++ ", " ++ i.stop.text ++
    (if i.stopInclusive then "]" else ")")

end Interval

end ScanBounds

import ScanBounds.Interval.Basic

/-!
# How two ascending intervals lie to each other

Eight positions cover every pair.  They are found by four questions about ends, asked in a fixed order:
do the intervals share a value, are they equal, is one within the other, which one starts first.
-/

namespace ScanBounds

/-- The position of one interval relative to another. -/
inductive Position where
  | equals
  /-- Every value of the first is in the second. -/
  | within
  /-- Every value of the second is in the first. -/
  | contains
  /-- They overlap and the first starts first. -/
  | overlapsBefore
  /-- They overlap and the second starts first. -/
  | overlapsAfter
  /-- The first lies before the second. -/
  | precedes
  /-- The first lies before the second and they touch, so that their union is one interval. -/
  | abutsBefore
  /-- The first lies after the second. -/
  | succeeds
deriving DecidableEq, Repr

namespace Interval

/-- Whether the intervals share a value. -/
def intersects (i j : Interval) : Bool :=
  let entersInTime := match i.start.compare j.stop with
    | .lt => true
    | .eq => i.startInclusive && j.stopInclusive
    | .gt => false
  let leavesInTime := match j.start.compare i.stop with
    | .lt => true
    | .eq => j.startInclusive && i.stopInclusive
    | .gt => false
  entersInTime && leavesInTime

/-- Whether every value of `i` is in `j`. -/
def within (i j : Interval) : Bool :=
  let startsInside := match i.start.compare j.start with
    | .lt => false
    | .eq => !i.startInclusive || j.startInclusive
    | .gt => true
  let stopsInside := match i.stop.compare j.stop with
    | .lt => true
    | .eq => !i.stopInclusive || j.stopInclusive
    | .gt => false
  startsInside && stopsInside

/-- Whether `i` starts before `j`; of two equal starts the inclusive one is first. -/
def startsBefore (i j : Interval) : Bool :=
  match i.start.compare j.start with
  | .lt => true
  | .eq => i.startInclusive && !j.startInclusive
  | .gt => false

def position (i j : Interval) : Position :=
  if i.intersects j then
    if i == j then .equals
    else if i.within j then .within
    else if j.within i then .contains
    else if i.startsBefore j then .overlapsBefore
    else .overlapsAfter
  else if i.startsBefore j then
    if i.stop == j.start && (i.stopInclusive || j.startInclusive) then .abutsBefore else .precedes
  else .succeeds

/-- What two intervals in the given position have in common. -/
def overlap? (i j : Interval) : Position → Option Interval
  | .equals | .within => some i
  | .contains => some j
  | .overlapsBefore => some ⟨j.start, j.startInclusive, i.stop, i.stopInclusive⟩
  | .overlapsAfter => some ⟨i.start, i.startInclusive, j.stop, j.stopInclusive⟩
  | .precedes | .abutsBefore | .succeeds => none

/-- The order in which intervals are merged: by start, an inclusive start first. -/
def startOrder (i j : Interval) : Ordering :=
  (i.start.compare j.start).then (Ord.compare j.startInclusive i.startInclusive)

/-- Sorting by start is stable. -/
def sortByStart (intervals : List Interval) : List Interval :=
  Sorting.sort (fun i j => i.startOrder j != .gt) intervals

end Interval

end ScanBounds

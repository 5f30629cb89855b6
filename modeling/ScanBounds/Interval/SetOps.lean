import ScanBounds.Fault
import ScanBounds.Interval.List

/-!
# Union, intersection and complement

A union sorts by start and then merges each interval with its neighbour for as long as they overlap or
touch.  An intersection walks two ascending lists side by side.  A complement collects the gaps.  Only the
first two can fail: when intervals run backwards or overlap where they must not.
-/

namespace ScanBounds

/-- Why intervals could not be combined. -/
inductive Disorder where
  | fieldMismatch (left right : String)
  /-- An interval of the list runs backwards. -/
  | descending (list : IntervalList)
  /-- An interval of the list starts before the one in front of it ends. -/
  | outOfOrder (list : IntervalList)
  /-- Two neighbours of a sorted list cannot be merged. -/
  | unmerged (first second : Interval)

def Disorder.fault : Disorder → Fault
  | fieldMismatch left right =>
    ⟨.invariant, "cannot intersect bounds of '" ++ left ++ "' with bounds of '" ++ right ++ "'", none⟩
  | descending list => ⟨.invariant, "interval list is not ascending", some list.text⟩
  | outOfOrder list => ⟨.invariant, "interval list is out of order", some list.text⟩
  | unmerged first second =>
    ⟨.invariant, "intervals out of order after sorting", some (first.text ++ " then " ++ second.text)⟩

namespace IntervalList

/-! ## Union -/

/-- A list after merging, with the reason if merging had to stop; then the list is merged up to there. -/
structure Merged where
  list : IntervalList
  disorder : Option Disorder

def Merged.result (m : Merged) : Except Disorder IntervalList :=
  match m.disorder with
  | none => .ok m.list
  | some d => .error d

/-- Merges `i` with the intervals after it. -/
def coalesce (i : Interval) : List Interval → List Interval × Option Disorder
  | [] => ([i], none)
  | j :: rest =>
    match i.position j with
    | .precedes => let (done, disorder) := coalesce j rest; (i :: done, disorder)
    | .equals | .within => coalesce j rest
    | .contains => coalesce i rest
    | .overlapsBefore | .abutsBefore =>
      coalesce ⟨i.start, i.startInclusive, j.stop, j.stopInclusive⟩ rest
    | .succeeds | .overlapsAfter => (i :: j :: rest, some (.unmerged i j))

/-- Sorts the intervals and merges those that overlap or touch. -/
def merged (l : IntervalList) : Merged :=
  match Interval.sortByStart l.intervals with
  | [] => ⟨l, none⟩
  | i :: rest => let (done, disorder) := coalesce i rest; ⟨⟨l.field, done⟩, disorder⟩

def union (l : IntervalList) : Except Disorder IntervalList := l.merged.result

/-! ## Intersection -/

/-- An interval that the walk reaches must not run backwards, nor start before `previous`, where the
interval in front of it stops. -/
def checkNext (l : IntervalList) (previous : Option Value) (i : Interval) : Except Disorder Unit :=
  if i.direction = .descending then .error (.descending l)
  else
    match previous with
    | some v => if i.start < v then .error (.outOfOrder l) else .ok ()
    | none => .ok ()

/-- Walks the rests of two lists, of which `previous` and `previous'` are the stops of the intervals
already left behind. -/
def overlaps (a b : IntervalList) (previous previous' : Option Value) :
    List Interval → List Interval → Except Disorder (List Interval)
  | i :: is, j :: js => do
    checkNext a previous i
    checkNext b previous' j
    let position := i.position j
    let rest ← match position with
      | .equals => overlaps a b (some i.stop) (some j.stop) is js
      | .precedes | .abutsBefore | .within | .overlapsBefore =>
        overlaps a b (some i.stop) previous' is (j :: js)
      | .succeeds | .contains | .overlapsAfter =>
        overlaps a b previous (some j.stop) (i :: is) js
    return (i.overlap? j position).toList ++ rest
  | _, _ => return []
termination_by is js => is.length + js.length

/-- The values in both of two lists for one field. -/
def intersect (a b : IntervalList) : Except Disorder IntervalList := do
  if a.field != b.field then throw (.fieldMismatch a.field b.field)
  return ⟨b.field, ← overlaps a b none none a.intervals b.intervals⟩

/-! ## Complement -/

/-- The gaps above `edge`, up to which all is accounted for; `covered` tells whether `edge` itself
belongs to the list. -/
def gaps (edge : Value) (covered : Bool) : List Interval → List Interval
  | [] => if edge.isMaxKey && covered then [] else [⟨edge, !covered, .maxKey, true⟩]
  | i :: rest =>
    let above := gaps i.stop i.stopInclusive rest
    if i.start != edge || (!covered && !i.startInclusive) then
      ⟨edge, !covered, i.start, !i.startInclusive⟩ :: above
    else above

/-- Everything that an ascending list leaves out. -/
def complement (l : IntervalList) : IntervalList := ⟨l.field, gaps .minKey false l.intervals⟩

end IntervalList

end ScanBounds

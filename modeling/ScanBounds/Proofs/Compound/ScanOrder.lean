import Mathlib.Data.List.Forall2
import ScanBounds.Compound.Bounds
import ScanBounds.Proofs.Interval.Canonical

/-!
# The order of a scan

A scan meets the values of a field upwards or downwards, and compound keys in the lexicographic order of
these.  Bounds that have been aligned run the way the scan moves: an interval starts where the scan enters
it, and it holds the values that the scan meets from there to the stop (`Interval.contains_iff`).  What an
interval or bounds contain does not depend on a direction, so that nothing is gained or lost by turning them
around.
-/

namespace ScanBounds

/-! ## Values in the order of a scan -/

/-- Whether an end that compares so with a value, the end that is met first in front, lets the value in. -/
def Admits (inclusive : Bool) (o : Ordering) : Prop := if inclusive then o ≠ .gt else o = .lt

instance (inclusive : Bool) (o : Ordering) : Decidable (Admits inclusive o) := inferInstanceAs (Decidable (ite _ _ _))

lemma admits_iff {inclusive : Bool} {o : Ordering} :
    Admits inclusive o ↔ o = .lt ∨ o = .eq ∧ inclusive = true := by
  cases inclusive <;> cases o <;> simp [Admits]

/-- The first components decide unless they are equal. -/
lemma admits_then_iff {inclusive : Bool} {o o' : Ordering} :
    Admits inclusive (o.then o') ↔ o = .lt ∨ o = .eq ∧ Admits inclusive o' := by
  cases inclusive <;> cases o <;> simp [Admits]

namespace Value

/-- Compares values as a scan meets them: upwards in direction 1, downwards in direction −1. -/
def compareToward (dir : Int) (v w : Value) : Ordering := if dir = 1 then v.compare w else w.compare v

lemma compareToward_eq_eq_iff {dir : Int} {v w : Value} :
    compareToward dir v w = .eq ↔ v.toClass = w.toClass := by
  unfold compareToward
  split_ifs
  · exact compare_eq_eq_iff
  · rw [compare_eq_eq_iff]
    exact eq_comm

lemma compareToward_congr_right {dir : Int} (u : Value) {v w : Value} (h : v.toClass = w.toClass) :
    compareToward dir u v = compareToward dir u w := by
  have heq : compare v w = .eq := compare_eq_eq_iff.2 h
  unfold compareToward
  split_ifs
  · show compare u v = compare u w
    exact Std.TransCmp.congr_right heq
  · show compare v u = compare w u
    exact Std.TransCmp.congr_left heq

lemma compareToward_swap (dir : Int) (v w : Value) :
    compareToward dir v w = (compareToward dir w v).swap := by
  unfold compareToward
  split_ifs
  · exact compare_swap v w
  · exact compare_swap w v

end Value

/-- Compares compound keys field by field, each in the direction that the scan walks it. -/
def compareKeys : List Int → List Value → List Value → Ordering
  | dir :: dirs, v :: vs, w :: ws => (Value.compareToward dir v w).then (compareKeys dirs vs ws)
  | _, _, _ => .eq

/-! ## Intervals in either direction -/

namespace Interval

variable {i : Interval} {v : Value} {dir : Int}

/-- Whether the value lies between the ends of the interval, whichever way it runs. -/
def Contains (i : Interval) (v : Value) : Prop := i.Holds v ∨ i.reverse.Holds v

instance (i : Interval) (v : Value) : Decidable (i.Contains v) := inferInstanceAs (Decidable (_ ∨ _))

lemma contains_reverse : i.reverse.Contains v ↔ i.Contains v := or_comm

lemma ends_eq_of_isPoint (h : i.isPoint = true) : i.start.toClass = i.stop.toClass := by
  rw [isPoint, Bool.and_eq_true] at h
  exact Value.toClass_eq.2 h.2

lemma isPoint_reverse : i.reverse.isPoint = i.isPoint := by
  rw [Bool.eq_iff_iff]
  simp only [isPoint, reverse, Bool.and_eq_true, ← Value.toClass_eq]
  tauto

lemma holds_of_isPoint (h : i.isPoint = true) : i.Holds v ↔ i.start.toClass = v.toClass := by
  have heq := ends_eq_of_isPoint h
  simp only [isPoint, Bool.and_eq_true] at h
  rw [Holds, h.1.1, h.1.2, if_pos rfl, if_pos rfl, ← Value.toClass_le, ← Value.toClass_le, ← heq]
  exact le_antisymm_iff.symm

lemma contains_of_isPoint (h : i.isPoint = true) : i.Contains v ↔ i.start.toClass = v.toClass := by
  rw [Contains, holds_of_isPoint h, holds_of_isPoint (isPoint_reverse.trans h)]
  show _ ∨ i.stop.toClass = _ ↔ _
  rw [ends_eq_of_isPoint h, or_self]

/-- Turned around, an interval that ascends holds nothing, and a point holds the same. -/
lemma holds_of_reverse_holds (hi : i.isPoint = true ∨ i.start < i.stop) (h : i.reverse.Holds v) : i.Holds v := by
  rcases hi with hpoint | hlt
  · exact (holds_of_isPoint hpoint).2 ((contains_of_isPoint hpoint).1 (.inr h))
  · obtain ⟨hlow, hup⟩ := h
    have hle : i.stop ≤ i.start := by
      have hlow : i.stop ≤ v := by
        split_ifs at hlow
        · exact hlow
        · exact hlow.le
      have hup : v ≤ i.start := by
        split_ifs at hup
        · exact hup
        · exact hup.le
      exact hlow.trans hup
    exact absurd hlt hle.not_gt

end Interval

namespace CompoundBounds

variable {i : Interval} {v : Value} {dir : Int}

lemma intervalRuns_up : intervalRuns 1 i = true ↔ i.isPoint = true ∨ i.start < i.stop := by
  rw [intervalRuns, Bool.or_eq_true, beq_iff_eq, directionBetween]
  refine or_congr_right ?_
  show _ ↔ i.start.compare i.stop = .lt
  cases i.start.compare i.stop <;> simp

lemma intervalRuns_down : intervalRuns (-1) i = true ↔ i.isPoint = true ∨ i.stop < i.start := by
  rw [intervalRuns, Bool.or_eq_true, beq_iff_eq, directionBetween]
  refine or_congr_right ?_
  show _ ↔ i.stop.compare i.start = .lt
  rw [Value.compare_swap i.stop]
  cases i.start.compare i.stop <;> simp

/-- An interval that runs the way of the scan contains what the scan meets from its start to its stop. -/
theorem contains_iff (hdir : dir = 1 ∨ dir = -1) (hruns : intervalRuns dir i = true) :
    i.Contains v ↔ Admits i.startInclusive (Value.compareToward dir i.start v) ∧
      Admits i.stopInclusive (Value.compareToward dir v i.stop) := by
  rcases hdir with rfl | rfl
  · have hup := intervalRuns_up.1 hruns
    show _ ↔ i.Holds v
    exact or_iff_left_of_imp (Interval.holds_of_reverse_holds hup)
  · have hdown : i.reverse.isPoint = true ∨ i.reverse.start < i.reverse.stop := by
      rw [Interval.isPoint_reverse]
      exact intervalRuns_down.1 hruns
    have hswap : i.Contains v ↔ i.reverse.Holds v :=
      or_iff_right_of_imp (Interval.holds_of_reverse_holds hdown)
    rw [hswap]
    exact And.comm

end CompoundBounds

/-! ## Bounds -/

/-- Whether some interval of the list contains the value. -/
def IntervalList.Contains (l : IntervalList) (v : Value) : Prop := ∃ i ∈ l.intervals, i.Contains v

instance (l : IntervalList) (v : Value) : Decidable (l.Contains v) :=
  inferInstanceAs (Decidable (∃ i ∈ l.intervals, i.Contains v))

/-- Whether every component of a compound key is in the list of its field. -/
def CompoundBounds.Contains (b : CompoundBounds) (key : List Value) : Prop :=
  List.Forall₂ IntervalList.Contains b.lists key

instance (b : CompoundBounds) (key : List Value) : Decidable (b.Contains key) :=
  inferInstanceAs (Decidable (List.Forall₂ IntervalList.Contains b.lists key))

/-- The direction in which a scan of the pattern in direction `dir` walks each field. -/
def KeyPattern.directions (pattern : KeyPattern) (dir : Int) : List Int :=
  pattern.fields.map fun field => dir * field.option.direction

/-- Every interval runs the way its field is walked. -/
def Runs (dirs : List Int) (lists : List IntervalList) : Prop :=
  List.Forall₂ (fun dir (l : IntervalList) =>
    (dir = 1 ∨ dir = -1) ∧ ∀ i ∈ l.intervals, CompoundBounds.intervalRuns dir i = true) dirs lists

lemma KeyOption.direction_eq (option : KeyOption) : option.direction = 1 ∨ option.direction = -1 := by
  cases option <;> decide

/-- Valid bounds run the way the scan moves. -/
lemma CompoundBounds.runs_of_isValidFor {b : CompoundBounds} {pattern : KeyPattern} {dir : Int}
    (hdir : dir = 1 ∨ dir = -1) (h : b.isValidFor pattern dir = true) : Runs (pattern.directions dir) b.lists := by
  rw [isValidFor, Bool.and_eq_true, beq_iff_eq, List.all_eq_true] at h
  obtain ⟨hlength, hlists⟩ := h
  rw [Runs, KeyPattern.directions, List.forall₂_map_left_iff]
  refine List.Forall₂.flip (List.forall₂_iff_zip.2 ⟨hlength, fun {list field} hmem => ⟨?_, fun i hi => ?_⟩⟩)
  · rcases hdir with rfl | rfl <;> rcases field.option.direction_eq with h | h <;> simp [h]
  · have hruns := hlists _ hmem
    simp only [listRuns, Bool.and_eq_true, List.all_eq_true] at hruns
    exact hruns.1.2 i hi

end ScanBounds

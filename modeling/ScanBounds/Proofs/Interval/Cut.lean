import Mathlib.Data.Prod.Lex
import Mathlib.Order.BoundedOrder.Basic
import ScanBounds.Interval.Position
import ScanBounds.Proofs.Value.Order

/-!
# Cuts

An interval is told by the two places where it begins and ends, and each such place is a *cut*: just below
a value or just above one.  Cuts are linearly ordered, and on them every question about intervals is one
comparison: whether an interval is well-formed, whether two intervals overlap or touch, which of them
starts first.  Inclusion flags and equality of values do not show any more.

An interval covers the cuts from its lower one up to, but without, its upper one.  It holds a value when it
covers the cut just below it (`Interval.holds_iff`).  Set operations are proved on covered cuts, which
determine a list of intervals where the held values need not: nothing lies between `undefined` and
`null`, but `[undefined], [null]` and `[undefined, null]` are different lists.
-/

namespace ScanBounds

/-- A place just below or just above a value. -/
abbrev Cut := Value.Class ×ₗ Bool

namespace Cut

def below (v : Value) : Cut := toLex (v.toClass, false)

def above (v : Value) : Cut := toLex (v.toClass, true)

@[simp] lemma below_lt_below {v w : Value} : below v < below w ↔ v < w := by
  simp [below, Prod.Lex.toLex_lt_toLex]

@[simp] lemma below_le_below {v w : Value} : below v ≤ below w ↔ v ≤ w := by
  rw [← not_lt, below_lt_below, Value.le_iff_not_lt]

@[simp] lemma above_lt_above {v w : Value} : above v < above w ↔ v < w := by
  simp [above, Prod.Lex.toLex_lt_toLex]

@[simp] lemma above_le_above {v w : Value} : above v ≤ above w ↔ v ≤ w := by
  rw [← not_lt, above_lt_above, Value.le_iff_not_lt]

@[simp] lemma above_le_below {v w : Value} : above v ≤ below w ↔ v < w := by
  simp [above, below, Prod.Lex.toLex_le_toLex]

@[simp] lemma above_lt_below {v w : Value} : above v < below w ↔ v < w := by
  simp [above, below, Prod.Lex.toLex_lt_toLex]

@[simp] lemma below_lt_above {v w : Value} : below v < above w ↔ v ≤ w := by
  rw [← not_le, above_le_below, Value.le_iff_not_lt]

/-- Between the two cuts of a value there is none. -/
lemma le_below_or_above_le (c : Cut) (v : Value) : c ≤ below v ∨ above v ≤ c := by
  rcases lt_trichotomy (ofLex c).1 v.toClass with h | h | h
  · exact .inl (Prod.Lex.le_iff.2 (.inl h))
  · cases hc : (ofLex c).2
    · exact .inl (Prod.Lex.le_iff.2 (.inr ⟨h, hc.le⟩))
    · exact .inr (Prod.Lex.le_iff.2 (.inr ⟨h.symm, hc.ge⟩))
  · exact .inr (Prod.Lex.le_iff.2 (.inl h))

end Cut

/-! ## The ends of an interval as cuts -/

namespace Interval

/-- Whether the value is in the interval. -/
def Holds (i : Interval) (v : Value) : Prop :=
  (if i.startInclusive then i.start ≤ v else i.start < v) ∧
    (if i.stopInclusive then v ≤ i.stop else v < i.stop)

instance (i : Interval) (v : Value) : Decidable (i.Holds v) := inferInstanceAs (Decidable (ite _ _ _ ∧ ite _ _ _))

/-- The interval ascends, or is a point with both ends inclusive. -/
def WellFormed (i : Interval) : Prop :=
  i.start < i.stop ∨ (i.start == i.stop) = true ∧ i.startInclusive ∧ i.stopInclusive

/-- Where the interval begins. -/
def lower (i : Interval) : Cut := toLex (i.start.toClass, !i.startInclusive)

/-- Where the interval ends. -/
def upper (i : Interval) : Cut := toLex (i.stop.toClass, i.stopInclusive)

lemma below_start_le_lower (i : Interval) : .below i.start ≤ i.lower :=
  Prod.Lex.toLex_le_toLex.2 (.inr ⟨rfl, Bool.false_le _⟩)

lemma upper_le_above_stop (i : Interval) : i.upper ≤ .above i.stop :=
  Prod.Lex.toLex_le_toLex.2 (.inr ⟨rfl, Bool.le_true _⟩)

/-- Whether the cut lies in the interval, its lower end included. -/
def Covers (i : Interval) (c : Cut) : Prop := i.lower ≤ c ∧ c < i.upper

lemma lower_eq (i : Interval) :
    i.lower = if i.startInclusive then Cut.below i.start else Cut.above i.start := by
  unfold lower
  cases i.startInclusive <;> rfl

lemma upper_eq (i : Interval) :
    i.upper = if i.stopInclusive then Cut.above i.stop else Cut.below i.stop := by
  unfold upper
  cases i.stopInclusive <;> rfl

theorem holds_iff {i : Interval} {v : Value} : i.Holds v ↔ i.Covers (.below v) := by
  rw [Holds, Covers, lower_eq, upper_eq]
  cases i.startInclusive <;> cases i.stopInclusive <;> simp

lemma holds_congr {i : Interval} {v w : Value} (h : v.toClass = w.toClass) :
    i.Holds v ↔ i.Holds w := by
  rw [holds_iff, holds_iff, Cut.below, Cut.below, h]

theorem wellFormed_iff {i : Interval} : i.WellFormed ↔ i.lower < i.upper := by
  rw [WellFormed, lower, upper, Prod.Lex.toLex_lt_toLex, Value.toClass_lt, Value.toClass_eq]
  cases i.startInclusive <;> cases i.stopInclusive <;> simp

/-! ## Questions about two intervals -/

lemma toLex_lt_iff_compare {v w : Value} {a b : Bool} :
    toLex (v.toClass, a) < toLex (w.toClass, b) ↔
      v.compare w = .lt ∨ v.compare w = .eq ∧ a = false ∧ b = true := by
  rw [Prod.Lex.toLex_lt_toLex, Value.compare_eq_lt_iff, Value.compare_eq_eq_iff, Bool.lt_iff]

lemma intersects_iff {i j : Interval} :
    i.intersects j = true ↔ i.lower < j.upper ∧ j.lower < i.upper := by
  simp only [intersects, lower, upper, toLex_lt_iff_compare]
  cases i.start.compare j.stop <;> cases j.start.compare i.stop <;> simp

lemma within_iff {i j : Interval} :
    i.within j = true ↔ j.lower ≤ i.lower ∧ i.upper ≤ j.upper := by
  rw [← not_lt, ← not_lt, lower, upper, lower, upper, toLex_lt_iff_compare, toLex_lt_iff_compare,
    Value.compare_swap j.stop i.stop]
  unfold within
  cases i.start.compare j.start <;> cases i.stop.compare j.stop <;> cases i.startInclusive <;>
    cases i.stopInclusive <;> simp

lemma startsBefore_iff {i j : Interval} : i.startsBefore j = true ↔ i.lower < j.lower := by
  rw [lower, lower, toLex_lt_iff_compare]
  unfold startsBefore
  cases i.start.compare j.start <;> simp

lemma beq_iff {i j : Interval} :
    (i == j) = true ↔ i.lower = j.lower ∧ i.upper = j.upper := by
  show (_ && _) = true ↔ _
  simp only [Bool.and_eq_true, beq_iff_eq, lower, upper, EmbeddingLike.apply_eq_iff_eq,
    Prod.mk.injEq, Value.toClass_eq, Bool.not_inj_iff]
  tauto

/-- The second interval begins where the first one ends. -/
lemma touches_iff {i j : Interval} (h : i.upper ≤ j.lower) :
    (i.stop == j.start && (i.stopInclusive || j.startInclusive)) = true ↔ i.upper = j.lower := by
  rw [upper, lower, ← not_lt, toLex_lt_iff_compare, Value.compare_swap j.start] at h
  rw [upper, lower, Bool.and_eq_true, ← Value.toClass_eq, EmbeddingLike.apply_eq_iff_eq,
    Prod.mk.injEq, ← Value.compare_eq_eq_iff]
  revert h
  cases i.stop.compare j.start <;> cases i.stopInclusive <;> cases j.startInclusive <;> simp

lemma startOrder_eq (i j : Interval) : i.startOrder j ≠ .gt ↔ i.lower ≤ j.lower := by
  rw [← not_lt, lower, lower, toLex_lt_iff_compare, startOrder, Value.compare_swap j.start]
  cases i.start.compare j.start <;> cases i.startInclusive <;> cases j.startInclusive <;>
    simp [compare, Ordering.then]

end Interval

/-! ## Positions -/

/-- What a position says about the cuts of two well-formed intervals. -/
def Position.Describes (i j : Interval) : Position → Prop
  | equals => i.lower = j.lower ∧ i.upper = j.upper
  | within => j.lower ≤ i.lower ∧ i.upper ≤ j.upper ∧ ¬(i.lower = j.lower ∧ i.upper = j.upper)
  | contains => i.lower ≤ j.lower ∧ j.upper ≤ i.upper ∧ ¬(i.lower = j.lower ∧ i.upper = j.upper)
  | overlapsBefore => i.lower < j.lower ∧ j.lower < i.upper ∧ i.upper < j.upper
  | overlapsAfter => j.lower < i.lower ∧ i.lower < j.upper ∧ j.upper < i.upper
  | precedes => i.upper < j.lower
  | abutsBefore => i.upper = j.lower
  | succeeds => j.upper ≤ i.lower

/-- Two well-formed intervals lie in one way only. -/
lemma Position.Describes.unique {i j : Interval} (hi : i.WellFormed) (hj : j.WellFormed) {p q : Position}
    (hp : p.Describes i j) (hq : q.Describes i j) : p = q := by
  rw [Interval.wellFormed_iff] at hi hj
  cases p <;> cases q <;> first | rfl | (simp only [Position.Describes] at hp hq; grind)

namespace Interval

theorem position_describes {i j : Interval} (hi : i.WellFormed) (hj : j.WellFormed) :
    (i.position j).Describes i j := by
  rw [wellFormed_iff] at hi hj
  unfold position
  simp only [intersects_iff, beq_iff, within_iff, startsBefore_iff]
  split_ifs with h₁ h₂ h₃ h₄ h₅ h₅ h₆
  · exact h₂
  · exact ⟨h₃.1, h₃.2, h₂⟩
  · exact ⟨h₄.1, h₄.2, h₂⟩
  · simp only [Position.Describes]
    grind
  · simp only [Position.Describes]
    grind
  · have h : i.upper ≤ j.lower := by grind
    exact (touches_iff h).1 h₆
  · have h : i.upper ≤ j.lower := by grind
    rw [touches_iff h] at h₆
    exact lt_of_le_of_ne h h₆
  · simp only [Position.Describes]
    grind

theorem position_eq_iff {i j : Interval} (hi : i.WellFormed) (hj : j.WellFormed) {p : Position} :
    i.position j = p ↔ p.Describes i j := by
  have h := position_describes hi hj
  constructor
  · rintro rfl
    exact h
  · exact h.unique hi hj

end Interval
end ScanBounds

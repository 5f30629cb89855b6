import ScanBounds.Proofs.Interval.Laws

/-!
# Positions from either side

The eight positions are found by questions asked in a fixed order, and each question has its own rule for ends
that are one value.  On cuts all of them say one thing: a position describes how the beginnings and ends of two
well-formed intervals lie, and no two positions describe the same (`position_eq_iff`).  Seen from the other
interval the description turns around, and the position with it.  What two intervals have in common is
determined by what it covers, so it does not matter from which of them it is taken (`overlap_comm`).
-/

namespace ScanBounds

open IntervalList

variable {i j : Interval}

/-! ## Converse positions -/

namespace Position

/-- How two intervals lie to each other, told from either of them.  That they touch is told by the first one
only: the other just succeeds. -/
inductive Converse : Position → Position → Prop where
  | equals : Converse .equals .equals
  | within : Converse .within .contains
  | contains : Converse .contains .within
  | overlapsBefore : Converse .overlapsBefore .overlapsAfter
  | overlapsAfter : Converse .overlapsAfter .overlapsBefore
  | precedes : Converse .precedes .succeeds
  | abutsBefore : Converse .abutsBefore .succeeds
  | succeeds : Converse .succeeds .precedes
  | succeedsAbutting : Converse .succeeds .abutsBefore

lemma Describes.converse {p : Position} (h : p.Describes i j) : ∃ q, p.Converse q ∧ q.Describes j i := by
  cases p with
  | equals => exact ⟨_, .equals, h.1.symm, h.2.symm⟩
  | within => exact ⟨_, .within, h.1, h.2.1, fun heq => h.2.2 ⟨heq.1.symm, heq.2.symm⟩⟩
  | contains => exact ⟨_, .contains, h.1, h.2.1, fun heq => h.2.2 ⟨heq.1.symm, heq.2.symm⟩⟩
  | overlapsBefore => exact ⟨_, .overlapsBefore, h⟩
  | overlapsAfter => exact ⟨_, .overlapsAfter, h⟩
  | precedes => exact ⟨_, .precedes, le_of_lt h⟩
  | abutsBefore => exact ⟨_, .abutsBefore, le_of_eq h⟩
  | succeeds =>
    rcases lt_or_eq_of_le h with hlt | heq
    · exact ⟨_, .succeeds, hlt⟩
    · exact ⟨_, .succeedsAbutting, heq⟩

end Position

namespace Interval

lemma position_converse (hi : i.WellFormed) (hj : j.WellFormed) :
    (i.position j).Converse (j.position i) := by
  obtain ⟨q, hconverse, hq⟩ := (position_describes hi hj).converse
  rwa [(position_eq_iff hj hi).2 hq]

/-- Two intervals abut when they share an end that belongs to one of them. -/
lemma position_eq_abutsBefore_iff (hi : i.WellFormed) (hj : j.WellFormed) :
    i.position j = .abutsBefore ↔ (i.stop == j.start) = true ∧ i.stopInclusive ≠ j.startInclusive := by
  rw [position_eq_iff hi hj, Position.Describes, upper, lower, EmbeddingLike.apply_eq_iff_eq, Prod.mk.injEq,
    Value.toClass_eq, ne_eq, Bool.eq_not]

/-! ## Overlaps -/

lemma overlap_canonical (hi : i.WellFormed) (hj : j.WellFormed) :
    Canonical (i.overlap? j (i.position j)).toList := by
  cases ho : i.overlap? j (i.position j) with
  | none => exact Canonical.nil
  | some k => exact Canonical.singleton (overlap_ends hi hj ho).1

lemma overlap_held (hi : i.WellFormed) (hj : j.WellFormed) (v : Value) :
    Held (i.overlap? j (i.position j)).toList v ↔ i.Holds v ∧ j.Holds v := by
  rw [held_iff, overlap_covered hi hj, holds_iff, holds_iff]

lemma toList_beq (o o' : Option Interval) : (o.toList == o'.toList) = (o == o') := by
  cases o <;> cases o' <;> simp

lemma overlap_comm (hi : i.WellFormed) (hj : j.WellFormed) :
    (i.overlap? j (i.position j) == j.overlap? i (j.position i)) = true := by
  rw [← toList_beq]
  apply (overlap_canonical hi hj).beq_of_covered (overlap_canonical hj hi)
  intro c
  rw [overlap_covered hi hj, overlap_covered hj hi, and_comm]

/-- **Positions and overlaps from either side.**  Of two well-formed intervals each has the converse position of
the other, and both have the same in common.  That is a well-formed interval that holds exactly the values
in both, and where it is missing there are none.  They abut exactly when one ends where the other begins and
one of these ends is inclusive. -/
theorem position_overlap_symmetric (hi : i.WellFormed) (hj : j.WellFormed) :
    (i.position j).Converse (j.position i) ∧
      (i.overlap? j (i.position j) == j.overlap? i (j.position i)) = true ∧
      (∀ k, i.overlap? j (i.position j) = some k → k.WellFormed ∧ ∀ v, k.Holds v ↔ i.Holds v ∧ j.Holds v) ∧
      (i.overlap? j (i.position j) = none → ∀ v, ¬(i.Holds v ∧ j.Holds v)) ∧
      (i.position j = .abutsBefore ↔ (i.stop == j.start) = true ∧ i.stopInclusive ≠ j.startInclusive) := by
  have hheld := overlap_held hi hj
  refine ⟨position_converse hi hj, overlap_comm hi hj, fun k hk => ⟨(overlap_ends hi hj hk).1, fun v => ?_⟩,
    fun hnone v => ?_, position_eq_abutsBefore_iff hi hj⟩
  · rw [← hheld, hk, Option.toList_some, held_cons, or_iff_left held_nil]
  · rw [← hheld, hnone, Option.toList_none]
    exact held_nil

/-- The numbers from the integer `5` on begin where those below the double `5.0` end, and only the former
hold it. -/
theorem position_overlap_symmetric_at_five :
    let low : Interval := ⟨.int 1, true, .double ⟨0x4014000000000000⟩, false⟩
    let high : Interval := ⟨.int 5, true, .string "x", true⟩
    low.WellFormed ∧ high.WellFormed ∧ low.position high = .abutsBefore ∧
      (low.position high).Converse (high.position low) ∧
      (low.overlap? high (low.position high) == high.overlap? low (high.position low)) = true ∧
      (∀ k, low.overlap? high (low.position high) = some k →
        k.WellFormed ∧ ∀ v, k.Holds v ↔ low.Holds v ∧ high.Holds v) ∧
      (low.overlap? high (low.position high) = none → ∀ v, ¬(low.Holds v ∧ high.Holds v)) ∧
      (low.position high = .abutsBefore ↔
        (low.stop == high.start) = true ∧ low.stopInclusive ≠ high.startInclusive) := by
  intro low high
  have hlow : low.WellFormed := .inl (by decide +kernel)
  have hhigh : high.WellFormed := .inl (by decide +kernel)
  exact ⟨hlow, hhigh, by decide +kernel, position_overlap_symmetric hlow hhigh⟩

end Interval

end ScanBounds

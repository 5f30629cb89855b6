import ScanBounds.Interval.List
import ScanBounds.Proofs.Interval.Cut

/-!
# Canonical lists

A list of intervals is canonical when each is well-formed and each ends below the place where any later one
begins.  On cuts that is a strict inequality, which rules out overlaps and touching ends alike.  The check
that lists are tested with looks at neighbours only, and is the same property (`isCanonical_iff`).
-/

namespace ScanBounds

namespace Interval

lemma WellFormed.lower_lt_upper {i : Interval} (h : i.WellFormed) : i.lower < i.upper :=
  wellFormed_iff.1 h

lemma WellFormed.start_le_stop {i : Interval} (h : i.WellFormed) : i.start ≤ i.stop := by
  rcases h with h | ⟨h, -⟩
  · exact h.le
  · exact Value.toClass_le.1 (Value.toClass_eq.2 h).le

lemma WellFormed.direction_ne_descending {i : Interval} (h : i.WellFormed) : i.direction ≠ .descending := by
  unfold direction
  cases hc : i.start.compare i.stop <;> simp
  exact (Value.toClass_le.2 h.start_le_stop).not_gt (Value.compare_eq_gt_iff.1 hc)

lemma wellFormed_point (v : Value) : (point v).WellFormed :=
  .inr ⟨Value.toClass_eq.1 rfl, rfl, rfl⟩

lemma point_holds {v w : Value} : (point v).Holds w ↔ (w == v) = true := by
  rw [← Value.toClass_eq, le_antisymm_iff, Value.toClass_le, Value.toClass_le]
  exact And.comm

/-- Of all cuts a point covers just the one below its value. -/
lemma point_covers {v : Value} {c : Cut} : (point v).Covers c ↔ c = .below v := by
  constructor
  · rintro ⟨hlower, hupper⟩
    rcases Prod.Lex.le_iff.1 hlower with hlt | ⟨heq, -⟩
    · rcases Prod.Lex.lt_iff.1 hupper with hgt | ⟨heq, -⟩
      · exact absurd (hlt.trans hgt) (lt_irrefl _)
      · exact absurd (heq ▸ hlt) (lt_irrefl _)
    · rcases Prod.Lex.lt_iff.1 hupper with hgt | ⟨-, hflag⟩
      · exact absurd (heq ▸ hgt) (lt_irrefl _)
      · show toLex (ofLex c) = toLex (v.toClass, false)
        exact congrArg toLex (Prod.ext heq.symm (Bool.lt_iff.1 hflag).1)
  · rintro rfl
    exact holds_iff.1 (point_holds.2 (Value.toClass_eq.1 rfl))

/-- Ends in order make an interval well-formed unless it is void. -/
lemma wellFormed_of_le {i : Interval} (h : i.start ≤ i.stop) (hv : i.isVoid = false) :
    i.WellFormed := by
  by_cases heq : (i.start == i.stop) = true
  · rw [isVoid, heq, Bool.and_true, Bool.not_eq_false', Bool.and_eq_true] at hv
    exact .inr ⟨heq, hv⟩
  · refine .inl (Value.toClass_lt.1 ((Value.toClass_le.2 h).lt_of_ne fun hc => ?_))
    exact heq (Value.toClass_eq.1 hc)

/-- A void interval holds nothing. -/
lemma not_holds_of_isVoid {i : Interval} (h : i.isVoid = true) (v : Value) : ¬i.Holds v := by
  rw [isVoid, Bool.and_eq_true, Bool.not_eq_true', Bool.and_eq_false_iff] at h
  have hle : i.stop ≤ i.start := Value.toClass_le.1 (Value.toClass_eq.2 h.2).ge
  rintro ⟨hstart, hstop⟩
  rcases h.1 with hf | hf
  · rw [hf, if_neg (by simp)] at hstart
    split_ifs at hstop
    · exact (hstart.trans_le (hstop.trans hle)).false
    · exact (hstart.trans (hstop.trans_le hle)).false
  · rw [hf, if_neg (by simp)] at hstop
    split_ifs at hstart
    · exact (hstop.trans_le (hle.trans hstart)).false
    · exact (hstop.trans (hle.trans_lt hstart)).false

lemma position_eq_precedes_iff {i j : Interval} (hi : i.WellFormed) (hj : j.WellFormed) :
    i.position j = .precedes ↔ i.upper < j.lower := position_eq_iff hi hj

end Interval

namespace IntervalList

/-- Whether some interval covers the cut. -/
def Covered (l : List Interval) (c : Cut) : Prop := ∃ i ∈ l, i.Covers c

/-- Whether some interval holds the value. -/
def Held (l : List Interval) (v : Value) : Prop := ∃ i ∈ l, i.Holds v

abbrev Holds (l : IntervalList) (v : Value) : Prop := Held l.intervals v

lemma held_iff {l : List Interval} {v : Value} : Held l v ↔ Covered l (.below v) := by
  simp only [Held, Covered, Interval.holds_iff]

@[simp] lemma covered_nil {c : Cut} : ¬Covered [] c := by simp [Covered]

@[simp] lemma covered_cons {i : Interval} {l : List Interval} {c : Cut} :
    Covered (i :: l) c ↔ i.Covers c ∨ Covered l c := by
  simp [Covered]

@[simp] lemma covered_append {l m : List Interval} {c : Cut} :
    Covered (l ++ m) c ↔ Covered l c ∨ Covered m c := by
  simp [Covered, or_and_right, exists_or]

@[simp] lemma held_nil {v : Value} : ¬Held [] v := by simp [Held]

@[simp] lemma held_cons {i : Interval} {l : List Interval} {v : Value} :
    Held (i :: l) v ↔ i.Holds v ∨ Held l v := by
  simp [Held]

@[simp] lemma held_append {l m : List Interval} {v : Value} :
    Held (l ++ m) v ↔ Held l v ∨ Held m v := by
  simp [Held, or_and_right, exists_or]

/-- Each interval is well-formed and ends below all later ones. -/
structure Canonical (l : List Interval) : Prop where
  wellFormed : ∀ i ∈ l, i.WellFormed
  apart : l.Pairwise fun i j => i.upper < j.lower

namespace Canonical

lemma nil : Canonical [] := ⟨by simp, List.Pairwise.nil⟩

lemma cons_iff {i : Interval} {l : List Interval} :
    Canonical (i :: l) ↔ i.WellFormed ∧ (∀ j ∈ l, i.upper < j.lower) ∧ Canonical l := by
  constructor
  · rintro ⟨hwf, hap⟩
    rw [List.forall_mem_cons] at hwf
    rw [List.pairwise_cons] at hap
    exact ⟨hwf.1, hap.1, hwf.2, hap.2⟩
  · rintro ⟨hi, hlt, hwf, hap⟩
    exact ⟨List.forall_mem_cons.2 ⟨hi, hwf⟩, List.pairwise_cons.2 ⟨hlt, hap⟩⟩

/-- Ending below the next interval is ending below all later ones. -/
lemma cons_cons_iff {i j : Interval} {l : List Interval} :
    Canonical (i :: j :: l) ↔ i.WellFormed ∧ i.upper < j.lower ∧ Canonical (j :: l) := by
  rw [cons_iff]
  refine and_congr_right fun _ => ⟨fun h => ⟨h.1 j (by simp), h.2⟩, fun ⟨hlt, hc⟩ => ⟨?_, hc⟩⟩
  rw [List.forall_mem_cons]
  refine ⟨hlt, fun k hk => ?_⟩
  obtain ⟨hj, hjk, -⟩ := cons_iff.1 hc
  exact hlt.trans (hj.lower_lt_upper.trans (hjk k hk))

lemma singleton {i : Interval} (h : i.WellFormed) : Canonical [i] :=
  cons_iff.2 ⟨h, by simp, nil⟩

lemma tail {i : Interval} {l : List Interval} (h : Canonical (i :: l)) : Canonical l :=
  (cons_iff.1 h).2.2

/-- What the later intervals cover is not below the end of the first one. -/
lemma upper_lt_of_covered {i : Interval} {l : List Interval} (h : Canonical (i :: l)) {c : Cut}
    (hc : Covered l c) : i.upper < c := by
  obtain ⟨j, hj, hle, -⟩ := hc
  exact ((cons_iff.1 h).2.1 j hj).trans_le hle

lemma concat {l : List Interval} {i : Interval} (h : Canonical l) (hi : i.WellFormed)
    (hlt : ∀ j ∈ l, j.upper < i.lower) : Canonical (l ++ [i]) := by
  refine ⟨fun j hj => ?_, List.pairwise_append.2 ⟨h.apart, List.pairwise_singleton _ _, ?_⟩⟩
  · rcases List.mem_append.1 hj with hj | hj
    · exact h.wellFormed j hj
    · rwa [List.mem_singleton.1 hj]
  · intro j hj k hk
    rw [List.mem_singleton.1 hk]
    exact hlt j hj

end Canonical

/-- Intervals that cover no more than others do not end above all of these. -/
lemma upper_le_of_covered {l m : List Interval} {c : Cut} (hm : ∀ k ∈ m, k.WellFormed)
    (hcov : ∀ d, Covered m d → Covered l d) (hl : ∀ i ∈ l, i.upper ≤ c) : ∀ k ∈ m, k.upper ≤ c := by
  intro k hk
  by_contra hlt
  -- a cut of `k` that none of the others reaches
  obtain ⟨i, hi, -, hupper⟩ := hcov (max k.lower c)
    ⟨k, hk, le_max_left _ _, max_lt (hm k hk).lower_lt_upper (not_le.1 hlt)⟩
  exact (hupper.trans_le (hl i hi)).not_ge (le_max_right _ _)

lemma areApart_iff {l : List Interval} (hwf : ∀ i ∈ l, i.WellFormed) :
    areApart l = true ↔ Canonical l := by
  induction l with
  | nil => simp [areApart, Canonical.nil]
  | cons i l ih =>
    rw [List.forall_mem_cons] at hwf
    cases l with
    | nil => simp [areApart, Canonical.singleton hwf.1]
    | cons j l =>
      have hj := hwf.2 j (by simp)
      rw [areApart, Bool.and_eq_true, ih hwf.2, beq_iff_eq,
        Interval.position_eq_precedes_iff hwf.1 hj, Canonical.cons_cons_iff]
      simp only [hwf.1, true_and]

theorem isCanonical_iff {l : IntervalList} : l.isCanonical = true ↔ Canonical l.intervals := by
  have hwf : (l.intervals.all fun i => decide (i.start < i.stop) || i.isPoint) = true ↔
      ∀ i ∈ l.intervals, i.WellFormed := by
    simp only [List.all_eq_true, Bool.or_eq_true, decide_eq_true_eq, Interval.isPoint,
      Bool.and_eq_true, Interval.WellFormed]
    refine forall₂_congr fun i _ => ?_
    tauto
  rw [isCanonical, Bool.and_eq_true, hwf]
  constructor
  · rintro ⟨h, hap⟩
    exact (areApart_iff h).1 hap
  · intro h
    exact ⟨h.wellFormed, (areApart_iff h.wellFormed).2 h⟩

end IntervalList

end ScanBounds

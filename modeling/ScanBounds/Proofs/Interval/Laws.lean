import ScanBounds.Proofs.Interval.SetOps

/-!
# Laws of union, intersection and complement

A canonical list is determined by the cuts that it covers (`Canonical.beq_of_covered`).  So a law of the set
operations, as an equation of lists, is the same law for what the lists cover: there a union is a
disjunction, an intersection a conjunction and a complement a negation, whatever the order in which
intervals come or the side from which they are walked.  Held values alone would not do, since some gaps
between intervals hold none.

Lists are equal when their ends are equal by the order of values; which of several equal values stands at an
end is not told.
-/

namespace ScanBounds

/-! ## Equal intervals -/

namespace Interval

lemma wellFormed_congr {i j : Interval} (h : (i == j) = true) : i.WellFormed ↔ j.WellFormed := by
  obtain ⟨hlower, hupper⟩ := beq_iff.1 h
  rw [wellFormed_iff, wellFormed_iff, hlower, hupper]

lemma covers_congr {i j : Interval} (h : (i == j) = true) (c : Cut) : i.Covers c ↔ j.Covers c := by
  obtain ⟨hlower, hupper⟩ := beq_iff.1 h
  rw [Covers, Covers, hlower, hupper]

end Interval

namespace IntervalList

/-! ## Equal lists -/

/-- Where the intervals begin and end. -/
def cuts (l : List Interval) : List (Cut × Cut) := l.map fun i => (i.lower, i.upper)

/-- Lists are equal when their intervals begin and end at the same cuts. -/
lemma beq_iff_cuts_eq {l m : List Interval} : (l == m) = true ↔ cuts l = cuts m := by
  induction l generalizing m with
  | nil => cases m <;> simp [cuts]
  | cons i l ih =>
    cases m with
    | nil => simp [cuts]
    | cons j m =>
      rw [List.cons_beq_cons, Bool.and_eq_true, Interval.beq_iff, ih]
      simp only [cuts, List.map_cons, List.cons.injEq, Prod.mk.injEq]

lemma canonical_iff_cuts {l : List Interval} :
    Canonical l ↔ (∀ p ∈ cuts l, p.1 < p.2) ∧ (cuts l).Pairwise fun p q => p.2 < q.1 := by
  rw [cuts, List.forall_mem_map, List.pairwise_map]
  constructor
  · intro h
    exact ⟨fun i hi => (h.wellFormed i hi).lower_lt_upper, h.apart⟩
  · rintro ⟨hwf, hapart⟩
    exact ⟨fun i hi => Interval.wellFormed_iff.2 (hwf i hi), hapart⟩

/-- Equality of lists does not touch canonical form. -/
lemma canonical_congr {l m : List Interval} (h : (l == m) = true) : Canonical l ↔ Canonical m := by
  rw [canonical_iff_cuts, canonical_iff_cuts, beq_iff_cuts_eq.1 h]

/-- Equal lists cover the same. -/
lemma covered_congr {l m : List Interval} (h : (l == m) = true) (c : Cut) :
    Covered l c ↔ Covered m c := by
  have hcuts (l : List Interval) : Covered l c ↔ ∃ p ∈ cuts l, p.1 ≤ c ∧ c < p.2 := by
    simp only [Covered, cuts, List.mem_map, exists_exists_and_eq_and]
    rfl
  rw [hcuts, hcuts, beq_iff_cuts_eq.1 h]

/-- Each interval of the first list equals one of the second. -/
def Among (l m : List Interval) : Prop := ∀ i ∈ l, ∃ j ∈ m, (i == j) = true

/-- The lists have the same intervals, in whatever order and however often. -/
def SameIntervals (l m : List Interval) : Prop := Among l m ∧ Among m l

lemma Among.wellFormed {l m : List Interval} (h : Among l m) (hm : ∀ j ∈ m, j.WellFormed) :
    ∀ i ∈ l, i.WellFormed := by
  intro i hi
  obtain ⟨j, hj, hij⟩ := h i hi
  exact (Interval.wellFormed_congr hij).2 (hm j hj)

lemma Among.covered {l m : List Interval} (h : Among l m) {c : Cut} (hc : Covered l c) : Covered m c := by
  obtain ⟨i, hi, hcovers⟩ := hc
  obtain ⟨j, hj, hij⟩ := h i hi
  exact ⟨j, hj, (Interval.covers_congr hij c).1 hcovers⟩

lemma SameIntervals.covered_iff {l m : List Interval} (h : SameIntervals l m) (c : Cut) :
    Covered l c ↔ Covered m c :=
  ⟨h.1.covered, h.2.covered⟩

/-! ## What is covered determines a canonical list -/

namespace Canonical

variable {i j : Interval} {l m : List Interval}

lemma covered_lower (h : Canonical (i :: l)) : Covered (i :: l) i.lower :=
  ⟨i, by simp, le_rfl, (h.wellFormed i (by simp)).lower_lt_upper⟩

lemma lower_le_of_covered (h : Canonical (i :: l)) {c : Cut} (hc : Covered (i :: l) c) : i.lower ≤ c := by
  rcases covered_cons.1 hc with hi | hl
  · exact hi.1
  · exact ((h.wellFormed i (by simp)).lower_lt_upper.trans (h.upper_lt_of_covered hl)).le

/-- The first interval ends at a cut that is not covered. -/
lemma not_covered_upper (h : Canonical (i :: l)) : ¬Covered (i :: l) i.upper := by
  intro hc
  rcases covered_cons.1 hc with hi | hl
  · exact lt_irrefl _ hi.2
  · exact lt_irrefl _ (h.upper_lt_of_covered hl)

/-- The later intervals cover what is covered above the end of the first. -/
lemma covered_tail_iff (h : Canonical (i :: l)) {c : Cut} :
    Covered l c ↔ i.upper < c ∧ Covered (i :: l) c := by
  constructor
  · intro hc
    exact ⟨h.upper_lt_of_covered hc, covered_cons.2 (.inr hc)⟩
  · rintro ⟨hlt, hc⟩
    exact (covered_cons.1 hc).resolve_left fun hi => hlt.not_gt hi.2

/-- Of two first intervals that begin alike, one whose list covers as much ends no lower. -/
lemma upper_le_upper (hl : Canonical (i :: l)) (hlower : i.lower = j.lower)
    (h : ∀ c, Covered (j :: m) c → Covered (i :: l) c) : j.upper ≤ i.upper := by
  by_contra hlt
  apply hl.not_covered_upper
  apply h
  refine covered_cons.2 (.inl ⟨?_, not_le.1 hlt⟩)
  rw [← hlower]
  exact (hl.wellFormed i (by simp)).lower_lt_upper.le

/-- Canonical lists that cover the same cuts are equal. -/
theorem beq_of_covered (hl : Canonical l) (hm : Canonical m) (h : ∀ c, Covered l c ↔ Covered m c) :
    (l == m) = true := by
  induction l generalizing m with
  | nil =>
    cases m with
    | nil => rfl
    | cons j m => exact absurd ((h _).2 hm.covered_lower) covered_nil
  | cons i l ih =>
    cases m with
    | nil => exact absurd ((h _).1 hl.covered_lower) covered_nil
    | cons j m =>
      have hlower : i.lower = j.lower :=
        le_antisymm (hl.lower_le_of_covered ((h _).2 hm.covered_lower))
          (hm.lower_le_of_covered ((h _).1 hl.covered_lower))
      have hupper : i.upper = j.upper :=
        le_antisymm (upper_le_upper hm hlower.symm fun c => (h c).1)
          (upper_le_upper hl hlower fun c => (h c).2)
      have hrest : (l == m) = true := by
        apply ih hl.tail hm.tail
        intro c
        rw [hl.covered_tail_iff, hm.covered_tail_iff, h, hupper]
      rw [List.cons_beq_cons, Bool.and_eq_true]
      exact ⟨Interval.beq_iff.2 ⟨hlower, hupper⟩, hrest⟩

end Canonical

lemma beq_of_covered {l m : IntervalList} (hfield : l.field = m.field) (hl : Canonical l.intervals)
    (hm : Canonical m.intervals) (h : ∀ c, Covered l.intervals c ↔ Covered m.intervals c) :
    (l == m) = true := by
  show (l.field == m.field && l.intervals == m.intervals) = true
  rw [Bool.and_eq_true, beq_iff_eq]
  exact ⟨hfield, hl.beq_of_covered hm h⟩

lemma intervals_beq {l m : IntervalList} (h : (l == m) = true) : (l.intervals == m.intervals) = true := by
  have h : (l.field == m.field && l.intervals == m.intervals) = true := h
  rw [Bool.and_eq_true] at h
  exact h.2

lemma holds_congr {l m : IntervalList} (h : ∀ c, Covered l.intervals c ↔ Covered m.intervals c) (v : Value) :
    l.Holds v ↔ m.Holds v := by
  rw [Holds, Holds, held_iff, held_iff, h]

/-! ## Union -/

/-- In a canonical list there is nothing to merge. -/
lemma Canonical.coalesce_eq {i : Interval} {rest : List Interval} (h : Canonical (i :: rest)) :
    coalesce i rest = (i :: rest, none) := by
  induction rest generalizing i with
  | nil => rfl
  | cons j rest ih =>
    obtain ⟨hi, hlt, hrest⟩ := Canonical.cons_cons_iff.1 h
    have hposition : i.position j = .precedes :=
      (Interval.position_eq_precedes_iff hi (hrest.wellFormed j (by simp))).2 hlt
    rw [coalesce, hposition]
    simp only [ih hrest]

lemma Canonical.sortByStart_eq {l : List Interval} (h : Canonical l) : Interval.sortByStart l = l := by
  apply Sorting.sort_eq_self
  refine h.apart.imp_of_mem fun {i j} hi _ hlt => ?_
  rw [bne_iff_ne, Interval.startOrder_eq]
  exact ((h.wellFormed i hi).lower_lt_upper.trans hlt).le

lemma Canonical.union_eq {l : IntervalList} (h : Canonical l.intervals) : l.union = .ok l := by
  obtain ⟨field, intervals⟩ := l
  rw [union, merged, h.sortByStart_eq]
  cases intervals with
  | nil => rfl
  | cons i rest =>
    simp only [h.coalesce_eq]
    rfl

/-- **Normal form.**  Well-formed intervals, in any order, always have a union.  It is canonical, holds what
they hold, and depends on nothing but which intervals there are.  Exactly the canonical lists are their own
union, so that a second union changes nothing. -/
theorem union_normal_form {l : IntervalList} (hwf : ∀ i ∈ l.intervals, i.WellFormed) :
    ∃ m, l.union = .ok m ∧ m.field = l.field ∧ m.isCanonical = true ∧
      (∀ v, m.Holds v ↔ l.Holds v) ∧
      (∀ l' : IntervalList, l'.field = l.field → SameIntervals l'.intervals l.intervals →
        ∃ m', l'.union = .ok m' ∧ (m' == m) = true) ∧
      ((m == l) = true ↔ l.isCanonical = true) ∧ (l.isCanonical = true → m = l) ∧ m.union = .ok m := by
  obtain ⟨m, hm, hfield, hcan, hc⟩ := union_spec hwf
  have hself (h : l.isCanonical = true) : m = l := by
    rw [(isCanonical_iff.1 h).union_eq] at hm
    exact (Except.ok.inj hm).symm
  refine ⟨m, hm, hfield, isCanonical_iff.2 hcan, holds_congr hc, ?_, ⟨fun h => ?_, fun h => ?_⟩, hself,
    hcan.union_eq⟩
  · intro l' hfield' hsame
    obtain ⟨m', hm', hmfield', hcan', hc'⟩ := union_spec (hsame.1.wellFormed hwf)
    refine ⟨m', hm', beq_of_covered ?_ hcan' hcan fun c => ?_⟩
    · rw [hmfield', hfield', hfield]
    · rw [hc', hsame.covered_iff, hc]
  · exact isCanonical_iff.2 ((canonical_congr (intervals_beq h)).1 hcan)
  · rw [hself h]
    exact beq_of_covered rfl (isCanonical_iff.1 h) (isCanonical_iff.1 h) fun c => Iff.rfl

/-- Ranges that overlap, that touch and that come twice. -/
theorem union_normal_form_of_ranges :
    let l : IntervalList := ⟨"a", [⟨.int 3, true, .int 7, true⟩, ⟨.int 1, true, .int 3, false⟩,
      ⟨.int 5, false, .int 9, false⟩]⟩
    let l' : IntervalList := ⟨"a", [⟨.int 5, false, .int 9, false⟩, ⟨.int 3, true, .int 7, true⟩,
      ⟨.int 1, true, .int 3, false⟩, ⟨.int 3, true, .int 7, true⟩]⟩
    (∀ i ∈ l.intervals, i.WellFormed) ∧ l'.field = l.field ∧ SameIntervals l'.intervals l.intervals ∧
      ∃ m, l.union = .ok m ∧ m.field = l.field ∧ m.isCanonical = true ∧ (∀ v, m.Holds v ↔ l.Holds v) ∧
        (∃ m', l'.union = .ok m' ∧ (m' == m) = true) ∧ ((m == l) = true ↔ l.isCanonical = true) ∧
        (l.isCanonical = true → m = l) ∧ m.union = .ok m := by
  intro l l'
  have hwf : ∀ i ∈ l.intervals, i.WellFormed := by
    intro i hi
    simp only [l, List.mem_cons, List.not_mem_nil, or_false] at hi
    rcases hi with rfl | rfl | rfl <;> exact .inl (by decide +kernel)
  have hself (i : Interval) : (i == i) = true := Interval.beq_iff.2 ⟨rfl, rfl⟩
  have hsame : SameIntervals l'.intervals l.intervals := by
    constructor <;>
    · intro i hi
      refine ⟨i, ?_, hself i⟩
      simp only [l, l', List.mem_cons, List.not_mem_nil, or_false] at hi ⊢
      tauto
  obtain ⟨m, hm, hfield, hcan, hholds, hset, hrest⟩ := union_normal_form hwf
  exact ⟨hwf, rfl, hsame, m, hm, hfield, hcan, hholds, hset l' rfl hsame, hrest⟩

/-! ## Intersection -/

/-- **Intersection is symmetric.**  Canonical lists for one field always have an intersection.  It is
canonical, holds what both hold, and is the same from either side. -/
theorem intersect_comm {a b : IntervalList} (ha : a.isCanonical = true) (hb : b.isCanonical = true)
    (hfield : a.field = b.field) :
    ∃ m m', a.intersect b = .ok m ∧ b.intersect a = .ok m' ∧ m.field = a.field ∧ m.isCanonical = true ∧
      (∀ v, m.Holds v ↔ a.Holds v ∧ b.Holds v) ∧ (m' == m) = true := by
  rw [isCanonical_iff] at ha hb
  obtain ⟨m, hm, hmfield, hcan, hc⟩ := intersect_spec ha hb hfield
  obtain ⟨m', hm', hmfield', hcan', hc'⟩ := intersect_spec hb ha hfield.symm
  refine ⟨m, m', hm, hm', hmfield.trans hfield.symm, isCanonical_iff.2 hcan, fun v => ?_, ?_⟩
  · simp only [Holds, held_iff, hc]
  · apply beq_of_covered _ hcan' hcan
    · intro c
      rw [hc, hc', and_comm]
    · rw [hmfield, hmfield', hfield]

/-- Ranges that share an end, once with and once without it. -/
theorem intersect_comm_of_ranges :
    let a : IntervalList := ⟨"a", [⟨.int 1, true, .int 4, true⟩, ⟨.int 6, false, .int 9, true⟩]⟩
    let b : IntervalList := ⟨"a", [⟨.int 4, true, .int 6, true⟩, ⟨.double .infinity, true, .string "x", false⟩]⟩
    a.isCanonical = true ∧ b.isCanonical = true ∧ a.field = b.field ∧
      ∃ m m', a.intersect b = .ok m ∧ b.intersect a = .ok m' ∧ m.field = a.field ∧ m.isCanonical = true ∧
        (∀ v, m.Holds v ↔ a.Holds v ∧ b.Holds v) ∧ (m' == m) = true := by
  intro a b
  have ha : a.isCanonical = true := by decide +kernel
  have hb : b.isCanonical = true := by decide +kernel
  exact ⟨ha, hb, rfl, intersect_comm ha hb rfl⟩

/-! ## Complement -/

/-- Whatever a list covers lies between the extremes, so a complement that is taken there forgets nothing. -/
lemma between_extremes_of_covered {l : List Interval} {c : Cut} (h : Covered l c) :
    Cut.below .minKey ≤ c ∧ c < Cut.above .maxKey := by
  obtain ⟨i, -, hlower, hupper⟩ := h
  constructor
  · exact (below_minKey_le i.start (!i.startInclusive)).trans hlower
  · exact hupper.trans_le (edgeCut_le_above_maxKey i.stop i.stopInclusive)

lemma complement_complement {l : IntervalList} (hl : Canonical l.intervals) :
    (l.complement.complement == l) = true := by
  obtain ⟨hcan, hc⟩ := complement_spec hl
  obtain ⟨hcan', hc'⟩ := complement_spec hcan
  have hfield : l.complement.complement.field = l.field := rfl
  apply beq_of_covered hfield hcan' hl
  intro c
  have hbetween : Covered l.intervals c → Cut.below .minKey ≤ c ∧ c < Cut.above .maxKey :=
    between_extremes_of_covered
  rw [hc', hc]
  tauto

/-- What both lists hold is what neither complement holds, as an equality of lists. -/
lemma intersect_beq_complement_union {a b : IntervalList} (ha : Canonical a.intervals)
    (hb : Canonical b.intervals) (hfield : a.field = b.field) :
    ∃ both either, a.intersect b = .ok both ∧
      union ⟨a.field, a.complement.intervals ++ b.complement.intervals⟩ = .ok either ∧
      (both == either.complement) = true := by
  obtain ⟨hcana, hca⟩ := complement_spec ha
  obtain ⟨hcanb, hcb⟩ := complement_spec hb
  obtain ⟨both, hboth, hbothfield, hbothcan, hbothc⟩ := intersect_spec ha hb hfield
  have hwf : ∀ i ∈ a.complement.intervals ++ b.complement.intervals, i.WellFormed := by
    intro i hi
    rcases List.mem_append.1 hi with hi | hi
    · exact hcana.wellFormed i hi
    · exact hcanb.wellFormed i hi
  obtain ⟨either, heither, hfield', heithercan, heitherc⟩ :=
    union_spec (l := ⟨a.field, a.complement.intervals ++ b.complement.intervals⟩) hwf
  obtain ⟨hcan, hc⟩ := complement_spec heithercan
  refine ⟨both, either, hboth, heither, beq_of_covered ?_ hbothcan hcan fun c => ?_⟩
  · exact (hbothfield.trans hfield.symm).trans hfield'.symm
  · have hbetween : Covered a.intervals c → Cut.below .minKey ≤ c ∧ c < Cut.above .maxKey :=
      between_extremes_of_covered
    rw [hbothc, hc, heitherc, covered_append, hca, hcb]
    tauto

/-- **Complements.**  The complement of a canonical list is canonical, holds exactly the values that the list
does not, and has the list as its own complement.  The intersection of two lists is the complement of the
union of their complements. -/
theorem complement_laws {a b : IntervalList} (ha : a.isCanonical = true) (hb : b.isCanonical = true)
    (hfield : a.field = b.field) :
    (a.complement.field = a.field ∧ a.complement.isCanonical = true ∧
      (∀ v, a.complement.Holds v ↔ ¬a.Holds v) ∧ (a.complement.complement == a) = true) ∧
    ∃ both either, a.intersect b = .ok both ∧
      union ⟨a.field, a.complement.intervals ++ b.complement.intervals⟩ = .ok either ∧
      (both == either.complement) = true := by
  rw [isCanonical_iff] at ha hb
  have hcan : a.complement.isCanonical = true := isCanonical_iff.2 (complement_spec ha).1
  refine ⟨⟨rfl, hcan, complement_holds ha, complement_complement ha⟩, ?_⟩
  exact intersect_beq_complement_union ha hb hfield

/-- Lists that reach the extremes, leave out single values and have a gap without values. -/
theorem complement_laws_of_excluded_points :
    let a : IntervalList := ⟨"a", [⟨.minKey, true, .undefined, true⟩, ⟨.null, true, .int 5, false⟩,
      ⟨.int 5, false, .maxKey, true⟩]⟩
    let b : IntervalList := ⟨"a", [⟨.undefined, false, .null, false⟩, ⟨.int 3, true, .int 5, true⟩]⟩
    a.isCanonical = true ∧ b.isCanonical = true ∧ a.field = b.field ∧
      (a.complement.field = a.field ∧ a.complement.isCanonical = true ∧
        (∀ v, a.complement.Holds v ↔ ¬a.Holds v) ∧ (a.complement.complement == a) = true) ∧
      ∃ both either, a.intersect b = .ok both ∧
        union ⟨a.field, a.complement.intervals ++ b.complement.intervals⟩ = .ok either ∧
        (both == either.complement) = true := by
  intro a b
  have ha : a.isCanonical = true := by decide +kernel
  have hb : b.isCanonical = true := by decide +kernel
  exact ⟨ha, hb, rfl, complement_laws ha hb rfl⟩

end IntervalList

end ScanBounds

import ScanBounds.Interval.SetOps
import ScanBounds.Proofs.Interval.Canonical
import ScanBounds.Proofs.Value.Bracket

/-!
# What the set operations cover

Each operation gives a canonical list and covers the cuts that its name says: the union of well-formed
intervals in any order, the intersection and the complement of canonical lists.  That the first two succeed
is part of the statements.
-/

namespace ScanBounds.IntervalList

/-! ## Union -/

/-- Merging a sorted list never stops, and the outcome starts where the list starts. -/
lemma coalesce_spec {i : Interval} {rest : List Interval} (hwf : ∀ j ∈ i :: rest, j.WellFormed)
    (hs : (i :: rest).Pairwise fun j k => j.lower ≤ k.lower) :
    ∃ done, coalesce i rest = (done, none) ∧ Canonical done ∧
      (∀ j ∈ done, i.lower ≤ j.lower) ∧ ∀ c, Covered done c ↔ Covered (i :: rest) c := by
  induction rest generalizing i with
  | nil =>
    refine ⟨[i], rfl, Canonical.singleton (hwf i (by simp)), by simp, fun c => Iff.rfl⟩
  | cons j rest ih =>
    obtain ⟨hi, hwf⟩ := List.forall_mem_cons.1 hwf
    obtain ⟨hj, hrest⟩ := List.forall_mem_cons.1 hwf
    obtain ⟨hij, hs⟩ := List.pairwise_cons.1 hs
    have hle := hij j (by simp)
    have hd := Interval.position_describes hi hj
    have hilt := hi.lower_lt_upper
    have hjlt := hj.lower_lt_upper
    -- whatever stands for the first two starts where the first one does
    have merge (k : Interval) (hk : k.WellFormed) (hlow : k.lower = i.lower)
        (hcov : ∀ c, k.Covers c ↔ i.Covers c ∨ j.Covers c) :
        ∃ done, coalesce k rest = (done, none) ∧ Canonical done ∧
          (∀ j ∈ done, i.lower ≤ j.lower) ∧ ∀ c, Covered done c ↔ Covered (i :: j :: rest) c := by
      have hs' : (k :: rest).Pairwise fun j k => j.lower ≤ k.lower := by
        refine List.pairwise_cons.2 ⟨fun l hl => ?_, (List.pairwise_cons.1 hs).2⟩
        rw [hlow]
        exact hij l (by simp [hl])
      obtain ⟨done, heq, hcan, hlo, hc⟩ := ih (List.forall_mem_cons.2 ⟨hk, hrest⟩) hs'
      refine ⟨done, heq, hcan, hlow ▸ hlo, fun c => ?_⟩
      rw [hc, covered_cons, covered_cons, covered_cons, hcov, or_assoc]
    unfold coalesce
    cases hp : i.position j <;> rw [hp] at hd <;> simp only [Position.Describes] at hd
    case precedes =>
      obtain ⟨done, heq, hcan, hlo, hc⟩ := ih hwf hs
      refine ⟨i :: done, by simp [heq], ?_, ?_, fun c => ?_⟩
      · exact Canonical.cons_iff.2 ⟨hi, fun k hk => hd.trans_le (hlo k hk), hcan⟩
      · exact List.forall_mem_cons.2 ⟨le_rfl, fun k hk => hle.trans (hlo k hk)⟩
      · rw [covered_cons, hc, covered_cons (i := i)]
    case equals =>
      refine merge j hj hd.1.symm fun c => ?_
      simp only [Interval.Covers]
      grind
    case within =>
      refine merge j hj (le_antisymm hd.1 hle) fun c => ?_
      simp only [Interval.Covers]
      grind
    case contains =>
      refine merge i hi rfl fun c => ?_
      simp only [Interval.Covers]
      grind
    case overlapsBefore =>
      refine merge ⟨i.start, i.startInclusive, j.stop, j.stopInclusive⟩ ?_ rfl fun c => ?_
      · rw [Interval.wellFormed_iff]
        exact hilt.trans hd.2.2
      · simp only [Interval.Covers]
        show i.lower ≤ c ∧ c < j.upper ↔ _
        grind
    case abutsBefore =>
      refine merge ⟨i.start, i.startInclusive, j.stop, j.stopInclusive⟩ ?_ rfl fun c => ?_
      · rw [Interval.wellFormed_iff]
        exact hilt.trans (hd ▸ hjlt)
      · simp only [Interval.Covers]
        show i.lower ≤ c ∧ c < j.upper ↔ _
        grind
    case succeeds => exact absurd (hjlt.trans_le (hd.trans hle)) (lt_irrefl _)
    case overlapsAfter => exact absurd (hd.1.trans_le hle) (lt_irrefl _)

lemma sortByStart_pairwise (l : List Interval) :
    (Interval.sortByStart l).Pairwise fun i j => i.lower ≤ j.lower := by
  have h : (Interval.sortByStart l).Pairwise fun i j => (i.startOrder j != .gt) = true :=
    Sorting.pairwise_sort (fun i j hij => ?_) (fun i j k hij hjk => ?_) l
  · refine h.imp fun {i j} hij => ?_
    rwa [bne_iff_ne, Interval.startOrder_eq] at hij
  · rw [bne_iff_ne, Interval.startOrder_eq]
    rw [bne_eq_false_iff_eq] at hij
    by_contra hji
    exact (Interval.startOrder_eq i j).2 (not_le.1 hji).le hij
  · rw [bne_iff_ne, Interval.startOrder_eq] at hij hjk ⊢
    exact hij.trans hjk

lemma mem_sortByStart {i : Interval} {l : List Interval} :
    i ∈ Interval.sortByStart l ↔ i ∈ l := Sorting.mem_sort

/-- **Union.**  Well-formed intervals can always be merged; the outcome is canonical and covers what they
cover. -/
theorem merged_spec {l : IntervalList} (hwf : ∀ i ∈ l.intervals, i.WellFormed) :
    l.merged.disorder = none ∧ l.merged.list.field = l.field ∧
      Canonical l.merged.list.intervals ∧
      ∀ c, Covered l.merged.list.intervals c ↔ Covered l.intervals c := by
  have hsorted := sortByStart_pairwise l.intervals
  have hmem (i : Interval) : i ∈ Interval.sortByStart l.intervals ↔ i ∈ l.intervals := mem_sortByStart
  unfold merged
  cases hl : Interval.sortByStart l.intervals with
  | nil =>
    have hnil : l.intervals = [] := List.eq_nil_iff_forall_not_mem.2 fun i hi => by
      simpa [hl] using (hmem i).2 hi
    simp [hnil, Canonical.nil]
  | cons i rest =>
    rw [hl] at hsorted hmem
    obtain ⟨done, heq, hcan, -, hc⟩ :=
      coalesce_spec (fun j hj => hwf j ((hmem j).1 hj)) hsorted
    simp only [heq, true_and]
    refine ⟨hcan, fun c => ?_⟩
    rw [hc]
    simp only [Covered, hmem]

lemma union_spec {l : IntervalList} (hwf : ∀ i ∈ l.intervals, i.WellFormed) :
    ∃ m, l.union = .ok m ∧ m.field = l.field ∧ Canonical m.intervals ∧
      ∀ c, Covered m.intervals c ↔ Covered l.intervals c := by
  obtain ⟨hd, h⟩ := merged_spec hwf
  exact ⟨l.merged.list, by simp [union, Merged.result, hd], h⟩

/-! ## Intersection -/

lemma checkNext_eq_ok_iff {l : IntervalList} {previous : Option Value} {i : Interval} :
    checkNext l previous i = .ok () ↔ i.direction ≠ .descending ∧ ∀ v ∈ previous, v ≤ i.start := by
  unfold checkNext
  by_cases hd : i.direction = .descending
  · simp [hd]
  · cases previous <;> simp [hd, Value.le_iff_not_lt]

section Walk

variable {a b : IntervalList} {previous previous' : Option Value} {i j : Interval} {is js out : List Interval}

lemma overlaps_nil_left : overlaps a b previous previous' [] js = .ok [] := by
  unfold overlaps
  rfl

lemma overlaps_nil_right : overlaps a b previous previous' is [] = .ok [] := by
  cases is <;> unfold overlaps <;> rfl

/-- What the walk does after a step: it goes on without the head that ends first. -/
def goOn (a b : IntervalList) (previous previous' : Option Value) (i : Interval) (is : List Interval)
    (j : Interval) (js : List Interval) : Position → Except Disorder (List Interval)
  | .equals => overlaps a b (some i.stop) (some j.stop) is js
  | .precedes | .abutsBefore | .within | .overlapsBefore => overlaps a b (some i.stop) previous' is (j :: js)
  | .succeeds | .contains | .overlapsAfter => overlaps a b previous (some j.stop) (i :: is) js

/-- A step checks both heads and keeps what they have in common. -/
lemma overlaps_cons_cons_eq_ok_iff :
    overlaps a b previous previous' (i :: is) (j :: js) = .ok out ↔
      (i.direction ≠ .descending ∧ ∀ v ∈ previous, v ≤ i.start) ∧
      (j.direction ≠ .descending ∧ ∀ v ∈ previous', v ≤ j.start) ∧
      ∃ rest, goOn a b previous previous' i is j js (i.position j) = .ok rest ∧
        (i.overlap? j (i.position j)).toList ++ rest = out := by
  have hstep : overlaps a b previous previous' (i :: is) (j :: js) = do
      checkNext a previous i
      checkNext b previous' j
      let rest ← goOn a b previous previous' i is j js (i.position j)
      return (i.overlap? j (i.position j)).toList ++ rest := by
    rw [overlaps]
    cases i.position j <;> rfl
  rw [hstep, ← checkNext_eq_ok_iff (l := a), ← checkNext_eq_ok_iff (l := b)]
  cases checkNext a previous i <;> cases checkNext b previous' j <;>
    cases goOn a b previous previous' i is j js (i.position j) <;>
    simp [bind, Except.bind, pure, Except.pure]

end Walk

/-- In a canonical list an interval stops no later than the next one starts. -/
lemma Canonical.stop_le_start {i j : Interval} {l : List Interval}
    (h : Canonical (i :: j :: l)) : i.stop ≤ j.start := by
  have hlt := (cons_cons_iff.1 h).2.1
  rw [Interval.upper, Interval.lower, Prod.Lex.toLex_lt_toLex] at hlt
  rcases hlt with hlt | ⟨heq, -⟩
  · exact (Value.toClass_lt.1 hlt).le
  · exact Value.toClass_le.1 heq.le

/-- What two intervals have in common is within both. -/
lemma overlap_ends {i j k : Interval} (hi : i.WellFormed) (hj : j.WellFormed)
    (hk : i.overlap? j (i.position j) = some k) :
    k.WellFormed ∧ (i.lower ≤ k.lower ∧ j.lower ≤ k.lower) ∧ k.upper ≤ i.upper ∧ k.upper ≤ j.upper := by
  have hd := Interval.position_describes hi hj
  rw [Interval.wellFormed_iff] at hi hj ⊢
  cases hp : i.position j <;> rw [hp] at hd hk <;> simp only [Position.Describes] at hd <;>
    simp only [Interval.overlap?, Option.some.injEq, reduceCtorEq] at hk <;> subst hk
  case equals | within | contains => grind
  case overlapsBefore =>
    show (j.lower < i.upper) ∧ (i.lower ≤ j.lower ∧ j.lower ≤ j.lower) ∧ i.upper ≤ i.upper ∧ i.upper ≤ j.upper
    grind
  case overlapsAfter =>
    show (i.lower < j.upper) ∧ (i.lower ≤ i.lower ∧ j.lower ≤ i.lower) ∧ j.upper ≤ i.upper ∧ j.upper ≤ j.upper
    grind

lemma overlap_covered {i j : Interval} (hi : i.WellFormed) (hj : j.WellFormed) (c : Cut) :
    Covered (i.overlap? j (i.position j)).toList c ↔ i.Covers c ∧ j.Covers c := by
  have hd := Interval.position_describes hi hj
  rw [Interval.wellFormed_iff] at hi hj
  cases hp : i.position j <;> rw [hp] at hd <;> simp only [Position.Describes] at hd <;>
    simp only [Interval.overlap?, Option.toList, covered_cons, covered_nil, or_false,
      Interval.Covers]
  case overlapsBefore =>
    show j.lower ≤ c ∧ c < i.upper ↔ _
    grind
  case overlapsAfter =>
    show i.lower ≤ c ∧ c < j.upper ↔ _
    grind
  all_goals grind

/-- `out` is what two lists have in common, and stands no lower than either of them. -/
structure Common (is js out : List Interval) : Prop where
  canonical : Canonical out
  aboveLeft : ∀ k ∈ out, ∃ i ∈ is, i.lower ≤ k.lower
  aboveRight : ∀ k ∈ out, ∃ j ∈ js, j.lower ≤ k.lower
  covered : ∀ c, Covered out c ↔ Covered is c ∧ Covered js c

namespace Common

variable {i j : Interval} {is js out : List Interval}

lemma nil_left : Common [] js [] := ⟨Canonical.nil, by simp, by simp, by simp⟩

lemma nil_right : Common is [] [] := ⟨Canonical.nil, by simp, by simp, by simp⟩

/-- The overlap of two heads stands before what is common further on. -/
lemma cons (hi : i.WellFormed) (hj : j.WellFormed) (hout : Canonical out)
    (habove : ∀ k ∈ out, i.upper < k.lower ∨ j.upper < k.lower)
    (hleft : ∀ k ∈ out, ∃ i' ∈ i :: is, i'.lower ≤ k.lower)
    (hright : ∀ k ∈ out, ∃ j' ∈ j :: js, j'.lower ≤ k.lower)
    (hc : ∀ c, Covered (i :: is) c ∧ Covered (j :: js) c ↔ (i.Covers c ∧ j.Covers c) ∨ Covered out c) :
    Common (i :: is) (j :: js) ((i.overlap? j (i.position j)).toList ++ out) := by
  have hcov (c : Cut) : Covered ((i.overlap? j (i.position j)).toList ++ out) c ↔
      Covered (i :: is) c ∧ Covered (j :: js) c := by
    rw [covered_append, overlap_covered hi hj, hc]
  cases ho : i.overlap? j (i.position j) with
  | none =>
    rw [ho] at hcov
    exact ⟨hout, hleft, hright, hcov⟩
  | some o =>
    rw [ho] at hcov
    obtain ⟨hwf, ⟨hli, hlj⟩, hui, huj⟩ := overlap_ends hi hj ho
    refine ⟨Canonical.cons_iff.2 ⟨hwf, fun k hk => ?_, hout⟩, ?_, ?_, hcov⟩
    · rcases habove k hk with h | h
      · exact hui.trans_lt h
      · exact huj.trans_lt h
    · exact List.forall_mem_cons.2 ⟨⟨i, by simp, hli⟩, hleft⟩
    · exact List.forall_mem_cons.2 ⟨⟨j, by simp, hlj⟩, hright⟩

lemma of_tail_left (h : ∀ k ∈ out, ∃ i' ∈ is, i'.lower ≤ k.lower) :
    ∀ k ∈ out, ∃ i' ∈ i :: is, i'.lower ≤ k.lower := by
  intro k hk
  obtain ⟨i', hi', hle⟩ := h k hk
  exact ⟨i', List.mem_cons_of_mem _ hi', hle⟩

lemma lt_of_tail (hi : Canonical (i :: is)) (h : ∀ k ∈ out, ∃ i' ∈ is, i'.lower ≤ k.lower) :
    ∀ k ∈ out, i.upper < k.lower := by
  intro k hk
  obtain ⟨i', hi', hle⟩ := h k hk
  exact ((Canonical.cons_iff.1 hi).2.1 i' hi').trans_le hle

/-- The left head may be dropped when it ends first: nothing later on the right reaches it. -/
lemma cons_left (hi : Canonical (i :: is)) (hj : Canonical (j :: js)) (hle : i.upper ≤ j.upper)
    (h : Common is (j :: js) out) :
    Common (i :: is) (j :: js) ((i.overlap? j (i.position j)).toList ++ out) := by
  refine cons (hi.wellFormed i (by simp)) (hj.wellFormed j (by simp)) h.canonical
    (fun k hk => .inl (lt_of_tail hi h.aboveLeft k hk)) (of_tail_left h.aboveLeft) h.aboveRight
    fun c => ?_
  have hlate : Covered js c → j.upper < c := hj.upper_lt_of_covered
  rw [h.covered]
  simp only [covered_cons, Interval.Covers]
  grind

lemma cons_right (hi : Canonical (i :: is)) (hj : Canonical (j :: js)) (hle : j.upper ≤ i.upper)
    (h : Common (i :: is) js out) :
    Common (i :: is) (j :: js) ((i.overlap? j (i.position j)).toList ++ out) := by
  refine cons (hi.wellFormed i (by simp)) (hj.wellFormed j (by simp)) h.canonical
    (fun k hk => .inr (lt_of_tail hj h.aboveRight k hk)) h.aboveLeft (of_tail_left h.aboveRight)
    fun c => ?_
  have hlate : Covered is c → i.upper < c := hi.upper_lt_of_covered
  rw [h.covered]
  simp only [covered_cons, Interval.Covers]
  grind

lemma cons_both (hi : Canonical (i :: is)) (hj : Canonical (j :: js)) (heq : i.upper = j.upper)
    (h : Common is js out) :
    Common (i :: is) (j :: js) ((i.overlap? j (i.position j)).toList ++ out) := by
  refine cons (hi.wellFormed i (by simp)) (hj.wellFormed j (by simp)) h.canonical
    (fun k hk => .inl (lt_of_tail hi h.aboveLeft k hk)) (of_tail_left h.aboveLeft)
    (of_tail_left h.aboveRight) fun c => ?_
  have hlate : Covered is c → i.upper < c := hi.upper_lt_of_covered
  have hlate' : Covered js c → j.upper < c := hj.upper_lt_of_covered
  rw [h.covered]
  simp only [covered_cons, Interval.Covers]
  grind

end Common

lemma stop_le_of_mem_head {i : Interval} {l : List Interval} (h : Canonical (i :: l)) :
    ∀ v ∈ some i.stop, ∀ j ∈ l.head?, v ≤ j.start := by
  rintro v hv j hj
  cases hv
  cases l with
  | nil => cases hj
  | cons k l =>
    cases hj
    exact h.stop_le_start

/-- The walk over two canonical lists never finds them out of order, and meets all that they share. -/
lemma overlaps_spec {a b : IntervalList} {previous previous' : Option Value} {is js : List Interval}
    (his : Canonical is) (hjs : Canonical js)
    (hp : ∀ v ∈ previous, ∀ i ∈ is.head?, v ≤ i.start)
    (hp' : ∀ v ∈ previous', ∀ j ∈ js.head?, v ≤ j.start) :
    ∃ out, overlaps a b previous previous' is js = .ok out ∧ Common is js out := by
  induction previous, previous', is, js using overlaps.induct with
  | case1 previous previous' i is j js ihBoth ihLeft ihRight =>
    have hi := his.wellFormed i (by simp)
    have hj := hjs.wellFormed j (by simp)
    have hd := Interval.position_describes hi hj
    have hstop := stop_le_of_mem_head his
    have hstop' := stop_le_of_mem_head hjs
    have hup : i.direction ≠ .descending ∧ ∀ v ∈ previous, v ≤ i.start :=
      ⟨hi.direction_ne_descending, fun v hv => hp v hv i rfl⟩
    have hup' : j.direction ≠ .descending ∧ ∀ v ∈ previous', v ≤ j.start :=
      ⟨hj.direction_ne_descending, fun v hv => hp' v hv j rfl⟩
    obtain ⟨rest, hrest, hcommon⟩ : ∃ rest, goOn a b previous previous' i is j js (i.position j) = .ok rest ∧
        Common (i :: is) (j :: js) ((i.overlap? j (i.position j)).toList ++ rest) := by
      have hilt := hi.lower_lt_upper
      have hjlt := hj.lower_lt_upper
      cases hpos : i.position j <;> rw [hpos] at hd <;> simp only [Position.Describes] at hd
      case equals =>
        obtain ⟨rest, hrest, h⟩ := ihBoth his.tail hjs.tail hstop hstop'
        refine ⟨rest, hrest, ?_⟩
        rw [← hpos]
        exact h.cons_both his hjs hd.2
      case precedes | abutsBefore | within | overlapsBefore =>
        obtain ⟨rest, hrest, h⟩ := ihLeft his.tail hjs hstop hp'
        refine ⟨rest, hrest, ?_⟩
        rw [← hpos]
        exact h.cons_left his hjs (by grind)
      case succeeds | contains | overlapsAfter =>
        obtain ⟨rest, hrest, h⟩ := ihRight his hjs.tail hp hstop'
        refine ⟨rest, hrest, ?_⟩
        rw [← hpos]
        exact h.cons_right his hjs (by grind)
    exact ⟨_, overlaps_cons_cons_eq_ok_iff.2 ⟨hup, hup', rest, hrest, rfl⟩, hcommon⟩
  | case2 previous previous' is js hnil =>
    rcases is with - | ⟨i, is⟩
    · exact ⟨[], overlaps_nil_left, Common.nil_left⟩
    rcases js with - | ⟨j, js⟩
    · exact ⟨[], overlaps_nil_right, Common.nil_right⟩
    · exact (hnil _ _ _ _ rfl rfl).elim

/-- **Intersection.**  Canonical lists for one field always have an intersection, which is canonical and
covers what both cover. -/
theorem intersect_spec {a b : IntervalList} (ha : Canonical a.intervals) (hb : Canonical b.intervals)
    (hfield : a.field = b.field) :
    ∃ m, a.intersect b = .ok m ∧ m.field = b.field ∧ Canonical m.intervals ∧
      ∀ c, Covered m.intervals c ↔ Covered a.intervals c ∧ Covered b.intervals c := by
  obtain ⟨out, heq, h⟩ : ∃ out, overlaps a b none none a.intervals b.intervals = .ok out ∧
      Common a.intervals b.intervals out := overlaps_spec ha hb (by simp) (by simp)
  refine ⟨⟨b.field, out⟩, ?_, rfl, h.canonical, h.covered⟩
  simp [intersect, hfield, heq, bind, Except.bind, pure, Except.pure]

/-! ## Complement -/

/-- The cut up to which all is accounted for. -/
def edgeCut (edge : Value) (covered : Bool) : Cut := toLex (edge.toClass, covered)

lemma edgeCut_le_above_maxKey (edge : Value) (covered : Bool) :
    edgeCut edge covered ≤ Cut.above .maxKey := by
  refine Prod.Lex.toLex_le_toLex.2 ?_
  rcases (Value.toClass_le.2 (Value.le_maxKey edge)).lt_or_eq with h | h
  · exact .inl h
  · exact .inr ⟨h, Bool.le_true covered⟩

/-- At the end of the list nothing is left exactly when the edge is the last cut. -/
lemma isMaxKey_and_covered_iff {edge : Value} {covered : Bool} :
    (edge.isMaxKey && covered) = true ↔ edgeCut edge covered = Cut.above .maxKey := by
  rw [Bool.and_eq_true, Value.isMaxKey_iff, edgeCut, Cut.above, EmbeddingLike.apply_eq_iff_eq,
    Prod.mk.injEq]

/-- Before an interval there is a gap exactly when the edge lies below its lower cut. -/
lemma gap_iff {edge : Value} {covered : Bool} {i : Interval} (h : edgeCut edge covered ≤ i.lower) :
    (i.start != edge || (!covered && !i.startInclusive)) = true ↔ edgeCut edge covered < i.lower := by
  rw [edgeCut, Interval.lower, Prod.Lex.toLex_le_toLex] at h
  rw [edgeCut, Interval.lower, Prod.Lex.toLex_lt_toLex]
  by_cases heq : (i.start == edge) = true
  · have hclass := Value.toClass_eq.2 heq
    simp only [bne, heq, hclass, lt_irrefl, true_and, false_or, Bool.lt_iff]
    cases covered <;> cases i.startInclusive <;> simp
  · have hclass : edge.toClass ≠ i.start.toClass := fun hc => heq (Value.toClass_eq.1 hc.symm)
    have hlt : edge.toClass < i.start.toClass := h.resolve_right fun hr => hclass hr.1
    simp [bne, heq, hlt]

/-- The gaps in a canonical list are what it leaves uncovered above the edge. -/
lemma gaps_spec {l : List Interval} (hl : Canonical l) {edge : Value} {covered : Bool}
    (h : ∀ i ∈ l, edgeCut edge covered ≤ i.lower) :
    Canonical (gaps edge covered l) ∧ (∀ k ∈ gaps edge covered l, edgeCut edge covered ≤ k.lower) ∧
      ∀ c, Covered (gaps edge covered l) c ↔
        edgeCut edge covered ≤ c ∧ c < Cut.above .maxKey ∧ ¬Covered l c := by
  induction l generalizing edge covered with
  | nil =>
    by_cases hend : (edge.isMaxKey && covered) = true
    · have heq := isMaxKey_and_covered_iff.1 hend
      simp only [gaps, hend, if_true]
      refine ⟨Canonical.nil, by simp, fun c => ?_⟩
      simp only [covered_nil, heq, false_iff, not_and]
      exact fun hle hlt => absurd hlt hle.not_gt
    · have hlt : edgeCut edge covered < Cut.above .maxKey :=
        (edgeCut_le_above_maxKey edge covered).lt_of_ne fun heq => hend (isMaxKey_and_covered_iff.2 heq)
      simp only [gaps, hend, Bool.false_eq_true, if_false]
      have hlow : Interval.lower ⟨edge, !covered, .maxKey, true⟩ = edgeCut edge covered := by
        rw [Interval.lower, Bool.not_not, edgeCut]
      have hup : Interval.upper ⟨edge, !covered, .maxKey, true⟩ = Cut.above .maxKey := rfl
      refine ⟨Canonical.singleton ?_, by simp [hlow], fun c => ?_⟩
      · rwa [Interval.wellFormed_iff, hlow, hup]
      · simp [Interval.Covers, hlow, hup]
  | cons i rest ih =>
    obtain ⟨hi, hilt, hrest⟩ := Canonical.cons_iff.1 hl
    have hilu := hi.lower_lt_upper
    have hle := h i (by simp)
    have hstop : edgeCut i.stop i.stopInclusive = i.upper := rfl
    have htop : i.upper ≤ Cut.above .maxKey := edgeCut_le_above_maxKey i.stop i.stopInclusive
    obtain ⟨hcan, habove, hc⟩ := ih hrest fun j hj => (hilt j hj).le
    rw [hstop] at habove hc
    have hlate : ∀ c, Covered rest c → i.upper < c := fun c => hl.upper_lt_of_covered
    rw [gaps]
    by_cases hgap : edgeCut edge covered < i.lower
    · rw [if_pos ((gap_iff hle).2 hgap)]
      have hlow : Interval.lower ⟨edge, !covered, i.start, !i.startInclusive⟩ = edgeCut edge covered := by
        rw [Interval.lower, Bool.not_not, edgeCut]
      have hup : Interval.upper ⟨edge, !covered, i.start, !i.startInclusive⟩ = i.lower := rfl
      refine ⟨Canonical.cons_iff.2 ⟨?_, fun k hk => ?_, hcan⟩, ?_, fun c => ?_⟩
      · rwa [Interval.wellFormed_iff, hlow, hup]
      · rw [hup]
        exact hilu.trans_le (habove k hk)
      · refine List.forall_mem_cons.2 ⟨hlow.ge, fun k hk => ?_⟩
        exact hle.trans (hilu.le.trans (habove k hk))
      · have hlate := hlate c
        rw [covered_cons, hc, covered_cons, Interval.Covers, Interval.Covers, hlow, hup]
        grind
    · rw [if_neg fun hg => hgap ((gap_iff hle).1 hg)]
      have heq : edgeCut edge covered = i.lower := le_antisymm hle (not_lt.1 hgap)
      refine ⟨hcan, fun k hk => ?_, fun c => ?_⟩
      · exact hle.trans (hilu.le.trans (habove k hk))
      · have hlate := hlate c
        rw [hc, covered_cons, Interval.Covers, heq]
        grind

lemma below_minKey_le (v : Value) (inclusive : Bool) :
    Cut.below .minKey ≤ toLex (v.toClass, inclusive) := by
  refine Prod.Lex.toLex_le_toLex.2 ?_
  rcases (Value.toClass_le.2 (Value.minKey_le v)).lt_or_eq with h | h
  · exact .inl h
  · exact .inr ⟨h, Bool.false_le inclusive⟩

/-- **Complement.**  The complement of a canonical list is canonical and covers every cut between the
extremes that the list does not. -/
theorem complement_spec {l : IntervalList} (hl : Canonical l.intervals) :
    Canonical l.complement.intervals ∧
      ∀ c, Covered l.complement.intervals c ↔
        Cut.below .minKey ≤ c ∧ c < Cut.above .maxKey ∧ ¬Covered l.intervals c := by
  have h := gaps_spec hl fun i _ => below_minKey_le i.start (!i.startInclusive)
  exact ⟨h.1, h.2.2⟩

/-- The complement holds the values that the list does not. -/
lemma complement_holds {l : IntervalList} (hl : Canonical l.intervals) (v : Value) :
    l.complement.Holds v ↔ ¬l.Holds v := by
  have hmin : Cut.below .minKey ≤ Cut.below v := below_minKey_le v false
  have hmax : Cut.below v < Cut.above .maxKey := Cut.below_lt_above.2 (Value.le_maxKey v)
  rw [Holds, Holds, held_iff, held_iff, (complement_spec hl).2]
  simp only [hmin, hmax, true_and]

end ScanBounds.IntervalList

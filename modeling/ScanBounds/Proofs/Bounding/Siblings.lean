import ScanBounds.Proofs.Recipe.Replay

/-!
# Sibling predicates

Predicates on one field are put together one after the other.  Each step narrows the list to what its
predicate holds as well, or widens it by that.  A step that cannot find the bounds of its predicate leaves the
list alone, and any other succeeds: the list and the bounds that join it are canonical, and canonical lists can
always be merged and intersected.  The outcome is canonical again and covers what both, or either, cover
(`join_canonical`).

So a run keeps the list canonical whatever fails in it.  And since a canonical list is determined by what it
covers, siblings can be visited in any order: a conjunction of them does not depend on it, nor does a
disjunction, nor the loosest of some tightnesses.
-/

namespace ScanBounds

open IntervalList

/-! ## Both or either -/

/-- How the bounds of a sibling join a list. -/
inductive Joining where
  | narrow
  | widen

namespace Joining

/-- Whether a joined list has what the list before and the sibling may each have. -/
def Joins : Joining → Prop → Prop → Prop
  | narrow, before, own => before ∧ own
  | widen, before, own => before ∨ own

/-- Whether siblings together have what each of them may have. -/
def Jointly (how : Joining) (ps : List Predicate) (own : Predicate → Prop) : Prop :=
  match how with
  | narrow => ∀ p ∈ ps, own p
  | widen => ∃ p ∈ ps, own p

variable {how : Joining} {own own' : Predicate → Prop} {p : Predicate} {ps qs : List Predicate} {a a' : Prop}

lemma joins_congr (ha : a ↔ a') {c c' : Prop} (hc : c ↔ c') : how.Joins a c ↔ how.Joins a' c' := by
  rw [ha, hc]

lemma jointly_cons : how.Jointly (p :: ps) own ↔ how.Joins (own p) (how.Jointly ps own) := by
  cases how <;> simp [Jointly, Joins]

lemma joins_assoc {c d : Prop} : how.Joins (how.Joins a c) d ↔ how.Joins a (how.Joins c d) := by
  cases how
  · exact and_assoc
  · exact or_assoc

lemma jointly_perm (h : ps.Perm qs) : how.Jointly ps own ↔ how.Jointly qs own := by
  cases how <;> simp only [Jointly, h.mem_iff]

end Joining

/-! ## The looser of two -/

namespace Tightness

lemma le_inexactFetch (t : Tightness) : t ≤ .inexactFetch := by cases t <;> decide

lemma exact_le (t : Tightness) : .exact ≤ t := by cases t <;> decide

lemma le_trans {s t u : Tightness} (hst : s ≤ t) (htu : t ≤ u) : s ≤ u := Nat.le_trans hst htu

lemma combine_le_iff {s t u : Tightness} : s.combine t ≤ u ↔ s ≤ u ∧ t ≤ u := by
  cases s <;> cases t <;> cases u <;> decide

lemma le_antisymm {s t : Tightness} (hst : s ≤ t) (hts : t ≤ s) : s = t := by
  cases s <;> cases t <;> first | rfl | exact absurd hst (by decide) | exact absurd hts (by decide)

/-- A tightness is told by what is as loose. -/
lemma eq_of_le_iff {s t : Tightness} (h : ∀ u, s ≤ u ↔ t ≤ u) : s = t :=
  le_antisymm ((h t).2 (Nat.le_refl _)) ((h s).1 (Nat.le_refl _))

end Tightness

namespace Builder

variable {b : Builder} {field : IndexedField} {index : Index}

/-! ## One step -/

def join (b : Builder) (how : Joining) (p : Predicate) (field : IndexedField) (index : Index)
    (list : IntervalList) : Joined :=
  match how with
  | .narrow => b.narrow p field index list
  | .widen => b.widen p field index list

/-- Without bounds of the predicate the step fails for the same reason, and the list is left alone. -/
lemma join_of_error (how : Joining) {p : Predicate} {refusal : Refusal} (list : IntervalList)
    (h : (b.bounds p field index).result = .error refusal) :
    (b.join how p field index list).outcome.result = .error refusal ∧
      (b.join how p field index list).list = list := by
  cases how
  · simp [join, narrow, h]
  · simp [join, widen, h]

/-- Bounds of the predicate always join the list. -/
lemma join_canonical (how : Joining) {p : Predicate} {list own : IntervalList} {tightness : Tightness}
    (hlist : CanonicalFor field.name list) (hown : CanonicalFor field.name own)
    (h : (b.bounds p field index).result = .ok (own, tightness)) :
    (b.join how p field index list).outcome.result = .ok tightness ∧
      CanonicalFor field.name (b.join how p field index list).list ∧
      ∀ c, Covered (b.join how p field index list).list.intervals c ↔
        how.Joins (Covered list.intervals c) (Covered own.intervals c) := by
  obtain ⟨hcan, hfield⟩ := hlist
  obtain ⟨hocan, hofield⟩ := hown
  cases how with
  | narrow =>
    obtain ⟨both, hboth, hbfield, hbcan, hbc⟩ := intersect_spec hocan hcan (hofield.trans hfield.symm)
    simp only [join, narrow, h, hboth, true_and]
    refine ⟨⟨hbcan, hbfield.trans hfield⟩, fun c => ?_⟩
    rw [hbc, and_comm]
    rfl
  | widen =>
    have hwf : ∀ i ∈ list.intervals ++ own.intervals, i.WellFormed :=
      List.forall_mem_append.2 ⟨hcan.wellFormed, hocan.wellFormed⟩
    obtain ⟨hnone, hmfield, hmcan, hmc⟩ :=
      merged_spec (l := ⟨list.field, list.intervals ++ own.intervals⟩) hwf
    simp only [join, widen, h, hnone, true_and]
    refine ⟨⟨hmcan, hmfield.trans hfield⟩, fun c => ?_⟩
    rw [hmc, covered_append]
    rfl

lemma bounds_canonicalFor (hcover : b.coverer.GivesWellFormed)
    (hadjust : index.kind = .wildcard → b.adjuster.KeepsList) {p : Predicate} {r : FieldBounds}
    (h : (b.bounds p field index).result = .ok r) : CanonicalFor field.name r.1 := by
  obtain ⟨recipe, -, hrebuilds⟩ := recordAll_steps hcover hadjust [] none h
  exact hrebuilds.canonical

/-! ## Runs with failures -/

/-- The list after some steps, failed or not. -/
def run (b : Builder) (field : IndexedField) (index : Index) (list : IntervalList)
    (steps : List (Joining × Predicate)) : IntervalList :=
  steps.foldl (fun l step => (b.join step.1 step.2 field index l).list) list

section Run

variable (hcover : b.coverer.GivesWellFormed) (hadjust : index.kind = .wildcard → b.adjuster.KeepsList)

include hcover hadjust

lemma join_canonicalFor (how : Joining) (p : Predicate) {list : IntervalList}
    (hlist : CanonicalFor field.name list) : CanonicalFor field.name (b.join how p field index list).list := by
  cases h : (b.bounds p field index).result with
  | error refusal =>
    rw [(join_of_error how list h).2]
    exact hlist
  | ok r => exact (join_canonical how hlist (bounds_canonicalFor hcover hadjust h) h).2.1

lemma run_canonicalFor (steps : List (Joining × Predicate)) {list : IntervalList}
    (hlist : CanonicalFor field.name list) : CanonicalFor field.name (b.run field index list steps) := by
  induction steps generalizing list with
  | nil => exact hlist
  | cons step rest ih => exact ih (join_canonicalFor hcover hadjust step.1 step.2 hlist)

end Run

/-- **Runs with failures.**  A run that starts from a canonical list for the field keeps it canonical.  Each
of its steps succeeds exactly if the bounds of its predicate are found, and then the list holds the values that
both, or either, hold.  A step that fails leaves the list as it was. -/
theorem run_keeps_canonical (hcover : b.coverer.GivesWellFormed)
    (hadjust : index.kind = .wildcard → b.adjuster.KeepsList) {start : IntervalList}
    (hstart : start.isCanonical = true) (hfield : start.field = field.name)
    (steps : List (Joining × Predicate)) (how : Joining) (p : Predicate) :
    let list := b.run field index start steps
    let joined := b.join how p field index list
    joined.list = b.run field index start (steps ++ [(how, p)]) ∧
      (list.isCanonical = true ∧ list.field = field.name) ∧
      (joined.list.isCanonical = true ∧ joined.list.field = field.name) ∧
      (∀ tightness, joined.outcome.result = .ok tightness →
        ∃ own, (b.bounds p field index).result = .ok (own, tightness) ∧
          ∀ v, joined.list.Holds v ↔ how.Joins (list.Holds v) (own.Holds v)) ∧
      ∀ refusal, joined.outcome.result = .error refusal →
        (b.bounds p field index).result = .error refusal ∧ joined.list = list := by
  intro list joined
  have hlist : CanonicalFor field.name list :=
    run_canonicalFor hcover hadjust steps ⟨isCanonical_iff.1 hstart, hfield⟩
  have hjoined : CanonicalFor field.name joined.list := join_canonicalFor hcover hadjust how p hlist
  refine ⟨?_, ⟨isCanonical_iff.2 hlist.1, hlist.2⟩, ⟨isCanonical_iff.2 hjoined.1, hjoined.2⟩, ?_⟩
  · rw [run, List.foldl_append]
    rfl
  cases h : (b.bounds p field index).result with
  | error refusal =>
    obtain ⟨hresult, hsame⟩ := join_of_error how list h
    refine ⟨fun tightness ht => ?_, fun refusal' hr => ⟨?_, hsame⟩⟩
    · cases hresult.symm.trans ht
    · rw [Except.error.inj (hresult.symm.trans hr)]
  | ok own =>
    obtain ⟨hresult, -, hc⟩ := join_canonical how hlist (bounds_canonicalFor hcover hadjust h) h
    refine ⟨fun tightness ht => ⟨own.1, ?_, fun v => ?_⟩, fun refusal hr => ?_⟩
    · rw [← Except.ok.inj (hresult.symm.trans ht)]
    · rw [Holds, Holds, Holds, held_iff, held_iff, held_iff]
      exact hc _
    · cases hresult.symm.trans hr

/-- From the values above `1`, a run that widens by null, fails to negate a remainder, and narrows to what is
not `4`.  Its last step is one that fails. -/
theorem run_keeps_canonical_over_failure :
    let b := Builder.ofSettings {}
    let field : IndexedField := ⟨"a", .ascending⟩
    let index := Index.ofPattern "a_1" ⟨[field]⟩
    let start : IntervalList := ⟨"a", [.range (.int 1) (.double .infinity) .stopOnly]⟩
    let steps : List (Joining × Predicate) :=
      [(.widen, .comparison "a" .eq .null), (.narrow, .not (.comparison "a" .eq (.int 4)))]
    let p : Predicate := .not (.mod "a" 4 1)
    let list := b.run field index start steps
    let joined := b.join .widen p field index list
    b.coverer.GivesWellFormed ∧ (index.kind = .wildcard → b.adjuster.KeepsList) ∧
      start.isCanonical = true ∧ start.field = field.name ∧ list.intervals.length = 4 ∧
      joined.list.isCanonical = true ∧ joined.outcome.result.isOk = false ∧
      ∀ refusal, joined.outcome.result = .error refusal →
        (b.bounds p field index).result = .error refusal ∧ joined.list = list := by
  intro b field index start steps p list joined
  have hcover : b.coverer.GivesWellFormed := fullScan_sound.givesWellFormed
  have hadjust : index.kind = .wildcard → b.adjuster.KeepsList := fun _ => standard_keepsList
  have hstart : start.isCanonical = true := by decide +kernel
  have hfield : start.field = field.name := rfl
  obtain ⟨-, -, hcanonical, -, hfails⟩ := run_keeps_canonical hcover hadjust hstart hfield steps .widen p
  exact ⟨hcover, hadjust, hstart, hfield, by decide +kernel, hcanonical.1, by decide +kernel, hfails⟩

/-! ## Siblings in any order -/

/-- Joins a list with siblings, combining the tightness of each with the one so far, up to the first failure. -/
def accumulate (b : Builder) (how : Joining) (field : IndexedField) (index : Index) :
    FieldBounds → List Predicate → Except Refusal FieldBounds
  | bounds, [] => .ok bounds
  | bounds, p :: rest => do
    let joined := b.join how p field index bounds.1
    let tightness ← joined.outcome.result
    accumulate b how field index (joined.list, bounds.2.combine tightness) rest

/-- Starts from the bounds of the first sibling. -/
def siblings (b : Builder) (how : Joining) (field : IndexedField) (index : Index) (first : Predicate)
    (rest : List Predicate) : Except Refusal FieldBounds := do
  let bounds ← (b.bounds first field index).result
  b.accumulate how field index bounds rest

/-- The bounds of a predicate are found, and are good. -/
def Finds (b : Builder) (field : IndexedField) (index : Index) (good : FieldBounds → Prop) (p : Predicate) : Prop :=
  ∃ own, (b.bounds p field index).result = .ok own ∧ good own

lemma finds_iff {p : Predicate} {own : FieldBounds} {good : FieldBounds → Prop}
    (h : (b.bounds p field index).result = .ok own) : b.Finds field index good p ↔ good own := by
  constructor
  · rintro ⟨own', h', hgood⟩
    rwa [Except.ok.inj (h.symm.trans h')] at *
  · exact fun hgood => ⟨own, h, hgood⟩

/-- Siblings with bounds always join a list.  It then covers what they cover together, with the loosest of their
tightnesses. -/
lemma accumulate_spec (how : Joining) {ps : List Predicate}
    (hps : ∀ p ∈ ps, b.Finds field index (fun own => CanonicalFor field.name own.1) p) (bounds : FieldBounds)
    (hbounds : CanonicalFor field.name bounds.1) :
    ∃ joined, b.accumulate how field index bounds ps = .ok joined ∧ CanonicalFor field.name joined.1 ∧
      (∀ c, Covered joined.1.intervals c ↔ how.Joins (Covered bounds.1.intervals c)
        (how.Jointly ps (b.Finds field index fun own => Covered own.1.intervals c))) ∧
      ∀ t, joined.2 ≤ t ↔ bounds.2 ≤ t ∧ ∀ p ∈ ps, b.Finds field index (fun own => own.2 ≤ t) p := by
  induction ps generalizing bounds with
  | nil =>
    refine ⟨bounds, rfl, hbounds, fun c => ?_, by simp⟩
    cases how <;> simp [Joining.Joins, Joining.Jointly]
  | cons p rest ih =>
    obtain ⟨⟨own, h, hown⟩, hrest⟩ := List.forall_mem_cons.1 hps
    obtain ⟨hresult, hcan, hc⟩ := join_canonical how hbounds hown h
    obtain ⟨joined, hjoined, hjcan, hjc, hjt⟩ := ih hrest
      ((b.join how p field index bounds.1).list, bounds.2.combine own.2) hcan
    refine ⟨joined, ?_, hjcan, fun c => ?_, fun t => ?_⟩
    · rw [accumulate, hresult]
      exact hjoined
    · rw [hjc, Joining.jointly_cons, ← Joining.joins_assoc, finds_iff h]
      exact Joining.joins_congr (hc c) Iff.rfl
    · rw [hjt, Tightness.combine_le_iff, List.forall_mem_cons, finds_iff h, and_assoc]

/-- Siblings with bounds always lead to a list.  It covers what they cover together, and their loosest tightness
comes with it. -/
lemma siblings_spec (how : Joining) {p : Predicate} {ps : List Predicate}
    (hps : ∀ s ∈ p :: ps, b.Finds field index (fun own => CanonicalFor field.name own.1) s) :
    ∃ joined, b.siblings how field index p ps = .ok joined ∧ CanonicalFor field.name joined.1 ∧
      (∀ c, Covered joined.1.intervals c ↔
        how.Jointly (p :: ps) (b.Finds field index fun own => Covered own.1.intervals c)) ∧
      ∀ t, joined.2 ≤ t ↔ ∀ s ∈ p :: ps, b.Finds field index (fun own => own.2 ≤ t) s := by
  obtain ⟨⟨own, h, hown⟩, hrest⟩ := List.forall_mem_cons.1 hps
  obtain ⟨joined, hjoined, hcan, hc, ht⟩ := accumulate_spec how hrest own hown
  refine ⟨joined, ?_, hcan, fun c => ?_, fun t => ?_⟩
  · rw [siblings, h]
    exact hjoined
  · rw [hc, Joining.jointly_cons, finds_iff h]
  · rw [ht, List.forall_mem_cons, finds_iff h]

/-- **Any order.**  Siblings that each have bounds can be put together in every order.  The list is the same, and
holds the values that all of them, or any of them, hold; the tightness is the same, the loosest of theirs. -/
theorem siblings_in_any_order (hcover : b.coverer.GivesWellFormed) (hkind : index.kind ≠ .wildcard)
    (how : Joining) {p q : Predicate} {ps qs : List Predicate} (horder : (q :: qs).Perm (p :: ps))
    (hfound : ∀ s ∈ p :: ps, (b.bounds s field index).result.isOk = true) :
    ∃ list list' tightness, b.siblings how field index p ps = .ok (list, tightness) ∧
      b.siblings how field index q qs = .ok (list', tightness) ∧ (list' == list) = true ∧
      (∀ v, list.Holds v ↔ how.Jointly (p :: ps) (b.Finds field index fun own => own.1.Holds v)) ∧
      ∀ t, tightness ≤ t ↔ ∀ s ∈ p :: ps, b.Finds field index (fun own => own.2 ≤ t) s := by
  have hps : ∀ s ∈ p :: ps, b.Finds field index (fun own => CanonicalFor field.name own.1) s := by
    intro s hs
    have hok := hfound s hs
    cases h : (b.bounds s field index).result with
    | error refusal => simp [h, Except.isOk, Except.toBool] at hok
    | ok own => exact ⟨own, h, bounds_canonicalFor hcover (fun hw => absurd hw hkind) h⟩
  obtain ⟨joined, hjoined, hcan, hc, ht⟩ := siblings_spec how hps
  obtain ⟨joined', hjoined', hcan', hc', ht'⟩ :=
    siblings_spec how fun s hs => hps s (horder.mem_iff.1 hs)
  have hloose : joined'.2 = joined.2 := by
    apply Tightness.eq_of_le_iff
    intro t
    rw [ht, ht']
    simp only [horder.mem_iff]
  refine ⟨joined.1, joined'.1, joined.2, hjoined, ?_, ?_, fun v => ?_, ht⟩
  · rw [hjoined', ← hloose]
  · apply beq_of_covered (hcan'.2.trans hcan.2.symm) hcan'.1 hcan.1
    intro c
    rw [hc, hc', Joining.jointly_perm horder]
  · rw [Holds, held_iff, hc]
    simp only [Holds, held_iff]

/-- Three siblings, widening and in two orders; one of them alone is inexact. -/
theorem siblings_in_any_order_of_three :
    let b := Builder.ofSettings {}
    let field : IndexedField := ⟨"a", .descending⟩
    let index := Index.ofPattern "a_-1" ⟨[field]⟩
    let above : Predicate := .comparison "a" .gt (.int 1)
    let absent : Predicate := .comparison "a" .eq .null
    let other : Predicate := .comparison "a" .eq (.string "x")
    b.coverer.GivesWellFormed ∧ index.kind ≠ .wildcard ∧ [other, above, absent].Perm [above, absent, other] ∧
      (∀ s ∈ [above, absent, other], (b.bounds s field index).result.isOk = true) ∧
      ∃ list list' tightness, b.siblings .widen field index above [absent, other] = .ok (list, tightness) ∧
        b.siblings .widen field index other [above, absent] = .ok (list', tightness) ∧ (list' == list) = true ∧
        (∀ v, list.Holds v ↔
          ∃ s ∈ [above, absent, other], b.Finds field index (fun own => own.1.Holds v) s) ∧
        ∀ t, tightness ≤ t ↔ ∀ s ∈ [above, absent, other], b.Finds field index (fun own => own.2 ≤ t) s := by
  intro b field index above absent other
  have hcover : b.coverer.GivesWellFormed := fullScan_sound.givesWellFormed
  have hkind : index.kind ≠ .wildcard := by decide +kernel
  have horder : [other, above, absent].Perm [above, absent, other] := @List.perm_append_comm _ [other] [above, absent]
  have hfound : ∀ s ∈ [above, absent, other], (b.bounds s field index).result.isOk = true := by decide +kernel
  exact ⟨hcover, hkind, horder, hfound, siblings_in_any_order hcover hkind .widen horder hfound⟩

end Builder

end ScanBounds

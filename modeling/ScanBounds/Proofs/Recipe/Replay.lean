import ScanBounds.Proofs.Bounding.Canonical
import ScanBounds.Proofs.Interval.Laws
import ScanBounds.Proofs.Recipe.Postfix

/-!
# Recordings replay to the list

While bounds are derived, each step acts on the stack of recipes that a recording keeps.  `Leaves` says of a
derivation what becomes of the stack, in the manner of a pre- and postcondition: whatever happens, no misuse
is noted, and if there is a result, it stands in a stated relation to the stack.  For the derivation of a
predicate that relation is one more recipe, which rebuilds the list (`derive_leaves`).

Rebuilding gives a list with equal ends and not always the same ends, since an intersection is replayed from
the other side.  So `Rebuilds` compares what the lists cover, and canonical form makes them equal in the end.
-/

namespace ScanBounds

open IntervalList

/-! ## Listening -/

namespace Traced

variable {ω ε α β σ : Type} (listen : σ → ω → σ) (s : σ)

/-- Who listens to one computation after another goes on from what the first has left, so that every report
is heard when it is made. -/
lemma hear_bind (x : Traced ω ε α) (f : α → Traced ω ε β) :
    (x >>= f).hear listen s = match x.hear listen s with
      | (.ok a, s') => (f a).hear listen s'
      | (.error e, s') => (.error e, s') := by
  show (Traced.bind x f).hear listen s = _
  unfold Traced.bind hear
  cases x.result with
  | ok a => simp only [List.foldl_append]
  | error e => rfl

end Traced

/-! ## What a derivation leaves on the stack -/

/-- Heard by a recording that starts with the stack `before`, the derivation leaves a stack that is good for
its result, and notes no misuse even if it fails. -/
def Leaves {α : Type} (before : List Recipe) (good : List Recipe → α → Prop) (d : Derivation α) : Prop :=
  ∃ after, (∀ misuse, (d.hear Recording.record ⟨before, misuse⟩).2 = ⟨after, misuse⟩) ∧
    ∀ a, d.result = .ok a → good after a

namespace Leaves

variable {α β : Type} {before after : List Recipe} {good : List Recipe → α → Prop}
  {good' : List Recipe → β → Prop}

lemma bind {d : Derivation α} {f : α → Derivation β} (hd : Leaves before good d)
    (hf : ∀ after a, good after a → Leaves after good' (f a)) : Leaves before good' (d >>= f) := by
  obtain ⟨after, hheard, hgood⟩ := hd
  have hhear (misuse : Option Misuse) :
      d.hear Recording.record ⟨before, misuse⟩ = (d.result, ⟨after, misuse⟩) :=
    Prod.ext rfl (hheard misuse)
  cases hr : d.result with
  | error e =>
    refine ⟨after, fun misuse => ?_, fun b hb => ?_⟩
    · rw [Traced.hear_bind, hhear, hr]
    · rw [Traced.bind_result, hr] at hb
      cases hb
  | ok a =>
    obtain ⟨after', hheard', hgood'⟩ := hf after a (hgood a hr)
    refine ⟨after', fun misuse => ?_, fun b hb => hgood' b ?_⟩
    · rw [Traced.hear_bind, hhear, hr]
      exact hheard' misuse
    · rw [Traced.bind_result, hr] at hb
      exact hb

lemma pure {a : α} (h : good before a) : Leaves before good (Pure.pure a : Derivation α) := by
  refine ⟨before, fun misuse => rfl, fun a' ha => ?_⟩
  obtain rfl := Except.ok.inj ha
  exact h

lemma fail (r : Refusal) : Leaves before good (Traced.fail r : Derivation α) :=
  ⟨before, fun _ => rfl, nofun⟩

lemma bind_ofExcept {x : Except Refusal α} {f : α → Derivation β}
    (h : ∀ a, x = .ok a → Leaves before good' (f a)) : Leaves before good' (Traced.ofExcept x >>= f) := by
  have hx : Leaves before (fun after a => after = before ∧ x = .ok a) (.ofExcept x : Derivation α) :=
    ⟨before, fun _ => rfl, fun a ha => ⟨rfl, ha⟩⟩
  apply hx.bind
  rintro _ a ⟨rfl, ha⟩
  exact h a ha

lemma bind_report {step : Step} {f : Unit → Derivation β}
    (hstep : ∀ misuse, Recording.record ⟨before, misuse⟩ step = ⟨after, misuse⟩)
    (h : Leaves after good' (f ())) : Leaves before good' (Traced.report step >>= f) := by
  have hreport : Leaves before (fun stack _ => stack = after) (.report step : Derivation Unit) :=
    ⟨after, hstep, fun _ _ => rfl⟩
  apply hreport.bind
  rintro _ _ rfl
  exact h

end Leaves

/-! ## Recipes that rebuild a list -/

/-- Replaying the recipe gives the list, but for which of several equal values stand at the ends. -/
structure Rebuilds (b : Builder) (field : IndexedField) (index : Index) (recipe : Recipe)
    (list : IntervalList) : Prop where
  canonical : CanonicalFor field.name list
  replayed : ∃ l, (recipe.replay b field index).result = .ok l ∧ CanonicalFor field.name l ∧
    ∀ c, Covered l.intervals c ↔ Covered list.intervals c

namespace Rebuilds

variable {b : Builder} {field : IndexedField} {index : Index} {recipe left right : Recipe}
  {list next : IntervalList}

lemma const (h : CanonicalFor field.name list) : Rebuilds b field index (.const list) list :=
  ⟨h, list, rfl, h, fun _ => Iff.rfl⟩

/-- The list kept with a predicate does not matter. -/
lemma eval {p : Predicate} {tightness : Tightness} (kept : IntervalList) (h : CanonicalFor field.name list)
    (hbounds : (b.bounds p field index).result = .ok (list, tightness)) :
    Rebuilds b field index (.eval p kept) list := by
  refine ⟨h, list, ?_, h, fun _ => Iff.rfl⟩
  simp only [Recipe.replay, Traced.bind_result, hbounds]
  rfl

lemma complement (h : Rebuilds b field index recipe list) :
    Rebuilds b field index (.complement recipe) list.complement := by
  obtain ⟨⟨hcan, hfield⟩, l, hl, ⟨hlcan, hlfield⟩, hc⟩ := h
  obtain ⟨hcan', hc'⟩ := complement_spec hcan
  obtain ⟨hlcan', hlc'⟩ := complement_spec hlcan
  refine ⟨⟨hcan', hfield⟩, l.complement, ?_, ⟨hlcan', hlfield⟩, fun c => ?_⟩
  · simp only [Recipe.replay, Traced.bind_result, hl]
    rfl
  · rw [hlc', hc', hc]

/-- Lists for one field have an intersection, which the joined recipes rebuild although they take it from the
other side. -/
lemma intersect (hleft : Rebuilds b field index left list) (hright : Rebuilds b field index right next) :
    ∃ both, next.intersect list = .ok both ∧ Rebuilds b field index (.intersect left right) both := by
  obtain ⟨⟨hcan, hfield⟩, l, hl, ⟨hlcan, hlfield⟩, hlc⟩ := hleft
  obtain ⟨⟨hncan, hnfield⟩, r, hr, ⟨hrcan, hrfield⟩, hrc⟩ := hright
  obtain ⟨both, hboth, hbfield, hbcan, hbc⟩ := intersect_spec hncan hcan (hnfield.trans hfield.symm)
  obtain ⟨m, hm, hmfield, hmcan, hmc⟩ := intersect_spec hlcan hrcan (hlfield.trans hrfield.symm)
  refine ⟨both, hboth, ⟨hbcan, hbfield.trans hfield⟩, m, ?_, ⟨hmcan, hmfield.trans hrfield⟩, fun c => ?_⟩
  · simp only [Recipe.replay, Traced.bind_result, hl, hr]
    show (Recipe.replay.ofDisorder (l.intersect r)).result = .ok m
    rw [hm]
    rfl
  · rw [hmc, hbc, hlc, hrc, and_comm]

/-- Lists for one field can be merged, and the joined recipes rebuild the outcome. -/
lemma union (hleft : Rebuilds b field index left list) (hright : Rebuilds b field index right next) :
    let merged := (IntervalList.mk list.field (list.intervals ++ next.intervals)).merged
    merged.disorder = none ∧ Rebuilds b field index (.union left right) merged.list := by
  obtain ⟨⟨hcan, hfield⟩, l, hl, ⟨hlcan, hlfield⟩, hlc⟩ := hleft
  obtain ⟨⟨hncan, -⟩, r, hr, ⟨hrcan, -⟩, hrc⟩ := hright
  have hwf {x y : List Interval} (hx : Canonical x) (hy : Canonical y) : ∀ i ∈ x ++ y, i.WellFormed := by
    intro i hi
    rcases List.mem_append.1 hi with hi | hi
    · exact hx.wellFormed i hi
    · exact hy.wellFormed i hi
  obtain ⟨hnone, hmfield, hmcan, hmc⟩ :=
    merged_spec (l := ⟨list.field, list.intervals ++ next.intervals⟩) (hwf hcan hncan)
  obtain ⟨m, hm, hufield, hucan, huc⟩ :=
    union_spec (l := ⟨l.field, l.intervals ++ r.intervals⟩) (hwf hlcan hrcan)
  refine ⟨hnone, ⟨hmcan, hmfield.trans hfield⟩, m, ?_, ⟨hucan, hufield.trans hlfield⟩, fun c => ?_⟩
  · simp only [Recipe.replay, Traced.bind_result, hl, hr]
    show (Recipe.replay.ofDisorder (IntervalList.mk l.field (l.intervals ++ r.intervals)).union).result = .ok m
    rw [hm]
    rfl
  · rw [hmc, huc, covered_append, covered_append, hlc, hrc]

/-- What the recipe rebuilds is the list, by equality of lists. -/
lemma replay_beq (h : Rebuilds b field index recipe list) :
    ∃ replayed, (recipe.replay b field index).result = .ok replayed ∧ (replayed == list) = true := by
  obtain ⟨⟨hcan, hfield⟩, l, hl, ⟨hlcan, hlfield⟩, hc⟩ := h
  exact ⟨l, hl, beq_of_covered (hlfield.trans hfield.symm) hlcan hcan hc⟩

end Rebuilds

namespace Builder

variable {b : Builder} {field : IndexedField} {index : Index} {before : List Recipe}

/-! ## Leaves -/

/-- One more recipe on the stack, which rebuilds the list. -/
def Pushed (b : Builder) (field : IndexedField) (index : Index) (before after : List Recipe)
    (list : IntervalList) : Prop :=
  ∃ recipe, after = recipe :: before ∧ Rebuilds b field index recipe list

lemma constant_leaves {x : Except Refusal OperandBounds} (hx : ∀ o, x = .ok o → Canonical o.1) :
    Leaves before (fun after r => Pushed b field index before after r.1) (constant field.name x) := by
  apply Leaves.bind_ofExcept
  intro o ho
  apply Leaves.bind_report fun _ => Recording.record_const _ _ _
  exact .pure ⟨_, rfl, .const ⟨hx o ho, rfl⟩⟩

lemma evaluated_leaves (hadjust : index.kind = .wildcard → b.adjuster.KeepsList) {p : Predicate}
    {x : Except Refusal OperandBounds} (hderive : b.derive field index p = evaluated p field.name x)
    (hx : ∀ o, x = .ok o → Canonical o.1) :
    Leaves before (fun after r => Pushed b field index before after r.1) (evaluated p field.name x) := by
  apply Leaves.bind_ofExcept
  intro o ho
  have hresult : (b.derive field index p).result = .ok (⟨field.name, o.1⟩, o.2) := by
    rw [hderive, evaluated, ho]
    rfl
  obtain ⟨tightness, hbounds⟩ := bounds_of_derive hadjust hresult
  apply Leaves.bind_report fun _ => Recording.record_eval _ _ _ _
  exact .pure ⟨_, rfl, .eval _ ⟨hx o ho, rfl⟩ hbounds⟩

lemma leaf_leaves (hcover : b.coverer.GivesWellFormed)
    (hadjust : index.kind = .wildcard → b.adjuster.KeepsList) {p : Predicate}
    (hderive : b.derive field index p = b.leaf p field index) :
    Leaves before (fun after r => Pushed b field index before after r.1) (b.leaf p field index) := by
  cases p with
  | present path =>
    apply constant_leaves
    rintro o ⟨⟩
    exact Canonical.singleton (wellFormed_allValuesWith _)
  | comparison path op operand =>
    exact evaluated_leaves hadjust hderive fun o => (comparisonBounds_yields _ _ _ _).of_eq_ok
  | exprComparison path op operand =>
    simp only [leaf]
    split_ifs
    · exact constant_leaves fun o => (equalityBounds_yields _ _ _).of_eq_ok
    · exact .fail _
    · apply constant_leaves
      rintro o ⟨⟩
      exact exprBounds_canonical _ _ _
  | regex path term =>
    apply evaluated_leaves hadjust hderive
    rintro o ⟨⟩
    exact regexBounds_canonical _ _
  | mod path divisor remainder =>
    apply constant_leaves
    rintro o ⟨⟩
    exact Canonical.singleton (bracket_wellFormed _)
  | hasType path types => exact evaluated_leaves hadjust hderive fun o => (typeBounds_yields _ _).of_eq_ok
  | isIn path members =>
    exact evaluated_leaves hadjust hderive fun o => (membershipBounds_yields _ _ _).of_eq_ok
  | geo path geometry => exact constant_leaves fun o => cells_canonical hcover
  | bucketGeo path geometry => exact constant_leaves fun o => cells_canonical hcover
  | elemMatch path children => exact .fail _
  | not child => exact .fail _

/-! ## Negations -/

lemma absence?_leaves {child : Predicate} {d : Derivation FieldBounds}
    (h : absence? child field index = some d) :
    Leaves before (fun after r => Pushed b field index before after r.1) d := by
  unfold absence? at h
  split at h
  · cases h
    split_ifs
    · exact .fail _
    · exact constant_leaves fun o => (nullBounds_yields _).of_eq_ok
  · split_ifs at h
    cases h
    apply constant_leaves
    intro o ho
    obtain ⟨nulls, hnulls, ho⟩ := exists_of_bind_eq_ok ho
    obtain ⟨m, hm, ho⟩ := exists_of_bind_eq_ok ho
    obtain rfl := Except.ok.inj ho
    have hrest := (complement_spec (l := ⟨field.name, nulls.1 ++ [.emptyArrayPoint]⟩)
      (nulls_concat_canonical hnulls)).1
    exact (unionOf_yields hrest.wellFormed).of_eq_ok hm
  · cases h

lemma negate_leaves (child : Predicate) {recipe : Recipe} {bounds : FieldBounds}
    (h : Rebuilds b field index recipe bounds.1) :
    Leaves (recipe :: before) (fun after r => Pushed b field index before after r.1)
      (negate child field index bounds) := by
  unfold negate
  apply Leaves.bind_report fun _ => Recording.record_complement _ _ _
  by_cases hfail : ((if child.isEqualityOrInNull then .exact else bounds.2) != .exact &&
      index.collator.isNone) = true
  · rw [if_pos hfail]
    exact .fail _
  · rw [if_neg hfail]
    exact .pure ⟨_, rfl, h.complement⟩

/-! ## Whole predicates -/

mutual

/-- Deriving the bounds of a predicate leaves one more recipe, and it rebuilds the list. -/
theorem derive_leaves (hcover : b.coverer.GivesWellFormed)
    (hadjust : index.kind = .wildcard → b.adjuster.KeepsList) (before : List Recipe) (p : Predicate) :
    Leaves before (fun after r => Pushed b field index before after r.1) (b.derive field index p) := by
  unfold derive
  split_ifs with hhash
  · exact .fail _
  · split
    · split
      · exact .fail _
      · apply (derive_leaves hcover hadjust before _).bind
        rintro _ bounds ⟨recipe, rfl, hbounds⟩
        apply (deriveAll_leaves hcover hadjust before hbounds _).bind
        rintro _ list hlist
        exact .pure hlist
    · split
      · exact absence?_leaves (by assumption)
      · apply (derive_leaves hcover hadjust before _).bind
        rintro _ bounds ⟨recipe, rfl, hbounds⟩
        exact negate_leaves _ hbounds
    · apply leaf_leaves hcover hadjust
      rw [derive, if_neg hhash] <;> assumption

/-- Intersecting with the lists of more predicates joins their recipes to the one on top. -/
theorem deriveAll_leaves (hcover : b.coverer.GivesWellFormed)
    (hadjust : index.kind = .wildcard → b.adjuster.KeepsList) (before : List Recipe) {recipe : Recipe}
    {list : IntervalList} (h : Rebuilds b field index recipe list) (ps : List Predicate) :
    Leaves (recipe :: before) (fun after l => Pushed b field index before after l)
      (b.deriveAll field index list ps) := by
  cases ps with
  | nil => exact .pure ⟨recipe, rfl, h⟩
  | cons p rest =>
    rw [deriveAll]
    apply (derive_leaves hcover hadjust (recipe :: before) p).bind
    rintro _ ⟨next, tightness⟩ ⟨right, rfl, hnext⟩
    obtain ⟨both, hboth, hrebuilds⟩ := h.intersect hnext
    simp only [hboth, ofDisorder]
    apply Leaves.bind_ofExcept
    rintro _ ⟨⟩
    apply Leaves.bind_report fun _ => Recording.record_intersect _ _ _ _
    exact deriveAll_leaves hcover hadjust before hrebuilds rest

end

/-! ## Bounds while a recording listens -/

/-- The bounds are the same whether a recording listens or not. -/
lemma boundsRecorded_fst (p : Predicate) (recording : Recording) :
    (b.boundsRecorded p field index recording).1 = (b.bounds p field index).result := by
  rw [bounds_eq_map]
  rfl

/-- The steps of a predicate note no misuse, also when they end in a refusal. -/
lemma recordAll_steps_misuse (hcover : b.coverer.GivesWellFormed)
    (hadjust : index.kind = .wildcard → b.adjuster.KeepsList) (p : Predicate) (recording : Recording) :
    (recording.recordAll (b.steps p field index)).misuse = recording.misuse := by
  obtain ⟨after, hheard, -⟩ := derive_leaves hcover hadjust recording.stack p
  show _ = (Recording.mk after recording.misuse).misuse
  exact congrArg Recording.misuse (hheard recording.misuse)

/-- The steps of a predicate whose bounds are found put one more recipe on the stack. -/
lemma recordAll_steps (hcover : b.coverer.GivesWellFormed)
    (hadjust : index.kind = .wildcard → b.adjuster.KeepsList) (before : List Recipe) (misuse : Option Misuse)
    {p : Predicate} {list : IntervalList} {tightness : Tightness}
    (h : (b.bounds p field index).result = .ok (list, tightness)) :
    ∃ recipe, Recording.recordAll ⟨before, misuse⟩ (b.steps p field index) = ⟨recipe :: before, misuse⟩ ∧
      Rebuilds b field index recipe list := by
  obtain ⟨after, hheard, hgood⟩ := derive_leaves hcover hadjust before p
  rw [bounds_eq_map] at h
  cases hr : (b.derive field index p).result with
  | error refusal =>
    rw [hr] at h
    cases h
  | ok derived =>
    rw [hr] at h
    obtain ⟨recipe, rfl, hrebuilds⟩ := hgood derived hr
    obtain rfl : derived.1 = list :=
      (adjusted_fst hadjust derived).symm.trans (congrArg Prod.fst (Except.ok.inj h))
    exact ⟨recipe, hheard misuse, hrebuilds⟩

/-! ## Siblings -/

/-- A list that sibling predicates on one field were put together to, each step with success, and what a
recording has heard of it from the first predicate on. -/
inductive Accumulates (b : Builder) (field : IndexedField) (index : Index) :
    IntervalList → Recording → Prop
  | start {p : Predicate} {list : IntervalList} {tightness : Tightness}
      (h : (b.boundsRecorded p field index .empty).1 = .ok (list, tightness)) :
      Accumulates b field index list (b.boundsRecorded p field index .empty).2
  | narrow {list : IntervalList} {recording : Recording} {p : Predicate} {tightness : Tightness}
      (before : Accumulates b field index list recording)
      (h : (b.narrow p field index list).outcome.result = .ok tightness) :
      Accumulates b field index (b.narrow p field index list).list
        (recording.recordAll (b.narrow p field index list).steps)
  | widen {list : IntervalList} {recording : Recording} {p : Predicate} {tightness : Tightness}
      (before : Accumulates b field index list recording)
      (h : (b.widen p field index list).outcome.result = .ok tightness) :
      Accumulates b field index (b.widen p field index list).list
        (recording.recordAll (b.widen p field index list).steps)

/-- The stack holds a single recipe, which rebuilds the list. -/
def Kept (b : Builder) (field : IndexedField) (index : Index) (list : IntervalList) (recording : Recording) :
    Prop :=
  ∃ recipe, recording = ⟨[recipe], none⟩ ∧ Rebuilds b field index recipe list

section Siblings

variable (hcover : b.coverer.GivesWellFormed) (hadjust : index.kind = .wildcard → b.adjuster.KeepsList)
  {p : Predicate} {list : IntervalList} {tightness : Tightness} {recording : Recording}

include hcover hadjust

lemma narrow_kept (hkept : Kept b field index list recording)
    (h : (b.narrow p field index list).outcome.result = .ok tightness) :
    Kept b field index (b.narrow p field index list).list
      (recording.recordAll (b.narrow p field index list).steps) := by
  obtain ⟨left, rfl, hleft⟩ := hkept
  cases hr : (b.bounds p field index).result with
  | error refusal => simp [narrow, hr] at h
  | ok next =>
    obtain ⟨right, hsteps, hright⟩ := recordAll_steps hcover hadjust [left] none hr
    obtain ⟨both, hboth, hrebuilds⟩ := hleft.intersect hright
    simp only [narrow, hr, hboth, Recording.recordAll_append, hsteps]
    exact ⟨.intersect left right, rfl, hrebuilds⟩

lemma widen_kept (hkept : Kept b field index list recording)
    (h : (b.widen p field index list).outcome.result = .ok tightness) :
    Kept b field index (b.widen p field index list).list
      (recording.recordAll (b.widen p field index list).steps) := by
  obtain ⟨left, rfl, hleft⟩ := hkept
  cases hr : (b.bounds p field index).result with
  | error refusal => simp [widen, hr] at h
  | ok next =>
    obtain ⟨right, hsteps, hright⟩ := recordAll_steps hcover hadjust [left] none hr
    obtain ⟨hnone, hrebuilds⟩ := hleft.union hright
    simp only [widen, hr, hnone, Recording.recordAll_append, hsteps]
    exact ⟨.union left right, rfl, hrebuilds⟩

lemma Accumulates.kept (h : b.Accumulates field index list recording) : Kept b field index list recording := by
  induction h with
  | start h =>
    rw [boundsRecorded_fst] at h
    exact recordAll_steps hcover hadjust [] none h
  | narrow _ h ih => exact narrow_kept hcover hadjust ih h
  | widen _ h ih => exact widen_kept hcover hadjust ih h

end Siblings

/-- **Recordings replay.**  When sibling predicates on one field are put together and every step of it
succeeds, the recording gives a recipe, and the recipe rebuilds the list.  The bounds of one predicate put one
recipe on whatever the recording holds, and are not changed by it. -/
theorem replay_of_recording (hcover : b.coverer.GivesWellFormed)
    (hadjust : index.kind = .wildcard → b.adjuster.KeepsList) :
    (∀ list recording, b.Accumulates field index list recording →
      ∃ recipe replayed, recording.finish = .ok recipe ∧
        (recipe.replay b field index).result = .ok replayed ∧ (replayed == list) = true) ∧
    ∀ p (recording : Recording),
      (b.boundsRecorded p field index recording).1 = (b.bounds p field index).result ∧
      (b.boundsRecorded p field index recording).2.misuse = recording.misuse ∧
      ∀ list tightness, (b.bounds p field index).result = .ok (list, tightness) →
        ∃ recipe, (b.boundsRecorded p field index recording).2.stack = recipe :: recording.stack := by
  refine ⟨fun list recording h => ?_, fun p recording => ⟨boundsRecorded_fst p recording, ?_, ?_⟩⟩
  · obtain ⟨recipe, rfl, hrebuilds⟩ := h.kept hcover hadjust
    obtain ⟨replayed, hreplayed, hbeq⟩ := hrebuilds.replay_beq
    exact ⟨recipe, replayed, rfl, hreplayed, hbeq⟩
  · exact recordAll_steps_misuse hcover hadjust p recording
  · intro list tightness h
    obtain ⟨recipe, hsteps, -⟩ := recordAll_steps hcover hadjust recording.stack recording.misuse h
    exact ⟨recipe, congrArg Recording.stack hsteps⟩

/-- Values above `1`, narrowed to arrays with an element that is there and not `4`, and widened by null. -/
theorem replay_of_recording_of_siblings :
    let b := Builder.ofSettings {}
    let field : IndexedField := ⟨"a", .ascending⟩
    let index := Index.ofPattern "a_1" ⟨[field]⟩
    let above : IntervalList := ⟨"a", [.range (.int 1) (.double .infinity) .stopOnly]⟩
    let narrowed :=
      b.narrow (.elemMatch "a" [.present "a", .not (.comparison "a" .eq (.int 4))]) field index above
    let widened := b.widen (.comparison "a" .eq .null) field index narrowed.list
    ∃ recording, b.Accumulates field index widened.list recording ∧
      ∃ recipe replayed, recording.finish = .ok recipe ∧
        (recipe.replay b field index).result = .ok replayed ∧ (replayed == widened.list) = true := by
  intro b field index above narrowed widened
  have hok {x : Except Refusal Tightness} (h : x.isOk = true) : ∃ tightness, x = .ok tightness := by
    cases x with
    | error refusal => cases h
    | ok tightness => exact ⟨tightness, rfl⟩
  have habove : b.Accumulates field index above _ := .start (p := .comparison "a" .gt (.int 1)) rfl
  obtain ⟨_, ht⟩ := hok (show narrowed.outcome.result.isOk = true by decide +kernel)
  obtain ⟨_, hu⟩ := hok (show widened.outcome.result.isOk = true by decide +kernel)
  have hwidened := (habove.narrow ht).widen hu
  have hadjust : index.kind = .wildcard → b.adjuster.KeepsList := fun _ => standard_keepsList
  exact ⟨_, hwidened, (replay_of_recording fullScan_sound.givesWellFormed hadjust).1 _ _ hwidened⟩

end Builder

end ScanBounds

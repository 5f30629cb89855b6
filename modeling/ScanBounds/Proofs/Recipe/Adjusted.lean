import ScanBounds.Proofs.Recipe.Replay

/-!
# Recipes on wildcard indexes

On a wildcard index the adjuster may replace the list of a predicate, once the whole of it is derived.  A
recording does not hear of that, since it has heard the steps that led to the list before.  When its recipe is
replayed, each leaf that depends on operands is bounded anew and adjusted by itself.  Other leaves are not
adjusted, nor are complements and intersections.  `Builder.rebuilt` follows a predicate in this way, and is what
the recipe gives whatever the adjuster does (`replay_of_adjusted`).  So a recipe gives the list that was
returned if the predicate is a leaf with operands, and the list before the adjustment if it is another leaf.
-/

namespace ScanBounds

open IntervalList

/-- Whether the predicate is a leaf whose operands a recipe can replace, so that it is bounded anew. -/
def Predicate.isRederived : Predicate → Bool
  | .comparison .. | .regex .. | .hasType .. | .isIn .. => true
  | _ => false

/-- Whether the predicate is a leaf that no operand changes, so that a recipe keeps its list. -/
def Predicate.isGiven : Predicate → Bool
  | .present .. | .exprComparison .. | .mod .. | .geo .. | .bucketGeo .. => true
  | _ => false

namespace Leaves

variable {α : Type} {before : List Recipe} {good good' : List Recipe → α → Prop} {d : Derivation α}

lemma imp (h : Leaves before good d) (himp : ∀ after a, d.result = .ok a → good after a → good' after a) :
    Leaves before good' d := by
  obtain ⟨after, hheard, hgood⟩ := h
  exact ⟨after, hheard, fun a ha => himp after a ha (hgood a ha)⟩

lemma bind_ofDisorder {β : Type} {good : List Recipe → β → Prop} {x : Except Disorder α} {f : α → Derivation β}
    (h : ∀ a, x = .ok a → Leaves before good (f a)) : Leaves before good (Builder.ofDisorder x >>= f) := by
  cases x with
  | error d => exact .fail (.disorder d)
  | ok a =>
    apply Leaves.bind_ofExcept
    rintro _ ⟨⟩
    exact h a rfl

end Leaves

namespace Builder

mutual

/-- What the recipe of a predicate gives when it is replayed. -/
def rebuilt (b : Builder) (field : IndexedField) (index : Index) : Predicate → Except Refusal IntervalList
  | .elemMatch path [] => .error (.noChildren (.elemMatch path []))
  | .elemMatch _ (first :: rest) => rebuiltAll b field index (rebuilt b field index first) rest
  | .not child =>
    match absence? child field index with
    | some derivation => derivation.result.map Prod.fst
    | none => (rebuilt b field index child).map complement
  | p =>
    if p.isRederived then (b.bounds p field index).result.map Prod.fst
    else (b.leaf p field index).result.map Prod.fst

/-- Intersects with what the recipes of more predicates give. -/
def rebuiltAll (b : Builder) (field : IndexedField) (index : Index) (list : Except Refusal IntervalList) :
    List Predicate → Except Refusal IntervalList
  | [] => list
  | p :: rest =>
    rebuiltAll b field index
      (do let l ← list
          let next ← rebuilt b field index p
          (l.intersect next).mapError .disorder)
      rest

end

variable {b : Builder} {field : IndexedField} {index : Index} {before : List Recipe}

/-- One more recipe on the stack, which gives `outcome` when it is replayed. -/
def Replays (b : Builder) (field : IndexedField) (index : Index) (before after : List Recipe)
    (outcome : Except Refusal IntervalList) : Prop :=
  ∃ recipe, after = recipe :: before ∧ (recipe.replay b field index).result = outcome

/-! ## Leaves -/

lemma constant_replays (x : Except Refusal OperandBounds) :
    Leaves before (fun after r => Replays b field index before after (.ok r.1)) (constant field.name x) := by
  apply Leaves.bind_ofExcept
  intro o _
  apply Leaves.bind_report fun _ => Recording.record_const _ _ _
  exact .pure ⟨_, rfl, rfl⟩

lemma evaluated_replays (p : Predicate) (x : Except Refusal OperandBounds) :
    Leaves before (fun after _ => Replays b field index before after ((b.bounds p field index).result.map Prod.fst))
      (evaluated p field.name x) := by
  apply Leaves.bind_ofExcept
  intro o _
  apply Leaves.bind_report fun _ => Recording.record_eval _ _ _ _
  refine .pure ⟨_, rfl, ?_⟩
  simp only [Recipe.replay, Traced.bind_result]
  cases (b.bounds p field index).result <;> rfl

/-- A leaf is either bounded anew, or given as it was. -/
lemma leaf_replays (p : Predicate) :
    Leaves before (fun after r => Replays b field index before after
      (if p.isRederived then (b.bounds p field index).result.map Prod.fst else .ok r.1)) (b.leaf p field index) := by
  cases p with
  | comparison path op operand => exact evaluated_replays _ _
  | regex path term => exact evaluated_replays _ _
  | hasType path types => exact evaluated_replays _ _
  | isIn path members => exact evaluated_replays _ _
  | exprComparison path op operand =>
    simp only [leaf, Predicate.isRederived, Bool.false_eq_true, if_false]
    split_ifs
    · exact constant_replays _
    · exact .fail _
    · exact constant_replays _
  | present path => exact constant_replays _
  | mod path divisor remainder => exact constant_replays _
  | geo path geometry => exact constant_replays _
  | bucketGeo path geometry => exact constant_replays _
  | elemMatch path children => exact .fail _
  | not child => exact .fail _

/-! ## Negations and intersections -/

lemma absence?_replays {child : Predicate} {d : Derivation FieldBounds} (h : absence? child field index = some d) :
    Leaves before (fun after r => Replays b field index before after (.ok r.1)) d := by
  unfold absence? at h
  split at h
  · cases h
    split_ifs
    · exact .fail _
    · exact constant_replays _
  · split_ifs at h
    cases h
    exact constant_replays _
  · cases h

lemma negate_replays (child : Predicate) (bounds : FieldBounds) {after : List Recipe}
    {outcome : Except Refusal IntervalList} (h : Replays b field index before after outcome) :
    Leaves after (fun after _ => Replays b field index before after (outcome.map complement))
      (negate child field index bounds) := by
  obtain ⟨recipe, rfl, rfl⟩ := h
  unfold negate
  apply Leaves.bind_report fun _ => Recording.record_complement _ _ _
  have hreplay : (Recipe.replay b field index (.complement recipe)).result =
      (recipe.replay b field index).result.map complement := by
    simp only [Recipe.replay, Traced.bind_result]
    cases (recipe.replay b field index).result <;> rfl
  by_cases hfail : ((if child.isEqualityOrInNull then .exact else bounds.2) != .exact &&
      index.collator.isNone) = true
  · rw [if_pos hfail]
    exact .fail _
  · rw [if_neg hfail]
    exact .pure ⟨_, rfl, hreplay⟩

lemma replay_intersect (left right : Recipe) :
    (Recipe.replay b field index (.intersect left right)).result = (do
      let l ← (left.replay b field index).result
      let r ← (right.replay b field index).result
      (l.intersect r).mapError .disorder) := by
  simp only [Recipe.replay, Traced.bind_result]
  congr! 4 with l r
  cases l.intersect r <;> rfl

mutual

/-- Deriving the bounds of a predicate leaves a recipe that gives what is rebuilt. -/
theorem derive_replays (before : List Recipe) (p : Predicate) :
    Leaves before (fun after _ => Replays b field index before after (b.rebuilt field index p))
      (b.derive field index p) := by
  by_cases hhash : (field.option.isHashed && !p.isHashable) = true
  · unfold derive
    rw [if_pos hhash]
    exact .fail _
  · cases p with
    | elemMatch path children =>
      cases children with
      | nil =>
        rw [derive, if_neg hhash]
        exact .fail _
      | cons first rest =>
        rw [derive, if_neg hhash, rebuilt]
        apply (derive_replays before first).bind
        rintro after bounds hfirst
        apply (deriveAll_replays before bounds.1 hfirst rest).bind
        rintro _ list hlist
        exact .pure hlist
    | not child =>
      rw [derive, if_neg hhash, rebuilt]
      cases habsence : absence? child field index with
      | some d =>
        have hd : Leaves before (fun after r => Replays b field index before after (.ok r.1)) d :=
          absence?_replays habsence
        refine hd.imp fun after r hr h => ?_
        show Replays b field index before after (d.result.map Prod.fst)
        rwa [hr]
      | none =>
        apply (derive_replays before child).bind
        rintro _ bounds hchild
        exact negate_replays _ bounds hchild
    | _ =>
      rw [derive, if_neg hhash, rebuilt]
      · refine (leaf_replays _).imp fun after r hr h => ?_
        rwa [hr]
      all_goals exact nofun

/-- Intersecting with the lists of more predicates joins their recipes to the one on top. -/
theorem deriveAll_replays (before : List Recipe) (list : IntervalList) {after : List Recipe}
    {outcome : Except Refusal IntervalList} (h : Replays b field index before after outcome)
    (ps : List Predicate) :
    Leaves after (fun after _ => Replays b field index before after (b.rebuiltAll field index outcome ps))
      (b.deriveAll field index list ps) := by
  cases ps with
  | nil => exact .pure h
  | cons p rest =>
    obtain ⟨left, rfl, rfl⟩ := h
    rw [deriveAll, rebuiltAll]
    apply (derive_replays (left :: before) p).bind
    rintro _ ⟨next, tightness⟩ ⟨right, rfl, hright⟩
    apply Leaves.bind_ofDisorder
    intro both _
    apply Leaves.bind_report fun _ => Recording.record_intersect _ _ _ _
    apply deriveAll_replays before both _ rest
    exact ⟨_, rfl, by rw [replay_intersect, hright]⟩

end

/-! ## Recipes -/

lemma rebuilt_leaf {p : Predicate} (hp : p.isRederived = true ∨ p.isGiven = true) :
    b.rebuilt field index p =
      if p.isRederived then (b.bounds p field index).result.map Prod.fst
      else (b.leaf p field index).result.map Prod.fst := by
  cases p with
  | elemMatch path children => simp [Predicate.isRederived, Predicate.isGiven] at hp
  | not child => simp [Predicate.isRederived, Predicate.isGiven] at hp
  | _ => rw [rebuilt] <;> exact nofun

/-- A leaf that no operand changes is given as it was derived. -/
lemma rebuilt_of_isGiven {p : Predicate} (hp : p.isGiven = true) {derived : FieldBounds}
    (h : (b.derive field index p).result = .ok derived) : b.rebuilt field index p = .ok derived.1 := by
  have hnot : p.isRederived = false := by
    revert hp
    cases p <;> simp [Predicate.isRederived, Predicate.isGiven]
  have hleaf : (b.leaf p field index).result = .ok derived := by
    unfold derive at h
    split_ifs at h
    · cases h
    · cases p <;> first | exact h | exact (Bool.false_ne_true hp).elim
  rw [rebuilt_leaf (.inr hp), hnot, if_neg Bool.false_ne_true, hleaf]
  rfl

/-- **Recipes on wildcard indexes.**  Whatever the adjuster does, the recipe of a predicate that has bounds gives
what is rebuilt leaf by leaf.  That is the list that was returned if the predicate is a leaf with operands, and
the list from before the adjustment if it is another leaf. -/
theorem replay_of_adjusted {p : Predicate} {list : IntervalList} {tightness : Tightness}
    (h : (b.boundsRecorded p field index .empty).1 = .ok (list, tightness)) :
    ∃ recipe derived, (b.boundsRecorded p field index .empty).2.finish = .ok recipe ∧
      (b.derive field index p).result = .ok derived ∧ (b.adjusted index derived).1 = list ∧
      (recipe.replay b field index).result = b.rebuilt field index p ∧
      (p.isRederived = true → (recipe.replay b field index).result = .ok list) ∧
      (p.isGiven = true → (recipe.replay b field index).result = .ok derived.1) := by
  have hleaves : Leaves [] (fun after _ => Replays b field index [] after (b.rebuilt field index p))
      (b.derive field index p) := derive_replays [] p
  obtain ⟨after, hheard, hgood⟩ := hleaves
  rw [boundsRecorded_fst] at h
  have hbounds := h
  rw [bounds_eq_map] at h
  cases hd : (b.derive field index p).result with
  | error refusal =>
    rw [hd] at h
    cases h
  | ok derived =>
    rw [hd] at h
    obtain ⟨recipe, rfl, hreplay⟩ := hgood derived hd
    have hrecording : (b.boundsRecorded p field index .empty).2 = ⟨[recipe], none⟩ := hheard none
    refine ⟨recipe, derived, ?_, rfl, congrArg Prod.fst (Except.ok.inj h), hreplay, fun hp => ?_, fun hp => ?_⟩
    · rw [hrecording]
      rfl
    · rw [hreplay, rebuilt_leaf (.inl hp), if_pos hp, hbounds]
      rfl
    · rw [hreplay, rebuilt_of_isGiven hp hd]

/-- An adjuster adds a key to the bounds of a remainder, and the recipe does not give it. -/
theorem replay_of_adjusted_remainder :
    let adjuster : WildcardAdjuster := ⟨fun _ _ list => (list.push (.point (.string "z")), .inexactFetch)⟩
    let b : Builder := { Builder.ofSettings {} with adjuster }
    let field : IndexedField := ⟨"a", .ascending⟩
    let index : Index := { Index.ofPattern "a_1" ⟨[field]⟩ with kind := .wildcard }
    let list : IntervalList := ⟨"a", [TypeTag.double.bracket, .point (.string "z")]⟩
    (b.boundsRecorded (.mod "a" 2 0) field index .empty).1 = .ok (list, .inexactFetch) ∧
      ∃ recipe replayed, (b.boundsRecorded (.mod "a" 2 0) field index .empty).2.finish = .ok recipe ∧
        (recipe.replay b field index).result = .ok replayed ∧ ¬(replayed == list) = true := by
  intro adjuster b field index list
  have h : (b.boundsRecorded (.mod "a" 2 0) field index .empty).1 = .ok (list, .inexactFetch) := by rfl
  obtain ⟨recipe, derived, hfinish, hderived, -, -, -, hgiven⟩ := replay_of_adjusted h
  refine ⟨h, recipe, derived.1, hfinish, hgiven rfl, ?_⟩
  obtain rfl : (⟨⟨"a", [TypeTag.double.bracket]⟩, .inexactCovered⟩ : FieldBounds) = derived :=
    Except.ok.inj hderived
  decide +kernel

end Builder

end ScanBounds

import ScanBounds.Proofs.Bounding.Canonical

/-!
# Settling predicates from the key

Whether the key alone settles a predicate is asked without a field: the bounds are derived for an ascending
field without a name.  For a field of the index they can come out otherwise in three ways, and in no other.
A hashed field stores digests, so a key settles nothing that it is compared with.  Arrays on the path are
looked up by its name, and negations and the inequalities of the expression language mind them.  And on a
wildcard index the adjuster sees the name of the list.
-/

namespace ScanBounds

namespace Predicate

/-- Predicates whose bounds depend on arrays on the path: a document satisfies a negation by all of its
elements, and an inequality of the expression language by the array as a whole. -/
def MindsArrays : Predicate → Prop
  | not _ => True
  | exprComparison _ op _ => op ≠ .eq
  | _ => False

/-- Predicates that compare no value with the key. -/
def AsksNoKey : Predicate → Prop
  | present _ => True
  | isIn _ members => members.literals = [] ∧ members.regexes = []
  | _ => False

end Predicate

namespace Tightness

lemma le_inexactCovered_iff {t : Tightness} : t ≤ .inexactCovered ↔ t ≠ .inexactFetch := by
  cases t <;> decide

lemma combine_ne_inexactFetch_iff {s t : Tightness} :
    s.combine t ≠ .inexactFetch ↔ s ≠ .inexactFetch ∧ t ≠ .inexactFetch := by
  cases s <;> cases t <;> decide

end Tightness

namespace Builder

variable {b : Builder} {field : IndexedField} {index : Index} {p : Predicate}

/-- Stands for whichever field. -/
def anyField : IndexedField := ⟨"", .ascending⟩

/-- The same intervals for a field of another name. -/
def renamed (name : String) (bounds : FieldBounds) : FieldBounds := (⟨name, bounds.1.intervals⟩, bounds.2)

/-! ## The same bounds for every field -/

section SameBounds

variable {r : FieldBounds}

lemma constant_renamed {name : String} {x : Except Refusal OperandBounds}
    (h : (constant name x).result = .ok r) (other : String) :
    (constant other x).result = .ok (renamed other r) := by
  rw [constant_result h]
  rfl

lemma evaluated_renamed {name : String} {x : Except Refusal OperandBounds}
    (h : (evaluated p name x).result = .ok r) (other : String) :
    (evaluated p other x).result = .ok (renamed other r) := by
  rw [evaluated_result h]
  rfl

/-- A geo predicate has bounds on a geo field only. -/
lemma cells_anyField (geometry : Geometry) (bucket : Bool) :
    b.cells p geometry bucket anyField index = .error (.notGeoField p anyField) := by
  cases bucket <;> rfl

lemma leaf_renamed (hhashed : field.option.isHashed = true → p.AsksNoKey)
    (harrays : index.isMultikeyPath field.name = true → ¬p.MindsArrays)
    (h : (b.leaf p anyField index).result = .ok r) :
    (b.leaf p field index).result = .ok (renamed field.name r) := by
  have hplain (hp : ¬p.AsksNoKey) : field.option.isHashed = false := by
    rw [← Bool.not_eq_true]
    exact fun hfield => hp (hhashed hfield)
  cases p with
  | present path => exact constant_renamed h _
  | comparison path op operand =>
    simp only [leaf, hplain not_false]
    exact evaluated_renamed h _
  | exprComparison path op operand =>
    simp only [leaf, hplain not_false] at h ⊢
    by_cases heq : op = .eq
    · rw [if_pos heq] at h ⊢
      exact constant_renamed h _
    · rw [if_neg heq] at h ⊢
      rw [if_neg fun hmulti => harrays hmulti heq]
      split_ifs at h
      · cases h
      · exact constant_renamed h _
  | regex path term => exact evaluated_renamed h _
  | mod path divisor remainder => exact constant_renamed h _
  | hasType path types => exact evaluated_renamed h _
  | isIn path members =>
    cases hfield : field.option.isHashed with
    | false =>
      simp only [leaf, hfield]
      exact evaluated_renamed h _
    | true =>
      obtain ⟨hliterals, -⟩ : members.literals = [] ∧ members.regexes = [] := hhashed hfield
      have hsame (hashed : Bool) :
          membershipBounds members index hashed = membershipBounds members index false := by
        unfold membershipBounds
        rw [hliterals]
        rfl
      simp only [leaf, hsame] at h ⊢
      exact evaluated_renamed h _
  | geo path geometry =>
    simp only [leaf, cells_anyField] at h
    cases h
  | bucketGeo path geometry =>
    simp only [leaf, cells_anyField] at h
    cases h
  | elemMatch path children => cases h
  | not child => cases h

/-! ## Negations -/

lemma nullBounds_fetch {hashed : Bool} {o : OperandBounds} (h : nullBounds hashed = .ok o) :
    o.2 = .inexactFetch := by
  obtain ⟨m, -, hm⟩ := exists_of_bind_eq_ok h
  exact (congrArg Prod.snd (Except.ok.inj hm)).symm

/-- The negations that are not complements need the document. -/
lemma absence?_fetch {child : Predicate} {d : Derivation FieldBounds} (hd : absence? child field index = some d)
    (h : d.result = .ok r) : r.2 = .inexactFetch := by
  unfold absence? at hd
  split at hd
  · cases hd
    split_ifs at h
    · cases h
    · exact nullBounds_fetch (constant_result h)
  · split_ifs at hd
    cases hd
    obtain ⟨nulls, -, hrest⟩ := exists_of_bind_eq_ok (constant_result h)
    obtain ⟨m, -, hm⟩ := exists_of_bind_eq_ok hrest
    exact (congrArg Prod.snd (Except.ok.inj hm)).symm
  · cases hd

lemma absence?_eq_none_iff {child : Predicate} {other : IndexedField} :
    absence? child field index = none ↔ absence? child other index = none := by
  cases child <;> simp [absence?]

/-- What a complement comes to, if it is not refused. -/
lemma negate_eq_ok_iff {child : Predicate} {bounds : FieldBounds} :
    (negate child field index bounds).result = .ok r ↔
      ¬((if child.isEqualityOrInNull then .exact else bounds.2) != .exact && index.collator.isNone) = true ∧
      r = (bounds.1.complement, if index.isMultikeyPath field.name then .inexactFetch
        else if child.isEqualityOrInNull then .exact else bounds.2) := by
  simp only [negate, Traced.bind_result]
  by_cases hfail : ((if child.isEqualityOrInNull then .exact else bounds.2) != .exact &&
      index.collator.isNone) = true
  · rw [if_pos hfail]
    exact ⟨nofun, fun h => absurd hfail h.1⟩
  · rw [if_neg hfail]
    constructor
    · intro h
      exact ⟨hfail, (Except.ok.inj h).symm⟩
    · rintro ⟨-, rfl⟩
      rfl

lemma negate_renamed {child : Predicate} {bounds : FieldBounds}
    (hmulti : ¬index.isMultikeyPath field.name = true)
    (h : (negate child anyField index bounds).result = .ok r) (hr : r.2 ≠ .inexactFetch) :
    (negate child field index (renamed field.name bounds)).result = .ok (renamed field.name r) ∧
      (bounds.2 ≠ .inexactFetch ∨ child.isEqualityOrInNull = true) := by
  obtain ⟨hkept, rfl⟩ := negate_eq_ok_iff.1 h
  by_cases hany : index.isMultikeyPath anyField.name = true
  · exact absurd (if_pos hany) hr
  simp only [if_neg hany] at hr ⊢
  constructor
  · apply negate_eq_ok_iff.2
    refine ⟨hkept, ?_⟩
    rw [if_neg hmulti]
    rfl
  · by_cases heq : child.isEqualityOrInNull = true
    · exact .inr heq
    · rw [if_neg heq] at hr
      exact .inl hr

/-! ## Whole predicates -/

lemma Predicate.AsksNoKey.isHashable (hp : p.AsksNoKey) : p.isHashable = true := by
  cases p with
  | present path => rfl
  | isIn path members => simp only [Predicate.isHashable, hp.2, List.isEmpty_nil]
  | _ => exact hp.elim

lemma elemMatch_fetch {path : String} {children : List Predicate}
    (h : (b.derive field index (.elemMatch path children)).result = .ok r) : r.2 = .inexactFetch := by
  unfold derive at h
  split_ifs at h
  · cases h
  · cases children with
    | nil => cases h
    | cons first rest =>
      simp only [Traced.bind_result] at h
      obtain ⟨bounds, -, h⟩ := exists_of_bind_eq_ok h
      obtain ⟨list, -, h⟩ := exists_of_bind_eq_ok h
      exact (congrArg Prod.snd (Except.ok.inj h)).symm

/-- A predicate that reads the path and the key as it would of any field has the bounds of any field, unless
they need the document anyhow. -/
lemma derive_renamed (p : Predicate) (hhashed : field.option.isHashed = true → p.AsksNoKey)
    (harrays : index.isMultikeyPath field.name = true → ¬p.MindsArrays) {r : FieldBounds}
    (h : (b.derive anyField index p).result = .ok r)
    (hr : r.2 ≠ .inexactFetch ∨ p.isEqualityOrInNull = true) :
    (b.derive field index p).result = .ok (renamed field.name r) := by
  have hguard : ¬(field.option.isHashed && !p.isHashable) = true := by
    intro hrefused
    obtain ⟨hfield, hp⟩ := Bool.and_eq_true_iff.1 hrefused
    simp only [Predicate.AsksNoKey.isHashable (hhashed hfield)] at hp
    cases hp
  cases p with
  | elemMatch path children => exact absurd (elemMatch_fetch h) (hr.resolve_right Bool.false_ne_true)
  | not child =>
    have hmulti : ¬index.isMultikeyPath field.name = true := fun hmulti => harrays hmulti trivial
    rw [derive, if_neg hguard]
    rw [derive, if_neg (by rintro ⟨⟩)] at h
    cases habsence : absence? child anyField index with
    | some d => 
      rw [habsence] at h
      exact absurd (absence?_fetch habsence h) (hr.resolve_right Bool.false_ne_true)
    | none =>
      rw [absence?_eq_none_iff.1 habsence]
      rw [habsence] at h
      simp only [Traced.bind_result] at h ⊢
      obtain ⟨bounds, hbounds, hnegated⟩ := exists_of_bind_eq_ok h
      obtain ⟨hrenamed, hchild⟩ := negate_renamed hmulti hnegated (hr.resolve_right Bool.false_ne_true)
      rw [derive_renamed child (fun hfield => (hhashed hfield).elim) (fun h => absurd h hmulti) hbounds hchild]
      exact hrenamed
  | _ =>
    rw [derive, if_neg hguard]
    · exact leaf_renamed hhashed harrays h
    all_goals
      intros
      contradiction

/-! ## Bounds that need the document -/

/-- A key of an array leaves open whether the array satisfies a predicate that minds arrays. -/
lemma derive_mindsArrays_fetch (hmulti : index.isMultikeyPath field.name = true) (hp : p.MindsArrays)
    (h : (b.derive field index p).result = .ok r) : r.2 = .inexactFetch := by
  cases p with
  | not child =>
    rw [derive] at h
    split_ifs at h
    · cases h
    · cases habsence : absence? child field index with
      | some d =>
        rw [habsence] at h
        exact absence?_fetch habsence h
      | none =>
        rw [habsence] at h
        simp only [Traced.bind_result] at h
        obtain ⟨bounds, -, h⟩ := exists_of_bind_eq_ok h
        obtain ⟨-, rfl⟩ := negate_eq_ok_iff.1 h
        exact if_pos hmulti
  | exprComparison path op operand =>
    unfold derive at h
    split_ifs at h
    · cases h
    · simp only [leaf, if_neg hp, if_pos hmulti] at h
      cases h
  | _ => exact hp.elim

lemma equalityBounds_hashed_fetch {v : Value} {o : OperandBounds} (h : equalityBounds v index true = .ok o) :
    o.2 = .inexactFetch := by
  unfold equalityBounds at h
  split at h
  · exact nullBounds_fetch h
  · cases h
  · exact (congrArg Prod.snd (Except.ok.inj h)).symm

lemma membershipBounds_hashed_fetch {members : InList} (hliterals : members.literals ≠ [])
    (hregexes : members.regexes = []) {o : OperandBounds} (h : membershipBounds members index true = .ok o) :
    o.2 = .inexactFetch := by
  obtain ⟨v, rest, hcons⟩ := List.exists_cons_of_ne_nil hliterals
  obtain ⟨literals, hliterals, h⟩ := exists_of_bind_eq_ok h
  obtain ⟨m, -, h⟩ := exists_of_bind_eq_ok h
  obtain rfl := Except.ok.inj h
  rw [hcons] at hliterals
  obtain ⟨first, hfirst, hliterals⟩ := exists_of_bind_eq_ok hliterals
  obtain ⟨others, -, hliterals⟩ := exists_of_bind_eq_ok hliterals
  obtain rfl := Except.ok.inj hliterals
  simp only [hregexes, List.map_nil, List.foldl_nil, equalityBounds_hashed_fetch hfirst]
  split_ifs
  · rfl
  · cases others.2 <;> rfl

/-- A digest settles nothing about the value. -/
lemma derive_hashed_fetch (hfield : field.option.isHashed = true) (hp : ¬p.AsksNoKey)
    (h : (b.derive field index p).result = .ok r) : r.2 = .inexactFetch := by
  unfold derive at h
  split_ifs at h with hrefused
  · cases h
  have hhashable : p.isHashable = true := by
    rw [hfield, Bool.true_and, Bool.not_eq_true', Bool.not_eq_false] at hrefused
    exact hrefused
  cases p with
  | present path => exact absurd trivial hp
  | comparison path op operand =>
    cases op with
    | eq =>
      simp only [leaf, hfield] at h
      exact equalityBounds_hashed_fetch (evaluated_result h)
    | _ => cases hhashable
  | exprComparison path op operand =>
    cases op with
    | eq =>
      simp only [leaf, hfield] at h
      exact equalityBounds_hashed_fetch (constant_result h)
    | _ => cases hhashable
  | isIn path members =>
    simp only [leaf, hfield] at h
    have hregexes : members.regexes = [] := List.isEmpty_iff.1 hhashable
    have hliterals : members.literals ≠ [] := fun hliterals => hp ⟨hliterals, hregexes⟩
    exact membershipBounds_hashed_fetch hliterals hregexes (evaluated_result h)
  | not child =>
    cases child with
    | present path =>
      have habsence : absence? (.present path) field index = some _ := rfl
      exact absence?_fetch habsence h
    | _ => cases hhashable
  | _ => cases hhashable

end SameBounds

/-! ## Bounds for the index -/

lemma adjusted_settled_iff {r : FieldBounds} :
    (b.adjusted index r).2 ≠ .inexactFetch ↔ r.2 ≠ .inexactFetch ∧
      (index.kind = .wildcard → (b.adjuster.adjust index r.2 r.1).2 ≠ .inexactFetch) := by
  unfold adjusted
  split_ifs with hkind
  · rw [Tightness.combine_ne_inexactFetch_iff, and_comm]
    exact and_congr_right fun _ => ⟨fun h _ => h, fun h => h hkind⟩
  · exact ⟨fun h => ⟨h, fun hwildcard => absurd hwildcard hkind⟩, fun h => h.1⟩

/-- The bounds for a field are found and the key settles the predicate. -/
def Settles (b : Builder) (p : Predicate) (field : IndexedField) (index : Index) : Prop :=
  ∃ list tightness, (b.bounds p field index).result = .ok (list, tightness) ∧ tightness ≠ .inexactFetch

lemma settles_iff : b.Settles p field index ↔
    ∃ r, (b.derive field index p).result = .ok r ∧ (b.adjusted index r).2 ≠ .inexactFetch := by
  unfold Settles
  rw [bounds_eq_map]
  cases (b.derive field index p).result with
  | error refusal =>
    constructor
    · rintro ⟨_, _, ⟨⟩, _⟩
    · rintro ⟨_, ⟨⟩, _⟩
  | ok r =>
    constructor
    · rintro ⟨list, tightness, h, ht⟩
      have hr : b.adjusted index r = (list, tightness) := Except.ok.inj h
      refine ⟨r, rfl, ?_⟩
      rw [hr]
      exact ht
    · rintro ⟨_, ⟨⟩, h⟩
      exact ⟨_, _, rfl, h⟩

lemma coversMatching_iff : (b.coversMatching p index).result = .ok true ↔ b.Settles p anyField index := by
  unfold coversMatching Settles
  simp only [Traced.bind_result]
  show ((b.bounds p anyField index).result >>= fun r => .ok (decide (r.2 ≤ .inexactCovered))) = _ ↔ _
  cases (b.bounds p anyField index).result with
  | error refusal =>
    constructor
    · rintro ⟨⟩
    · rintro ⟨_, _, ⟨⟩, _⟩
  | ok r =>
    constructor
    · intro h
      exact ⟨r.1, r.2, rfl, Tightness.le_inexactCovered_iff.1 (of_decide_eq_true (Except.ok.inj h))⟩
    · rintro ⟨_, _, ⟨⟩, ht⟩
      exact congrArg Except.ok (decide_eq_true (Tightness.le_inexactCovered_iff.2 ht))

/-- **When the answer for any field holds of a field.**  If the key settles a predicate on any field, it
settles it on a given field exactly in these cases: a hashed field is compared with nothing, on a path with
arrays the predicate does not mind them, and the adjuster of a wildcard index leaves the bounds settled when
they bear the field's name. -/
theorem covered_settles_iff (h : (b.coversMatching p index).result = .ok true) :
    b.Settles p field index ↔
      (field.option.isHashed = true → p.AsksNoKey) ∧
      (index.isMultikeyPath field.name = true → ¬p.MindsArrays) ∧
      (index.kind = .wildcard → ∀ list tightness,
        (b.derive anyField index p).result = .ok (list, tightness) →
        (b.adjuster.adjust index tightness ⟨field.name, list.intervals⟩).2 ≠ .inexactFetch) := by
  obtain ⟨any, hany, hsettled⟩ := settles_iff.1 (coversMatching_iff.1 h)
  have htight : any.2 ≠ .inexactFetch := (adjusted_settled_iff.1 hsettled).1
  -- in the first two cases the field has the bounds of any field, and the adjuster decides
  have hiff (hhashed : field.option.isHashed = true → p.AsksNoKey)
      (harrays : index.isMultikeyPath field.name = true → ¬p.MindsArrays) :
      b.Settles p field index ↔ (b.adjusted index (renamed field.name any)).2 ≠ .inexactFetch := by
    have hrenamed := derive_renamed p hhashed harrays hany (.inl htight)
    rw [settles_iff, hrenamed]
    constructor
    · rintro ⟨_, ⟨⟩, hr⟩
      exact hr
    · intro hr
      exact ⟨_, rfl, hr⟩
  constructor
  · intro hfield
    obtain ⟨r, hr, hrsettled⟩ := settles_iff.1 hfield
    have hrtight : r.2 ≠ .inexactFetch := (adjusted_settled_iff.1 hrsettled).1
    have hhashed : field.option.isHashed = true → p.AsksNoKey := by
      intro hfield
      by_contra hp
      exact hrtight (derive_hashed_fetch hfield hp hr)
    have harrays : index.isMultikeyPath field.name = true → ¬p.MindsArrays :=
      fun hmulti hp => hrtight (derive_mindsArrays_fetch hmulti hp hr)
    refine ⟨hhashed, harrays, ?_⟩
    rintro hkind list tightness hlist
    obtain rfl := Except.ok.inj (hany.symm.trans hlist)
    exact (adjusted_settled_iff.1 ((hiff hhashed harrays).1 hfield)).2 hkind
  · rintro ⟨hhashed, harrays, hadjust⟩
    apply (hiff hhashed harrays).2
    apply adjusted_settled_iff.2
    exact ⟨htight, fun hkind => hadjust hkind _ _ hany⟩

/-- The array `[3, 4]` counts as equal to `3` although one of its keys is `4`.  So with arrays on the path the
bounds of the negation need the document, while for any field the key settles it. -/
theorem covered_negation_unsettled_by_arrays :
    let b := Builder.ofSettings {}
    let p : Predicate := .not (.comparison "a" .eq (.int 3))
    let field : IndexedField := ⟨"a", .ascending⟩
    let index := (Index.ofPattern "a_1" ⟨[field]⟩).withMultikeyPaths ["a"]
    field ∈ index.pattern.fields ∧ field.name = p.path ∧ (b.coversMatching p index).result = .ok true ∧
      (b.bounds p field index).result = .ok (⟨"a", [.range .minKey (.int 3) .startOnly,
        .range (.int 3) .maxKey .stopOnly]⟩, .inexactFetch) ∧
      ¬b.Settles p field index := by
  refine ⟨List.mem_singleton_self _, rfl, rfl, by rfl, fun h => ?_⟩
  exact ((covered_settles_iff rfl).1 h).2.1 (by decide) trivial

end Builder

end ScanBounds

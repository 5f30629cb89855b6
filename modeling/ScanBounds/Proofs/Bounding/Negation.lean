import ScanBounds.Proofs.Bounding.TypeTest

/-!
# What negations lose

The bounds of a negation are the complement of the child's bounds, so they miss a value exactly when the
child's bounds hold its key.  Nothing is lost as long as those are keys of values that satisfy the child.
Two exemptions from that rule go too far.  A membership list with null counts as exact whatever else it
holds, although arrays are looked up by their first elements and regular expressions by their stems.  And
with a collation every child counts as exact, although array operands, partial type sets and remainders
have too wide bounds for reasons that have nothing to do with collation.  Both theorems say exactly when a
value is lost.
-/

namespace ScanBounds

open IntervalList

/-! ## The complement of a leaf -/

namespace Builder

variable {b : Builder} {field : IndexedField} {index : Index}

lemma negate_result {child : Predicate} {bounds r : FieldBounds}
    (h : (negate child field index bounds).result = .ok r) :
    r.1 = bounds.1.complement ∧
      (child.isEqualityOrInNull = true ∨ bounds.2 = .exact ∨ index.collator.isSome = true) := by
  simp only [negate, Traced.bind_result] at h
  obtain ⟨-, -, h⟩ := exists_of_bind_eq_ok h
  by_cases hfail : ((if child.isEqualityOrInNull then .exact else bounds.2) != .exact &&
      index.collator.isNone) = true
  · rw [if_pos hfail] at h
    cases h
  · rw [if_neg hfail] at h
    refine ⟨congrArg Prod.fst (Except.ok.inj h).symm, ?_⟩
    by_cases heq : child.isEqualityOrInNull = true
    · exact .inl heq
    · rw [if_neg heq] at hfail
      cases hc : index.collator with
      | none => exact .inr (.inl (by simpa [hc] using hfail))
      | some c => simp

/-- Where no bounds of its own are made for a negation, it is the complement of the child's leaf. -/
lemma not_result {child : Predicate} (hchild : child.IsTest) (habsence : absence? child field index = none)
    (hhash : field.option.isHashed = false) (hkind : index.kind ≠ .wildcard) {r : FieldBounds}
    (h : (b.bounds (.not child) field index).result = .ok r) :
    ∃ bounds, (b.leaf child field index).result = .ok bounds ∧ r.1 = bounds.1.complement ∧
      (child.isEqualityOrInNull = true ∨ bounds.2 = .exact ∨ index.collator.isSome = true) := by
  rw [bounds_result hkind, derive, hhash] at h
  simp only [Bool.false_and, Bool.false_eq_true, if_false, habsence, Traced.bind_result] at h
  obtain ⟨bounds, hb, h⟩ := exists_of_bind_eq_ok h
  refine ⟨bounds, ?_, negate_result h⟩
  unfold derive at hb
  simp only [hhash, Bool.false_and, Bool.false_eq_true, if_false] at hb
  cases child <;> first | exact hb | exact hchild.elim

/-- A complement holds the keys of all values that do not satisfy `A` exactly when the list holds keys of
values that do. -/
lemma complement_keeps_iff {l : IntervalList} (hl : Canonical l.intervals) {P A : Value → Prop}
    {key : Value → Value} :
    (∀ d, P d → ¬A d → l.complement.Holds (key d)) ↔ ∀ d, P d → l.Holds (key d) → A d := by
  refine forall₂_congr fun d _ => ?_
  rw [complement_holds hl]
  exact not_imp_not

end Builder

/-! ## Membership -/

/-- The keys by which members that are not looked up exactly are found satisfy the list, or are keys of
arrays. -/
def InList.KeysAccepted (members : InList) : Prop :=
  (∀ items, .array items ∈ members.literals →
    (firstKey none items).isArray = true ∨ members.Accepts (firstKey none items)) ∧
  ∀ r ∈ members.regexes, ∀ v, (Stem.ofPattern r.pattern r.flags false).range.Holds v → members.Accepts v

/-- The keys that a membership list is looked up by, on an index without collation. -/
def InList.KeyHeld (members : InList) (v : Value) : Prop :=
  (∃ m ∈ members.literals, LiteralHeld none v m) ∨
    (∃ r ∈ members.regexes, Held (r.bounds false).1 v) ∨ members.hasEmptyArray ∧ v = .undefined

lemma InList.hasEmptyArray_iff {members : InList} :
    members.hasEmptyArray = true ↔ .array [] ∈ members.literals := by
  rw [hasEmptyArray, List.any_eq_true]
  constructor
  · rintro ⟨v, hmem, hv⟩
    cases v <;> first | contradiction | skip
    rwa [List.isEmpty_iff.1 hv] at hmem
  · intro hmem
    exact ⟨_, hmem, rfl⟩

/-- What a literal is looked up by satisfies it, but for the first element of an array. -/
lemma InList.accepts_of_literalHeld {members : InList} {m d : Value} (hmem : m ∈ members.literals)
    (hd : d.isArray = false) (hm : LiteralHeld none d m)
    (harrays : ∀ items, .array items ∈ members.literals →
      (firstKey none items).isArray = true ∨ members.Accepts (firstKey none items)) :
    members.Accepts d := by
  have hrank {w : Value} (h : (d == w) = true) (hw : w.isArray = true) : members.Accepts d := by
    rw [Value.isArray_iff, ← Value.rank_eq_of_beq h, ← Value.isArray_iff, hd] at hw
    cases hw
  by_cases harray : m.isArray = true
  · cases m <;> first | contradiction | skip
    rcases hm with hself | hfirst
    · exact hrank hself rfl
    · rcases harrays _ hmem with hnested | haccepts
      · exact hrank hfirst hnested
      · exact (InList.accepts_congr (Value.toClass_eq.2 hfirst) members).2 haccepts
  · refine .inl ⟨m, hmem, ?_⟩
    cases m <;> first | exact hm | contradiction

lemma InList.keysAccepted_iff (members : InList) :
    (∀ d, d.isArray = false → members.KeyHeld d → members.Accepts d) ↔ members.KeysAccepted := by
  constructor
  · intro h
    refine ⟨fun items hmem => ?_, fun r hr v hv => ?_⟩
    · by_cases harray : (firstKey none items).isArray = true
      · exact .inl harray
      · refine .inr (h _ (Bool.not_eq_true _ ▸ harray) (.inl ⟨_, hmem, .inr ?_⟩))
        exact Value.toClass_eq.1 rfl
    · obtain ⟨s, hs, -⟩ := Stem.range_holds_iff.1 hv
      refine h v (by rcases hs with rfl | rfl <;> rfl) (.inr (.inl ⟨r, hr, ?_⟩))
      exact regexBounds_held.2 (.inl hv)
  · rintro ⟨harrays, hregexes⟩ d hd (⟨m, hmem, hm⟩ | ⟨r, hr, hheld⟩ | ⟨hempty, rfl⟩)
    · exact accepts_of_literalHeld hmem hd hm harrays
    · rcases regexBounds_held.1 hheld with hv | hself
      · exact hregexes r hr d hv
      · exact .inr ⟨r, hr, .inr hself⟩
    · exact (harrays [] (hasEmptyArray_iff.1 hempty)).resolve_left nofun

/-- A list with a negation of its own is looked up by three keys. -/
lemma InList.keyHeld_of_isNullAndEmptyArray {members : InList} (h : members.isNullAndEmptyArray = true)
    (v : Value) : members.KeyHeld v ↔ v = .undefined ∨ v = .null ∨ (v == .array []) = true := by
  simp only [isNullAndEmptyArray, Bool.and_eq_true, List.isEmpty_iff, beq_iff_eq] at h
  obtain ⟨⟨⟨hregexes, hlength⟩, hnull⟩, hempty⟩ := h
  obtain ⟨x, y, hxy⟩ := List.length_eq_two.1 hlength
  have hnull : .null ∈ members.literals := by
    obtain ⟨m, hm, hv⟩ := List.any_eq_true.1 hnull
    rwa [Value.eq_null_of_isNull hv] at hm
  have hmem := hasEmptyArray_iff.1 hempty
  have hall : ∀ m ∈ members.literals, m = .null ∨ m = .array [] := by
    rw [hxy] at hnull hmem ⊢
    simp only [List.mem_cons, List.not_mem_nil, or_false] at hnull hmem ⊢
    grind
  have heq : LiteralHeld none v .null ↔ v = .undefined ∨ v = .null := by
    obtain ⟨m, hm, -⟩ := nullBounds_spec false
    show ComparisonOp.eq.Accepts .null v ↔ _
    rw [← nullBounds_accepts rfl hm, nullBounds_held hm]
  have harray : LiteralHeld none v (.array []) ↔ (v == .array []) = true ∨ v = .undefined := by
    rw [← Value.beq_undefined_iff]
    rfl
  rw [KeyHeld, hregexes]
  constructor
  · rintro (⟨m, hm, hv⟩ | ⟨r, hr, -⟩ | ⟨-, rfl⟩)
    · rcases hall m hm with rfl | rfl
      · have := heq.1 hv
        tauto
      · have := harray.1 hv
        tauto
    · cases hr
    · exact .inl rfl
  · rintro (rfl | rfl | hv)
    · exact .inl ⟨_, hnull, heq.2 (.inl rfl)⟩
    · exact .inl ⟨_, hnull, heq.2 (.inr rfl)⟩
    · exact .inl ⟨_, hmem, harray.2 (.inl hv)⟩

namespace Builder

variable {b : Builder} {field : IndexedField} {index : Index}

lemma absence_isIn_holds {path : String} {members : InList} {d : Derivation FieldBounds} {r : FieldBounds}
    (h : absence? (.isIn path members) field index = some d) (hhash : field.option.isHashed = false)
    (hr : d.result = .ok r) (v : Value) : r.1.Holds v ↔ ¬members.KeyHeld v := by
  simp only [absence?, hhash] at h
  split_ifs at h with hboth
  cases h
  obtain ⟨nulls, hnulls, hr⟩ := exists_of_bind_eq_ok (constant_result hr)
  obtain ⟨m, hm, hr⟩ := exists_of_bind_eq_ok hr
  have hm' : m = r.1.intervals := congrArg Prod.fst (Except.ok.inj hr)
  have hcan := nulls_concat_canonical hnulls
  have hcomplement : Held (complement ⟨field.name, nulls.1 ++ [.emptyArrayPoint]⟩).intervals v ↔
      ¬Held (nulls.1 ++ [.emptyArrayPoint]) v := complement_holds hcan v
  rw [Holds, ← hm', unionOf_held (complement_spec hcan).1.wellFormed hm, hcomplement,
    InList.keyHeld_of_isNullAndEmptyArray hboth, held_append, nullBounds_held hnulls, held_cons,
    or_iff_left held_nil, Interval.emptyArrayPoint, Interval.point_holds, or_assoc]

lemma isIn_holds {path : String} {members : InList} (hhash : field.option.isHashed = false)
    (hkind : index.kind ≠ .wildcard) (hcollator : index.collator = none) {r : FieldBounds}
    (h : (b.bounds (.not (.isIn path members)) field index).result = .ok r) (v : Value) :
    r.1.Holds v ↔ ¬members.KeyHeld v := by
  cases habsence : absence? (.isIn path members) field index with
  | some d =>
    rw [bounds_result hkind, derive, hhash] at h
    simp only [Bool.false_and, Bool.false_eq_true, if_false, habsence] at h
    exact absence_isIn_holds habsence hhash h v
  | none =>
    have htest : (Predicate.isIn path members).IsTest := trivial
    obtain ⟨bounds, hb, hr, -⟩ := not_result htest habsence hhash hkind h
    have hleaf := evaluated_result hb
    rw [hhash] at hleaf
    have hcan := (membershipBounds_yields members index false).of_eq_ok hleaf
    rw [hr, complement_holds hcan, Holds, membershipBounds_held hleaf, hcollator]
    rfl

/-- Bounds for an array are never exact. -/
lemma comparisonBounds_array_not_exact {op : ComparisonOp} {items : List Value} {bounds : OperandBounds}
    (h : comparisonBounds op (.array items) index false = .ok bounds) : bounds.2 ≠ .exact := by
  cases op with
  | eq =>
    cases items <;> (cases h; exact nofun)
  | lt =>
    rw [← Except.ok.inj h]
    simp [ltBounds, Value.isMaxKey, Value.isNaN, Value.isArray, unlessVoid, inequalityTightness,
      Interval.isVoid, isExactOperand]
  | lte =>
    rw [← Except.ok.inj h]
    simp [Value.isArray, inequalityTightness, Interval.isVoid, isExactOperand]
  | gt =>
    rw [← Except.ok.inj h]
    simp [gtBounds, Value.isMinKey, Value.isNaN, Value.isArray, unlessVoid, inequalityTightness,
      Interval.isVoid, isExactOperand]
  | gte =>
    rw [← Except.ok.inj h]
    simp [Value.isArray, inequalityTightness, Interval.isVoid, isExactOperand]

lemma not_comparison_keeps {path : String} {op : ComparisonOp} {operand : Value}
    (hhash : field.option.isHashed = false) (hkind : index.kind ≠ .wildcard)
    (hcollator : index.collator = none) (hmulti : index.multikey = false) {r : FieldBounds}
    (h : (b.bounds (.not (.comparison path op operand)) field index).result = .ok r) {d : Value}
    (hd : ¬op.Accepts operand d) : r.1.Holds d := by
  have htest : (Predicate.comparison path op operand).IsTest := trivial
  obtain ⟨bounds, hb, hr, hexact⟩ := not_result htest rfl hhash hkind h
  have hleaf := evaluated_result hb
  rw [hhash] at hleaf
  have ha : operand.isArray = false := by
    by_contra harray
    cases operand <;> first | contradiction | skip
    rcases hexact with hnull | hexact | hcollated
    · cases op <;> cases hnull
    · exact comparisonBounds_array_not_exact hleaf hexact
    · simp [hcollator] at hcollated
  have hcan := (comparisonBounds_yields op operand index false).of_eq_ok hleaf
  rw [hr, complement_holds hcan, Holds, comparisonBounds_held hmulti ha op hleaf, hcollator]
  exact hd

lemma not_hasType_keeps {path : String} {types : TypeSet} (hnodup : types.tags.Nodup)
    (hhash : field.option.isHashed = false) (hkind : index.kind ≠ .wildcard)
    (hcollator : index.collator = none) {r : FieldBounds}
    (h : (b.bounds (.not (.hasType path types)) field index).result = .ok r) {d : Value}
    (hd : ¬types.Accepts d.tag) : r.1.Holds d := by
  have htest : (Predicate.hasType path types).IsTest := hnodup
  obtain ⟨bounds, hb, hr, hexact⟩ := not_result htest rfl hhash hkind h
  have hleaf := evaluated_result hb
  have hcan := (typeBounds_yields types index).of_eq_ok hleaf
  have hexact : bounds.2 = .exact := by
    rcases hexact with hnull | hexact | hcollated
    · cases hnull
    · exact hexact
    · simp [hcollator] at hcollated
  obtain ⟨harray, ht⟩ := typeBounds_tightness hleaf hexact
  rw [hr, complement_holds hcan, Holds, typeBounds_held hleaf, harray]
  simp only [Bool.false_eq_true, false_or]
  exact fun hheld => hd (TypeSet.accepts_of_exact hnodup ht hheld)

/-- Bounds for a remainder are never exact. -/
lemma not_mod_refused {path : String} {divisor remainder : Int64} (hhash : field.option.isHashed = false)
    (hkind : index.kind ≠ .wildcard) (hcollator : index.collator = none) (r : FieldBounds) :
    (b.bounds (.not (.mod path divisor remainder)) field index).result ≠ .ok r := by
  intro h
  have htest : (Predicate.mod path divisor remainder).IsTest := trivial
  obtain ⟨bounds, hb, -, hexact⟩ := not_result htest rfl hhash hkind h
  have htight : Tightness.inexactCovered = bounds.2 :=
    congrArg Prod.snd (Except.ok.inj (constant_result hb))
  rcases hexact with hnull | hexact | hcollated
  · cases hnull
  · rw [hexact] at htight
    cases htight
  · simp [hcollator] at hcollated

end Builder

/-- The keys that a test is looked up by on an index without collation satisfy the test, wherever a negation
relies on it. -/
def Predicate.KeysAccepted : Predicate → Prop
  | .isIn _ members => members.KeysAccepted
  | _ => True

namespace Builder

variable {b : Builder} {field : IndexedField} {index : Index}

/-- **Negations without collation.**  Where a negation has bounds, no value that satisfies it is missing
from them, unless the child is a membership list that is looked up by a key which does not satisfy it. -/
theorem negation_keeps_iff {child : Predicate} (hchild : child.IsTest)
    (hhash : field.option.isHashed = false) (hkind : index.kind ≠ .wildcard)
    (hcollator : index.collator = none) (hmulti : index.multikey = false) {list : IntervalList}
    {tightness : Tightness} (h : (b.bounds (.not child) field index).result = .ok (list, tightness)) :
    (∀ d, d.isArray = false → ¬child.Accepts d → list.Holds d) ↔ child.KeysAccepted := by
  cases child with
  | comparison path op operand =>
    exact iff_of_true (fun d _ hd => not_comparison_keeps hhash hkind hcollator hmulti h hd) trivial
  | hasType path types =>
    exact iff_of_true (fun d _ hd => not_hasType_keeps hchild hhash hkind hcollator h hd) trivial
  | mod path divisor remainder => exact absurd h (not_mod_refused hhash hkind hcollator _)
  | isIn path members =>
    show _ ↔ members.KeysAccepted
    rw [← members.keysAccepted_iff]
    refine forall₂_congr fun d _ => ?_
    rw [isIn_holds hhash hkind hcollator h]
    exact not_imp_not
  | _ => exact hchild.elim

/-- A list with null and `[1, 2]` is looked up by `1` too, so its negation loses `1`. -/
theorem negation_of_null_and_array_loses :
    let b := Builder.ofSettings {}
    let child : Predicate := .isIn "a" ⟨[.null, .array [.int 1, .int 2]], []⟩
    let field : IndexedField := ⟨"a", .ascending⟩
    let index := Index.ofPattern "a_1" ⟨[field]⟩
    let list : IntervalList := ⟨"a", [⟨.minKey, true, .undefined, false⟩, ⟨.undefined, false, .null, false⟩,
      ⟨.null, false, .int 1, false⟩, ⟨.int 1, false, .array [.int 1, .int 2], false⟩,
      ⟨.array [.int 1, .int 2], false, .maxKey, true⟩]⟩
    child.IsTest ∧ field.option.isHashed = false ∧ index.kind ≠ .wildcard ∧ index.collator = none ∧
      index.multikey = false ∧ (b.bounds (.not child) field index).result = .ok (list, .exact) ∧
      ¬∀ d, d.isArray = false → ¬child.Accepts d → list.Holds d := by
  intro b child field index list
  have hchild : child.IsTest := trivial
  have hkind : index.kind ≠ .wildcard := by decide
  have hresult : (b.bounds (.not child) field index).result = .ok (list, .exact) := by
    subst b child field index list
    rfl
  refine ⟨hchild, rfl, hkind, rfl, rfl, hresult, fun hkeeps => ?_⟩
  obtain ⟨harrays, -⟩ := (negation_keeps_iff hchild rfl hkind rfl rfl hresult).1 hkeeps
  rcases harrays [.int 1, .int 2] (by simp) with harray | ⟨m, hm, haccepts⟩ | ⟨r, hr, -⟩
  · cases harray
  · simp only [List.mem_cons, List.not_mem_nil, or_false] at hm
    rcases hm with rfl | rfl <;>
      simp [ComparisonOp.Accepts, firstKey, Value.isMinKey, Value.isMaxKey, Value.isNaN, Value.int] at haccepts
  · cases hr

end Builder

/-! ## Negations with a collation -/

/-- The types whose values lie in the bounds of a type test. -/
def TypeSet.Reaches (types : TypeSet) (tag : TypeTag) : Prop :=
  types.has .array ∨ (types.allNumbers ∧ tag.rank = TypeTag.int.rank) ∨
    ∃ t ∈ types.tags, tag.rank = t.rank

/-- Every value outside arrays whose key is in the bounds of the test satisfies the test. -/
def Predicate.BoundsAccepted : Predicate → Prop
  | .comparison _ op operand =>
    ∀ items, operand = .array items → op = .eq ∧ (firstKey none items).isArray = true
  | .hasType _ types => ∀ tag, tag ≠ .array → tag ≠ .decimal → types.Reaches tag → types.Accepts tag
  | .mod .. => False
  | _ => True

/-- Each type but the one that is a name only has a value. -/
lemma TypeTag.exists_value {tag : TypeTag} (h : tag ≠ .decimal) : ∃ v : Value, v.tag = tag := by
  by_cases hleast : tag.least.tag = tag
  · exact ⟨_, hleast⟩
  cases tag <;> first | contradiction | skip
  · exact ⟨.int 0, rfl⟩
  · exact ⟨.long 0, rfl⟩
  · exact ⟨.symbol "", rfl⟩

lemma not_accepts_array {op : ComparisonOp} {w v : Value} (hw : w.isArray = true) (hv : v.isArray = false) :
    ¬op.Accepts w v := by
  have hrank : v.rank ≠ w.rank := by
    rw [Value.isArray_iff.1 hw]
    exact fun h => by simp [Value.isArray_iff.2 h] at hv
  cases w <;> first | contradiction | skip
  rintro (⟨h, -⟩ | ⟨-, h, -⟩)
  · exact hrank h
  · cases h

lemma isArray_indexKey (collator : Option Collator) (v : Value) : (v.indexKey collator).isArray = v.isArray := by
  rw [Bool.eq_iff_iff, Value.isArray_iff, Value.isArray_iff, Value.rank_indexKey]

lemma firstKey_eq (collator : Option Collator) (items : List Value) :
    firstKey collator items = (firstKey none items).indexKey collator := by
  cases items with
  | nil => cases collator <;> rfl
  | cons first items => rfl

namespace Builder

variable {b : Builder} {field : IndexedField} {index : Index}

lemma not_comparison_keeps_collated_iff {path : String} {op : ComparisonOp} {operand : Value}
    (hhash : field.option.isHashed = false) (hkind : index.kind ≠ .wildcard)
    (hmulti : index.multikey = false) {r : FieldBounds}
    (h : (b.bounds (.not (.comparison path op operand)) field index).result = .ok r) :
    (∀ d : Value, d.isArray = false →
        ¬op.Accepts (operand.indexKey index.collator) (d.indexKey index.collator) →
        r.1.Holds (d.indexKey index.collator)) ↔
      ∀ items, operand = .array items → op = .eq ∧ (firstKey none items).isArray = true := by
  have htest : (Predicate.comparison path op operand).IsTest := trivial
  obtain ⟨bounds, hb, hr, -⟩ := not_result htest rfl hhash hkind h
  have hleaf := evaluated_result hb
  rw [hhash] at hleaf
  have hcan := (comparisonBounds_yields op operand index false).of_eq_ok hleaf
  rw [hr, complement_keeps_iff hcan]
  by_cases harray : operand.isArray = true
  · obtain ⟨items, rfl⟩ := Value.exists_array_of_isArray harray
    have hkeys : (∀ d : Value, d.isArray = false → bounds.1.Holds (d.indexKey index.collator) →
        op.Accepts ((Value.array items).indexKey index.collator) (d.indexKey index.collator)) ↔
        ∀ d : Value, d.isArray = false → ¬bounds.1.Holds (d.indexKey index.collator) := by
      refine forall₂_congr fun d hd => forall_congr' fun _ => iff_false_intro ?_
      exact not_accepts_array (by rw [isArray_indexKey]; rfl) (by rw [isArray_indexKey, hd])
    rw [hkeys]
    simp only [Value.array.injEq, forall_eq']
    constructor
    · intro hnone
      have hop : op = .eq := by
        by_contra hop
        rcases inequality_array_held hop hleaf with hmin | hmax
        · exact hnone .minKey rfl (by simpa [Value.indexKey_minKey] using hmin)
        · exact hnone .maxKey rfl (by simpa [Value.indexKey_maxKey] using hmax)
      subst hop
      refine ⟨rfl, ?_⟩
      by_contra hfirst
      refine hnone _ (Bool.not_eq_true _ ▸ hfirst) ((equalityBounds_array_held hleaf _).2 (.inr ?_))
      rw [← firstKey_eq]
      exact Value.toClass_eq.1 rfl
    · rintro ⟨rfl, hfirst⟩ d hd hheld
      have hrank {w : Value} (h : (d.indexKey index.collator == w) = true) (hw : w.isArray = true) : False := by
        rw [Value.isArray_iff, ← Value.rank_eq_of_beq h, Value.rank_indexKey, ← Value.isArray_iff, hd] at hw
        cases hw
      rcases (equalityBounds_array_held hleaf _).1 hheld with hself | hhead
      · exact hrank hself (by rw [isArray_indexKey]; rfl)
      · exact hrank hhead (by rw [firstKey_eq, isArray_indexKey, hfirst])
  · rw [Bool.not_eq_true] at harray
    refine iff_of_true (fun d _ => (comparisonBounds_held hmulti harray op hleaf _).1) ?_
    rintro items rfl
    cases harray

lemma not_hasType_keeps_iff {path : String} {types : TypeSet} (hnodup : types.tags.Nodup)
    (hhash : field.option.isHashed = false) (hkind : index.kind ≠ .wildcard) {r : FieldBounds}
    (h : (b.bounds (.not (.hasType path types)) field index).result = .ok r) :
    (∀ d : Value, d.isArray = false → ¬types.Accepts d.tag → r.1.Holds (d.indexKey index.collator)) ↔
      ∀ tag, tag ≠ .array → tag ≠ .decimal → types.Reaches tag → types.Accepts tag := by
  have htest : (Predicate.hasType path types).IsTest := hnodup
  obtain ⟨bounds, hb, hr, -⟩ := not_result htest rfl hhash hkind h
  have hleaf := evaluated_result hb
  have hcan := (typeBounds_yields types index).of_eq_ok hleaf
  rw [hr, complement_keeps_iff hcan]
  have hheld (d : Value) : bounds.1.Holds (d.indexKey index.collator) ↔ types.Reaches d.tag := by
    rw [Holds, typeBounds_held hleaf, Value.rank_indexKey]
    rfl
  simp only [hheld]
  constructor
  · intro hkeeps tag harray hdecimal hreach
    obtain ⟨d, rfl⟩ := TypeTag.exists_value hdecimal
    refine hkeeps d ?_ hreach
    cases d <;> first | rfl | exact absurd rfl harray
  · intro haccepts d harray
    refine haccepts d.tag ?_ ?_
    · intro htag
      cases d <;> first | contradiction | (rename_i n; cases n <;> contradiction)
    · intro htag
      cases d <;> first | contradiction | (rename_i n; cases n <;> contradiction)

lemma not_mod_loses {path : String} {divisor remainder : Int64}
    (hhash : field.option.isHashed = false) (hkind : index.kind ≠ .wildcard) {r : FieldBounds}
    (h : (b.bounds (.not (.mod path divisor remainder)) field index).result = .ok r) :
    ¬∀ d : Value, d.isArray = false →
      ¬modAccepts divisor remainder d → r.1.Holds (d.indexKey index.collator) := by
  have htest : (Predicate.mod path divisor remainder).IsTest := trivial
  obtain ⟨bounds, hb, hr, -⟩ := not_result htest rfl hhash hkind h
  have hleaf := Except.ok.inj (constant_result hb)
  have hbounds : bounds.1.intervals = [TypeTag.double.bracket] := (congrArg Prod.fst hleaf).symm
  have hcan : Canonical bounds.1.intervals := by
    rw [hbounds]
    exact Canonical.singleton (bracket_wellFormed _)
  rw [hr, complement_keeps_iff hcan]
  -- NaN is in the bracket, and has no remainder
  intro hkeeps
  have hheld : bounds.1.Holds ((Value.double .nan).indexKey index.collator) := by
    rw [Holds, hbounds, held_cons, bracket_holds_iff, Value.rank_indexKey]
    exact .inl rfl
  obtain ⟨k, hk, -⟩ := hkeeps (.double .nan) rfl hheld
  rw [Number.whole?, Value.quantity_nan] at hk
  cases hk

/-- **Negations with a collation.**  Whatever the collation, the bounds of a negated comparison, type test
or remainder test miss no value that satisfies it exactly when the bounds of the child hold no key of a
value that fails the child: not so for remainders, for type sets that name a bracket in part, and for array
operands other than in an equality with an array that begins with an array. -/
theorem negation_keeps_collated_iff {child : Predicate} (hchild : child.IsTest)
    (hmembers : ∀ path members, child ≠ .isIn path members) (hhash : field.option.isHashed = false)
    (hkind : index.kind ≠ .wildcard) (hmulti : index.multikey = false) {list : IntervalList}
    {tightness : Tightness} (h : (b.bounds (.not child) field index).result = .ok (list, tightness)) :
    (∀ d : Value, d.isArray = false → ¬child.AcceptsCollated index.collator d →
        list.Holds (d.indexKey index.collator)) ↔ child.BoundsAccepted := by
  cases child with
  | comparison path op operand => exact not_comparison_keeps_collated_iff hhash hkind hmulti h
  | hasType path types => exact not_hasType_keeps_iff hchild hhash hkind h
  | mod path divisor remainder => exact iff_of_false (not_mod_loses hhash hkind h) id
  | isIn path members => exact absurd rfl (hmembers path members)
  | _ => exact hchild.elim

/-- On an index sorted by lower case the negation of the type `int` leaves out the bracket of all numbers, so
it loses doubles. -/
theorem negation_of_int_loses_collated :
    let b := Builder.ofSettings {}
    let child : Predicate := .hasType "a" ⟨false, [.int]⟩
    let field : IndexedField := ⟨"a", .ascending⟩
    let index : Index :=
      { Index.ofPattern "a_1" ⟨[field]⟩ with collator := some CollatorKind.lowercase.collator }
    let list : IntervalList := ⟨"a", [⟨.minKey, true, .double .nan, false⟩,
      ⟨.double .infinity, false, .maxKey, true⟩]⟩
    child.IsTest ∧ (∀ path members, child ≠ .isIn path members) ∧ field.option.isHashed = false ∧
      index.kind ≠ .wildcard ∧ index.multikey = false ∧
      (b.bounds (.not child) field index).result = .ok (list, .inexactCovered) ∧
      ¬∀ d : Value, d.isArray = false → ¬child.AcceptsCollated index.collator d →
        list.Holds (d.indexKey index.collator) := by
  intro b child field index list
  have hchild : child.IsTest := List.Pairwise.cons nofun .nil
  have hmembers : ∀ path members, child ≠ .isIn path members := nofun
  have hkind : index.kind ≠ .wildcard := by decide
  have hresult : (b.bounds (.not child) field index).result = .ok (list, .inexactCovered) := by
    subst b child field index list
    rfl
  refine ⟨hchild, hmembers, rfl, hkind, rfl, hresult, fun hkeeps => ?_⟩
  have hbounds := (negation_keeps_collated_iff hchild hmembers rfl hkind rfl hresult).1 hkeeps
  -- a double lies in the bracket of the integers
  rcases hbounds .double nofun nofun (.inr (.inr ⟨.int, by simp, rfl⟩)) with hhas | ⟨hall, -⟩
  · cases hhas
  · cases hall

end Builder

end ScanBounds

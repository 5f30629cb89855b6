import Mathlib.Data.List.Perm.Subperm
import ScanBounds.Proofs.Bounding.Canonical
import ScanBounds.Proofs.Bounding.Held

/-!
# The bounds of type tests, key by key

A type test that does not ask for arrays is looked up by the brackets of its types, and brackets are made of
values that sort together: all numbers, strings with symbols, and every other type by itself.  So the bounds
hold a key exactly if some named type sorts in its bracket.  That may be more than the test asks for, when it
names only some numeric types or one of strings and symbols.  Bounds that are called exact hold the values of
the named types and no others (`TypeSet.accepts_of_exact`).
-/

namespace ScanBounds

open IntervalList

/-! ## Type tests with exact bounds -/

/-- Only numeric types share a bracket, and strings and symbols do. -/
lemma TypeTag.eq_of_rank_eq {s t : TypeTag} (h : s.rank = t.rank) :
    s = t ∨ (s.isNumber = true ∧ t.isNumber = true) ∨
      (s = .string ∨ s = .symbol) ∧ (t = .string ∨ t = .symbol) := by
  revert h
  cases s <;> cases t <;> decide

/-- Four different numeric types are all of them. -/
lemma TypeSet.has_of_isNumber {types : TypeSet} (hnodup : types.tags.Nodup)
    (h : (types.tags.filter TypeTag.isNumber).length = 4) {tag : TypeTag} (htag : tag.isNumber = true) :
    types.has tag = true := by
  have hsub : types.tags.filter TypeTag.isNumber ⊆ [.int, .long, .double, .decimal] := by
    intro t ht
    have hnumber := (List.mem_filter.1 ht).2
    clear ht
    revert hnumber
    cases t <;> decide
  have hperm := (List.subperm_of_subset (hnodup.filter _) hsub).perm_of_length_le (by rw [h]; rfl)
  have hmem : tag ∈ types.tags.filter TypeTag.isNumber := by
    rw [hperm.mem_iff]
    revert htag
    cases tag <;> decide
  exact List.contains_iff_mem.2 (List.mem_filter.1 hmem).1

/-- What exact bounds say about a type set, arrays aside. -/
lemma TypeSet.of_tightness_eq_exact {types : TypeSet} {index : Index} (ht : types.tightness index = .exact) :
    (types.allNumbers = true ∨ types.tags.filter TypeTag.isNumber = [] ∨
        (types.tags.filter TypeTag.isNumber).length = 4) ∧
      types.has .string = types.has .symbol := by
  simp only [tightness] at ht
  split_ifs at ht with h₁ h₂ h₃ h₄
  rw [bne_iff_ne, not_not] at h₄
  refine ⟨?_, h₄⟩
  simp only [Bool.and_eq_true, Bool.not_eq_true', List.isEmpty_eq_false_iff, bne_iff_ne] at h₃
  by_cases hnil : types.tags.filter TypeTag.isNumber = []
  · exact .inr (.inl hnil)
  by_cases hlen : (types.tags.filter TypeTag.isNumber).length = 4
  · exact .inr (.inr hlen)
  · left
    by_contra hall
    exact h₃ ⟨⟨hnil, hlen⟩, Bool.not_eq_true _ ▸ hall⟩

/-- The brackets of a type set with exact bounds hold values of its types only. -/
lemma TypeSet.accepts_of_exact {types : TypeSet} {index : Index} (hnodup : types.tags.Nodup)
    (ht : types.tightness index = .exact) {tag : TypeTag}
    (htag : (types.allNumbers ∧ tag.rank = TypeTag.int.rank) ∨ ∃ t ∈ types.tags, tag.rank = t.rank) :
    types.Accepts tag := by
  obtain ⟨hnumbers, htexts⟩ := of_tightness_eq_exact ht
  rcases htag with ⟨hall, hrank⟩ | ⟨t, hmem, hrank⟩
  · refine .inr ⟨hall, ?_⟩
    revert hrank
    cases tag <;> decide
  have hhas : types.has t = true := List.contains_iff_mem.2 hmem
  rcases TypeTag.eq_of_rank_eq hrank with rfl | ⟨hnumber, htnumber⟩ | ⟨htag, ht⟩
  · exact .inl hhas
  · rcases hnumbers with hall | hnil | hlen
    · exact .inr ⟨hall, hnumber⟩
    · exact absurd (List.mem_filter.2 ⟨hmem, htnumber⟩) (by simp [hnil])
    · exact .inl (has_of_isNumber hnodup hlen hnumber)
  · left
    have hboth : types.has .string = true ∧ types.has .symbol = true := by
      rcases ht with rfl | rfl
      · exact ⟨hhas, htexts ▸ hhas⟩
      · exact ⟨htexts.trans hhas, hhas⟩
    rcases htag with rfl | rfl
    · exact hboth.1
    · exact hboth.2

variable {types : TypeSet}

/-- A type that the set accepts sorts in the bracket of one that it names, or among the numbers it means. -/
lemma TypeSet.rank_of_accepts {tag : TypeTag} (h : types.Accepts tag) :
    (types.allNumbers ∧ tag.rank = TypeTag.int.rank) ∨ ∃ t ∈ types.tags, tag.rank = t.rank := by
  rcases h with hhas | ⟨hall, hnumber⟩
  · exact .inr ⟨tag, List.contains_iff_mem.1 hhas, rfl⟩
  · refine .inl ⟨hall, ?_⟩
    revert hnumber
    cases tag <;> decide

lemma Value.rank_eq_int_iff {v : Value} : v.rank = TypeTag.int.rank ↔ v.isNumber = true := by
  cases v <;> simp [Value.isNumber, TypeTag.rank]

/-! ## The bounds -/

variable {index : Index}

/-- Without arrays a type set has bounds, as tight as its brackets are. -/
lemma exists_typeBounds (index : Index) (harray : types.has .array = false) :
    ∃ m, typeBounds types index = .ok (m, types.tightness index) := by
  obtain ⟨m, hm, -⟩ := unionOf_spec (brackets_wellFormed types)
  refine ⟨m, ?_⟩
  rw [typeBounds, harray, if_neg Bool.false_ne_true]
  show (unionOf types.brackets >>= fun m => .ok (m, types.tightness index)) = _
  rw [hm]
  rfl

lemma typeBounds_tightness {bounds : OperandBounds} (h : typeBounds types index = .ok bounds)
    (hexact : bounds.2 = .exact) : types.has .array = false ∧ types.tightness index = .exact := by
  by_cases harray : types.has .array = true
  · rw [typeBounds, if_pos harray] at h
    cases h
    cases hexact
  · rw [Bool.not_eq_true] at harray
    obtain ⟨m, hm⟩ := exists_typeBounds index harray
    obtain rfl := Except.ok.inj (hm.symm.trans h)
    exact ⟨harray, hexact⟩

namespace Builder

variable {field : IndexedField}

/-- **Type tests, key by key.**  On a field that is not hashed a type test without arrays has bounds.  They hold
the keys in the bracket of some named type, and all numbers if the test says so.  When they are exact, they hold
just the keys of the named types. -/
theorem hasType_holds_iff (b : Builder) (hhash : field.option.isHashed = false) (hkind : index.kind ≠ .wildcard)
    (harray : types.has .array = false) (hnodup : types.tags.Nodup) (path : String) :
    ∃ list, (b.bounds (.hasType path types) field index).result = .ok (list, types.tightness index) ∧
      (∀ k, list.Holds k ↔
        (∃ tag ∈ types.tags, k.rank = tag.rank) ∨ types.allNumbers = true ∧ k.isNumber = true) ∧
      (types.tightness index = .exact → ∀ k, list.Holds k ↔ types.Accepts k.tag) := by
  obtain ⟨m, hm⟩ := exists_typeBounds index harray
  have hheld (k : Value) : Held m k ↔
      (types.allNumbers ∧ k.tag.rank = TypeTag.int.rank) ∨ ∃ tag ∈ types.tags, k.tag.rank = tag.rank := by
    rw [typeBounds_held hm, harray]
    simp only [Bool.false_eq_true, false_or]
    rfl
  refine ⟨⟨field.name, m⟩, ?_, fun k => ?_, fun hexact k => ?_⟩
  · rw [bounds_result hkind]
    simp only [derive, leaf, hhash, Bool.false_and, Bool.false_eq_true, if_false, hm]
    rfl
  · rw [Holds, hheld, or_comm, ← Value.rank_eq_int_iff]
    rfl
  · rw [Holds, hheld]
    exact ⟨TypeSet.accepts_of_exact hnodup hexact, TypeSet.rank_of_accepts⟩

/-- All numbers, strings and symbols fill two brackets, so that NaN and the empty symbol are held and no object
is. -/
theorem hasType_holds_iff_numbers_and_texts :
    let b := Builder.ofSettings {}
    let field : IndexedField := ⟨"a", .ascending⟩
    let index := Index.ofPattern "a_1" ⟨[field]⟩
    let types := TypeSet.ofTags true [.string, .symbol]
    field.option.isHashed = false ∧ index.kind ≠ .wildcard ∧ types.has .array = false ∧ types.tags.Nodup ∧
      ∃ list, (b.bounds (.hasType "a" types) field index).result = .ok (list, .exact) ∧
        list.Holds (.double .nan) ∧ list.Holds (.symbol "") ∧ ¬list.Holds (.object []) ∧
        ∀ k, list.Holds k ↔ types.Accepts k.tag := by
  intro b field index types
  have hhash : field.option.isHashed = false := rfl
  have hkind : index.kind ≠ .wildcard := by decide
  have harray : types.has .array = false := by decide
  have hnodup : types.tags.Nodup := by decide
  have hexact : types.tightness index = .exact := by decide
  obtain ⟨list, hresult, hranks, htypes⟩ := hasType_holds_iff b hhash hkind harray hnodup "a"
  rw [hexact] at hresult
  refine ⟨hhash, hkind, harray, hnodup, list, hresult, ?_, ?_, ?_, htypes hexact⟩ <;> rw [hranks]
  · exact .inr ⟨rfl, rfl⟩
  · exact .inl ⟨.symbol, by decide, rfl⟩
  · decide

end Builder

end ScanBounds

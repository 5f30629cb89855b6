import ScanBounds.Proofs.Bounding.Membership
import ScanBounds.Proofs.Value.Collation

/-!
# Operands that a collation rewrites

In an index with a collation a key does not tell which of the strings with that key was stored, so the bounds
of an operand that has another key than itself need the document.  Whether to ask for it is decided before
any key is compared: the operand is searched for strings.  The search finds one exactly when some collation
would give the operand another key, so that nothing is asked for in vain and nothing is missed.
-/

namespace ScanBounds

open Value

lemma inequalityTightness_eq_iff (i : Interval) (v : Value) (index : Index) :
    inequalityTightness i v index = .inexactFetch ↔
      i.isVoid = false ∧ (isExactOperand v = false ∨ index.collator.isSome = true ∧ v.Rewritable) := by
  rw [rewritable_iff]
  unfold inequalityTightness
  cases i.isVoid <;> cases isExactOperand v <;> cases index.collator.isSome <;> cases v.isCollatable <;> simp

lemma equalityBounds_tightness_iff {v : Value} {index : Index} {hashed : Bool} {bounds : OperandBounds}
    (h : equalityBounds v index hashed = .ok bounds) :
    bounds.2 = .inexactFetch ↔ v.isNull = true ∨ v.isArray = true ∨ hashed = true ∨
      index.collator.isSome = true ∧ v.Rewritable := by
  have harray : (hashed && v.isArray) = false := by
    by_contra hrefused
    obtain ⟨refusal, hrefusal⟩ := equalityBounds_refused index (Bool.eq_true_of_not_eq_false hrefused)
    cases hrefusal.symm.trans h
  obtain ⟨points, hpoints, -⟩ := equalityBounds_lookups index harray
  cases hpoints.symm.trans h
  rw [rewritable_iff, lookupTightness]
  split_ifs with hloose <;> simpa [or_assoc] using hloose

/-- **Collatable values.**  A collation leaves a value as it is unless the value is collatable, and then some
collation gives it a key that does not equal it.  The key keeps the bracket of the value and is collatable if
the value is.  So the bounds of comparisons need the document, beyond the cases that have nothing to do with
collations, exactly for operands that a collation can rewrite. -/
theorem collatable_iff_rewritable (v : Value) :
    (v.isCollatable = false → ∀ c : Collator, v.indexKey (some c) = v) ∧
      (v.isCollatable = true → ∃ c : Collator, (v.indexKey (some c) == v) = false) ∧
      (∀ collator, (v.indexKey collator).rank = v.rank ∧
        (v.indexKey collator).isCollatable = v.isCollatable) ∧
      (∀ i index, inequalityTightness i v index = .inexactFetch ↔
        i.isVoid = false ∧ (isExactOperand v = false ∨ index.collator.isSome = true ∧ v.Rewritable)) ∧
      ∀ index hashed bounds, equalityBounds v index hashed = .ok bounds →
        (bounds.2 = .inexactFetch ↔ v.isNull = true ∨ v.isArray = true ∨ hashed = true ∨
          index.collator.isSome = true ∧ v.Rewritable) := by
  refine ⟨fun h c => collate_eq_self c.key h, rewritable_iff.2, fun collator => ?_, fun i index => ?_,
    fun index hashed bounds hbounds => ?_⟩
  · exact ⟨rank_indexKey collator v, isCollatable_indexKey collator v⟩
  · exact inequalityTightness_eq_iff i v index
  · exact equalityBounds_tightness_iff hbounds

/-- A symbol and the scope of a code stay as they are; one string beside them makes the whole collatable. -/
theorem collatable_iff_rewritable_of_nested :
    let plain : Value := .array [.symbol "S", .codeWithScope "f" [("a", .string "X")]]
    let nested : Value := .object [("a", .array [plain, .string "X"])]
    let index : Index :=
      { Index.ofPattern "ix" ⟨[⟨"a", .ascending⟩]⟩ with collator := some CollatorKind.lowercase.collator }
    let key := nested.indexKey index.collator
    plain.isCollatable = false ∧ (∀ c : Collator, plain.indexKey (some c) = plain) ∧
      nested.isCollatable = true ∧ (∃ c : Collator, (nested.indexKey (some c) == nested) = false) ∧
      (key.rank = nested.rank ∧ key.isCollatable = nested.isCollatable) ∧
      inequalityTightness (.point key) nested index = .inexactFetch ∧
      equalityBounds nested index false = .ok ([.point key], .inexactFetch) ∧
      (Tightness.inexactFetch = .inexactFetch ↔ nested.isNull = true ∨ nested.isArray = true ∨ false = true ∨
        index.collator.isSome = true ∧ nested.Rewritable) := by
  intro plain nested index key
  have hplain : plain.isCollatable = false := rfl
  have hnested : nested.isCollatable = true := rfl
  have hbounds : equalityBounds nested index false = .ok ([.point key], .inexactFetch) := rfl
  obtain ⟨-, hrewritten, hkey, hinequality, hequality⟩ := collatable_iff_rewritable nested
  have htight : inequalityTightness (.point key) nested index = .inexactFetch :=
    (hinequality _ _).2 ⟨rfl, .inr ⟨rfl, hrewritten hnested⟩⟩
  exact ⟨hplain, (collatable_iff_rewritable plain).1 hplain, hnested, hrewritten hnested, hkey _, htight, hbounds,
    hequality _ _ _ hbounds⟩

end ScanBounds

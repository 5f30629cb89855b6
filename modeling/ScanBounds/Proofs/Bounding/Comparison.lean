import ScanBounds.Proofs.Bounding.Canonical
import ScanBounds.Proofs.Bounding.Held

/-!
# The bounds of comparisons, key by key

On a field that is not hashed every comparison has bounds, and so has every inequality of the expression
language whose path leads through no array.  With an operand that is neither null nor an array both hold the
keys that stand in the relation to the key of the operand: a comparison within the bracket of the operand,
NaN and the extremes apart, and the expression language across all brackets.  One thing is decided for the
whole index and not for the path: whether the bounds below `MaxKey` or above `MinKey` take in the extreme.
-/

namespace ScanBounds

open IntervalList

/-! ## Operands -/

section Operand

variable {operand : Value} {index : Index}

lemma exists_comparisonBounds (op : ComparisonOp) (operand : Value) (index : Index) :
    ∃ bounds, comparisonBounds op operand index false = .ok bounds := by
  obtain ⟨m, hm, -⟩ := nullBounds_spec false
  cases op with
  | eq =>
    simp only [comparisonBounds, equalityBounds]
    split
    · exact ⟨_, hm⟩
    · exact ⟨_, rfl⟩
    · exact ⟨_, rfl⟩
  | lt => exact ⟨_, rfl⟩
  | lte =>
    simp only [comparisonBounds, lteBounds]
    split_ifs
    · exact ⟨_, rfl⟩
    · exact ⟨_, rfl⟩
    · exact ⟨_, hm⟩
    · exact ⟨_, rfl⟩
  | gt => exact ⟨_, rfl⟩
  | gte =>
    simp only [comparisonBounds, gteBounds]
    split_ifs
    · exact ⟨_, rfl⟩
    · exact ⟨_, rfl⟩
    · exact ⟨_, hm⟩
    · exact ⟨_, rfl⟩

/-- Inequalities of the expression language do not stop at brackets; only null is taken in where it should
be left out. -/
lemma exprBounds_held {op : ComparisonOp} (hop : op ≠ .eq) (hnull : operand.isNull = false) (v : Value) :
    Held (exprBounds op operand index).1 v ↔ op.Relates v (operand.indexKey index.collator) := by
  have hmin := Value.minKey_le v
  have hmax := Value.le_maxKey v
  cases op with
  | eq => exact absurd rfl hop
  | _ => simp [exprBounds, unlessVoid_held, Interval.Holds, ComparisonOp.Relates, hnull, hmin, hmax]

end Operand

namespace Builder

variable {b : Builder} {field : IndexedField} {index : Index} {path : String} {op : ComparisonOp}
  {operand : Value}

/-- A comparison on a field that is not hashed has the bounds of its operand. -/
lemma exists_comparison_bounds (hhash : field.option.isHashed = false)
    (hadjust : index.kind = .wildcard → b.adjuster.KeepsList) {bounds : OperandBounds}
    (h : comparisonBounds op operand index false = .ok bounds) :
    ∃ tightness, (b.bounds (.comparison path op operand) field index).result =
      .ok (⟨field.name, bounds.1⟩, tightness) := by
  have hderive : (b.derive field index (.comparison path op operand)).result =
      .ok (⟨field.name, bounds.1⟩, bounds.2) := by
    simp only [derive, leaf, hhash, Bool.false_and, Bool.false_eq_true, if_false, h]
    rfl
  exact bounds_of_derive hadjust hderive

lemma exists_exprComparison_bounds (hhash : field.option.isHashed = false)
    (hadjust : index.kind = .wildcard → b.adjuster.KeepsList)
    (hpath : index.isMultikeyPath field.name = false) (hop : op ≠ .eq) :
    ∃ tightness, (b.bounds (.exprComparison path op operand) field index).result =
      .ok (⟨field.name, (exprBounds op operand index).1⟩, tightness) := by
  have hderive : (b.derive field index (.exprComparison path op operand)).result =
      .ok (⟨field.name, (exprBounds op operand index).1⟩, (exprBounds op operand index).2) := by
    simp only [derive, leaf, hhash, hpath, hop, Bool.false_and, Bool.false_eq_true, if_false]
    rfl
  exact bounds_of_derive hadjust hderive

/-- **Comparisons, key by key.**  On a field that is neither hashed nor reached through arrays, a comparison
and an inequality of the expression language have bounds.  Those of the comparison hold the keys that it
accepts, and the extreme that it leaves out if the index has arrays on other paths; those of the expression
language hold the keys that stand in the relation to the key of the operand. -/
theorem comparison_holds_iff (b : Builder) (hhash : field.option.isHashed = false)
    (hkind : index.kind ≠ .wildcard) (hpath : index.isMultikeyPath field.name = false)
    (harray : operand.isArray = false) (hnull : operand.isNull = false) (path : String) :
    let key := operand.indexKey index.collator
    (∀ op : ComparisonOp, ∃ list tightness,
      (b.bounds (.comparison path op operand) field index).result = .ok (list, tightness) ∧
        ∀ k, list.Holds k ↔
          op.Accepts key k ∨ index.multikey = true ∧ op.leavesOutExtreme operand = true) ∧
    ∀ op : ComparisonOp, op ≠ .eq → ∃ list tightness,
      (b.bounds (.exprComparison path op operand) field index).result = .ok (list, tightness) ∧
        ∀ k, list.Holds k ↔ op.Relates k key := by
  intro key
  have hadjust : index.kind = .wildcard → b.adjuster.KeepsList := fun h => absurd h hkind
  refine ⟨fun op => ?_, fun op hop => ?_⟩
  · obtain ⟨bounds, hbounds⟩ := exists_comparisonBounds op operand index
    obtain ⟨tightness, hresult⟩ := exists_comparison_bounds hhash hadjust hbounds
    exact ⟨_, tightness, hresult, comparisonBounds_held_iff harray op hbounds⟩
  · obtain ⟨tightness, hresult⟩ := exists_exprComparison_bounds hhash hadjust hpath hop
    exact ⟨_, tightness, hresult, exprBounds_held hop hnull⟩

/-- On an index sorted by strings read backwards, the strings up to `"ba"` end in `a` or are empty; nothing
of another type is among them, as it is for the expression language. -/
theorem comparison_holds_iff_reversed :
    let b := Builder.ofSettings {}
    let field : IndexedField := ⟨"a", .ascending⟩
    let index : Index :=
      { Index.ofPattern "a_1" ⟨[field]⟩ with collator := some CollatorKind.reversed.collator }
    let operand : Value := .string "ba"
    field.option.isHashed = false ∧ index.kind ≠ .wildcard ∧ index.isMultikeyPath field.name = false ∧
      operand.isArray = false ∧ operand.isNull = false ∧
      (∃ list tightness, (b.bounds (.comparison "a" .lte operand) field index).result = .ok (list, tightness) ∧
        list.Holds (.string "aa") ∧ ¬list.Holds (.string "b") ∧ ¬list.Holds .minKey) ∧
      ∃ list tightness, (b.bounds (.exprComparison "a" .lte operand) field index).result = .ok (list, tightness) ∧
        list.Holds (.string "aa") ∧ ¬list.Holds (.string "b") ∧ list.Holds .minKey := by
  intro b field index operand
  have hhash : field.option.isHashed = false := rfl
  have hkind : index.kind ≠ .wildcard := by decide
  have hpath : index.isMultikeyPath field.name = false := rfl
  have harray : operand.isArray = false := rfl
  have hnull : operand.isNull = false := rfl
  obtain ⟨hcomparison, hexpr⟩ := comparison_holds_iff b hhash hkind hpath harray hnull "a"
  obtain ⟨list, tightness, hresult, hholds⟩ := hcomparison .lte
  obtain ⟨wide, looseness, hwide, hall⟩ := hexpr .lte nofun
  refine ⟨hhash, hkind, hpath, harray, hnull, ⟨list, tightness, hresult, ?_⟩, wide, looseness, hwide, ?_⟩
  · simp only [hholds]
    decide
  · simp only [hall]
    decide

/-- Arrays on the path `b` make the bounds of `a` below `MaxKey` take in `MaxKey`, which no array on `a` is
stored as. -/
theorem below_maxKey_holds_maxKey_beside_arrays :
    let b := Builder.ofSettings {}
    let field : IndexedField := ⟨"a", .ascending⟩
    let index := (Index.ofPattern "ix" ⟨[field, ⟨"b", .ascending⟩]⟩).withMultikeyPaths ["b"]
    let list : IntervalList := ⟨"a", [⟨.minKey, true, .maxKey, true⟩]⟩
    field.option.isHashed = false ∧ index.kind ≠ .wildcard ∧ index.isMultikeyPath field.name = false ∧
      (b.bounds (.comparison "a" .lt .maxKey) field index).result = .ok (list, .inexactFetch) ∧
      list.Holds .maxKey ∧ ¬ComparisonOp.lt.Relates .maxKey (Value.maxKey.indexKey index.collator) := by
  intro b field index list
  have hkind : index.kind ≠ .wildcard := by decide
  have hpath : index.isMultikeyPath field.name = false := by decide
  have hheld : list.Holds .maxKey := held_cons.2 (.inl ⟨Value.minKey_le _, le_refl _⟩)
  exact ⟨rfl, hkind, hpath, rfl, hheld, by decide⟩

end Builder

end ScanBounds

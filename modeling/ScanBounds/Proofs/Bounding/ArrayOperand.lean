import ScanBounds.Proofs.Bounding.Comparison
import ScanBounds.Proofs.Value.Nested

/-!
# Documents that comparisons with arrays miss

A multikey index holds an array under its elements, so the bounds of a comparison with an array are meant to
hold an element of every array that satisfies it.  For that they must reach to the first element of the
operand: the first element of the other array is no further off.  The bounds of an inequality end at the
operand itself, or at its first element if that is of a bracket further off.  When the first element is an
array as well, the brackets do not tell which of the two is further off, and the operand may be the nearer one.
-/

namespace ScanBounds

open IntervalList

/-- The keys that a multikey index holds for an array: its elements, or undefined if there are none. -/
def multikeys : List Value → List Value
  | [] => [.undefined]
  | items => items

/-- The bounds of the comparison end at the operand although its first element is further off. -/
def ComparisonOp.endsShort (op : ComparisonOp) : List Value → Bool
  | [] => false
  | first :: _ =>
    first.isArray && match op with
      | eq => false
      | lt | lte => TypeTag.array.rank < first.lead.rank
      | gt | gte => first.lead.rank ≤ TypeTag.array.rank

variable {op : ComparisonOp} {index : Index} {first : Value} {rest items ds : List Value}

/-! ## Where inequalities end -/

lemma endsBelow_array_cons (hcollator : index.collator = none) (first : Value) (rest : List Value) :
    (endsBelow (.array (first :: rest)) index).2 =
      if TypeTag.array.rank < first.rank then first else .array (first :: rest) := by
  simp [endsBelow, hcollator]

lemma endsAbove_array_cons (hcollator : index.collator = none) (first : Value) (rest : List Value) :
    (endsAbove (.array (first :: rest)) index).1 =
      if first.rank < TypeTag.array.rank then first else .array (first :: rest) := by
  simp [endsAbove, hcollator]

/-- The keys below an array reach to its first element. -/
lemma first_le_stop (hcollator : index.collator = none)
    (hlead : first.isArray = true → first.lead.rank ≤ TypeTag.array.rank) :
    first ≤ (endsBelow (.array (first :: rest)) index).2 := by
  rw [endsBelow_array_cons hcollator]
  split_ifs with hrank
  · exact le_refl _
  · refine ((Value.lt_array_cons_iff first rest).2 ?_).le
    by_cases harray : first.isArray = true
    · exact hlead harray
    · rw [Value.lead_of_isArray_eq_false (Bool.not_eq_true _ ▸ harray)]
      exact not_lt.1 hrank

/-- The keys above an array reach to its first element. -/
lemma start_le_first (hcollator : index.collator = none)
    (hlead : first.isArray = true → TypeTag.array.rank < first.lead.rank) :
    (endsAbove (.array (first :: rest)) index).1 ≤ first := by
  rw [endsAbove_array_cons hcollator]
  split_ifs with hrank
  · exact le_refl _
  · refine ((Value.array_cons_lt_iff first rest).2 ?_).le
    by_cases harray : first.isArray = true
    · exact hlead harray
    · rw [Value.lead_of_isArray_eq_false (Bool.not_eq_true _ ▸ harray)]
      refine lt_of_le_of_ne (not_lt.1 hrank) fun h => harray ?_
      exact Value.isArray_iff.2 h.symm

/-! ## Arrays that are found -/

lemma exists_multikey_le_stop (hcollator : index.collator = none) (h : Value.array ds ≤ .array items)
    (hends : ComparisonOp.lt.endsShort items = false) :
    ∃ k ∈ multikeys ds, k ≤ (endsBelow (.array items) index).2 := by
  have hundefined {w : Value} (hw : TypeTag.array.rank ≤ w.rank) : Value.undefined ≤ w :=
    (Value.lt_of_rank_lt (lt_of_lt_of_le (by decide) hw)).le
  cases items with
  | nil =>
    rw [Value.eq_nil_of_array_le_nil h]
    exact ⟨_, List.mem_singleton_self _, hundefined le_rfl⟩
  | cons first rest =>
    cases ds with
    | nil =>
      refine ⟨_, List.mem_singleton_self _, hundefined ?_⟩
      rw [endsBelow_array_cons hcollator]
      split_ifs with hrank
      · exact hrank.le
      · exact le_rfl
    | cons d ds =>
      refine ⟨d, List.mem_cons_self, (Value.head_le_of_array_le h).trans (first_le_stop hcollator ?_)⟩
      simpa [ComparisonOp.endsShort] using hends

lemma exists_multikey_ge_start (hcollator : index.collator = none) (h : Value.array items ≤ .array ds)
    (hends : ComparisonOp.gt.endsShort items = false) :
    ∃ k ∈ multikeys ds, (endsAbove (.array items) index).1 ≤ k := by
  cases items with
  | nil => cases ds with
    | nil => exact ⟨_, List.mem_singleton_self _, Value.minKey_le _⟩
    | cons d ds => exact ⟨d, List.mem_cons_self, Value.minKey_le _⟩
  | cons first rest =>
    cases ds with
    | nil => exact absurd (Value.eq_nil_of_array_le_nil h) nofun
    | cons d ds =>
      refine ⟨d, List.mem_cons_self, (start_le_first hcollator ?_).trans (Value.head_le_of_array_le h)⟩
      simpa [ComparisonOp.endsShort] using hends

/-- The first key of an array that equals the operand is looked up. -/
lemma exists_multikey_beq (h : (Value.array ds == .array items) = true) :
    ∃ k ∈ multikeys ds, (k == firstKey none items) = true := by
  have hle := Value.toClass_eq.2 h
  cases items with
  | nil =>
    rw [Value.eq_nil_of_array_le_nil (Value.toClass_le.1 hle.le)]
    exact ⟨_, List.mem_singleton_self _, rfl⟩
  | cons first rest =>
    cases ds with
    | nil => exact absurd (Value.eq_nil_of_array_le_nil (Value.toClass_le.1 hle.ge)) nofun
    | cons d ds =>
      refine ⟨d, List.mem_cons_self, Value.toClass_eq.1 (le_antisymm ?_ ?_)⟩
      · exact Value.head_le_of_array_le (Value.toClass_le.1 hle.le)
      · exact Value.head_le_of_array_le (Value.toClass_le.1 hle.ge)

/-! ## Arrays that are missed -/

lemma exists_missed_below (hcollator : index.collator = none) (hends : ComparisonOp.lt.endsShort items = true) :
    ∃ u, Value.array [u] < .array items ∧ ¬u ≤ (endsBelow (.array items) index).2 := by
  cases items with
  | nil => cases hends
  | cons first rest =>
    obtain ⟨harray, hlead⟩ : first.isArray = true ∧ TypeTag.array.rank < first.lead.rank := by
      simpa [ComparisonOp.endsShort] using hends
    obtain ⟨u, habove, hbelow⟩ := Value.exists_above_array_cons harray hlead rest
    have hrank : ¬TypeTag.array.rank < first.rank := by
      rw [Value.isArray_iff.1 harray]
      exact lt_irrefl _
    refine ⟨u, Value.array_lt_of_head_lt hbelow [] rest, ?_⟩
    rw [endsBelow_array_cons hcollator, if_neg hrank]
    exact habove.not_ge

lemma exists_missed_above (hcollator : index.collator = none) (hends : ComparisonOp.gt.endsShort items = true) :
    ∃ u, Value.array items < .array [u] ∧ ¬(endsAbove (.array items) index).1 ≤ u := by
  cases items with
  | nil => cases hends
  | cons first rest =>
    obtain ⟨harray, hlead⟩ : first.isArray = true ∧ first.lead.rank ≤ TypeTag.array.rank := by
      simpa [ComparisonOp.endsShort] using hends
    obtain ⟨u, habove, hbelow⟩ := Value.exists_below_array_cons harray hlead rest
    have hrank : ¬first.rank < TypeTag.array.rank := by
      rw [Value.isArray_iff.1 harray]
      exact lt_irrefl _
    refine ⟨u, Value.array_lt_of_head_lt habove rest [], ?_⟩
    rw [endsAbove_array_cons hcollator, if_neg hrank]
    exact hbelow.not_ge

/-! ## Comparisons with arrays -/

/-- It is enough to find keys where the bounds do not end short, and one array of one element without where
they do. -/
lemma keeps_iff {near : Value → Prop}
    (hfound : op.endsShort items = false → ∀ ds, op.Relates (.array ds) (.array items) →
      ∃ k ∈ multikeys ds, near k)
    (hmissed : op.endsShort items = true → ∃ u, op.Relates (.array [u]) (.array items) ∧ ¬near u) :
    (∀ ds, op.Relates (.array ds) (.array items) → ∃ k ∈ multikeys ds, near k) ↔
      op.endsShort items = false := by
  refine ⟨fun hkeeps => ?_, hfound⟩
  by_contra hshort
  obtain ⟨u, hu, hfar⟩ := hmissed (Bool.not_eq_false _ ▸ hshort)
  obtain ⟨k, hk, hnear⟩ := hkeeps [u] hu
  rw [List.mem_singleton.1 hk] at hnear
  exact hfar hnear

section Keeps

variable {bounds : OperandBounds} (h : comparisonBounds op (.array items) index false = .ok bounds)
  (hcollator : index.collator = none)

include h hcollator

lemma equality_keeps_iff (hop : op = .eq) :
    (∀ ds, op.Relates (.array ds) (.array items) → ∃ k ∈ multikeys ds, Held bounds.1 k) ↔
      op.endsShort items = false := by
  subst hop
  refine keeps_iff (fun _ ds hds => ?_) fun hshort => ?_
  · obtain ⟨k, hk, heq⟩ := exists_multikey_beq hds
    refine ⟨k, hk, (equalityBounds_array_held h k).2 (.inr ?_)⟩
    rwa [hcollator]
  · cases items <;> simp [ComparisonOp.endsShort] at hshort

lemma below_keeps_iff (hop : op = .lt ∨ op = .lte) :
    (∀ ds, op.Relates (.array ds) (.array items) → ∃ k ∈ multikeys ds, Held bounds.1 k) ↔
      op.endsShort items = false := by
  have hends : op.endsShort items = ComparisonOp.lt.endsShort items := by
    rcases hop with rfl | rfl <;> rfl
  simp only [below_array_held hop h]
  refine keeps_iff (fun hreach ds hds => ?_) fun hshort => ?_
  · exact exists_multikey_le_stop hcollator (hds.le hop) (hends ▸ hreach)
  · obtain ⟨u, hu, hfar⟩ := exists_missed_below hcollator (hends ▸ hshort)
    exact ⟨u, ComparisonOp.relates_of_lt hop hu, hfar⟩

lemma above_keeps_iff (hop : op = .gt ∨ op = .gte) :
    (∀ ds, op.Relates (.array ds) (.array items) → ∃ k ∈ multikeys ds, Held bounds.1 k) ↔
      op.endsShort items = false := by
  have hends : op.endsShort items = ComparisonOp.gt.endsShort items := by
    rcases hop with rfl | rfl <;> rfl
  simp only [above_array_held hop h]
  refine keeps_iff (fun hreach ds hds => ?_) fun hshort => ?_
  · exact exists_multikey_ge_start hcollator (hds.ge hop) (hends ▸ hreach)
  · obtain ⟨u, hu, hfar⟩ := exists_missed_above hcollator (hends ▸ hshort)
    exact ⟨u, ComparisonOp.relates_of_gt hop hu, hfar⟩

end Keeps

namespace Builder

variable {b : Builder} {field : IndexedField}

/-- **Comparisons with arrays.**  On an index without collation a comparison with an array has bounds that
hold a key of every array that satisfies it, unless they end short: an inequality against an array that begins
with an array, where the leaf in front is above all arrays for `<` and `≤`, and is not for `>` and `≥`. -/
theorem comparison_array_keeps_iff (b : Builder) (hhash : field.option.isHashed = false)
    (hadjust : index.kind = .wildcard → b.adjuster.KeepsList) (hcollator : index.collator = none)
    (path : String) (op : ComparisonOp) (items : List Value) :
    ∃ list tightness,
      (b.bounds (.comparison path op (.array items)) field index).result = .ok (list, tightness) ∧
        ((∀ ds, op.Relates (.array ds) (.array items) → ∃ k ∈ multikeys ds, list.Holds k) ↔
          op.endsShort items = false) := by
  obtain ⟨bounds, hbounds⟩ := exists_comparisonBounds op (.array items) index
  obtain ⟨tightness, hresult⟩ := exists_comparison_bounds hhash hadjust hbounds
  refine ⟨_, tightness, hresult, ?_⟩
  cases op with
  | eq => exact equality_keeps_iff hbounds hcollator rfl
  | lt => exact below_keeps_iff hbounds hcollator (.inl rfl)
  | lte => exact below_keeps_iff hbounds hcollator (.inr rfl)
  | gt => exact above_keeps_iff hbounds hcollator (.inl rfl)
  | gte => exact above_keeps_iff hbounds hcollator (.inr rfl)

-- below `[[true]]` the bounds end short, since `true` is above all arrays; below `[[1]]` they do not
example : ComparisonOp.lt.endsShort [.array [.bool true]] = true ∧
    ComparisonOp.lt.endsShort [.array [.int 1]] = false := by decide

/-- The array `[[1]]` is not below itself, but its one element `[1]` is below the start of the bounds. -/
theorem from_nested_array_misses_itself :
    let b := Builder.ofSettings {}
    let field : IndexedField := ⟨"a", .ascending⟩
    let index := { Index.ofPattern "a_1" ⟨[field]⟩ with multikey := true }
    let nested : List Value := [.array [.int 1]]
    let list : IntervalList := ⟨"a", [⟨.array nested, true, .maxKey, true⟩]⟩
    field.option.isHashed = false ∧ (index.kind = .wildcard → b.adjuster.KeepsList) ∧
      index.collator = none ∧
      (b.bounds (.comparison "a" .gte (.array nested)) field index).result = .ok (list, .inexactFetch) ∧
      (¬∀ ds, ComparisonOp.gte.Relates (.array ds) (.array nested) → ∃ k ∈ multikeys ds, list.Holds k) ∧
      ComparisonOp.gte.Relates (.array nested) (.array nested) ∧ ∀ k ∈ multikeys nested, ¬list.Holds k := by
  intro b field index nested list
  have hhash : field.option.isHashed = false := rfl
  have hadjust : index.kind = .wildcard → b.adjuster.KeepsList := fun _ => standard_keepsList
  have hcollator : index.collator = none := rfl
  have hresult : (b.bounds (.comparison "a" .gte (.array nested)) field index).result =
      .ok (list, .inexactFetch) := rfl
  refine ⟨hhash, hadjust, hcollator, hresult, fun hkeeps => ?_, le_refl _, ?_⟩
  · obtain ⟨list', tightness, hresult', hiff⟩ :=
      comparison_array_keeps_iff b hhash hadjust hcollator "a" .gte nested
    cases hresult.symm.trans hresult'
    exact absurd (hiff.1 hkeeps) (by decide)
  · simp only [nested, multikeys, List.forall_mem_singleton]
    rintro ⟨i, hi, hstart, -⟩
    rw [List.mem_singleton.1 hi] at hstart
    exact absurd hstart (by decide)

end Builder

end ScanBounds

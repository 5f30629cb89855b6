import ScanBounds.Proofs.Value.Collation

/-!
# Arrays next to their own elements

Arrays are compared item by item, so an array and the first of its items sort in either order: the item is
taken apart in its turn, and what decides in the end is the leaf that first items lead to, against the bracket
of arrays.  Between an array and its first item there is always room for another value if the item is an array.
-/

namespace ScanBounds.Value

/-! ## Item by item -/

lemma array_lt_array_iff {v w : Value} {vs ws : List Value} :
    array (v :: vs) < array (w :: ws) ↔ v < w ∨ (v == w) = true ∧ array vs < array ws := by
  rw [beq_iff_compare]
  exact Ordering.then_eq_lt

lemma array_nil_lt (v : Value) (vs : List Value) : array [] < array (v :: vs) := rfl

lemma array_lt_of_head_lt {v w : Value} (h : v < w) (vs ws : List Value) : array (v :: vs) < array (w :: ws) :=
  array_lt_array_iff.2 (.inl h)

lemma head_le_of_array_le {v w : Value} {vs ws : List Value} (h : array (v :: vs) ≤ array (w :: ws)) : v ≤ w := by
  rw [le_iff_not_lt] at h ⊢
  exact fun hlt => h (array_lt_of_head_lt hlt ws vs)

lemma eq_nil_of_array_le_nil {vs : List Value} (h : array vs ≤ array []) : vs = [] := by
  cases vs with
  | nil => rfl
  | cons v vs => exact absurd h (array_nil_lt v vs).not_ge

lemma array_lt_concat (vs : List Value) (w : Value) : array vs < array (vs ++ [w]) := by
  induction vs with
  | nil => exact array_nil_lt w []
  | cons v vs ih => exact array_lt_array_iff.2 (.inr ⟨toClass_eq.1 rfl, ih⟩)

/-! ## The leaf in front -/

/-- Follows first items down to what is no array, or to an empty array. -/
def lead : Value → Value
  | array (first :: _) => lead first
  | v => v

lemma lead_of_isArray_eq_false {v : Value} (h : v.isArray = false) : v.lead = v := by
  cases v <;> first | rfl | cases h

/-- An item is below the array that begins with it unless the leaf in front is above all arrays. -/
theorem lt_array_cons_iff (v : Value) (rest : List Value) :
    v < array (v :: rest) ↔ v.lead.rank ≤ TypeTag.array.rank := by
  induction v using induction_children generalizing rest with
  | step v ih =>
    by_cases harray : v.isArray = true
    · obtain ⟨items, rfl⟩ := exists_array_of_isArray harray
      cases items with
      | nil => exact iff_of_true (array_nil_lt _ rest) le_rfl
      | cons first items =>
        have hself := not_beq_array_cons first items
        rw [array_lt_array_iff, or_iff_left fun h => by simp [hself] at h, lead]
        exact ih first (by simp [children]) items
    · rw [Bool.not_eq_true] at harray
      have hne : v.rank ≠ 25 := fun h => by simp [isArray_iff.2 h] at harray
      rw [lead_of_isArray_eq_false harray]
      constructor
      · exact fun h => rank_le_of_le h.le
      · exact fun h => lt_of_rank_lt (lt_of_le_of_ne h hne)

lemma array_cons_lt_iff (v : Value) (rest : List Value) :
    array (v :: rest) < v ↔ TypeTag.array.rank < v.lead.rank := by
  have hne : v.toClass ≠ (array (v :: rest)).toClass := fun h => by
    simpa [not_beq_array_cons] using toClass_eq.1 h
  rw [← not_le, ← lt_array_cons_iff v rest, ← toClass_lt, ← toClass_lt, not_lt]
  exact ⟨le_of_lt, fun h => h.lt_of_ne hne.symm⟩

/-! ## Room between an array and its first item -/

/-- Below an item that is an array there is room above any array that begins with the item. -/
theorem exists_above_array_cons {v : Value} (harray : v.isArray = true)
    (hlead : TypeTag.array.rank < v.lead.rank) (rest : List Value) :
    ∃ u, array (v :: rest) < u ∧ u < v := by
  induction v using induction_children generalizing rest with
  | step v ih =>
    obtain ⟨items, rfl⟩ := exists_array_of_isArray harray
    cases items with
    | nil => exact absurd hlead (lt_irrefl _)
    | cons first items =>
      rw [lead] at hlead
      -- what lies between the item and its own first item can stand in front
      obtain ⟨u, habove, hbelow⟩ : ∃ u, array (first :: items) < u ∧ u < first := by
        by_cases hfirst : first.isArray = true
        · exact ih first (by simp [children]) hfirst hlead items
        · rw [lead_of_isArray_eq_false (Bool.not_eq_true _ ▸ hfirst)] at hlead
          exact ⟨_, array_lt_concat (first :: items) minKey, lt_of_rank_lt hlead⟩
      exact ⟨array [u], array_lt_of_head_lt habove rest [], array_lt_of_head_lt hbelow [] items⟩

/-- Above an item that is an array there is room below any array that begins with the item. -/
theorem exists_below_array_cons {v : Value} (harray : v.isArray = true)
    (hlead : v.lead.rank ≤ TypeTag.array.rank) (rest : List Value) :
    ∃ u, v < u ∧ u < array (v :: rest) := by
  obtain ⟨items, rfl⟩ := exists_array_of_isArray harray
  refine ⟨array (items ++ [minKey]), array_lt_concat items minKey, ?_⟩
  cases items with
  | nil => exact array_lt_of_head_lt (lt_of_rank_lt (by decide)) [] rest
  | cons first items =>
    rw [lead] at hlead
    exact array_lt_of_head_lt ((lt_array_cons_iff first items).2 hlead) (items ++ [minKey]) rest

end ScanBounds.Value

import ScanBounds.Proofs.Value.Bracket
import ScanBounds.Value.Collation

/-!
# Collation keys keep their bracket

Collating a value changes the strings inside it and nothing else, so the key of a value has the type of the
value and sorts in its bracket.  The keys of an array and of its first element are never equal, since an
array would have to begin with itself.

A value is collatable exactly when some collation rewrites it (`rewritable_iff`): the two recursions over a
value reach the same strings, and if every string gets another key, a change in one of them is not made up
for by what stands beside it.
-/

namespace ScanBounds.Value

@[simp] lemma indexKey_none (v : Value) : v.indexKey none = v := rfl

@[simp] lemma tag_collate (key : String → String) (v : Value) : (v.collate key).tag = v.tag := by
  cases v <;> simp only [collate, tag]

@[simp] lemma tag_indexKey (collator : Option Collator) (v : Value) :
    (v.indexKey collator).tag = v.tag := by
  cases collator with
  | none => rfl
  | some c => exact tag_collate c.key v

@[simp] lemma rank_indexKey (collator : Option Collator) (v : Value) :
    (v.indexKey collator).rank = v.rank := by
  rw [rank, tag_indexKey, rank]

@[simp] lemma indexKey_number (collator : Option Collator) (n : Number) :
    (number n).indexKey collator = number n := by
  cases collator <;> simp only [indexKey, collate]

@[simp] lemma isMinKey_indexKey (collator : Option Collator) (v : Value) :
    (v.indexKey collator).isMinKey = v.isMinKey := by
  cases v <;> cases collator <;> simp [indexKey, collate, isMinKey]

@[simp] lemma isMaxKey_indexKey (collator : Option Collator) (v : Value) :
    (v.indexKey collator).isMaxKey = v.isMaxKey := by
  cases v <;> cases collator <;> simp [indexKey, collate, isMaxKey]

@[simp] lemma isNull_indexKey (collator : Option Collator) (v : Value) :
    (v.indexKey collator).isNull = v.isNull := by
  cases v <;> cases collator <;> simp [indexKey, collate, isNull]

@[simp] lemma isNaN_indexKey (collator : Option Collator) (v : Value) :
    (v.indexKey collator).isNaN = v.isNaN := by
  cases v <;> cases collator <;> simp [indexKey, collate, isNaN]

@[simp] lemma indexKey_minKey (collator : Option Collator) : minKey.indexKey collator = minKey := by
  cases collator <;> simp only [indexKey, collate]

@[simp] lemma indexKey_maxKey (collator : Option Collator) : maxKey.indexKey collator = maxKey := by
  cases collator <;> simp only [indexKey, collate]

lemma collateItems_eq (key : String → String) (items : List Value) :
    collateItems key items = items.map (collate key) := by
  induction items with
  | nil => rfl
  | cons v items ih => rw [collateItems, ih, List.map_cons]

lemma indexKey_array (collator : Option Collator) (items : List Value) :
    (array items).indexKey collator = array (items.map (indexKey collator)) := by
  cases collator with
  | none =>
    show array items = array (items.map id)
    rw [List.map_id]
  | some c =>
    simp only [indexKey, collate, collateItems_eq]
    rfl

lemma isArray_iff {v : Value} : v.isArray = true ↔ v.rank = 25 := by
  cases v <;> simp [isArray]

lemma exists_array_of_isArray {v : Value} (h : v.isArray = true) : ∃ items, v = array items := by
  cases v <;> first | exact ⟨_, rfl⟩ | cases h

/-- No value is an array that begins with it. -/
lemma not_beq_array_cons (v : Value) (items : List Value) : (v == array (v :: items)) = false := by
  rw [← Bool.not_eq_true, beq_iff_compare]
  induction v using induction_children generalizing items with
  | step v ih =>
    intro h
    have hr : v.rank = 25 := rank_eq_of_beq (beq_iff_compare.2 h)
    cases v <;> simp at hr
    case array ws =>
      rcases ws with - | ⟨w, ws⟩
      · cases h
      · have h : (w.compare (array (w :: ws))).then (compareItems ws items) = .eq := h
        rw [Ordering.then_eq_eq] at h
        exact ih w (by simp [children]) ws h.1

/-! ## What a collation rewrites -/

lemma collateFields_eq (key : String → String) (fields : List (String × Value)) :
    collateFields key fields = fields.map (Prod.map id (collate key)) := by
  induction fields with
  | nil => rfl
  | cons field fields ih =>
    obtain ⟨name, v⟩ := field
    rw [collateFields, ih, List.map_cons]
    rfl

lemma anyItemCollatable_eq (items : List Value) : anyItemCollatable items = items.any isCollatable := by
  induction items with
  | nil => rfl
  | cons v items ih => rw [anyItemCollatable, ih, List.any_cons]

lemma anyFieldCollatable_eq (fields : List (String × Value)) :
    anyFieldCollatable fields = fields.any (·.2.isCollatable) := by
  induction fields with
  | nil => rfl
  | cons field fields ih => rw [anyFieldCollatable, ih, List.any_cons]

/-- A collation leaves a value without strings as it is. -/
lemma collate_eq_self (key : String → String) {v : Value} (h : v.isCollatable = false) : v.collate key = v := by
  induction v using induction_children with
  | step v ih =>
    cases v with
    | string s => cases h
    | array items =>
      rw [isCollatable, anyItemCollatable_eq, List.any_eq_false] at h
      rw [collate, collateItems_eq, List.map_congr_left (g := id) fun v hv => ?_, List.map_id]
      exact ih v hv (Bool.eq_false_of_not_eq_true (h v hv))
    | object fields =>
      rw [isCollatable, anyFieldCollatable_eq, List.any_eq_false] at h
      rw [collate, collateFields_eq, List.map_congr_left (g := id) fun field hfield => ?_, List.map_id]
      have hvalue := ih field.2 (List.mem_map_of_mem hfield) (Bool.eq_false_of_not_eq_true (h field hfield))
      exact Prod.ext rfl hvalue
    | _ => simp only [collate]

lemma any_map_eq {α : Type} {f : α → α} {p : α → Bool} {l : List α} (h : ∀ a ∈ l, p (f a) = p a) :
    (l.map f).any p = l.any p := by
  rw [List.any_map, Bool.eq_iff_iff, List.any_eq_true, List.any_eq_true]
  exact exists_congr fun a => and_congr_right fun ha => by rw [Function.comp, h a ha]

/-- The key of a value holds strings where the value does. -/
@[simp] lemma isCollatable_collate (key : String → String) (v : Value) :
    (v.collate key).isCollatable = v.isCollatable := by
  induction v using induction_children with
  | step v ih =>
    cases v with
    | array items =>
      rw [collate, isCollatable, isCollatable, collateItems_eq, anyItemCollatable_eq, anyItemCollatable_eq]
      exact any_map_eq ih
    | object fields =>
      rw [collate, isCollatable, isCollatable, collateFields_eq, anyFieldCollatable_eq, anyFieldCollatable_eq]
      exact any_map_eq fun field hfield => ih field.2 (List.mem_map_of_mem hfield)
    | _ => simp only [collate, isCollatable]

@[simp] lemma isCollatable_indexKey (collator : Option Collator) (v : Value) :
    (v.indexKey collator).isCollatable = v.isCollatable := by
  cases collator with
  | none => rfl
  | some c => exact isCollatable_collate c.key v

/-- Items that change in place make an array that compares as another. -/
lemma compare_of_compareItems_map {f : Value → Value} {items : List Value}
    (h : compareItems (items.map f) items = .eq) : ∀ v ∈ items, (f v).compare v = .eq := by
  induction items with
  | nil => simp
  | cons v items ih =>
    rw [List.map_cons, compareItems, Ordering.then_eq_eq] at h
    exact List.forall_mem_cons.2 ⟨h.1, ih h.2⟩

lemma compare_of_compareFields_map {f : Value → Value} {fields : List (String × Value)}
    (h : compareFields (fields.map (Prod.map id f)) fields = .eq) :
    ∀ field ∈ fields, (f field.2).compare field.2 = .eq := by
  induction fields with
  | nil => simp
  | cons field fields ih =>
    rw [List.map_cons, Prod.map, compareFields] at h
    simp only [Ordering.then_eq_eq] at h
    exact List.forall_mem_cons.2 ⟨h.2.2.1, ih h.2.2.2⟩

/-- If the key of a string never equals the string, the key of a value with strings never equals the value. -/
lemma collate_not_beq {key : String → String} (hkey : ∀ s, key s ≠ s) {v : Value}
    (h : v.isCollatable = true) : (v.collate key == v) = false := by
  rw [← Bool.not_eq_true, beq_iff_compare]
  induction v using induction_children with
  | step v ih =>
    intro heq
    cases v with
    | string s => exact hkey s (Std.compare_eq_iff_eq.1 heq)
    | array items =>
      rw [isCollatable, anyItemCollatable_eq, List.any_eq_true] at h
      obtain ⟨v, hv, hcollatable⟩ := h
      rw [collate, collateItems_eq] at heq
      exact ih v hv hcollatable (compare_of_compareItems_map heq v hv)
    | object fields =>
      rw [isCollatable, anyFieldCollatable_eq, List.any_eq_true] at h
      obtain ⟨field, hfield, hcollatable⟩ := h
      rw [collate, collateFields_eq] at heq
      exact ih field.2 (List.mem_map_of_mem hfield) hcollatable (compare_of_compareFields_map heq field hfield)
    | _ => cases h

/-- Some collation gives the value a key that does not equal it. -/
def Rewritable (v : Value) : Prop := ∃ c : Collator, (v.indexKey (some c) == v) = false

lemma rewritable_iff {v : Value} : v.Rewritable ↔ v.isCollatable = true := by
  constructor
  · rintro ⟨c, hc⟩
    by_contra h
    have hself : v.indexKey (some c) = v := collate_eq_self c.key (Bool.eq_false_of_not_eq_true h)
    rw [hself, toClass_eq.1 rfl] at hc
    cases hc
  · intro h
    refine ⟨⟨fun s => s.push 'x'⟩, collate_not_beq (fun s hs => ?_) h⟩
    have hlength := congrArg String.length hs
    rw [String.length_push] at hlength
    omega

end ScanBounds.Value

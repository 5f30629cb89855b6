import ScanBounds.Proofs.Bounding.ArrayOperand
import ScanBounds.Proofs.Bounding.Covered
import ScanBounds.Proofs.Bounding.Negation

/-!
# What exact bounds admit

With exact bounds nobody looks at the document again, so every document that has a key in them must satisfy
the predicate.  A key says less than the document: undefined is stored for the empty array too, and an element
stands for its array.  Comparisons mind the first and not the second, since an array satisfies them by any of
its elements; comparisons of the expression language see the array as a whole.  Most bounds that confuse an
array with one of its keys are inexact.  The exceptions are equalities, which count as exact for undefined and
in the expression language, while the inequalities next to them do not.
-/

namespace ScanBounds

open IntervalList

/-! ## Documents and their keys -/

namespace Value

/-- The keys that a multikey index holds for a value. -/
def keys : Value → List Value
  | array items => multikeys items
  | v => [v]

/-- The elements of an array; other values have none. -/
def elements : Value → List Value
  | array items => items
  | _ => []

lemma keys_of_isArray_eq_false {d : Value} (h : d.isArray = false) : d.keys = [d] := by
  cases d <;> first | rfl | cases h

end Value

/-- Some literal equals the value. -/
def InList.Equals (members : InList) (v : Value) : Prop := ∃ m ∈ members.literals, (v == m) = true

/-- Some value stands in the relation to the operand and no array does.  Where the operand is no array itself,
its bracket tells. -/
def ComparisonOp.skipsArrays (operand : Value) : ComparisonOp → Bool
  | eq => true
  | lt => operand.rank < TypeTag.array.rank && !operand.isMinKey
  | lte => operand.rank < TypeTag.array.rank
  | gt => TypeTag.array.rank < operand.rank && !operand.isMaxKey
  | gte => TypeTag.array.rank < operand.rank

namespace Predicate

/-- Predicates that compare values with operands. -/
def ComparesValues : Predicate → Prop
  | comparison .. | exprComparison .. => True
  | isIn _ members => members.regexes = []
  | _ => False

/-- Whether a document with this value satisfies the predicate.  An array satisfies a comparison and a
membership as a whole or by an element, and a comparison of the expression language only as a whole. -/
def HoldsOf (d : Value) : Predicate → Prop
  | comparison _ op operand => op.Accepts operand d ∨ ∃ e ∈ d.elements, op.Accepts operand e
  | exprComparison _ op operand => op.Relates d operand
  | isIn _ members => members.Equals d ∨ ∃ e ∈ d.elements, members.Equals e
  | _ => False

/-- Some key satisfies the predicate and an array that is stored by it does not, although the bounds of the
predicate can be exact. -/
def ConfusesArrays : Predicate → Prop
  | comparison _ op operand => op = .eq ∧ operand = .undefined
  | exprComparison _ op operand => op.skipsArrays operand = true
  | isIn _ members => .undefined ∈ members.literals
  | _ => False

end Predicate

/-- A test that elements can satisfy holds of every document with a key that satisfies it, if only the empty
array is not taken for undefined. -/
lemma keys_suffice_iff {held test : Value → Prop} (h : ∀ k, held k → test k) :
    (∀ d : Value, (∃ k ∈ d.keys, held k) → test d ∨ ∃ e ∈ d.elements, test e) ↔
      (held .undefined → test (.array [])) := by
  constructor
  · intro hall hundefined
    rcases hall (.array []) ⟨_, List.mem_singleton_self _, hundefined⟩ with hwhole | ⟨e, he, -⟩
    · exact hwhole
    · cases he
  · rintro hempty d ⟨k, hk, hheld⟩
    by_cases harray : d.isArray = true
    · obtain ⟨items, rfl⟩ := Value.exists_array_of_isArray harray
      cases items with
      | nil =>
        rw [List.mem_singleton.1 hk] at hheld
        exact .inl (hempty hheld)
      | cons first rest => exact .inr ⟨k, hk, h k hheld⟩
    · rw [Value.keys_of_isArray_eq_false (Bool.not_eq_true _ ▸ harray), List.mem_singleton] at hk
      exact .inl (h d (hk ▸ hheld))

/-! ## Comparisons -/

section Comparison

variable {op : ComparisonOp} {operand : Value} {index : Index} {bounds : OperandBounds}

/-- Comparisons with arrays do not have exact bounds. -/
lemma isArray_of_exact (h : comparisonBounds op operand index false = .ok bounds) (hexact : bounds.2 = .exact) :
    operand.isArray = false := by
  by_contra harray
  obtain ⟨items, rfl⟩ := Value.exists_array_of_isArray (Bool.not_eq_false _ ▸ harray)
  exact Builder.comparisonBounds_array_not_exact h hexact

/-- Nor do comparisons that hold of null. -/
lemma isNull_of_exact (hop : op.admitsEqual = true) (h : comparisonBounds op operand index false = .ok bounds)
    (hexact : bounds.2 = .exact) : operand.isNull = false := by
  by_contra hnull
  obtain rfl := Value.eq_null_of_isNull (Bool.not_eq_false _ ▸ hnull)
  have hbounds : nullBounds false = .ok bounds := by
    cases op <;> first | exact h | cases hop
  rw [Builder.nullBounds_fetch hbounds] at hexact
  cases hexact

lemma inequality_undefined_not_exact (hop : op.admitsEqual = true) (hne : op ≠ .eq)
    (h : comparisonBounds op .undefined index false = .ok bounds) : bounds.2 ≠ .exact := by
  have hrank : Value.undefined.tag.rank = 0 := rfl
  have hupper : Value.undefined.tag.upper.rank = 0 := rfl
  cases op with
  | eq => exact absurd rfl hne
  | lte =>
    rw [← Except.ok.inj h]
    simp [inequalityTightness, Interval.isVoid, isExactOperand, hrank]
  | gte =>
    rw [← Except.ok.inj h]
    simp [inequalityTightness, Interval.isVoid, isExactOperand, hupper]
  | _ => cases hop

lemma allBut_not_exact (hmulti : index.multikey = true) (hop : op.leavesOutExtreme operand = true)
    (h : comparisonBounds op operand index false = .ok bounds) : bounds.2 ≠ .exact := by
  have hloose (inclusion : Inclusion) : (allBut inclusion index).2 ≠ .exact := by
    rw [allBut, hmulti, Bool.or_true, if_pos rfl]
    exact Tightness.noConfusion
  cases op with
  | lt =>
    have hmax : operand.isMaxKey = true := hop
    rw [← Except.ok.inj h, ltBounds, if_pos hmax]
    exact hloose _
  | gt =>
    have hmin : operand.isMinKey = true := hop
    rw [← Except.ok.inj h, gtBounds, if_pos hmin]
    exact hloose _
  | _ => cases hop

/-- Exact bounds of a comparison hold the keys that it accepts. -/
lemma comparisonBounds_held_of_exact (hcollator : index.collator = none)
    (h : comparisonBounds op operand index false = .ok bounds) (hexact : bounds.2 = .exact) (k : Value) :
    Held bounds.1 k ↔ op.Accepts operand k := by
  rw [comparisonBounds_held_iff (isArray_of_exact h hexact) op h, hcollator, Value.indexKey_none]
  exact or_iff_left fun hextreme => allBut_not_exact hextreme.1 hextreme.2 h hexact

/-- What undefined satisfies the empty array satisfies too, apart from equality with undefined or null. -/
lemma accepts_emptyArray_or (h : op.Accepts operand .undefined) :
    op.Accepts operand (.array []) ∨ op.admitsEqual = true ∧ (operand = .undefined ∨ operand = .null) := by
  unfold ComparisonOp.Accepts at h ⊢
  split_ifs at h ⊢ with hextreme hnan
  · left
    rcases Bool.or_eq_true_iff.1 hextreme with hmin | hmax
    · obtain rfl := Value.eq_minKey_of_isMinKey hmin
      cases op <;> first | exact absurd h (by decide) | decide
    · obtain rfl := Value.eq_maxKey_of_isMaxKey hmax
      cases op <;> first | exact absurd h (by decide) | decide
  · cases h.2
  · right
    rcases h with ⟨hrank, -, hrelates⟩ | ⟨hop, hnull, -⟩
    · obtain rfl := Value.eq_undefined_of_rank hrank.symm
      refine ⟨?_, .inl rfl⟩
      cases op <;> first | rfl | exact absurd hrelates (lt_irrefl _)
    · exact ⟨hop, .inr (Value.eq_null_of_isNull hnull)⟩

lemma comparison_admits_iff (hcollator : index.collator = none)
    (h : comparisonBounds op operand index false = .ok bounds) (hexact : bounds.2 = .exact) :
    (∀ d : Value, (∃ k ∈ d.keys, Held bounds.1 k) → op.Accepts operand d ∨ ∃ e ∈ d.elements, op.Accepts operand e) ↔
      ¬(op = .eq ∧ operand = .undefined) := by
  have hheld := comparisonBounds_held_of_exact hcollator h hexact
  rw [keys_suffice_iff fun k => (hheld k).1, hheld]
  constructor
  · rintro hempty ⟨rfl, rfl⟩
    exact absurd (hempty (by decide)) (by decide)
  · intro hother hundefined
    rcases accepts_emptyArray_or hundefined with haccepts | ⟨hop, rfl | rfl⟩
    · exact haccepts
    · exact absurd hexact (inequality_undefined_not_exact hop (fun heq => hother ⟨heq, rfl⟩) h)
    · exact (Bool.false_ne_true (isNull_of_exact hop h hexact).symm).elim

end Comparison

/-! ## Membership -/

lemma Tightness.combine_eq_exact_iff {s t : Tightness} : s.combine t = .exact ↔ s = .exact ∧ t = .exact := by
  cases s <;> cases t <;> decide

section Membership

variable {members : InList} {index : Index} {bounds : OperandBounds}

/-- Exact bounds of literals come from literals with exact bounds. -/
lemma literalBounds_exact {literals : List Value} (h : literalBounds index false literals = .ok bounds)
    (hexact : bounds.2 = .exact) : ∀ m ∈ literals, m.isArray = false ∧ m.isNull = false := by
  induction literals generalizing bounds with
  | nil => exact nofun
  | cons m rest ih =>
    obtain ⟨first, hfirst, h⟩ := exists_of_bind_eq_ok h
    obtain ⟨others, hothers, h⟩ := exists_of_bind_eq_ok h
    obtain rfl := Except.ok.inj h
    obtain ⟨hfirstExact, hothersExact⟩ := Tightness.combine_eq_exact_iff.1 hexact
    have heq : comparisonBounds .eq m index false = .ok first := hfirst
    refine List.forall_mem_cons.2 ⟨⟨?_, ?_⟩, ih hothers hothersExact⟩
    · exact isArray_of_exact heq hfirstExact
    · exact isNull_of_exact rfl heq hfirstExact

lemma membershipBounds_exact (hregexes : members.regexes = [])
    (h : membershipBounds members index false = .ok bounds) (hexact : bounds.2 = .exact) :
    members.hasEmptyArray = false ∧ ∀ m ∈ members.literals, m.isArray = false ∧ m.isNull = false := by
  obtain ⟨literals, hliterals, h⟩ := exists_of_bind_eq_ok h
  obtain ⟨m, -, h⟩ := exists_of_bind_eq_ok h
  obtain rfl := Except.ok.inj h
  simp only [hregexes, List.map_nil, List.foldl_nil] at hexact
  split_ifs at hexact with hspecial
  rw [Bool.or_eq_true, not_or, Bool.not_eq_true, Bool.not_eq_true] at hspecial
  exact ⟨hspecial.2, literalBounds_exact hliterals hexact⟩

/-- Exact bounds of a membership hold the keys that equal a literal. -/
lemma membershipBounds_held_of_exact (hcollator : index.collator = none) (hregexes : members.regexes = [])
    (h : membershipBounds members index false = .ok bounds) (hexact : bounds.2 = .exact) (k : Value) :
    Held bounds.1 k ↔ members.Equals k := by
  obtain ⟨hempty, hliterals⟩ := membershipBounds_exact hregexes h hexact
  have hliteral : ∀ m ∈ members.literals, (LiteralHeld none k m ↔ (k == m) = true) := by
    intro m hm
    obtain ⟨harray, hnull⟩ := hliterals m hm
    rw [← eq_accepts_iff hnull]
    cases m <;> first | exact Iff.rfl | cases harray
  rw [membershipBounds_held h, hcollator, hregexes, hempty]
  simp only [List.not_mem_nil, false_and, exists_false, Bool.false_eq_true, or_false]
  exact exists_congr fun m => and_congr_right (hliteral m)

lemma membership_admits_iff (hcollator : index.collator = none) (hregexes : members.regexes = [])
    (h : membershipBounds members index false = .ok bounds) (hexact : bounds.2 = .exact) :
    (∀ d : Value, (∃ k ∈ d.keys, Held bounds.1 k) → members.Equals d ∨ ∃ e ∈ d.elements, members.Equals e) ↔
      ¬.undefined ∈ members.literals := by
  have hheld := membershipBounds_held_of_exact hcollator hregexes h hexact
  obtain ⟨-, hliterals⟩ := membershipBounds_exact hregexes h hexact
  have hundefined : members.Equals .undefined ↔ .undefined ∈ members.literals := by
    constructor
    · rintro ⟨m, hm, heq⟩
      rwa [← Value.eq_undefined_of_rank (Value.rank_eq_of_beq heq).symm]
    · exact fun hm => ⟨_, hm, rfl⟩
  have harray : ¬members.Equals (.array []) := by
    rintro ⟨m, hm, heq⟩
    have hrank : m.isArray = true := Value.isArray_iff.2 (Value.rank_eq_of_beq heq).symm
    rw [(hliterals m hm).1] at hrank
    cases hrank
  rw [keys_suffice_iff fun k => (hheld k).1, hheld, hundefined, imp_iff_not harray]

end Membership

/-! ## Comparisons of the expression language -/

section Expression

variable {op : ComparisonOp} {operand : Value} {index : Index} {bounds : OperandBounds}

section Brackets

variable (harray : operand.isArray = false)

include harray

lemma rank_ne_of_not_array : operand.rank ≠ TypeTag.array.rank := by
  intro h
  rw [Value.isArray_iff.2 h] at harray
  cases harray

lemma array_lt_iff_rank (items : List Value) : .array items < operand ↔ TypeTag.array.rank < operand.rank := by
  constructor
  · exact fun h => (Value.rank_le_of_le h.le).lt_of_ne (rank_ne_of_not_array harray).symm
  · exact fun h => Value.lt_of_rank_lt h

lemma lt_array_iff_rank (items : List Value) : operand < .array items ↔ operand.rank < TypeTag.array.rank := by
  constructor
  · exact fun h => (Value.rank_le_of_le h.le).lt_of_ne (rank_ne_of_not_array harray)
  · exact fun h => Value.lt_of_rank_lt h

/-- Arrays stand to the operand as their bracket does, so one array tells for all. -/
lemma relates_array_iff (op : ComparisonOp) (xs ys : List Value) :
    op.Relates (.array xs) operand ↔ op.Relates (.array ys) operand := by
  cases op with
  | eq =>
    have hne (items : List Value) : ¬(Value.array items == operand) = true :=
      fun h => rank_ne_of_not_array harray (Value.rank_eq_of_beq h).symm
    exact iff_of_false (hne xs) (hne ys)
  | lt => exact (array_lt_iff_rank harray xs).trans (array_lt_iff_rank harray ys).symm
  | gt => exact (lt_array_iff_rank harray xs).trans (lt_array_iff_rank harray ys).symm
  | lte => simp only [ComparisonOp.Relates, Value.le_iff_not_lt, lt_array_iff_rank harray]
  | gte => simp only [ComparisonOp.Relates, Value.le_iff_not_lt, array_lt_iff_rank harray]

lemma skipsArrays_iff (op : ComparisonOp) :
    op.skipsArrays operand = true ↔ (∃ v, op.Relates v operand) ∧ ∀ items, ¬op.Relates (.array items) operand := by
  have hne := rank_ne_of_not_array harray
  cases op with
  | eq =>
    refine iff_of_true rfl ⟨⟨operand, Value.toClass_eq.1 rfl⟩, fun items h => ?_⟩
    exact hne (Value.rank_eq_of_beq h).symm
  | lt =>
    simp only [ComparisonOp.skipsArrays, ComparisonOp.Relates, Value.exists_lt_iff, array_lt_iff_rank harray,
      Bool.and_eq_true, decide_eq_true_eq, Bool.not_eq_true', forall_const]
    rw [and_comm]
    exact and_congr_right fun _ => by omega
  | lte =>
    have hself : ∃ v, ¬operand < v := ⟨operand, lt_irrefl _⟩
    simp only [ComparisonOp.skipsArrays, ComparisonOp.Relates, Value.le_iff_not_lt, hself,
      lt_array_iff_rank harray, decide_eq_true_eq, not_not, forall_const, true_and]
  | gt =>
    simp only [ComparisonOp.skipsArrays, ComparisonOp.Relates, Value.exists_gt_iff, lt_array_iff_rank harray,
      Bool.and_eq_true, decide_eq_true_eq, Bool.not_eq_true', forall_const]
    rw [and_comm]
    exact and_congr_right fun _ => by omega
  | gte =>
    have hself : ∃ v, ¬v < operand := ⟨operand, lt_irrefl _⟩
    simp only [ComparisonOp.skipsArrays, ComparisonOp.Relates, Value.le_iff_not_lt, hself,
      array_lt_iff_rank harray, decide_eq_true_eq, not_not, forall_const, true_and]

end Brackets

-- below `5` there are values and no arrays, below `true` there are arrays too
example : ComparisonOp.lt.skipsArrays (.int 5) = true ∧ ComparisonOp.lt.skipsArrays (.bool true) = false := by decide

/-- Exact bounds of an equality are the keys equal to the operand, which is no array. -/
lemma equalityBounds_held_of_exact (hcollator : index.collator = none)
    (h : equalityBounds operand index false = .ok bounds) (hexact : bounds.2 = .exact) :
    operand.isArray = false ∧ ∀ k, Held bounds.1 k ↔ ComparisonOp.eq.Relates k operand := by
  have heq : comparisonBounds .eq operand index false = .ok bounds := h
  refine ⟨isArray_of_exact heq hexact, fun k => ?_⟩
  rw [comparisonBounds_held_of_exact hcollator heq hexact, eq_accepts_iff (isNull_of_exact rfl heq hexact)]
  exact Iff.rfl

/-- Of the inequalities with null, those that treat missing fields as null have exact bounds. -/
lemma exprBounds_null_held_of_exact (hcollator : index.collator = none) (hop : op ≠ .eq)
    (hexact : (exprBounds op .null index).2 = .exact) (k : Value) :
    Held (exprBounds op .null index).1 k ↔ op.Relates k .null := by
  have hbelow : (Value.minKey == Value.null) = false := rfl
  have hmin := Value.minKey_le k
  have hmax := Value.le_maxKey k
  cases op with
  | eq => exact absurd rfl hop
  | lte => simp [exprBounds, unlessVoid_held, Interval.Holds, ComparisonOp.Relates, hcollator, hmin]
  | gt => simp [exprBounds, unlessVoid_held, Interval.Holds, ComparisonOp.Relates, hcollator, hmax]
  | lt => simp [exprBounds, unlessVoid, inequalityTightness, Interval.isVoid, isExactOperand, hcollator, hbelow] at hexact
  | gte => simp [exprBounds, unlessVoid, inequalityTightness, Interval.isVoid, isExactOperand] at hexact

lemma exprBounds_held_of_exact (hcollator : index.collator = none) (hop : op ≠ .eq)
    (hexact : (exprBounds op operand index).2 = .exact) :
    operand.isArray = false ∧ ∀ k, Held (exprBounds op operand index).1 k ↔ op.Relates k operand := by
  constructor
  · by_contra harray
    obtain ⟨items, rfl⟩ := Value.exists_array_of_isArray (Bool.not_eq_false _ ▸ harray)
    have hmin : (Value.minKey == Value.array items) = false := rfl
    have hmax : (Value.array items == Value.maxKey) = false := rfl
    cases op <;>
      simp [exprBounds, unlessVoid, inequalityTightness, Interval.isVoid, isExactOperand, hcollator, Value.isNull,
        hmin, hmax] at hexact
  · by_cases hnull : operand.isNull = true
    · obtain rfl := Value.eq_null_of_isNull hnull
      exact exprBounds_null_held_of_exact hcollator hop hexact
    · intro k
      rw [exprBounds_held hop (Bool.not_eq_true _ ▸ hnull), hcollator, Value.indexKey_none]

lemma expression_admits_iff {held : Value → Prop} (harray : operand.isArray = false)
    (hheld : ∀ k, held k ↔ op.Relates k operand) :
    (∀ d : Value, (∃ k ∈ d.keys, held k) → op.Relates d operand) ↔
      ¬op.skipsArrays operand = true := by
  rw [skipsArrays_iff harray]
  constructor
  · rintro hall ⟨⟨v, hv⟩, hnone⟩
    exact hnone [v] (hall (.array [v]) ⟨v, List.mem_singleton_self v, (hheld v).2 hv⟩)
  · rintro hconfuses d ⟨k, hk, hkey⟩
    rw [hheld] at hkey
    by_cases hd : d.isArray = true
    · obtain ⟨items, rfl⟩ := Value.exists_array_of_isArray hd
      by_contra hfails
      refine hconfuses ⟨⟨k, hkey⟩, fun other hother => hfails ?_⟩
      exact (relates_array_iff harray op other items).1 hother
    · rw [Value.keys_of_isArray_eq_false (Bool.not_eq_true _ ▸ hd), List.mem_singleton] at hk
      exact hk ▸ hkey

end Expression

/-! ## Exact bounds -/

namespace Builder

variable {b : Builder} {field : IndexedField} {index : Index} {p : Predicate} {list : IntervalList}

lemma leaf_result (hhash : field.option.isHashed = false) (hkind : index.kind ≠ .wildcard)
    (hp : p.ComparesValues) {r : FieldBounds} (h : (b.bounds p field index).result = .ok r) :
    (b.leaf p field index).result = .ok r := by
  rw [bounds_result hkind] at h
  unfold derive at h
  rw [hhash, Bool.false_and, if_neg Bool.false_ne_true] at h
  cases p <;> first | exact h | exact hp.elim

/-- A value outside arrays is its only key. -/
lemma holdsOf_of_key (h : ∀ k, list.Holds k → p.HoldsOf k) {d : Value} (hd : d.isArray = false)
    (hkey : ∃ k ∈ d.keys, list.Holds k) : p.HoldsOf d := by
  obtain ⟨k, hk, hheld⟩ := hkey
  rw [Value.keys_of_isArray_eq_false hd, List.mem_singleton] at hk
  exact hk ▸ h k hheld

/-- **Exact bounds.**  Whatever is found through exact bounds of a comparison, a comparison of the expression
language or a membership satisfies the predicate, arrays apart.  Arrays satisfy it exactly if it does not
confuse them with their keys, as equality and membership with undefined do, and comparisons of the expression
language that hold of some values and of no array. -/
theorem exact_admits_iff (hhash : field.option.isHashed = false) (hkind : index.kind ≠ .wildcard)
    (hcollator : index.collator = none) (hp : p.ComparesValues)
    (h : (b.bounds p field index).result = .ok (list, .exact)) :
    (∀ d : Value, d.isArray = false → (∃ k ∈ d.keys, list.Holds k) → p.HoldsOf d) ∧
      ((∀ d : Value, (∃ k ∈ d.keys, list.Holds k) → p.HoldsOf d) ↔ ¬p.ConfusesArrays) := by
  have hleaf := leaf_result hhash hkind hp h
  cases p with
  | comparison path op operand =>
    have hbounds := evaluated_result hleaf
    rw [hhash] at hbounds
    refine ⟨fun d => holdsOf_of_key fun k hk => ?_, comparison_admits_iff hcollator hbounds rfl⟩
    exact .inl ((comparisonBounds_held_of_exact hcollator hbounds rfl k).1 hk)
  | isIn path members =>
    have hbounds := evaluated_result hleaf
    rw [hhash] at hbounds
    refine ⟨fun d => holdsOf_of_key fun k hk => ?_, membership_admits_iff hcollator hp hbounds rfl⟩
    exact .inl ((membershipBounds_held_of_exact hcollator hp hbounds rfl k).1 hk)
  | exprComparison path op operand =>
    obtain ⟨harray, hheld⟩ : operand.isArray = false ∧ ∀ k, list.Holds k ↔ op.Relates k operand := by
      by_cases hop : op = .eq
      · subst hop
        rw [leaf, if_pos rfl, hhash] at hleaf
        exact equalityBounds_held_of_exact hcollator (constant_result hleaf) rfl
      · simp only [leaf, if_neg hop] at hleaf
        split_ifs at hleaf
        · cases hleaf
        · have hbounds := Except.ok.inj (constant_result hleaf)
          have hexact : (exprBounds op operand index).2 = .exact := congrArg Prod.snd hbounds
          have hlist : (exprBounds op operand index).1 = list.intervals := congrArg Prod.fst hbounds
          have hheld := exprBounds_held_of_exact hcollator hop hexact
          rwa [hlist] at hheld
    refine ⟨fun d => holdsOf_of_key fun k hk => ?_, expression_admits_iff harray hheld⟩
    exact (hheld k).1 hk
  | _ => exact hp.elim

/-- With exact bounds the empty array is found where undefined is asked for, since it is stored as undefined,
and `[5]` where the expression language asks for `5`. -/
theorem exact_equality_admits_arrays :
    let b := Builder.ofSettings {}
    let field : IndexedField := ⟨"a", .ascending⟩
    let index := { Index.ofPattern "a_1" ⟨[field]⟩ with multikey := true }
    let undefined : Predicate := .comparison "a" .eq .undefined
    let five : Predicate := .exprComparison "a" .eq (.int 5)
    let undefinedList : IntervalList := ⟨"a", [.point .undefined]⟩
    let fiveList : IntervalList := ⟨"a", [.point (.int 5)]⟩
    field.option.isHashed = false ∧ index.kind ≠ .wildcard ∧ index.collator = none ∧
      undefined.ComparesValues ∧ five.ComparesValues ∧
      (b.bounds undefined field index).result = .ok (undefinedList, .exact) ∧
      (b.bounds five field index).result = .ok (fiveList, .exact) ∧
      (¬∀ d : Value, (∃ k ∈ d.keys, undefinedList.Holds k) → undefined.HoldsOf d) ∧
      ¬∀ d : Value, (∃ k ∈ d.keys, fiveList.Holds k) → five.HoldsOf d := by
  intro b field index undefined five undefinedList fiveList
  have hhash : field.option.isHashed = false := rfl
  have hkind : index.kind ≠ .wildcard := by decide
  have hcompares : undefined.ComparesValues ∧ five.ComparesValues := ⟨trivial, trivial⟩
  have hundefined : (b.bounds undefined field index).result = .ok (undefinedList, .exact) := rfl
  have hfive : (b.bounds five field index).result = .ok (fiveList, .exact) := rfl
  refine ⟨hhash, hkind, rfl, hcompares.1, hcompares.2, hundefined, hfive, fun hall => ?_, fun hall => ?_⟩
  · have hconfuses : undefined.ConfusesArrays := ⟨rfl, rfl⟩
    exact (exact_admits_iff hhash hkind rfl hcompares.1 hundefined).2.1 hall hconfuses
  · have hconfuses : five.ConfusesArrays := rfl
    exact (exact_admits_iff hhash hkind rfl hcompares.2 hfive).2.1 hall hconfuses

end Builder

end ScanBounds

import ScanBounds.Bounding.Operand
import ScanBounds.Proofs.Interval.SetOps
import ScanBounds.Proofs.Regex.Range
import ScanBounds.Proofs.Value.Collation

/-!
# Bounds of single operands are canonical

Whatever the operand, its intervals are well-formed, ascend and do not touch.  Most bounds are one interval,
whose ends are those of a bracket or the operand itself; bounds of several intervals come from a union, or
ascend because their brackets do.  An operand can be refused, but never for intervals out of order: `Yields`
states both about a result at once.
-/

namespace ScanBounds

open IntervalList

/-! ## Results and refusals -/

/-- Of the refusals that report intervals out of order, only an inexact complement may occur. -/
def Refusal.Allowed (r : Refusal) : Prop :=
  r.fault.kind = .invariant → ∃ child complement, r = .inexactComplement child complement

/-- A result is good, and a refusal is one that may occur. -/
def Yields {α : Type} (good : α → Prop) : Except Refusal α → Prop
  | .ok a => good a
  | .error r => r.Allowed

namespace Yields

variable {α β : Type} {good : α → Prop} {good' : β → Prop}

lemma bind {x : Except Refusal α} {f : α → Except Refusal β} (hx : Yields good x)
    (hf : ∀ a, good a → Yields good' (f a)) : Yields good' (x >>= f) := by
  cases x with
  | ok a => exact hf a hx
  | error r => exact hx

lemma of_eq_ok {x : Except Refusal α} {a : α} (h : Yields good x) (hx : x = .ok a) : good a := by
  rw [hx] at h
  exact h

end Yields

lemma exists_of_bind_eq_ok {ε α β : Type} {x : Except ε α} {f : α → Except ε β} {b : β}
    (h : (x >>= f) = .ok b) : ∃ a, x = .ok a ∧ f a = .ok b := by
  cases x with
  | ok a => exact ⟨a, rfl, h⟩
  | error e => cases h

/-! ## Unions -/

lemma unionOf_spec {l : List Interval} (hwf : ∀ i ∈ l, i.WellFormed) :
    ∃ m, unionOf l = .ok m ∧ Canonical m ∧ ∀ c, Covered m c ↔ Covered l c := by
  obtain ⟨m, hm, -, hcan, hc⟩ := IntervalList.union_spec (l := ⟨"", l⟩) hwf
  refine ⟨m.intervals, ?_, hcan, hc⟩
  rw [unionOf, hm]

lemma unionOf_yields {l : List Interval} (hwf : ∀ i ∈ l, i.WellFormed) :
    Yields Canonical (unionOf l) := by
  obtain ⟨m, hm, hcan, -⟩ := unionOf_spec hwf
  rw [hm]
  exact hcan

/-- The bounds for null always exist, and cover what the two points do. -/
lemma nullBounds_spec (hashed : Bool) :
    ∃ m, nullBounds hashed = .ok (m, .inexactFetch) ∧ Canonical m ∧
      ∀ c, Covered m c ↔ Covered [.undefinedPoint hashed, .nullPoint hashed] c := by
  have hwf : ∀ i ∈ [Interval.undefinedPoint hashed, .nullPoint hashed], i.WellFormed := by
    simp only [List.forall_mem_cons, List.not_mem_nil, false_imp_iff, implies_true, and_true]
    exact ⟨Interval.wellFormed_point _, Interval.wellFormed_point _⟩
  obtain ⟨m, hm, h⟩ := unionOf_spec hwf
  exact ⟨m, by rw [nullBounds, hm]; rfl, h⟩

/-! ## Equality -/

lemma canonical_points {v w : Value} (h : v < w) : Canonical [.point v, .point w] := by
  refine Canonical.cons_cons_iff.2 ⟨Interval.wellFormed_point v, ?_, ?_⟩
  · exact Cut.above_lt_below.2 h
  · exact Canonical.singleton (Interval.wellFormed_point w)

/-- Two points of different values ascend once they are sorted. -/
lemma canonical_sortByStart_points {v w : Value} (h : (v == w) = false) :
    Canonical (Interval.sortByStart [.point v, .point w]) := by
  have hsort : Interval.sortByStart [.point v, .point w] =
      if (Interval.point v).startOrder (.point w) != .gt then [.point v, .point w]
      else [.point w, .point v] := by
    simp [Interval.sortByStart, Sorting.sort, Sorting.sortHalves, Sorting.merge, Sorting.mergeAt]
  have hne : v.toClass ≠ w.toClass := fun hc => by simp [Value.toClass_eq.1 hc] at h
  have hle : (Interval.point v).startOrder (.point w) ≠ .gt ↔ v ≤ w := by
    rw [Interval.startOrder_eq]
    exact Cut.below_le_below
  rw [hsort]
  split_ifs with ho
  · have ho := hle.1 (bne_iff_ne.1 ho)
    exact canonical_points (Value.toClass_lt.1 ((Value.toClass_le.2 ho).lt_of_ne hne))
  · rw [bne_iff_ne, hle, ← Value.toClass_le, not_le] at ho
    exact canonical_points (Value.toClass_lt.1 ho)

/-- The key of an array is never the key that its first element is looked up by. -/
lemma indexKey_array_ne_element (items : List Value) (collator : Option Collator) :
    ((Value.array items).indexKey collator == match items with
      | first :: _ => first.indexKey collator
      | [] => .undefined) = false := by
  rw [← Bool.not_eq_true, Value.indexKey_array]
  rcases items with - | ⟨first, items⟩
  · exact nofun
  · intro h
    have hself := Value.not_beq_array_cons (first.indexKey collator) (items.map (.indexKey collator))
    rw [← Bool.not_eq_true] at hself
    exact hself (Value.toClass_eq.1 (Value.toClass_eq.2 h).symm)

lemma nullBounds_yields (hashed : Bool) : Yields (fun b => Canonical b.1) (nullBounds hashed) := by
  obtain ⟨m, hm, hcan, -⟩ := nullBounds_spec hashed
  rw [hm]
  exact hcan

lemma equalityBounds_yields (operand : Value) (index : Index) (hashed : Bool) :
    Yields (fun b => Canonical b.1) (equalityBounds operand index hashed) := by
  unfold equalityBounds
  split
  · exact nullBounds_yields hashed
  · split_ifs
    · exact nofun
    · exact canonical_sortByStart_points (indexKey_array_ne_element _ _)
  · exact Canonical.singleton (Interval.wellFormed_point _)

/-! ## Inequalities -/

/-- The ends of the keys below an operand are in order, and so are those above it. -/
lemma endsBelow_le {operand : Value} (hn : operand.isNaN = false) (index : Index) :
    (endsBelow operand index).1 ≤ (endsBelow operand index).2 := by
  unfold endsBelow
  split
  · exact Value.minKey_le _
  · rw [Value.indexKey_number]
    exact Value.negInfinity_le_number.2 hn
  · exact TypeTag.least_le (Value.rank_indexKey _ _)

lemma endsAbove_le (operand : Value) (index : Index) :
    (endsAbove operand index).1 ≤ (endsAbove operand index).2 := by
  unfold endsAbove
  split
  · exact Value.le_maxKey _
  · rw [Value.indexKey_number]
    exact Value.number_le_infinity _
  · exact TypeTag.le_upper (Value.rank_indexKey _ _)

lemma unlessVoid_canonical {i : Interval} (h : i.start ≤ i.stop) (t : Tightness) :
    Canonical (unlessVoid i t).1 := by
  unfold unlessVoid
  split_ifs with hv
  · exact Canonical.nil
  · exact Canonical.singleton (Interval.wellFormed_of_le h (Bool.not_eq_true _ ▸ hv))

lemma wellFormed_allValuesWith (inclusion : Inclusion) : (Interval.allValuesWith inclusion).WellFormed :=
  .inl (Value.lt_of_rank_lt (show (-1 : Int) < 127 by decide))

lemma ltBounds_canonical (operand : Value) (index : Index) : Canonical (ltBounds operand index).1 := by
  unfold ltBounds
  split_ifs with hmax hnan
  · exact Canonical.singleton (wellFormed_allValuesWith _)
  · exact Canonical.nil
  · exact unlessVoid_canonical (endsBelow_le (Bool.not_eq_true _ ▸ hnan) index) _

lemma gtBounds_canonical (operand : Value) (index : Index) : Canonical (gtBounds operand index).1 := by
  unfold gtBounds
  split_ifs with hmin hnan
  · exact Canonical.singleton (wellFormed_allValuesWith _)
  · exact Canonical.nil
  · exact unlessVoid_canonical (endsAbove_le operand index) _

/-- An interval that takes in one end takes in the other if the two can be equal. -/
lemma wellFormed_of_rank {i : Interval} (h : i.start ≤ i.stop)
    (hstart : i.start.rank = i.stop.rank → i.startInclusive) (hstop : i.start.rank = i.stop.rank → i.stopInclusive) :
    i.WellFormed := by
  by_cases heq : (i.start == i.stop) = true
  · have hr := Value.rank_eq_of_beq heq
    exact .inr ⟨heq, hstart hr, hstop hr⟩
  · refine .inl (Value.toClass_lt.1 ((Value.toClass_le.2 h).lt_of_ne fun hc => ?_))
    exact heq (Value.toClass_eq.1 hc)

lemma lteBounds_yields (operand : Value) (index : Index) (hashed : Bool) :
    Yields (fun b => Canonical b.1) (lteBounds operand index hashed) := by
  unfold lteBounds
  split_ifs with hmax hnan
  · exact Canonical.singleton (wellFormed_allValuesWith _)
  · exact Canonical.singleton (Interval.wellFormed_point _)
  · exact nullBounds_yields hashed
  · refine Canonical.singleton (wellFormed_of_rank (endsBelow_le (Bool.not_eq_true _ ▸ hnan) index) ?_ ?_)
    · intro h
      simp [h]
    · intro h
      rfl

lemma gteBounds_yields (operand : Value) (index : Index) (hashed : Bool) :
    Yields (fun b => Canonical b.1) (gteBounds operand index hashed) := by
  unfold gteBounds
  split_ifs with hmin hnan
  · exact Canonical.singleton (wellFormed_allValuesWith _)
  · exact Canonical.singleton (Interval.wellFormed_point _)
  · exact nullBounds_yields hashed
  · refine Canonical.singleton (wellFormed_of_rank (endsAbove_le operand index) ?_ ?_)
    · intro h
      rfl
    · intro h
      simp [h]

lemma comparisonBounds_yields (op : ComparisonOp) (operand : Value) (index : Index) (hashed : Bool) :
    Yields (fun b => Canonical b.1) (comparisonBounds op operand index hashed) := by
  cases op with
  | eq => exact equalityBounds_yields operand index hashed
  | lt => exact ltBounds_canonical operand index
  | lte => exact lteBounds_yields operand index hashed
  | gt => exact gtBounds_canonical operand index
  | gte => exact gteBounds_yields operand index hashed

lemma exprBounds_canonical (op : ComparisonOp) (operand : Value) (index : Index) :
    Canonical (exprBounds op operand index).1 := by
  refine unlessVoid_canonical ?_ _
  cases op <;> first | exact Value.minKey_le _ | exact Value.le_maxKey _

/-! ## Types -/

lemma bracket_wellFormed (tag : TypeTag) : tag.bracket.WellFormed := by
  refine wellFormed_of_rank (TypeTag.le_upper tag.rank_least) ?_ ?_
  · intro h
    cases hw : tag.isVariableWidth <;> simp [TypeTag.bracket, Interval.range, Inclusion.start, hw]
  · intro h
    cases hw : tag.isVariableWidth with
    | true => exact absurd (tag.rank_least.symm.trans h) (TypeTag.rank_lt_rank_upper hw).ne
    | false => simp [TypeTag.bracket, Interval.range, Inclusion.stop, hw]

/-- A bracket holds the values of its rank. -/
lemma bracket_holds_iff {tag : TypeTag} {v : Value} : tag.bracket.Holds v ↔ v.rank = tag.rank := by
  rw [← TypeTag.between_iff]
  unfold TypeTag.bracket Interval.Holds
  cases tag.isVariableWidth <;> rfl

/-- The brackets of a type set, the one for all numbers in front. -/
def TypeSet.brackets (types : TypeSet) : List Interval :=
  (if types.allNumbers then [TypeTag.int.bracket] else []) ++ types.tags.map TypeTag.bracket

lemma brackets_wellFormed (types : TypeSet) : ∀ i ∈ types.brackets, i.WellFormed := by
  intro i hi
  rw [TypeSet.brackets, List.mem_append, List.mem_map] at hi
  rcases hi with hi | ⟨tag, -, rfl⟩
  · split_ifs at hi
    · rw [List.mem_singleton.1 hi]
      exact bracket_wellFormed _
    · cases hi
  · exact bracket_wellFormed tag

lemma typeBounds_yields (types : TypeSet) (index : Index) :
    Yields (fun b => Canonical b.1) (typeBounds types index) := by
  unfold typeBounds
  by_cases harray : types.has .array = true
  · rw [if_pos harray]
    exact Canonical.singleton (wellFormed_allValuesWith _)
  · rw [if_neg harray]
    refine (unionOf_yields (brackets_wellFormed types)).bind fun m hm => ?_
    exact hm

/-! ## Regular expressions and membership -/

lemma regexBounds_canonical (term : RegexTerm) (collated : Bool) : Canonical (term.bounds collated).1 := by
  have hwf := (Stem.ofPattern term.pattern term.flags collated).range_wellFormed
  refine Canonical.cons_cons_iff.2 ⟨hwf, ?_, Canonical.singleton (Interval.wellFormed_point _)⟩
  exact (Stem.range_upper_le _).trans_lt (Cut.below_lt_below.2 (Value.lt_of_rank_lt (show (20 : Int) < 50 by decide)))

lemma literalBounds_yields (index : Index) (hashed : Bool) (literals : List Value) :
    Yields (fun b => ∀ i ∈ b.1, i.WellFormed) (literalBounds index hashed literals) := by
  induction literals with
  | nil => exact nofun
  | cons v rest ih =>
    refine (equalityBounds_yields v index hashed).bind fun b hb => ?_
    refine ih.bind fun b' hb' => ?_
    intro i hi
    rcases List.mem_append.1 hi with hi | hi
    · exact hb.wellFormed i hi
    · exact hb' i hi

/-- The intervals that a membership list is looked up by, before they are merged. -/
lemma memberIntervals_wellFormed (members : InList) (collated : Bool) {literals : List Interval}
    (hl : ∀ i ∈ literals, i.WellFormed) :
    ∀ i ∈ literals ++ (members.regexes.map (·.bounds collated)).flatMap Prod.fst ++
      (if members.hasEmptyArray then [Interval.undefinedPoint false] else []), i.WellFormed := by
  intro i hi
  simp only [List.mem_append, List.mem_flatMap, List.mem_map] at hi
  rcases hi with (hi | ⟨_, ⟨term, -, rfl⟩, hi⟩) | hi
  · exact hl i hi
  · exact (regexBounds_canonical term _).wellFormed i hi
  · split_ifs at hi
    · rw [List.mem_singleton.1 hi]
      exact Interval.wellFormed_point _
    · cases hi

lemma membershipBounds_yields (members : InList) (index : Index) (hashed : Bool) :
    Yields (fun b => Canonical b.1) (membershipBounds members index hashed) := by
  refine (literalBounds_yields index hashed members.literals).bind fun b hb => ?_
  refine (unionOf_yields (memberIntervals_wellFormed members _ hb)).bind fun m hm => ?_
  exact hm

end ScanBounds

import Mathlib.Tactic.Set
import ScanBounds.Proofs.Bounding.Operand
import ScanBounds.Proofs.Predicate.Accepts

/-!
# Which keys the bounds of an operand hold

For each kind of operand on a field that is not hashed, the keys in its bounds.  A comparison with anything
but an array holds exactly the keys that satisfy it (`comparisonBounds_held`).  The other bounds may hold
more: an array is looked up by its first element too, a type by its whole bracket, a regular expression by
the texts with its stem.
-/

namespace ScanBounds

open IntervalList

/-! ## Null -/

lemma nullBounds_held {b : OperandBounds} (h : nullBounds false = .ok b) (v : Value) :
    Held b.1 v ↔ v = .undefined ∨ v = .null := by
  obtain ⟨m, hm, -, hc⟩ := nullBounds_spec false
  rw [hm] at h
  cases h
  rw [held_iff, hc, ← held_iff, held_cons, held_cons, Interval.undefinedPoint, Interval.nullPoint,
    Interval.point_holds, Interval.point_holds]
  simp [Value.beq_undefined_iff, Value.beq_null_iff]

/-! ## Comparisons -/

lemma unlessVoid_held {i : Interval} {t : Tightness} {v : Value} :
    Held (unlessVoid i t).1 v ↔ i.Holds v := by
  unfold unlessVoid
  split_ifs with hv
  · simp [Interval.not_holds_of_isVoid hv v]
  · simp

/-- The ends below an operand are in its bracket, and leave out NaN. -/
lemma endsBelow_spec {operand : Value} (ha : operand.isArray = false) (hn : operand.isNaN = false)
    (index : Index) :
    (endsBelow operand index).1.rank = operand.rank ∧
      (endsBelow operand index).2 = operand.indexKey index.collator ∧
      ∀ v, v.rank = operand.rank → ((endsBelow operand index).1 ≤ v ↔ v.isNaN = false) := by
  unfold endsBelow
  split
  · cases ha
  · refine ⟨by simp [Value.double], rfl, fun v hv => ?_⟩
    obtain ⟨n, rfl⟩ := Value.exists_number_of_rank (hv.trans (Value.rank_number _))
    exact Value.negInfinity_le_number
  · rename_i hnumber
    refine ⟨TypeTag.rank_least _, rfl, fun v hv => iff_of_true (TypeTag.least_le hv) ?_⟩
    refine Value.isNaN_of_rank_ne fun hr => ?_
    obtain ⟨n, rfl⟩ := Value.exists_number_of_rank (hv.symm.trans hr)
    exact hnumber n rfl

/-- A bracket cut off above by an operand. -/
lemma holds_below_iff {operand : Value} (ha : operand.isArray = false) (hn : operand.isNaN = false)
    (index : Index) (inclusive : Bool) (v : Value) :
    Interval.Holds ⟨(endsBelow operand index).1, true, (endsBelow operand index).2, inclusive⟩ v ↔
      v.rank = (operand.indexKey index.collator).rank ∧ v.isNaN = false ∧
        if inclusive then v ≤ operand.indexKey index.collator
        else v < operand.indexKey index.collator := by
  set key := operand.indexKey index.collator
  obtain ⟨hrank, hstop, hstart⟩ := endsBelow_spec ha hn index
  have hkey : key.rank = operand.rank := Value.rank_indexKey _ _
  have hle : (if inclusive then v ≤ key else v < key) → v ≤ key := by
    cases inclusive
    · exact le_of_lt
    · exact id
  simp only [Interval.Holds, if_true, hstop]
  constructor
  · rintro ⟨hlow, hup⟩
    have hv : v.rank = operand.rank := by
      have h₁ := Value.rank_le_of_le hlow
      have h₂ := Value.rank_le_of_le (hle hup)
      omega
    exact ⟨hv.trans hkey.symm, (hstart v hv).1 hlow, hup⟩
  · rintro ⟨hv, hnan, hup⟩
    exact ⟨(hstart v (hv.trans hkey)).2 hnan, hup⟩

/-- The ends above an operand are in its bracket, or the upper one is where the next bracket starts. -/
lemma endsAbove_spec {operand : Value} (ha : operand.isArray = false) (index : Index) :
    let key := operand.indexKey index.collator
    let stop := (endsAbove operand index).2
    (endsAbove operand index).1 = key ∧
      ∀ v, key ≤ v → ((if key.rank == stop.rank then v ≤ stop else v < stop) ↔ v.rank = key.rank) := by
  unfold endsAbove
  split
  · cases ha
  · refine ⟨rfl, fun v hv => ?_⟩
    rename_i n
    simp only [Value.indexKey_number] at hv ⊢
    have hr : (Value.number n).rank = (Value.double .infinity).rank := by simp [Value.double]
    rw [if_pos (by simp [hr])]
    constructor
    · intro hle
      have h₁ := Value.rank_le_of_le hv
      have h₂ := Value.rank_le_of_le hle
      omega
    · intro hrank
      obtain ⟨m, rfl⟩ := Value.exists_number_of_rank (hrank.trans (Value.rank_number _))
      exact Value.number_le_infinity m
  · refine ⟨rfl, fun v hv => ?_⟩
    have hkey : (operand.indexKey index.collator).rank = operand.tag.rank := Value.rank_indexKey _ _
    have hleast := (TypeTag.least_le hkey).trans hv
    rw [hkey, ← TypeTag.between_iff]
    cases hw : operand.tag.isVariableWidth with
    | true =>
      have hne := (TypeTag.rank_lt_rank_upper hw).ne
      simp [hleast, hne]
    | false =>
      have heq := TypeTag.rank_upper_of_fixed hw
      simp [hleast, heq]

/-- A bracket cut off below by an operand. -/
lemma holds_above_iff {operand : Value} (ha : operand.isArray = false) (hn : operand.isNaN = false)
    (index : Index) (inclusive : Bool) (v : Value) :
    Interval.Holds ⟨(endsAbove operand index).1, inclusive, (endsAbove operand index).2,
        (endsAbove operand index).1.rank == (endsAbove operand index).2.rank⟩ v ↔
      v.rank = (operand.indexKey index.collator).rank ∧ v.isNaN = false ∧
        if inclusive then operand.indexKey index.collator ≤ v
        else operand.indexKey index.collator < v := by
  set key := operand.indexKey index.collator
  set ends := endsAbove operand index
  obtain ⟨hstart, hstop⟩ := endsAbove_spec ha index
  have hle : (if inclusive then key ≤ v else key < v) → key ≤ v := by
    cases inclusive
    · exact le_of_lt
    · exact id
  have hstart : ends.1 = key := hstart
  simp only [Interval.Holds, hstart]
  constructor
  · rintro ⟨hlow, hup⟩
    have hrank := (hstop v (hle hlow)).1 hup
    refine ⟨hrank, ?_, hlow⟩
    by_contra hnan
    have hkey := Value.isNaN_of_le (hle hlow) hrank.symm (Bool.not_eq_false _ ▸ hnan)
    rw [Value.isNaN_indexKey, hn] at hkey
    cases hkey
  · rintro ⟨hrank, -, hlow⟩
    exact ⟨hlow, (hstop v (hle hlow)).2 hrank⟩

/-- The comparisons with null that hold of equal values hold of undefined too. -/
lemma nullBounds_accepts {op : ComparisonOp} (hop : op.admitsEqual = true) {b : OperandBounds}
    (h : nullBounds false = .ok b) (v : Value) : Held b.1 v ↔ op.Accepts .null v := by
  have hnull : v = .null ↔ v.rank = Value.null.rank ∧ v.isNaN = false ∧ op.Relates v .null := by
    constructor
    · rintro rfl
      refine ⟨rfl, rfl, ?_⟩
      cases op <;> first | exact le_refl _ | rfl | cases hop
    · exact fun hv => Value.eq_null_of_rank hv.1
  rw [nullBounds_held h, ComparisonOp.Accepts]
  simp only [Value.isMinKey, Value.isMaxKey, Value.isNaN, Value.isNull, Bool.or_self,
    Bool.false_eq_true, if_false, hop, true_and]
  rw [hnull]
  exact or_comm

lemma accepts_of_isNaN {op : ComparisonOp} {w v : Value} (h : w.isNaN = true) :
    op.Accepts w v ↔ op.admitsEqual = true ∧ v.isNaN = true := by
  have hmin : w.isMinKey = false := by cases w <;> first | rfl | cases h
  have hmax : w.isMaxKey = false := by cases w <;> first | rfl | cases h
  simp [ComparisonOp.Accepts, hmin, hmax, h]

/-- A null operand is looked up by itself. -/
lemma null_operand_held {op : ComparisonOp} (hop : op.admitsEqual = true) {operand : Value}
    (hnull : operand.isNull = true) (collator : Option Collator) {b : OperandBounds}
    (h : nullBounds false = .ok b) (v : Value) :
    Held b.1 v ↔ op.Accepts (operand.indexKey collator) v := by
  have hkey : operand.indexKey collator = .null :=
    Value.eq_null_of_isNull ((Value.isNull_indexKey collator operand).trans hnull)
  rw [hkey]
  exact nullBounds_accepts hop h v

/-- Comparisons with NaN that hold of equal values hold of NaN alone. -/
lemma nan_operand_held {op : ComparisonOp} (hop : op.admitsEqual = true) {operand : Value}
    (hnan : operand.isNaN = true) (collator : Option Collator) (v : Value) :
    Held [.point operand] v ↔ op.Accepts (operand.indexKey collator) v := by
  have hkey : (operand.indexKey collator).isNaN = true := by rw [Value.isNaN_indexKey, hnan]
  rw [accepts_of_isNaN hkey, held_cons, Interval.point_holds, Value.beq_nan_iff hnan]
  simp [hop]

/-- Inequalities that stay in the bracket of the key.  Below the least value and above the greatest there
is nothing in other brackets either. -/
lemma accepts_iff_of_bracket {op : ComparisonOp} {w v : Value} (hnan : w.isNaN = false)
    (hnull : (op.admitsEqual && w.isNull) = false)
    (hmin : w.isMinKey = true → op.Relates v .minKey → v = .minKey)
    (hmax : w.isMaxKey = true → op.Relates v .maxKey → v = .maxKey) :
    op.Accepts w v ↔ v.rank = w.rank ∧ v.isNaN = false ∧ op.Relates v w := by
  by_cases h₁ : w.isMinKey = true
  · obtain rfl := Value.eq_minKey_of_isMinKey h₁
    refine ⟨fun h => ?_, fun h => h.2.2⟩
    obtain rfl := hmin h₁ h
    exact ⟨rfl, rfl, h⟩
  by_cases h₂ : w.isMaxKey = true
  · obtain rfl := Value.eq_maxKey_of_isMaxKey h₂
    refine ⟨fun h => ?_, fun h => h.2.2⟩
    obtain rfl := hmax h₂ h
    exact ⟨rfl, rfl, h⟩
  rw [Bool.not_eq_true] at h₁ h₂
  rw [ComparisonOp.Accepts, h₁, h₂, hnan]
  simp only [Bool.or_self, Bool.false_eq_true, if_false]
  refine or_iff_left fun h => ?_
  simp [h.1, h.2.1] at hnull

lemma allValuesWith_holds {inclusion : Inclusion} {v : Value} :
    (Interval.allValuesWith inclusion).Holds v ↔
      (inclusion.start = false → .minKey < v) ∧ (inclusion.stop = false → v < .maxKey) := by
  have hmin := Value.minKey_le v
  have hmax := Value.le_maxKey v
  unfold Interval.Holds Interval.allValuesWith Interval.range
  cases inclusion <;> simp [Inclusion.start, Inclusion.stop, hmin, hmax]

variable {operand : Value} {index : Index}

/-- On a multikey index the bounds below `MaxKey` hold `MaxKey` too. -/
lemma ltBounds_held (ha : operand.isArray = false) (v : Value) :
    Held (ltBounds operand index).1 v ↔
      ComparisonOp.lt.Accepts (operand.indexKey index.collator) v ∨
        index.multikey = true ∧ operand.isMaxKey = true := by
  unfold ltBounds
  split_ifs with hmax hnan
  · have hkey := Value.eq_maxKey_of_isMaxKey ((Value.isMaxKey_indexKey index.collator operand).trans hmax)
    rw [hkey, allBut, held_cons, allValuesWith_holds]
    show _ ↔ v < .maxKey ∨ _
    cases index.multikey <;> simp [Inclusion.ofEnds, Inclusion.start, Inclusion.stop, hmax]
  · rw [accepts_of_isNaN (by rw [Value.isNaN_indexKey, hnan])]
    simp [ComparisonOp.admitsEqual, hmax]
  · rw [Bool.not_eq_true] at hnan
    have hends := endsBelow_spec ha hnan index
    have hrank : ((endsBelow operand index).1.rank == (endsBelow operand index).2.rank) = true := by
      simp [hends.1, hends.2.1]
    simp only [unlessVoid_held, hrank, ha, Bool.true_or]
    rw [holds_below_iff ha hnan index, or_iff_left fun h => hmax h.2, accepts_iff_of_bracket]
    · rfl
    · rw [Value.isNaN_indexKey, hnan]
    · rfl
    · exact fun _ h => Value.le_minKey_iff.1 (le_of_lt h)
    · intro h
      rw [Value.isMaxKey_indexKey] at h
      contradiction

/-- On a multikey index the bounds above `MinKey` hold `MinKey` too. -/
lemma gtBounds_held (ha : operand.isArray = false) (v : Value) :
    Held (gtBounds operand index).1 v ↔
      ComparisonOp.gt.Accepts (operand.indexKey index.collator) v ∨
        index.multikey = true ∧ operand.isMinKey = true := by
  unfold gtBounds
  split_ifs with hmin hnan
  · have hkey := Value.eq_minKey_of_isMinKey ((Value.isMinKey_indexKey index.collator operand).trans hmin)
    rw [hkey, allBut, held_cons, allValuesWith_holds]
    show _ ↔ .minKey < v ∨ _
    cases index.multikey <;> simp [Inclusion.ofEnds, Inclusion.start, Inclusion.stop, hmin]
  · rw [accepts_of_isNaN (by rw [Value.isNaN_indexKey, hnan])]
    simp [ComparisonOp.admitsEqual, hmin]
  · rw [Bool.not_eq_true] at hnan
    simp only [unlessVoid_held, ha, Bool.false_or]
    rw [holds_above_iff ha hnan index, or_iff_left fun h => hmin h.2, accepts_iff_of_bracket]
    · rfl
    · rw [Value.isNaN_indexKey, hnan]
    · rfl
    · intro h
      rw [Value.isMinKey_indexKey] at h
      contradiction
    · exact fun _ h => Value.maxKey_le_iff.1 (le_of_lt h)

/-- The one interval of an inequality that admits equality. -/
lemma lteBounds_eq (ha : operand.isArray = false) (hmax : operand.isMaxKey = false)
    (hnan : operand.isNaN = false) (hnull : operand.isNull = false) :
    ∃ t, lteBounds operand index false =
      .ok ([⟨(endsBelow operand index).1, true, (endsBelow operand index).2, true⟩], t) := by
  have hends := endsBelow_spec ha hnan index
  have hrank : ((endsBelow operand index).1.rank == (endsBelow operand index).2.rank) = true := by
    simp [hends.1, hends.2.1]
  rw [lteBounds, hmax, hnan, hnull, ha]
  simp only [hrank]
  exact ⟨_, rfl⟩

lemma lteBounds_held (ha : operand.isArray = false) {b : OperandBounds}
    (h : lteBounds operand index false = .ok b) (v : Value) :
    Held b.1 v ↔ ComparisonOp.lte.Accepts (operand.indexKey index.collator) v := by
  by_cases hmax : operand.isMaxKey = true
  · rw [lteBounds, if_pos hmax] at h
    cases h
    have hkey := Value.eq_maxKey_of_isMaxKey ((Value.isMaxKey_indexKey index.collator operand).trans hmax)
    rw [hkey, allOf, held_cons, Interval.allValues, allValuesWith_holds]
    show _ ↔ v ≤ .maxKey
    simp [Inclusion.start, Inclusion.stop, Value.le_maxKey v]
  by_cases hnan : operand.isNaN = true
  · rw [lteBounds, if_neg hmax, if_pos hnan] at h
    cases h
    exact nan_operand_held rfl hnan index.collator v
  by_cases hnull : operand.isNull = true
  · rw [lteBounds, if_neg hmax, if_neg hnan, if_pos hnull] at h
    exact null_operand_held rfl hnull index.collator h v
  rw [Bool.not_eq_true] at hmax hnan hnull
  obtain ⟨t, heq⟩ : ∃ t, lteBounds operand index false = .ok ([_], t) :=
    lteBounds_eq ha hmax hnan hnull
  rw [heq] at h
  cases h
  rw [held_cons, or_iff_left held_nil, holds_below_iff ha hnan index, accepts_iff_of_bracket]
  · rfl
  · rw [Value.isNaN_indexKey, hnan]
  · rw [Value.isNull_indexKey, hnull, Bool.and_false]
  · exact fun _ h => Value.le_minKey_iff.1 h
  · intro h
    rw [Value.isMaxKey_indexKey, hmax] at h
    cases h

lemma gteBounds_eq (ha : operand.isArray = false) (hmin : operand.isMinKey = false)
    (hnan : operand.isNaN = false) (hnull : operand.isNull = false) :
    ∃ t, gteBounds operand index false =
      .ok ([⟨(endsAbove operand index).1, true, (endsAbove operand index).2,
        (endsAbove operand index).1.rank == (endsAbove operand index).2.rank⟩], t) := by
  rw [gteBounds, hmin, hnan, hnull, ha]
  exact ⟨_, rfl⟩

lemma gteBounds_held (ha : operand.isArray = false) {b : OperandBounds}
    (h : gteBounds operand index false = .ok b) (v : Value) :
    Held b.1 v ↔ ComparisonOp.gte.Accepts (operand.indexKey index.collator) v := by
  by_cases hmin : operand.isMinKey = true
  · rw [gteBounds, if_pos hmin] at h
    cases h
    have hkey := Value.eq_minKey_of_isMinKey ((Value.isMinKey_indexKey index.collator operand).trans hmin)
    rw [hkey, allOf, held_cons, Interval.allValues, allValuesWith_holds]
    show _ ↔ .minKey ≤ v
    simp [Inclusion.start, Inclusion.stop, Value.minKey_le v]
  by_cases hnan : operand.isNaN = true
  · rw [gteBounds, if_neg hmin, if_pos hnan] at h
    cases h
    exact nan_operand_held rfl hnan index.collator v
  by_cases hnull : operand.isNull = true
  · rw [gteBounds, if_neg hmin, if_neg hnan, if_pos hnull] at h
    exact null_operand_held rfl hnull index.collator h v
  rw [Bool.not_eq_true] at hmin hnan hnull
  obtain ⟨t, heq⟩ : ∃ t, gteBounds operand index false = .ok ([_], t) :=
    gteBounds_eq ha hmin hnan hnull
  rw [heq] at h
  cases h
  rw [held_cons, or_iff_left held_nil, holds_above_iff ha hnan index, accepts_iff_of_bracket]
  · rfl
  · rw [Value.isNaN_indexKey, hnan]
  · rw [Value.isNull_indexKey, hnull, Bool.and_false]
  · intro h
    rw [Value.isMinKey_indexKey, hmin] at h
    cases h
  · exact fun _ h => Value.maxKey_le_iff.1 h

/-- Equality with anything but null and arrays is one point. -/
lemma eq_accepts_iff {w : Value} (hnull : w.isNull = false) (v : Value) :
    ComparisonOp.eq.Accepts w v ↔ (v == w) = true := by
  by_cases hnan : w.isNaN = true
  · rw [accepts_of_isNaN hnan, Value.beq_nan_iff hnan]
    simp [ComparisonOp.admitsEqual]
  · rw [Bool.not_eq_true] at hnan
    rw [accepts_iff_of_bracket hnan (by rw [hnull, Bool.and_false])]
    · constructor
      · exact fun h => h.2.2
      · intro h
        refine ⟨Value.rank_eq_of_beq h, ?_, h⟩
        by_contra hv
        rw [Bool.not_eq_false] at hv
        have hw : (w == v) = true := Value.toClass_eq.1 (Value.toClass_eq.2 h).symm
        rw [Value.beq_nan_iff hv, hnan] at hw
        cases hw
    · exact fun _ h => Value.le_minKey_iff.1 (Value.toClass_le.1 (Value.toClass_eq.2 h).le)
    · exact fun _ h => Value.maxKey_le_iff.1 (Value.toClass_le.1 (Value.toClass_eq.2 h).ge)

lemma equalityBounds_held (ha : operand.isArray = false) {b : OperandBounds}
    (h : equalityBounds operand index false = .ok b) (v : Value) :
    Held b.1 v ↔ ComparisonOp.eq.Accepts (operand.indexKey index.collator) v := by
  unfold equalityBounds at h
  split at h
  · exact null_operand_held rfl rfl index.collator h v
  · cases ha
  · cases h
    rename_i hnull _
    rw [held_cons, Interval.point_holds, eq_accepts_iff]
    · simp
    · rw [Value.isNull_indexKey, ← Bool.not_eq_true]
      exact fun hn => hnull (Value.eq_null_of_isNull hn)

/-- The comparison leaves out just the extreme that it is with. -/
def ComparisonOp.leavesOutExtreme (operand : Value) : ComparisonOp → Bool
  | lt => operand.isMaxKey
  | gt => operand.isMinKey
  | eq | lte | gte => false

/-- **Comparisons.**  The bounds of a comparison with anything but an array hold exactly the keys that
satisfy it, and on a multikey index an extreme that it leaves out as well. -/
theorem comparisonBounds_held_iff (ha : operand.isArray = false) (op : ComparisonOp) {b : OperandBounds}
    (h : comparisonBounds op operand index false = .ok b) (v : Value) :
    Held b.1 v ↔ op.Accepts (operand.indexKey index.collator) v ∨
      index.multikey = true ∧ op.leavesOutExtreme operand = true := by
  cases op with
  | lt =>
    cases h
    exact ltBounds_held ha v
  | gt =>
    cases h
    exact gtBounds_held ha v
  | eq => simpa [ComparisonOp.leavesOutExtreme] using equalityBounds_held ha h v
  | lte => simpa [ComparisonOp.leavesOutExtreme] using lteBounds_held ha h v
  | gte => simpa [ComparisonOp.leavesOutExtreme] using gteBounds_held ha h v

theorem comparisonBounds_held (hmulti : index.multikey = false) (ha : operand.isArray = false)
    (op : ComparisonOp) {b : OperandBounds} (h : comparisonBounds op operand index false = .ok b)
    (v : Value) : Held b.1 v ↔ op.Accepts (operand.indexKey index.collator) v := by
  rw [comparisonBounds_held_iff ha op h, hmulti]
  simp

/-! ## Arrays -/

/-- The key that the first element of an array is stored under; an empty array is stored as undefined. -/
def firstKey (collator : Option Collator) : List Value → Value
  | first :: _ => first.indexKey collator
  | [] => .undefined

lemma equalityBounds_array_held {items : List Value} {b : OperandBounds}
    (h : equalityBounds (.array items) index false = .ok b) (v : Value) :
    Held b.1 v ↔ (v == (Value.array items).indexKey index.collator) = true ∨
      (v == firstKey index.collator items) = true := by
  have hb : b.1 = Interval.sortByStart [.point ((Value.array items).indexKey index.collator),
      .point (firstKey index.collator items)] := by
    cases items <;> (cases h; rfl)
  rw [hb, Held]
  simp only [mem_sortByStart, List.mem_cons, List.not_mem_nil, or_false, exists_eq_or_imp,
    exists_eq_left, Interval.point_holds]

/-- Below an array are all keys up to an end. -/
lemma below_array_held {items : List Value} {op : ComparisonOp} (hop : op = .lt ∨ op = .lte)
    {b : OperandBounds} (h : comparisonBounds op (.array items) index false = .ok b) (v : Value) :
    Held b.1 v ↔ v ≤ (endsBelow (.array items) index).2 := by
  have hbottom : (endsBelow (.array items) index).1 = .minKey := rfl
  have hb : b.1 = [⟨.minKey, true, (endsBelow (.array items) index).2, true⟩] := by
    rcases hop with rfl | rfl <;> rw [← Except.ok.inj h]
    · simp [ltBounds, Value.isMaxKey, Value.isNaN, Value.isArray, unlessVoid, Interval.isVoid, hbottom]
    · rfl
  rw [hb, held_cons, or_iff_left held_nil]
  exact and_iff_right (Value.minKey_le v)

/-- Above an array are all keys from an end on. -/
lemma above_array_held {items : List Value} {op : ComparisonOp} (hop : op = .gt ∨ op = .gte)
    {b : OperandBounds} (h : comparisonBounds op (.array items) index false = .ok b) (v : Value) :
    Held b.1 v ↔ (endsAbove (.array items) index).1 ≤ v := by
  have htop : (endsAbove (.array items) index).2 = .maxKey := rfl
  have hb : b.1 = [⟨(endsAbove (.array items) index).1, true, .maxKey, true⟩] := by
    rcases hop with rfl | rfl <;> rw [← Except.ok.inj h]
    · simp [gtBounds, Value.isMinKey, Value.isNaN, Value.isArray, unlessVoid, Interval.isVoid, htop]
    · rfl
  rw [hb, held_cons, or_iff_left held_nil]
  exact and_iff_left (Value.le_maxKey v)

/-- Inequalities against an array reach to the bottom or to the top of all keys. -/
lemma inequality_array_held {items : List Value} {op : ComparisonOp} (hop : op ≠ .eq) {b : OperandBounds}
    (h : comparisonBounds op (.array items) index false = .ok b) :
    Held b.1 .minKey ∨ Held b.1 .maxKey := by
  cases op with
  | eq => exact absurd rfl hop
  | lt => exact .inl ((below_array_held (.inl rfl) h _).2 (Value.minKey_le _))
  | lte => exact .inl ((below_array_held (.inr rfl) h _).2 (Value.minKey_le _))
  | gt => exact .inr ((above_array_held (.inl rfl) h _).2 (Value.le_maxKey _))
  | gte => exact .inr ((above_array_held (.inr rfl) h _).2 (Value.le_maxKey _))

/-! ## Types -/

lemma unionOf_held {l m : List Interval} (hwf : ∀ i ∈ l, i.WellFormed) (h : unionOf l = .ok m)
    (v : Value) : Held m v ↔ Held l v := by
  obtain ⟨m', hm', -, hc⟩ := unionOf_spec hwf
  rw [hm'] at h
  cases h
  rw [held_iff, held_iff, hc]

lemma typeBounds_held {types : TypeSet} {b : OperandBounds} (h : typeBounds types index = .ok b)
    (v : Value) :
    Held b.1 v ↔ types.has .array ∨ (types.allNumbers ∧ v.rank = TypeTag.int.rank) ∨
      ∃ tag ∈ types.tags, v.rank = tag.rank := by
  by_cases harray : types.has .array = true
  · rw [typeBounds, if_pos harray] at h
    cases h
    simp [harray, Interval.allValues, allValuesWith_holds, Inclusion.start, Inclusion.stop]
  · rw [typeBounds, if_neg harray] at h
    obtain ⟨m, hm, -, -⟩ := unionOf_spec (brackets_wellFormed types)
    have hb : (unionOf types.brackets >>= fun m => .ok (m, types.tightness index)) = .ok b := h
    rw [hm] at hb
    obtain rfl := Except.ok.inj hb
    have hnumbers : Held (if types.allNumbers then [TypeTag.int.bracket] else []) v ↔
        types.allNumbers ∧ v.rank = TypeTag.int.rank := by
      split_ifs with hn <;> simp [hn, bracket_holds_iff]
    have htags : Held (types.tags.map TypeTag.bracket) v ↔ ∃ tag ∈ types.tags, v.rank = tag.rank := by
      simp [Held, bracket_holds_iff]
    rw [unionOf_held (brackets_wellFormed types) hm, TypeSet.brackets, held_append, hnumbers, htags]
    simp [harray]

/-! ## Membership -/

/-- The keys in the bounds of one literal. -/
def LiteralHeld (collator : Option Collator) (v : Value) : Value → Prop
  | .array items => (v == (Value.array items).indexKey collator) = true ∨ (v == firstKey collator items) = true
  | m => ComparisonOp.eq.Accepts (m.indexKey collator) v

lemma literal_held {m : Value} {b : OperandBounds} (h : equalityBounds m index false = .ok b)
    (v : Value) : Held b.1 v ↔ LiteralHeld index.collator v m := by
  by_cases ha : m.isArray = true
  · cases m <;> first | contradiction | exact equalityBounds_array_held h v
  · rw [Bool.not_eq_true] at ha
    rw [equalityBounds_held ha h]
    cases m <;> first | exact Iff.rfl | cases ha

lemma literalBounds_held {literals : List Value} {b : OperandBounds}
    (h : literalBounds index false literals = .ok b) (v : Value) :
    Held b.1 v ↔ ∃ m ∈ literals, LiteralHeld index.collator v m := by
  induction literals generalizing b with
  | nil =>
    cases h
    simp
  | cons m rest ih =>
    rw [literalBounds] at h
    obtain ⟨first, hfirst, h⟩ := exists_of_bind_eq_ok h
    obtain ⟨others, hothers, h⟩ := exists_of_bind_eq_ok h
    obtain rfl := Except.ok.inj h
    rw [held_append, literal_held hfirst, ih hothers]
    simp

/-- The keys in the bounds of a regular expression: texts with its stem, and the expression itself. -/
lemma regexBounds_held {term : RegexTerm} {collated : Bool} {v : Value} :
    Held (term.bounds collated).1 v ↔
      (Stem.ofPattern term.pattern term.flags collated).range.Holds v ∨ (v == term.asValue) = true := by
  simp [RegexTerm.bounds, Interval.point_holds]

/-- **Membership.**  The keys in the bounds of a membership list. -/
theorem membershipBounds_held {members : InList} {b : OperandBounds}
    (h : membershipBounds members index false = .ok b) (v : Value) :
    Held b.1 v ↔ (∃ m ∈ members.literals, LiteralHeld index.collator v m) ∨
      (∃ r ∈ members.regexes, Held (r.bounds index.collator.isSome).1 v) ∨
      members.hasEmptyArray ∧ v = .undefined := by
  rw [membershipBounds] at h
  obtain ⟨literals, hliterals, h⟩ := exists_of_bind_eq_ok h
  obtain ⟨m, hm, h⟩ := exists_of_bind_eq_ok h
  obtain rfl := Except.ok.inj h
  have hempty : Held (if members.hasEmptyArray then [Interval.undefinedPoint false] else []) v ↔
      members.hasEmptyArray ∧ v = .undefined := by
    split_ifs with he <;>
      simp [he, Interval.undefinedPoint, Interval.point_holds, Value.beq_undefined_iff]
  have hregexes : Held ((members.regexes.map (·.bounds index.collator.isSome)).flatMap Prod.fst) v ↔
      ∃ r ∈ members.regexes, Held (r.bounds index.collator.isSome).1 v := by
    simp only [Held, List.mem_flatMap, List.mem_map]
    grind
  have hwf := memberIntervals_wellFormed members index.collator.isSome
    ((literalBounds_yields index false members.literals).of_eq_ok hliterals)
  rw [unionOf_held hwf hm, held_append, held_append, literalBounds_held hliterals, hregexes, hempty,
    or_assoc]

end ScanBounds

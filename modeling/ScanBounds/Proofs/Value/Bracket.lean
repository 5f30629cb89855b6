import ScanBounds.Proofs.Value.Order
import ScanBounds.Value.Extent

/-!
# Brackets and their ends

A bracket is what lies between its two ends: its least value stands below every value of the bracket, its
upper end above, and no value of another bracket fits between the two.  Numbers have ends of their own
inside the bracket, since NaN stands below minus infinity.
-/

namespace ScanBounds

namespace Value

/-! ## Brackets of one value -/

lemma eq_minKey_of_rank {v : Value} (h : v.rank = -1) : v = minKey := by
  cases sameBracket_of_rank_eq (w := minKey) h
  rfl

lemma eq_maxKey_of_rank {v : Value} (h : v.rank = 127) : v = maxKey := by
  cases sameBracket_of_rank_eq (w := maxKey) h
  rfl

lemma eq_null_of_rank {v : Value} (h : v.rank = 5) : v = null := by
  cases sameBracket_of_rank_eq (w := null) h
  rfl

lemma eq_undefined_of_rank {v : Value} (h : v.rank = 0) : v = undefined := by
  cases sameBracket_of_rank_eq (w := undefined) h
  rfl

lemma minKey_le (v : Value) : minKey ≤ v := by
  by_cases h : v.rank = -1
  · rw [eq_minKey_of_rank h]
  · refine (lt_of_rank_lt ?_).le
    cases v <;> simp at h ⊢

lemma le_maxKey (v : Value) : v ≤ maxKey := by
  by_cases h : v.rank = 127
  · rw [eq_maxKey_of_rank h]
  · refine (lt_of_rank_lt ?_).le
    cases v <;> simp at h ⊢

lemma beq_undefined_iff {v : Value} : (v == undefined) = true ↔ v = undefined := by
  constructor
  · intro h
    exact eq_undefined_of_rank (rank_eq_of_beq h)
  · rintro rfl
    rfl

lemma beq_null_iff {v : Value} : (v == null) = true ↔ v = null := by
  constructor
  · intro h
    exact eq_null_of_rank (rank_eq_of_beq h)
  · rintro rfl
    rfl

lemma eq_minKey_of_isMinKey {v : Value} (h : v.isMinKey = true) : v = .minKey := by
  cases v <;> first | rfl | cases h

lemma eq_maxKey_of_isMaxKey {v : Value} (h : v.isMaxKey = true) : v = .maxKey := by
  cases v <;> first | rfl | cases h

lemma eq_null_of_isNull {v : Value} (h : v.isNull = true) : v = .null := by
  cases v <;> first | rfl | cases h

lemma le_minKey_iff {v : Value} : v ≤ .minKey ↔ v = .minKey := by
  constructor
  · intro h
    refine eq_minKey_of_rank (le_antisymm (rank_le_of_le h) ?_)
    exact rank_le_of_le (minKey_le v)
  · rintro rfl
    exact le_refl _

lemma maxKey_le_iff {v : Value} : .maxKey ≤ v ↔ v = .maxKey := by
  constructor
  · intro h
    refine eq_maxKey_of_rank (le_antisymm ?_ (rank_le_of_le h))
    exact rank_le_of_le (le_maxKey v)
  · rintro rfl
    exact le_refl _

lemma exists_lt_iff {w : Value} : (∃ v, v < w) ↔ w.isMinKey = false := by
  by_cases hmin : w.isMinKey = true
  · obtain rfl := eq_minKey_of_isMinKey hmin
    refine iff_of_false ?_ nofun
    rintro ⟨v, hv⟩
    exact (minKey_le v).not_gt hv
  · refine iff_of_true ⟨minKey, ?_⟩ (Bool.not_eq_true _ ▸ hmin)
    by_contra hge
    rw [le_minKey_iff.1 (le_iff_not_lt.2 hge)] at hmin
    exact hmin rfl

lemma exists_gt_iff {w : Value} : (∃ v, w < v) ↔ w.isMaxKey = false := by
  by_cases hmax : w.isMaxKey = true
  · obtain rfl := eq_maxKey_of_isMaxKey hmax
    refine iff_of_false ?_ nofun
    rintro ⟨v, hv⟩
    exact (le_maxKey v).not_gt hv
  · refine iff_of_true ⟨maxKey, ?_⟩ (Bool.not_eq_true _ ▸ hmax)
    by_contra hle
    rw [maxKey_le_iff.1 (le_iff_not_lt.2 hle)] at hmax
    exact hmax rfl

lemma isMaxKey_iff {v : Value} : v.isMaxKey = true ↔ v.toClass = maxKey.toClass := by
  rw [toClass_eq]
  constructor
  · intro h
    cases v <;> first | rfl | cases h
  · intro h
    rw [eq_maxKey_of_rank (rank_eq_of_beq h)]
    rfl

/-! ## Texts and numbers -/

lemma string_lt_string {s t : String} : string s < string t ↔ s.toList < t.toList := by
  rw [← String.lt_iff]
  exact compareOfLessAndEq_eq_lt

lemma string_le_string {s t : String} : string s ≤ string t ↔ ¬t.toList < s.toList := by
  rw [le_iff_not_lt, string_lt_string]

lemma compare_empty_ne_gt (s : String) : compare "" s ≠ .gt :=
  string_le_string.2 (List.not_lt_nil s.toList)

/-- Numbers compare by their quantities. -/
lemma number_le_number {m n : Number} :
    number m ≤ number n ↔ compare m.quantity n.quantity ≠ .gt := by
  rw [← Number.compare_eq]
  rfl

lemma quantity_eq_nan_iff {n : Number} : n.quantity = .nan ↔ n.isNaN = true := by
  cases n with
  | int n => exact iff_of_false nofun nofun
  | long n => exact iff_of_false nofun nofun
  | double d =>
    unfold Number.quantity Number.isNaN Double.quantity
    by_cases hd : d.isNaN = true
    · simp [hd]
    · simp only [hd, Bool.false_eq_true, if_false, iff_false]
      split_ifs <;> simp

lemma quantity_nan : (Number.double .nan).quantity = .nan := by decide

lemma quantity_infinity : (Number.double .infinity).quantity = .infinity := by decide

lemma quantity_negInfinity : (Number.double .negInfinity).quantity = .negInfinity := by decide

lemma nan_le_number (n : Number) : double .nan ≤ number n := by
  rw [double, number_le_number, quantity_nan]
  cases n.quantity <;> exact nofun

lemma number_le_infinity (n : Number) : number n ≤ double .infinity := by
  rw [double, number_le_number, quantity_infinity]
  cases n.quantity <;> exact nofun

/-- Minus infinity is the least number but for NaN. -/
lemma negInfinity_le_number {n : Number} : double .negInfinity ≤ number n ↔ n.isNaN = false := by
  rw [double, number_le_number, quantity_negInfinity, ← Bool.not_eq_true, ← quantity_eq_nan_iff]
  cases n.quantity with
  | nan => exact iff_of_false (fun h => h rfl) (fun h => h rfl)
  | _ => exact iff_of_true nofun nofun

lemma exists_number_of_rank {v : Value} (h : v.rank = 10) : ∃ n, v = number n := by
  cases v <;> simp at h
  exact ⟨_, rfl⟩

lemma isNaN_of_rank_ne {v : Value} (h : v.rank ≠ 10) : v.isNaN = false := by
  cases v <;> first | rfl | simp at h

lemma number_beq_number {m n : Number} :
    (number m == number n) = true ↔ compare m.quantity n.quantity = .eq := by
  rw [← Number.compare_eq]
  exact beq_iff_compare

/-- NaN is equal to NaN only. -/
lemma beq_nan_iff {v w : Value} (hw : w.isNaN = true) : (v == w) = true ↔ v.isNaN = true := by
  obtain ⟨n, rfl⟩ : ∃ n, w = number n := exists_number_of_rank (by
    by_contra hr
    simp [isNaN_of_rank_ne hr] at hw)
  have hn := quantity_eq_nan_iff.2 (show n.isNaN = true from hw)
  by_cases hr : v.rank = 10
  · obtain ⟨m, rfl⟩ := exists_number_of_rank hr
    rw [number_beq_number, hn]
    show _ ↔ m.isNaN = true
    rw [← quantity_eq_nan_iff]
    cases m.quantity with
    | nan => exact iff_of_true rfl rfl
    | _ => exact iff_of_false nofun nofun
  · refine iff_of_false (fun h => hr ?_) (by simp [isNaN_of_rank_ne hr])
    rw [rank_eq_of_beq h, rank_number]

/-- Below NaN there is no other number. -/
lemma isNaN_of_le {v w : Value} (h : v ≤ w) (hr : v.rank = w.rank) (hw : w.isNaN = true) :
    v.isNaN = true := by
  by_cases hv : v.rank = 10
  · obtain ⟨m, rfl⟩ := exists_number_of_rank hv
    obtain ⟨n, rfl⟩ := exists_number_of_rank (hr.symm.trans hv)
    have hn := quantity_eq_nan_iff.2 (show n.isNaN = true from hw)
    refine quantity_eq_nan_iff.1 ?_
    rw [number_le_number, hn] at h
    cases hq : m.quantity <;> rw [hq] at h <;> first | rfl | exact absurd rfl h
  · rw [isNaN_of_rank_ne (hr ▸ hv)] at hw
    cases hw

/-! ## The least value -/

lemma least_tag_le (v : Value) : v.tag.least ≤ v := by
  cases v with
  | number n => cases n <;> exact nan_le_number _
  | string s => exact compare_empty_ne_gt s
  | symbol s => exact compare_empty_ne_gt s
  | object fields => cases fields <;> exact nofun
  | array items => cases items <;> exact nofun
  | binData subtype bytes =>
    show (compare 0 bytes.length).then ((compare 0 subtype).then (compare [] bytes)) ≠ .gt
    have hs : (compare 0 subtype).isLE := Std.isLE_compare.2 UInt8.zero_le
    rcases bytes with - | ⟨b, bytes⟩
    · cases hc : compare 0 subtype <;> simp [hc] at hs ⊢
    · have hl : compare 0 (b :: bytes).length = .lt := Std.compare_eq_lt.2 (by simp)
      rw [hl]
      exact nofun
  | objectId id =>
    refine le_iff_not_lt.2 fun h => ?_
    exact BitVec.not_lt_zero (compareOfLessAndEq_eq_lt.1 h)
  | bool b => cases b <;> exact nofun
  | date millis => exact Ordering.isLE_iff_ne_gt.1 (Std.isLE_compare.2 (Int64.minValue_le millis))
  | timestamp t => exact Ordering.isLE_iff_ne_gt.1 (Std.isLE_compare.2 UInt64.zero_le)
  | regex pattern flags =>
    show (compare "" pattern).then (compare "" flags) ≠ .gt
    have hp := compare_empty_ne_gt pattern
    have hf := compare_empty_ne_gt flags
    cases hc : compare "" pattern <;> simp_all
  | code source => exact compare_empty_ne_gt source
  | codeWithScope source scope =>
    show (compare "" source).then (compareFields [] scope) ≠ .gt
    have hp := compare_empty_ne_gt source
    cases hc : compare "" source <;> cases scope <;> simp_all [compareFields]
  | minKey => exact le_refl _
  | undefined => exact le_refl _
  | null => exact le_refl _
  | maxKey => exact le_refl _

/-- What sorts in one bracket has the ends of that bracket. -/
lemma SameBracket.ends_eq {v w : Value} (h : SameBracket v w) :
    v.tag.least = w.tag.least ∧ v.tag.upper = w.tag.upper ∧
      v.tag.isVariableWidth = w.tag.isVariableWidth := by
  cases h with
  | number m n => cases m <;> cases n <;> exact ⟨rfl, rfl, rfl⟩
  | _ => exact ⟨rfl, rfl, rfl⟩

/-! ## The upper end -/

lemma le_upper_tag {v : Value} (h : v.tag.isVariableWidth = false) : v ≤ v.tag.upper := by
  cases v with
  | number n => cases n <;> exact number_le_infinity _
  | objectId id =>
    refine le_iff_not_lt.2 fun hlt => ?_
    have hlt : BitVec.allOnes 96 < id := compareOfLessAndEq_eq_lt.1 hlt
    rw [BitVec.lt_def, BitVec.toNat_allOnes] at hlt
    have := id.isLt
    omega
  | bool b => cases b <;> exact nofun
  | date millis => exact Ordering.isLE_iff_ne_gt.1 (Std.isLE_compare.2 (Int64.le_maxValue millis))
  | timestamp t =>
    refine Ordering.isLE_iff_ne_gt.1 (Std.isLE_compare.2 ?_)
    have ht := t.toNat_lt
    have hmax : (UInt64.ofNat (Nat.pow 2 64 - 1)).toNat = 0xffffffffffffffff := by decide
    rw [UInt64.le_iff_toNat_le, hmax]
    omega
  | minKey => exact le_refl _
  | undefined => exact le_refl _
  | null => exact le_refl _
  | maxKey => exact le_refl _
  | _ => cases h

end Value

namespace TypeTag

open Value

@[simp] lemma rank_least (tag : TypeTag) : tag.least.rank = tag.rank := by
  cases tag <;> rfl

lemma rank_upper_of_fixed {tag : TypeTag} (h : tag.isVariableWidth = false) :
    tag.upper.rank = tag.rank := by
  cases tag <;> first | rfl | cases h

lemma rank_lt_rank_upper {tag : TypeTag} (h : tag.isVariableWidth = true) :
    tag.rank < tag.upper.rank := by
  cases tag <;> first | decide | cases h

lemma least_le {tag : TypeTag} {v : Value} (h : v.rank = tag.rank) : tag.least ≤ v := by
  have hsame : SameBracket v tag.least := sameBracket_of_rank_eq (by rw [h, rank_least])
  have hleast : tag.least.tag.least = tag.least := by cases tag <;> rfl
  rw [← hleast, ← hsame.ends_eq.1]
  exact least_tag_le v

/-- A bracket without a greatest value ends where the next one starts. -/
lemma lt_upper_iff {tag : TypeTag} (h : tag.isVariableWidth = true) {v : Value} :
    v < tag.upper ↔ v.rank < tag.upper.rank := by
  constructor
  · intro hlt
    refine (rank_le_of_le hlt.le).lt_of_ne fun hr => ?_
    have hupper : tag.upper = tag.upper.tag.least := by
      cases tag <;> first | rfl | cases h
    rw [hupper, ← (sameBracket_of_rank_eq hr).ends_eq.1] at hlt
    exact (least_tag_le v).not_gt hlt
  · exact lt_of_rank_lt

/-- No bracket lies between one without a greatest value and the next. -/
lemma rank_eq_of_lt_rank_upper {tag tag' : TypeTag} (h : tag.isVariableWidth = true)
    (hle : tag.rank ≤ tag'.rank) (hlt : tag'.rank < tag.upper.rank) : tag'.rank = tag.rank := by
  revert hle hlt
  cases tag <;> first | contradiction | (cases tag' <;> decide)

lemma le_upper {tag : TypeTag} {v : Value} (h : v.rank = tag.rank) : v ≤ tag.upper := by
  cases hw : tag.isVariableWidth with
  | true => exact (lt_of_rank_lt (h ▸ rank_lt_rank_upper hw)).le
  | false =>
    have hsame : SameBracket v tag.least := sameBracket_of_rank_eq (by rw [h, rank_least])
    have hupper : tag.least.tag.upper = tag.upper := by cases tag <;> rfl
    have htag : tag.least.tag.isVariableWidth = tag.isVariableWidth := by cases tag <;> rfl
    rw [← hupper, ← hsame.ends_eq.2.1]
    exact le_upper_tag (by rw [hsame.ends_eq.2.2, htag, hw])

/-- **Brackets.**  The values between the ends of a bracket are those of its rank. -/
theorem between_iff {tag : TypeTag} {v : Value} :
    (tag.least ≤ v ∧ if tag.isVariableWidth then v < tag.upper else v ≤ tag.upper) ↔
      v.rank = tag.rank := by
  cases hw : tag.isVariableWidth with
  | true =>
    simp only [if_true, lt_upper_iff hw]
    constructor
    · rintro ⟨hl, hu⟩
      have hl := rank_le_of_le hl
      rw [rank_least] at hl
      exact rank_eq_of_lt_rank_upper hw hl hu
    · intro h
      exact ⟨least_le h, h ▸ rank_lt_rank_upper hw⟩
  | false =>
    simp only [Bool.false_eq_true, if_false]
    constructor
    · rintro ⟨hl, hu⟩
      have hl := rank_le_of_le hl
      have hu := rank_le_of_le hu
      rw [rank_least] at hl
      rw [rank_upper_of_fixed hw] at hu
      omega
    · intro h
      exact ⟨least_le h, le_upper h⟩

end TypeTag

end ScanBounds

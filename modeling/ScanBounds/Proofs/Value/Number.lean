import Mathlib.Algebra.Group.Int.Defs
import Mathlib.Order.Compare
import Mathlib.Tactic.Lemma
import ScanBounds.Value.Number

/-!
# Numbers of different widths compare by quantity

The comparison takes a path of its own for each pair of widths.  All of them agree with the comparison of
quantities (`Number.compare_eq`), which is the only form that later proofs use.  The path that needs an
argument is that of an integer against a double: where the whole parts differ, what is behind the point is
too little to turn the order.
-/

namespace ScanBounds

open Double (unitsPerOne)

/-! ## Quantities -/

namespace Quantity

lemma compare_finite (m n : Int) : compare (finite m) (finite n) = compare m n := rfl

lemma compare_swap (a b : Quantity) : (compare a b).swap = compare b a := by
  cases a <;> cases b <;> try rfl
  rw [compare_finite, compare_finite]
  exact Std.OrientedOrd.eq_swap.symm

lemma eq_of_compare_eq {a b : Quantity} (h : compare a b = .eq) : a = b := by
  cases a <;> cases b <;> first | cases h | skip
  case finite.finite m n =>
    rw [compare_finite] at h
    rw [Std.LawfulEqOrd.eq_of_compare h]
  all_goals rfl

lemma unitsPerOne_pos : (0 : Int) < unitsPerOne := by decide +kernel

/-- Integers are compared as what they denote. -/
lemma compare_ofInt (m n : Int) : compare (ofInt m) (ofInt n) = compare m n := by
  have hpos := unitsPerOne_pos
  rw [ofInt, ofInt, compare_finite]
  rcases Int.lt_trichotomy m n with h | rfl | h
  · rw [Std.compare_eq_lt.2 h, Std.compare_eq_lt.2 (Int.mul_lt_mul_of_pos_right h hpos)]
  · rw [Std.compare_self, Std.compare_self]
  · rw [Std.compare_eq_gt.2 h, Std.compare_eq_gt.2 (Int.mul_lt_mul_of_pos_right h hpos)]

end Quantity

/-! ## Whole parts -/

namespace Double

lemma quantity_twoPow63 : twoPow63.quantity = .ofInt (2 ^ 63) := by decide +kernel

lemma quantity_negate_twoPow63 : twoPow63.negate.quantity = .ofInt (-2 ^ 63) := by decide +kernel

/-- A finite double is its whole part and what is behind the point. -/
lemma scaled_eq (d : Double) : d.scaled = d.scaled.tdiv unitsPerOne * unitsPerOne + d.fraction := by
  rw [fraction, Int.mul_comm, Int.mul_tdiv_add_tmod]

lemma fraction_lt (d : Double) : d.fraction < unitsPerOne := Int.tmod_lt_of_pos _ Quantity.unitsPerOne_pos

lemma lt_fraction (d : Double) : -unitsPerOne < d.fraction := Int.lt_tmod_of_pos _ Quantity.unitsPerOne_pos

/-- The whole part of a double in the range of integers is an integer of 64 bits. -/
lemma toInt_toInt64 {d : Double} (hnan : d.isNaN = false) (hinf : d.isInfinite = false)
    (hlow : -2 ^ 63 * unitsPerOne ≤ d.scaled) (hhigh : d.scaled < 2 ^ 63 * unitsPerOne) :
    d.toInt64.toInt = d.scaled.tdiv unitsPerOne := by
  have hpos := Quantity.unitsPerOne_pos
  have hge : -2 ^ 63 ≤ d.scaled.tdiv unitsPerOne := by
    have h := Int.tdiv_le_tdiv hpos hlow
    rwa [Int.mul_tdiv_cancel _ (Int.ne_of_gt hpos)] at h
  have hlt : d.scaled.tdiv unitsPerOne < 2 ^ 63 := by
    rcases Int.lt_or_le d.scaled 0 with hneg | hnonneg
    · have h := Int.tdiv_le_tdiv hpos (Int.le_of_lt hneg)
      rw [Int.zero_tdiv] at h
      omega
    · rw [Int.tdiv_eq_ediv_of_nonneg hnonneg]
      exact Int.ediv_lt_of_lt_mul hpos hhigh
  have hclamp : max Int64.minValue.toInt (min Int64.maxValue.toInt (d.scaled.tdiv unitsPerOne)) =
      d.scaled.tdiv unitsPerOne := by
    rw [Int64.toInt_minValue, Int64.toInt_maxValue]
    omega
  rw [toInt64, hnan, hinf]
  simp only [Bool.false_eq_true, if_false, hclamp]
  exact Int64.toInt_ofInt_of_le hge hlt

end Double

namespace Number

lemma compare_int64 (m n : Int64) : compare m n = compare m.toInt n.toInt := by
  rcases Int.lt_trichotomy m.toInt n.toInt with h | h | h
  · rw [Std.compare_eq_lt.2 h, Std.compare_eq_lt.2 (Int64.lt_iff_toInt_lt.2 h)]
  · rw [h, Int64.toInt_inj.1 h, Std.compare_self, Std.compare_self]
  · rw [Std.compare_eq_gt.2 h, Std.compare_eq_gt.2 (Int64.lt_iff_toInt_lt.2 h)]

/-- Integers that differ from the whole part are off by one at least, and less than one is behind the
point. -/
lemma compare_whole_then_fraction (n : Int) (d : Double) :
    (compare n (d.scaled.tdiv unitsPerOne)).then (compare 0 d.fraction) = compare (n * unitsPerOne) d.scaled := by
  have hpos := Quantity.unitsPerOne_pos
  have heq := d.scaled_eq
  have hhigh := d.fraction_lt
  have hlow := d.lt_fraction
  generalize d.scaled.tdiv unitsPerOne = whole at heq ⊢
  generalize d.fraction = fraction at heq hhigh hlow ⊢
  rcases Int.lt_trichotomy n whole with h | rfl | h
  · have hstep : (n + 1) * unitsPerOne ≤ whole * unitsPerOne :=
      Int.mul_le_mul_of_nonneg_right h (Int.le_of_lt hpos)
    have hlt : n * unitsPerOne < d.scaled := by
      rw [Int.add_mul] at hstep
      omega
    rw [Std.compare_eq_lt.2 h, Std.compare_eq_lt.2 hlt]
    rfl
  · rw [Std.compare_self, heq]
    rcases Int.lt_trichotomy 0 fraction with h | rfl | h
    · rw [Ordering.then, Std.compare_eq_lt.2 h, Std.compare_eq_lt.2]
      omega
    · rw [Int.add_zero, Std.compare_self, Std.compare_self]
      rfl
    · rw [Ordering.then, Std.compare_eq_gt.2 h, Std.compare_eq_gt.2]
      omega
  · have hstep : (whole + 1) * unitsPerOne ≤ n * unitsPerOne :=
      Int.mul_le_mul_of_nonneg_right h (Int.le_of_lt hpos)
    have hgt : d.scaled < n * unitsPerOne := by
      rw [Int.add_mul] at hstep
      omega
    rw [Std.compare_eq_gt.2 h, Std.compare_eq_gt.2 hgt]
    rfl

/-- An integer compares with a double by what the two denote. -/
theorem compareToDouble_eq (n : Int64) (d : Double) :
    compareToDouble n d = compare (Quantity.ofInt n.toInt) d.quantity := by
  have hpos := Quantity.unitsPerOne_pos
  have hlow := n.le_toInt
  have hhigh := n.toInt_lt
  have habove : compare d .twoPow63 = compare d.quantity (.ofInt (2 ^ 63)) := by
    rw [← Double.quantity_twoPow63]
    rfl
  have hbelow : compare d Double.twoPow63.negate = compare d.quantity (.ofInt (-2 ^ 63)) := by
    rw [← Double.quantity_negate_twoPow63]
    rfl
  unfold compareToDouble
  rw [habove, hbelow]
  by_cases hnan : d.isNaN = true
  · simp only [hnan, if_true, Double.quantity]
    rfl
  rw [Bool.not_eq_true] at hnan
  simp only [hnan, Bool.false_eq_true, if_false]
  by_cases hinf : d.isInfinite = true
  · have hquantity : d.quantity = if d.isNegative then .negInfinity else .infinity := by
      simp only [Double.quantity, hnan, hinf, Bool.false_eq_true, if_false, if_true]
    rw [hquantity]
    cases d.isNegative <;> rfl
  rw [Bool.not_eq_true] at hinf
  have hquantity : d.quantity = .finite d.scaled := by
    simp only [Double.quantity, hnan, hinf, Bool.false_eq_true, if_false]
  rw [hquantity, Quantity.ofInt, Quantity.ofInt, Quantity.ofInt, Quantity.compare_finite, Quantity.compare_finite,
    Quantity.compare_finite]
  have hmul {k l : Int} (h : k ≤ l) : k * unitsPerOne ≤ l * unitsPerOne :=
    Int.mul_le_mul_of_nonneg_right h (Int.le_of_lt hpos)
  split_ifs with h₁ h₂
  · have hle : 2 ^ 63 * unitsPerOne ≤ d.scaled := Std.isGE_compare.1 h₁
    have hlt := hmul (show n.toInt + 1 ≤ 2 ^ 63 from hhigh)
    rw [Int.add_mul] at hlt
    rw [Std.compare_eq_lt.2]
    omega
  · have hlt : d.scaled < -2 ^ 63 * unitsPerOne := Std.compare_eq_lt.1 (Ordering.isLT_iff_eq_lt.1 h₂)
    have hle := hmul hlow
    rw [Std.compare_eq_gt.2]
    omega
  · have hlt : d.scaled < 2 ^ 63 * unitsPerOne := Int.not_le.1 fun h => h₁ (Std.isGE_compare.2 h)
    have hge : -2 ^ 63 * unitsPerOne ≤ d.scaled :=
      Int.not_lt.1 fun h => h₂ (Ordering.isLT_iff_eq_lt.2 (Std.compare_eq_lt.2 h))
    rw [compare_int64, Double.toInt_toInt64 hnan hinf hge hlt, compare_whole_then_fraction]

/-- **Numbers compare by quantity.**  Whatever their widths, the order of two numbers is that of the
quantities they denote. -/
theorem compare_eq (m n : Number) : compare m n = compare m.quantity n.quantity := by
  show m.compare n = _
  have hint (k l : Int64) : compare k l = compare (Quantity.ofInt k.toInt) (.ofInt l.toInt) := by
    rw [compare_int64, Quantity.compare_ofInt]
  cases m <;> cases n <;>
    simp only [Number.compare, integer, quantity, hint, compareToDouble_eq, Quantity.compare_swap,
      Int32.toInt_toInt64]
  -- two doubles
  rfl

end Number

end ScanBounds

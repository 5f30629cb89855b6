import Mathlib.Data.EReal.Basic
import Mathlib.Tactic.FieldSimp
import Mathlib.Tactic.Ring
import ScanBounds.Proofs.Value.Bracket

/-!
# What numbers denote

Integers denote themselves and doubles the extended real that IEEE 754 assigns to their sign, exponent and
fraction.  Only NaN denotes nothing; it takes the place below everything else.  Quantities, by which numbers
are compared, are these values counted in units of 2⁻¹⁰⁷⁴, so the order of numbers is the exact order of what
they denote.  With that the order of values is described in full: `Value.compare_total_order`.
-/

namespace ScanBounds

/-- The absolute value of a finite double, as a real.  Subnormal doubles, those with exponent zero, have no
hidden bit. -/
noncomputable def Double.absValue (d : Double) : ℝ :=
  if d.exponentField = 0 then (d.fractionField : ℝ) / 2 ^ 52 * 2 ^ (-1022 : ℤ)
  else (1 + (d.fractionField : ℝ) / 2 ^ 52) * 2 ^ ((d.exponentField : ℤ) - 1023)

/-- What a number denotes, with a place for NaN below all extended reals. -/
noncomputable def Number.meaning : Number → WithBot EReal
  | int n => ((n.toInt : ℝ) : EReal)
  | long n => ((n.toInt : ℝ) : EReal)
  | double d =>
    if d.isNaN then ⊥
    else if d.isInfinite then if d.isNegative then (⊥ : EReal) else (⊤ : EReal)
    else ((if d.isNegative then -d.absValue else d.absValue : ℝ) : EReal)

/-! ## Quantities count units -/

/-- The real number of so many units. -/
noncomputable def unitsToReal (n : Int) : ℝ := n * 2 ^ (-1074 : ℤ)

lemma unitsToReal_lt {m n : Int} (h : m < n) : unitsToReal m < unitsToReal n := by
  have hunit : (0 : ℝ) < 2 ^ (-1074 : ℤ) := zpow_pos two_pos _
  exact mul_lt_mul_of_pos_right (Int.cast_lt.2 h) hunit

lemma natCast_pow_two (k : ℕ) : ((Nat.pow 2 k : ℕ) : ℝ) = 2 ^ (k : ℤ) := by
  rw [Nat.pow_eq, Nat.cast_pow, zpow_natCast, Nat.cast_two]

lemma unitsToReal_ofInt (n : Int) : unitsToReal (n * Double.unitsPerOne) = n := by
  have hone : ((Double.unitsPerOne : ℕ) : ℝ) * 2 ^ (-1074 : ℤ) = 1 := by
    have hcast : ((Double.unitsPerOne : ℕ) : ℝ) = 2 ^ ((1074 : ℕ) : ℤ) := by
      unfold Double.unitsPerOne
      generalize 1074 = k
      exact natCast_pow_two k
    rw [hcast, ← zpow_add₀ two_ne_zero]
    exact zpow_zero 2
  rw [unitsToReal, Int.cast_mul, Int.cast_natCast, mul_assoc, hone, mul_one]

lemma unitsToReal_magnitude (d : Double) : unitsToReal d.magnitude = d.absValue := by
  have hsplit (e : ℤ) : (2 : ℝ) ^ (e - 52) = 2 ^ e / 2 ^ 52 := by
    rw [zpow_sub₀ two_ne_zero, zpow_ofNat]
  rw [unitsToReal, Int.cast_natCast, Double.magnitude, Nat.cast_mul, natCast_pow_two, mul_assoc,
    ← zpow_add₀ two_ne_zero, Double.significand, Double.shift, Double.absValue]
  split_ifs with h
  · have hexp : (((d.exponentField - 1 : ℕ) : ℤ) + -1074) = -1022 - 52 := by omega
    rw [hexp, hsplit]
    ring
  · have hexp : (((d.exponentField - 1 : ℕ) : ℤ) + -1074) = (d.exponentField : ℤ) - 1023 - 52 := by omega
    have hhidden : ((Nat.pow 2 52 : ℕ) : ℝ) = 2 ^ 52 := by
      rw [natCast_pow_two]
      exact zpow_natCast 2 52
    rw [hexp, hsplit, Nat.cast_add, hhidden]
    field_simp

lemma unitsToReal_scaled (d : Double) :
    unitsToReal d.scaled = if d.isNegative then -d.absValue else d.absValue := by
  unfold Double.scaled
  split_ifs
  · rw [← unitsToReal_magnitude, unitsToReal, unitsToReal, Int.cast_neg, neg_mul]
  · exact unitsToReal_magnitude d

namespace Quantity

/-- What is counted by a quantity. -/
noncomputable def meaning : Quantity → WithBot EReal
  | nan => ⊥
  | negInfinity => (⊥ : EReal)
  | finite n => (unitsToReal n : EReal)
  | infinity => (⊤ : EReal)

lemma meaning_lt {a b : Quantity} (h : compare a b = .lt) : a.meaning < b.meaning := by
  cases a <;> cases b <;> first | cases h | skip
  case finite.finite m n =>
    rw [compare_finite, Std.compare_eq_lt] at h
    exact WithBot.coe_lt_coe.2 (EReal.coe_lt_coe_iff.2 (unitsToReal_lt h))
  case negInfinity.finite n => exact WithBot.coe_lt_coe.2 (EReal.bot_lt_coe _)
  case negInfinity.infinity => exact WithBot.coe_lt_coe.2 bot_lt_top
  case finite.infinity n => exact WithBot.coe_lt_coe.2 (EReal.coe_lt_top _)
  -- NaN against the others
  all_goals exact WithBot.bot_lt_coe _

/-- Counting units keeps the order. -/
lemma compare_eq_compare_meaning (a b : Quantity) : compare a b = compare a.meaning b.meaning := by
  cases h : compare a b with
  | lt => exact (compare_lt_iff_lt.2 (meaning_lt h)).symm
  | eq => rw [eq_of_compare_eq h, compare_eq_iff_eq.2 rfl]
  | gt =>
    have hback : compare b a = .lt := by rw [← compare_swap, h]; rfl
    exact (compare_gt_iff_gt.2 (meaning_lt hback)).symm

end Quantity

namespace Number

lemma meaning_eq (n : Number) : n.meaning = n.quantity.meaning := by
  cases n with
  | int n => rw [meaning, quantity, Quantity.ofInt, Quantity.meaning, unitsToReal_ofInt]
  | long n => rw [meaning, quantity, Quantity.ofInt, Quantity.meaning, unitsToReal_ofInt]
  | double d =>
    simp only [meaning, quantity, Double.quantity]
    split_ifs <;> simp only [Quantity.meaning, unitsToReal_scaled, *, Bool.false_eq_true, if_true, if_false]

/-- Numbers compare by what they denote. -/
lemma compare_eq_compare_meaning (m n : Number) : compare m n = compare m.meaning n.meaning := by
  rw [compare_eq, Quantity.compare_eq_compare_meaning, meaning_eq, meaning_eq]

end Number

/-! ## The order of values -/

namespace Value

/-- NaN is equal to itself and below every other number. -/
lemma compare_nan {m : Number} (hm : m.isNaN = true) (n : Number) :
    (number m).compare (number n) = if n.isNaN then .eq else .lt := by
  show compare m n = _
  rw [Number.compare_eq, quantity_eq_nan_iff.2 hm]
  split_ifs with hn
  · rw [quantity_eq_nan_iff.2 hn]
    rfl
  · rw [← quantity_eq_nan_iff] at hn
    cases hq : n.quantity with
    | nan => exact absurd hq hn
    | _ => rfl

/-- **The order of values.**  Values of any nesting are totally ordered up to equality, and equality is what
the order leaves indistinguishable.  Numbers of whatever widths are in the exact order of what they denote:
nothing is rounded, the two zeros are equal, and NaN is equal to itself and below all others. -/
theorem compare_total_order :
    (∀ v : Value, v.compare v = .eq) ∧
    (∀ v w : Value, w.compare v = (v.compare w).swap) ∧
    (∀ u v w : Value, u.compare v = .lt → v.compare w = .lt → u.compare w = .lt) ∧
    (∀ u v w : Value, u.compare v = .eq → u.compare w = v.compare w) ∧
    (∀ u v w : Value, v.compare w = .eq → u.compare v = u.compare w) ∧
    (∀ v w : Value, (v == w) = true ↔ v.compare w = .eq) ∧
    (∀ m n : Number, (number m).compare (number n) = compare m.meaning n.meaning) ∧
    (double Double.zero.negate).compare (double .zero) = .eq ∧
    ∀ m n : Number, m.isNaN = true → (number m).compare (number n) = if n.isNaN then .eq else .lt := by
  refine ⟨fun v => ?_, fun v w => compare_swap w v, fun u v w huv hvw => ?_, fun u v w h => ?_,
    fun u v w h => ?_, fun v w => beq_iff_compare, fun m n => ?_, ?_, fun m n hm => ?_⟩
  · show compare v v = .eq
    exact Std.compare_self
  · show compare u w = .lt
    exact Std.TransCmp.lt_trans huv hvw
  · show compare u w = compare v w
    exact Std.TransCmp.congr_left h
  · show compare u v = compare u w
    exact Std.TransCmp.congr_right h
  · exact Number.compare_eq_compare_meaning m n
  · decide +kernel
  · exact compare_nan hm n

/-- Arrays of objects whose fields are of different widths: `2 ^ 53 + 1` is above the double `2 ^ 53`, and the
integer `2 ^ 53` is equal to it. -/
theorem compare_total_order_of_nested :
    let nested (n : Number) : Value := .array [.object [("a", .number n)], .null]
    let u := nested (.double .nan)
    let v := nested (.double ⟨0x4340000000000000⟩)
    let v' := nested (.long 9007199254740992)
    let w := nested (.long 9007199254740993)
    u.compare v = .lt ∧ v.compare w = .lt ∧ u.compare w = .lt ∧ v.compare v' = .eq ∧
      v.compare w = v'.compare w ∧ u.compare v = u.compare v' := by
  intro nested u v v' w
  obtain ⟨-, -, htrans, hleft, hright, -⟩ := compare_total_order
  have huv : u.compare v = .lt := by decide +kernel
  have hvw : v.compare w = .lt := by decide +kernel
  have heq : v.compare v' = .eq := by decide +kernel
  exact ⟨huv, hvw, htrans u v w huv hvw, heq, hleft v v' w heq, hright u v v' heq⟩

end Value

end ScanBounds

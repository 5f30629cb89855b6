/-!
# Doubles as exact numbers

A `Double` is the sixty-four bits of an IEEE 754 double.  Nothing here computes with a floating point
unit: every finite double is a whole multiple of 2⁻¹⁰⁷⁴, so a double *is* an integer in that unit, and
comparison, truncation and rounding are integer arithmetic.  `Quantity` is what a number of any width
denotes, and carries the one order that all numbers share.  Powers are spelled `Nat.pow`, which is the
same function wherever it is read.
-/

namespace ScanBounds

structure Double where
  bits : UInt64
deriving DecidableEq, Repr, Inhabited

namespace Double

/-- How many units of 2⁻¹⁰⁷⁴ make one. -/
def unitsPerOne : Nat := Nat.pow 2 1074

/-- The biased exponent, eleven bits. -/
def exponentField (d : Double) : Nat := d.bits.toNat / Nat.pow 2 52 % Nat.pow 2 11

/-- The stored part of the significand, fifty-two bits. -/
def fractionField (d : Double) : Nat := d.bits.toNat % Nat.pow 2 52

def isNegative (d : Double) : Bool := Nat.pow 2 63 ≤ d.bits.toNat

def isNaN (d : Double) : Bool := d.exponentField == 2047 && d.fractionField != 0

def isInfinite (d : Double) : Bool := d.exponentField == 2047 && d.fractionField == 0

/-- The integer significand; subnormals have no hidden bit. -/
def significand (d : Double) : Nat :=
  if d.exponentField = 0 then d.fractionField else Nat.pow 2 52 + d.fractionField

/-- The power of two, above 2⁻¹⁰⁷⁴, that the significand counts. -/
def shift (d : Double) : Nat := d.exponentField - 1

/-- The absolute value of a finite double in units of 2⁻¹⁰⁷⁴. -/
def magnitude (d : Double) : Nat := d.significand * Nat.pow 2 d.shift

/-- The value of a finite double in units of 2⁻¹⁰⁷⁴; both zeros have value zero. -/
def scaled (d : Double) : Int := if d.isNegative then -d.magnitude else d.magnitude

def negate (d : Double) : Double := ⟨d.bits ^^^ 0x8000000000000000⟩

def zero : Double := ⟨0⟩

/-- One more than the greatest 64-bit integer. -/
def twoPow63 : Double := ⟨0x43e0000000000000⟩

def infinity : Double := ⟨0x7ff0000000000000⟩

def negInfinity : Double := ⟨0xfff0000000000000⟩

/-- The quiet NaN with an empty payload. -/
def nan : Double := ⟨0x7ff8000000000000⟩

def isZero (d : Double) : Bool := d.magnitude == 0

/-! ## Rounding -/

/-- `num / den` to the nearest integer, a half to the even one. -/
def roundHalfEven (num den : Nat) : Nat :=
  let q := num / den
  let r := num % den
  if 2 * r < den then q else if den < 2 * r then q + 1 else q + q % 2

/-- The exponent of the leading binary digit of `num / den`. -/
def binaryExponent (num den : Nat) : Int :=
  let estimate : Int := (num.log2 : Int) - den.log2
  let reaches : Bool :=
    if 0 ≤ estimate then den * Nat.pow 2 estimate.toNat ≤ num else den ≤ num * Nat.pow 2 (-estimate).toNat
  if reaches then estimate else estimate - 1

/-- The double nearest to the positive ratio `num / den`, an exact half going to the even significand.
Ratios from half a step above the largest double on give infinity. -/
def nearest (num den : Nat) : Double :=
  if num = 0 then zero
  else
    let unit : Int := max (binaryExponent num den - 52) (-1074)
    let m :=
      if 0 ≤ unit then roundHalfEven num (den * Nat.pow 2 unit.toNat)
      else roundHalfEven (num * Nat.pow 2 (-unit).toNat) den
    -- the hidden bit of a normal significand, and a carry to 2⁵³, count up the exponent field
    let code := (unit + 1074).toNat * Nat.pow 2 52 + m
    if 2047 * Nat.pow 2 52 ≤ code then infinity else ⟨UInt64.ofNat code⟩

/-- The double nearest to `digits · 10 ^ exponent`. -/
def ofDecimal (digits : Nat) (exponent : Int) : Double :=
  if digits = 0 then zero
  else if 0 ≤ exponent then
    -- 10 ^ 310 is beyond every double
    nearest (digits * Nat.pow 10 (min exponent.toNat 310)) 1
  else
    let places := (-exponent).toNat
    -- when the places outnumber the digits by 330, the ratio is below half the least double
    if (Nat.toDigits 10 digits).length + 330 < places then zero else nearest digits (Nat.pow 10 places)

/-- The rounded product of two finite doubles, signs aside. -/
def mul (a b : Double) : Double := nearest (a.magnitude * b.magnitude) (Nat.pow 2 2148)

/-- The rounded ratio of two finite doubles, signs aside. -/
def div (a b : Double) : Double := nearest a.magnitude b.magnitude

def ofNat (n : Nat) : Double := nearest n 1

/-! ## Integers -/

/-- The whole part, toward zero; NaN has the least `Int64`, and values out of range the nearest end of
the range. -/
def toInt64 (d : Double) : Int64 :=
  if d.isNaN then Int64.minValue
  else if d.isInfinite then if d.isNegative then Int64.minValue else Int64.maxValue
  else
    Int64.ofInt (max Int64.minValue.toInt (min Int64.maxValue.toInt (d.scaled.tdiv unitsPerOne)))

/-- What a finite double has behind the point, in units of 2⁻¹⁰⁷⁴ and with the sign of the double. -/
def fraction (d : Double) : Int := d.scaled.tmod unitsPerOne

end Double

/-! ## What a number denotes -/

/-- The values that numbers denote.  A finite one is counted in units of 2⁻¹⁰⁷⁴, of which integers are
multiples too. -/
inductive Quantity where
  | nan
  | negInfinity
  | finite (scaled : Int)
  | infinity
deriving DecidableEq, Repr

namespace Quantity

/-- Where the four kinds of quantity stand to each other. -/
def rank : Quantity → Nat
  | nan => 0
  | negInfinity => 1
  | finite _ => 2
  | infinity => 3

/-- NaN is below every other quantity, so that the order is total. -/
protected def compare : Quantity → Quantity → Ordering
  | finite m, finite n => Ord.compare m n
  | a, b => Ord.compare a.rank b.rank

instance : Ord Quantity := ⟨Quantity.compare⟩

def ofInt (n : Int) : Quantity := finite (n * Double.unitsPerOne)

end Quantity

def Double.quantity (d : Double) : Quantity :=
  if d.isNaN then .nan
  else if d.isInfinite then if d.isNegative then .negInfinity else .infinity
  else .finite d.scaled

/-- Doubles compare by what they denote, so the two zeros are equal and NaN is below all others. -/
instance : Ord Double := ⟨fun a b => compare a.quantity b.quantity⟩

end ScanBounds

import ScanBounds.Json.Basic

/-!
# Numerals

A numeral is read in two steps.  `Numeral.ofChars?` takes it apart and refuses what is no JSON number:
a leading zero before another digit, a point or exponent mark with no digit after it.  `Numeral.value?`
then says which number it is.

The second step does not round correctly, and is specified exactly for that reason.  The digits are
gathered in a word of sixty-four bits; a digit that no longer fits counts only as a power of ten in the
whole part, and not at all after the point.  The word becomes a double, and *one* rounded product or
ratio with the double nearest to a power of ten finishes the number.
-/

namespace ScanBounds.Json

structure Numeral where
  negative : Bool
  whole : List Char
  /-- Digits after the point, if there is a point. -/
  fraction : Option (List Char)
  /-- Sign and digits after the exponent mark, if there is one. -/
  exponent : Option (Bool × List Char)

namespace Numeral

/-! ## Taking a numeral apart -/

/-- The exponent part; the text must end with its digits. -/
def exponentOfChars? : List Char → Option (Bool × List Char)
  | [] => none
  | c :: rest =>
    let (negative, digits) := if c = '-' then (true, rest) else if c = '+' then (false, rest) else (false, c :: rest)
    if digits.isEmpty || !digits.all Char.isDigit then none else some (negative, digits)

/-- What follows the whole part and perhaps the fraction. -/
def withTail? (negative : Bool) (whole : List Char) (fraction : Option (List Char)) :
    List Char → Option Numeral
  | [] => some ⟨negative, whole, fraction, none⟩
  | c :: rest =>
    if c = 'e' || c = 'E' then
      (exponentOfChars? rest).map fun exponent => ⟨negative, whole, fraction, some exponent⟩
    else none

/-- Reads the whole text as one numeral. -/
def ofChars? (chars : List Char) : Option Numeral :=
  let negative := chars.head? == some '-'
  let chars := if negative then chars.drop 1 else chars
  let whole := chars.takeWhile Char.isDigit
  let rest := chars.dropWhile Char.isDigit
  if whole.isEmpty || (whole.head? == some '0' && 1 < whole.length) then none
  else
    match rest with
    | '.' :: rest =>
      let fraction := rest.takeWhile Char.isDigit
      if fraction.isEmpty then none
      else withTail? negative whole (some fraction) (rest.dropWhile Char.isDigit)
    | rest => withTail? negative whole none rest

/-! ## The number that a numeral stands for -/

def digitValue (c : Char) : Nat := c.toNat - '0'.toNat

/-- The number written by decimal digits. -/
def digitsValue (digits : List Char) : Nat :=
  digits.foldl (fun n c => 10 * n + digitValue c) 0

/-- Appends digits to a significand until one would take it out of sixty-four bits; gives the
significand and the digits that are left. -/
def gather (significand : Nat) : List Char → Nat × List Char
  | [] => (significand, [])
  | c :: rest =>
    let next := 10 * significand + digitValue c
    if next < Nat.pow 2 64 then gather next rest else (significand, c :: rest)

/-- The double nearest to `10 ^ n`, for `n` up to 308. -/
def tenPower (n : Nat) : Double := Double.ofNat (Nat.pow 10 n)

/-- `value · 10 ^ exponent` with one rounding; `none` on overflow.  Below 10⁻³⁰⁸ the value is first divided
by 10³⁰⁸; a second such division would leave nothing of any significand. -/
def scale? (value : Double) (exponent : Int) : Option Double :=
  if exponent.natAbs ≤ 308 then
    if 0 ≤ exponent then
      let product := value.mul (tenPower exponent.toNat)
      if product.isInfinite then none else some product
    else some (value.div (tenPower exponent.natAbs))
  else if value.isZero then some value
  else if 0 ≤ exponent then none
  else if exponent.natAbs ≤ 616 then
    some ((value.div (tenPower 308)).div (tenPower (exponent.natAbs - 308)))
  else some Double.zero

/-- The double of a numeral that has a point, an exponent or too many digits. -/
def double? (numeral : Numeral) : Option Double :=
  let (significand, beyond) := gather 0 numeral.whole
  let fraction := numeral.fraction.getD []
  let (significand, dropped) := gather significand fraction
  let point : Int := beyond.length - ((fraction.length : Int) - dropped.length)
  let unsigned :=
    match numeral.exponent with
    | none => scale? (Double.ofNat significand) point
    | some (down, digits) =>
      let exponent := digitsValue digits
      if exponent < Nat.pow 2 31 then
        scale? (Double.ofNat significand) (if down then point - exponent else point + exponent)
      else if significand = 0 || down then some Double.zero
      else none
  unsigned.map fun d => if numeral.negative then d.negate else d

/-- A numeral of digits alone is a whole number if its range allows, and `-0` is none. -/
def value? (numeral : Numeral) : Option Json :=
  let n := digitsValue numeral.whole
  if numeral.fraction.isNone && numeral.exponent.isNone then
    if !numeral.negative && n < Nat.pow 2 64 then some (.int n)
    else if numeral.negative && 0 < n && n ≤ Nat.pow 2 63 then some (.int (-n))
    else numeral.double?.map .double
  else numeral.double?.map .double

end Numeral

end ScanBounds.Json

import ScanBounds.Numeric.Double

/-!
# The shortest decimal text of a double

A double stands for every real that rounds to it, its *basin*.  Its text has as few digits as any
decimal in the basin, and among the decimals of that length it is the one nearest to the double.  For
one digit, two digits, … the only candidates are the double's two neighbours on the decimal grid of
that length: when any point of the grid lies in the basin, one of these two does.

How the digits are then laid out is a matter of the format, and `Layout` lists the choices.
-/

namespace ScanBounds

namespace Double

/-- The basin of a finite positive double and the double itself, as numerators over one denominator.
A double that starts a new power of two is closer to its lower neighbour. -/
structure Basin where
  low : Nat
  value : Nat
  high : Nat
  den : Nat
  /-- The ends round to the double themselves when its significand is even. -/
  closed : Bool

def basin (d : Double) : Basin :=
  let m := d.significand
  let unit : Int := (d.shift : Int) - 1076
  let factor := Nat.pow 2 unit.toNat
  let below := if m = Nat.pow 2 52 && 1 < d.exponentField then 1 else 2
  { low := (4 * m - below) * factor
    value := 4 * m * factor
    high := (4 * m + 2) * factor
    den := Nat.pow 2 (-unit).toNat
    closed := m % 2 == 0 }

/-- Whether the basin holds `p / q`. -/
def Basin.holds (b : Basin) (p q : Nat) : Bool :=
  if b.closed then b.low * q ≤ p * b.den && p * b.den ≤ b.high * q
  else b.low * q < p * b.den && p * b.den < b.high * q

/-- Whether `10 ^ e ≤ num / den`. -/
def tenPowerLE (e : Int) (num den : Nat) : Bool :=
  Nat.pow 10 e.toNat * den ≤ num * Nat.pow 10 (-e).toNat

/-- The exponent of the leading decimal digit of `num / den`. -/
def decimalExponent (num den : Nat) : Int :=
  -- 1233 / 4096 is a little less than the decimal logarithm of two
  let estimate := (binaryExponent num den * 1233).fdiv 4096
  if !tenPowerLE estimate num den then estimate - 1
  else if tenPowerLE (estimate + 1) num den then estimate + 1
  else estimate

/-- Which of two decimals is taken when both are equally near. -/
inductive Tie where
  | up
  | even
deriving DecidableEq, Repr

/-- A neighbour of the value on the grid `10 ^ exponent` that lies in the basin, the nearer one if both
do. -/
def onGrid? (b : Basin) (tie : Tie) (exponent : Int) : Option Nat :=
  let p := Nat.pow 10 exponent.toNat
  let q := Nat.pow 10 (-exponent).toNat
  -- the grid point k is k * p / q, so the value is num / den steps from zero
  let num := b.value * q
  let den := b.den * p
  let k := num / den
  let r := num % den
  match b.holds (k * p) q, b.holds ((k + 1) * p) q with
  | false, false => none
  | true, false => some k
  | false, true => some (k + 1)
  | true, true =>
    if 2 * r < den then some k
    else if den < 2 * r then some (k + 1)
    else if tie = .even && k % 2 = 0 then some k
    else some (k + 1)

/-- The digits of a finite positive double and the exponent of the leading one. -/
def shortest (tie : Tie) (d : Double) : List Char × Int :=
  let b := d.basin
  let e := decimalExponent b.value b.den
  let found := (List.range 17).findSome? fun (n : Nat) =>
    (onGrid? b tie (e - n)).map fun k =>
      let digits := Nat.toDigits 10 k
      -- a neighbour above may have reached the next power of ten
      (digits.take (n + 1), e + (digits.length - (n + 1) : Nat))
  found.getD (['0'], 0)

end Double

/-! ## Laying the digits out -/

/-- The choices of a format that writes doubles: which decimal a tie goes to, the exponents of the leading
digit for which a number is written without an exponent, and whether an exponent of zero or more is written
with a sign. -/
structure Layout where
  tie : Double.Tie
  leastPlain : Int
  greatestPlain : Int
  plusSign : Bool

namespace Layout

/-- Digits around a point, at least one on either side of it. -/
def plain (digits : List Char) (exponent : Int) : List Char :=
  if exponent < 0 then
    '0' :: '.' :: (List.replicate ((-exponent).toNat - 1) '0' ++ digits)
  else
    let places := exponent.toNat + 1
    let whole := digits.take places
    let rest := digits.drop places
    whole ++ List.replicate (places - whole.length) '0' ++
      '.' :: (if rest.isEmpty then ['0'] else rest)

/-- The exponent behind its mark, without leading zeros. -/
def exponentText (layout : Layout) (exponent : Int) : List Char :=
  let sign := if layout.plusSign && 0 ≤ exponent then ['+'] else []
  'e' :: (sign ++ (toString exponent).toList)

/-- One digit before the point, a point only if there are more, then the exponent. -/
def scientific (layout : Layout) (digits : List Char) (exponent : Int) : List Char :=
  let tail := digits.drop 1
  digits.take 1 ++ (if tail.isEmpty then [] else '.' :: tail) ++ layout.exponentText exponent

/-- The text of a finite double; zeros keep their sign. -/
def finiteText (layout : Layout) (d : Double) : String :=
  let sign := if d.isNegative then ['-'] else []
  let body :=
    if d.isZero then ['0', '.', '0']
    else
      let (digits, exponent) := d.shortest layout.tie
      if layout.leastPlain ≤ exponent && exponent ≤ layout.greatestPlain then
        plain digits exponent
      else layout.scientific digits exponent
  String.ofList (sign ++ body)

end Layout

end ScanBounds

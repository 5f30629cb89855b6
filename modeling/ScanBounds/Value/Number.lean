import ScanBounds.Numeric.Double

/-!
# Numbers of three widths

A number is a 32-bit integer, a 64-bit integer or a double.  The width matters for how it is written
and for its type; its order depends on the quantity it denotes and nothing else.  Integers are compared as
integers and never rounded to a double.
-/

namespace ScanBounds

inductive Number where
  | int (n : Int32)
  | long (n : Int64)
  | double (d : Double)
deriving DecidableEq, Repr

namespace Number

/-- What the number denotes. -/
def quantity : Number → Quantity
  | int n => .ofInt n.toInt
  | long n => .ofInt n.toInt
  | double d => d.quantity

def isNaN : Number → Bool
  | double d => d.isNaN
  | _ => false

/-- The integer that stands for the number in a digest: numbers of different width that denote the same
quantity are folded to the same integer. -/
def fold : Number → Int64
  | int n => n.toInt64
  | long n => n
  | double d => d.toInt64

/-! ## Comparison -/

/-- An integer in the wider of its two widths; zero stands in for a double. -/
def integer : Number → Int64
  | int n => n.toInt64
  | long n => n
  | double _ => 0

/-- Compares an integer with a double.  Doubles out of the range of integers are settled by that.  For the
others the whole part is an integer, and what is behind the point counts where the integers are equal. -/
def compareToDouble (n : Int64) (d : Double) : Ordering :=
  if d.isNaN then .gt
  else if (Ord.compare d .twoPow63).isGE then .lt
  else if (Ord.compare d Double.twoPow63.negate).isLT then .gt
  else (Ord.compare n d.toInt64).then (Ord.compare 0 d.fraction)

/-- The order of numbers of any width. -/
protected def compare : Number → Number → Ordering
  | double x, double y => Ord.compare x y
  | double x, n => (compareToDouble n.integer x).swap
  | m, double y => compareToDouble m.integer y
  | m, n => Ord.compare m.integer n.integer

instance : Ord Number := ⟨Number.compare⟩

end Number

end ScanBounds

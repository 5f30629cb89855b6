import ScanBounds.Numeric.Double

/-!
# JSON values

Whole numbers and doubles are kept apart: `1` and `1.0` are different values, and so are `0` and `-0`,
which is a double.  The members of an object come in the order of their names.
-/

namespace ScanBounds

inductive Json where
  | null
  | bool (b : Bool)
  /-- A whole number from −2⁶³ to 2⁶⁴ − 1. -/
  | int (n : Int)
  | double (d : Double)
  | string (s : String)
  | array (items : List Json)
  | object (members : List (String × Json))
deriving Inhabited

namespace Json

/-- The value of a member; `none` for a missing one and for anything but an object. -/
def member? (json : Json) (name : String) : Option Json :=
  match json with
  | object members => (members.find? (·.1 == name)).map (·.2)
  | _ => none

end Json

end ScanBounds

import ScanBounds.Json.Basic
import ScanBounds.Value.Basic

/-!
# Values from JSON

A whole number takes the narrowest integer type that holds it; one beyond `Int64` becomes the nearest
double.
-/

namespace ScanBounds

def Number.ofInt (n : Int) : Number :=
  if Int32.minValue.toInt ≤ n && n ≤ Int32.maxValue.toInt then .int (Int32.ofInt n)
  else if Int64.minValue.toInt ≤ n && n ≤ Int64.maxValue.toInt then .long (Int64.ofInt n)
  else .double (if n < 0 then (Double.ofNat n.natAbs).negate else Double.ofNat n.natAbs)

namespace Value

mutual

def ofJson : Json → Value
  | .null => null
  | .bool b => bool b
  | .int n => number (.ofInt n)
  | .double d => double d
  | .string s => string s
  | .array items => array (ofItems items)
  | .object members => object (ofMembers members)

def ofItems : List Json → List Value
  | [] => []
  | item :: rest => ofJson item :: ofItems rest

def ofMembers : List (String × Json) → List (String × Value)
  | [] => []
  | (name, json) :: rest => (name, ofJson json) :: ofMembers rest

end

end Value

end ScanBounds

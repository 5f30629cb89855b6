import ScanBounds.Numeric.Shortest
import ScanBounds.Text.Quoted
import ScanBounds.Value.Basic

/-!
# The text of a value

Texts of values appear in fault messages, logs and bounds.  Strings and symbols are quoted; names,
patterns and code are not.
-/

namespace ScanBounds

/-- A tie goes to the larger decimal, and exponents from −4 to 15 are written without a mark. -/
def Double.layout : Layout := ⟨.up, -4, 15, false⟩

def Double.text (d : Double) : String :=
  if d.isNaN then "nan"
  else if d.isInfinite then if d.isNegative then "-inf" else "inf"
  else Double.layout.finiteText d

def Number.text : Number → String
  | int n => toString n.toInt
  | long n => toString n.toInt
  | double d => d.text

/-- Entries between braces, which hold a blank on either side unless they are empty. -/
def Text.braced (entries : List String) : String :=
  if entries.isEmpty then "\x7b\x7d" else "\x7b " ++ ", ".intercalate entries ++ " \x7d"

namespace Value

def hexText (bytes : List UInt8) : String := String.join (bytes.map Text.hexByte)

/-- The twelve bytes of an object identifier, first byte first. -/
def idBytes (id : BitVec 96) : List UInt8 :=
  (List.range 12).map fun i => (id.toNat / Nat.pow 256 (11 - i)).toUInt8

mutual

def text : Value → String
  | minKey => "MinKey"
  | maxKey => "MaxKey"
  | undefined => "undefined"
  | null => "null"
  | number n => n.text
  | string s => Text.quoted s
  | symbol s => "Symbol(" ++ Text.quoted s ++ ")"
  | object fields => Text.braced (fieldTexts fields)
  | array items => "[" ++ ", ".intercalate (itemTexts items) ++ "]"
  | binData subtype bytes =>
    "BinData(" ++ toString subtype.toNat ++ ", " ++ (hexText bytes).toUpper ++ ")"
  | objectId id => "ObjectId('" ++ hexText (idBytes id) ++ "')"
  | bool b => if b then "true" else "false"
  | date millis => "new Date(" ++ toString millis.toInt ++ ")"
  | timestamp t =>
    "Timestamp(" ++ toString (t.toNat / Nat.pow 2 32) ++ ", " ++ toString (t.toNat % Nat.pow 2 32) ++ ")"
  | regex pattern flags => "/" ++ pattern ++ "/" ++ flags
  | code source => "function \x7b " ++ source ++ " \x7d"
  | codeWithScope source scope =>
    "function \x7b " ++ source ++ " \x7d with scope " ++ Text.braced (fieldTexts scope)

def itemTexts : List Value → List String
  | [] => []
  | item :: rest => text item :: itemTexts rest

def fieldTexts : List (String × Value) → List String
  | [] => []
  | (name, value) :: rest => (name ++ ": " ++ text value) :: fieldTexts rest

end

end Value

end ScanBounds

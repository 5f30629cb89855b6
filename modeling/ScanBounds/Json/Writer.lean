import ScanBounds.Json.Basic
import ScanBounds.Numeric.Shortest
import ScanBounds.Text.Quoted

/-!
# Writing JSON

Compact text: no blanks, members in the order given.  Strings escape the quote, the backslash and the
controls, and nothing else.
-/

namespace ScanBounds.Json

/-- A tie goes to the even decimal, numbers with exponents from −5 to 15 are written without an exponent,
and other exponents have a sign, as in `1e+16`. -/
def doubleLayout : Layout := ⟨.even, -5, 15, true⟩

def escapedChar (c : Char) : String :=
  match c with
  | '"' => "\\\""
  | '\\' => "\\\\"
  | '\x08' => "\\b"
  | '\x0c' => "\\f"
  | '\n' => "\\n"
  | '\r' => "\\r"
  | '\t' => "\\t"
  | c => if c.toNat < 0x20 then "\\u00" ++ Text.hexByte c.toNat.toUInt8 else c.toString

def stringText (s : String) : String :=
  "\"" ++ String.join (s.toList.map escapedChar) ++ "\""

mutual

def text : Json → String
  | null => "null"
  | bool b => if b then "true" else "false"
  | int n => toString n
  | double d => doubleLayout.finiteText d
  | string s => stringText s
  | array items => "[" ++ ",".intercalate (itemTexts items) ++ "]"
  | object members => "\x7b" ++ ",".intercalate (memberTexts members) ++ "\x7d"

def itemTexts : List Json → List String
  | [] => []
  | item :: rest => text item :: itemTexts rest

def memberTexts : List (String × Json) → List String
  | [] => []
  | (name, value) :: rest => (stringText name ++ ":" ++ text value) :: memberTexts rest

end

end ScanBounds.Json

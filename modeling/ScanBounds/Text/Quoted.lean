import ScanBounds.Text.Unprintable

/-!
# Quoted text

A text in double quotes on one line.  The quote and the backslash are written behind a backslash, four
controls have a letter, and every other character without a shape of its own is written by its number
in hexadecimal, as in `\u{e9}`.  An apostrophe needs no escape.
-/

namespace ScanBounds.Text

/-- Digits of `n` in hexadecimal, small letters, without leading zeros. -/
def hex (n : Nat) : String := String.ofList (Nat.toDigits 16 n)

/-- Two hexadecimal digits of a byte, small letters. -/
def hexByte (b : UInt8) : String :=
  if b < 16 then "0" ++ hex b.toNat else hex b.toNat

def quotedChar (c : Char) : String :=
  match c with
  | '"' => "\\\""
  | '\\' => "\\\\"
  | '\t' => "\\t"
  | '\r' => "\\r"
  | '\n' => "\\n"
  | '\x00' => "\\0"
  | c => if unprintable.has c then "\\u\x7b" ++ hex c.toNat ++ "\x7d" else c.toString

def quoted (s : String) : String :=
  "\"" ++ String.join (s.toList.map quotedChar) ++ "\""

end ScanBounds.Text

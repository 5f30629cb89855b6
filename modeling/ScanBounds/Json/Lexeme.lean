import ScanBounds.Json.Numeral

/-!
# Lexemes of JSON text

Text is first cut into lexemes: brackets, separators, words, numerals and strings.  A string keeps its
`\u` units undecoded, because a text whose meaning is not asked for need not pair its surrogates.
-/

namespace ScanBounds.Json

/-- One element of a string: a character, or a code unit given by number. -/
inductive Piece where
  | char (c : Char)
  | unit (n : Nat)

inductive Lexeme where
  | openArray
  | closeArray
  | openObject
  | closeObject
  | comma
  | colon
  | null
  | bool (b : Bool)
  | numeral (n : Numeral)
  | string (pieces : List Piece)

namespace Lexeme

def hexDigit? (c : Char) : Option Nat :=
  if c.isDigit then some (c.toNat - '0'.toNat)
  else if 'a' ≤ c && c ≤ 'f' then some (c.toNat - 'a'.toNat + 10)
  else if 'A' ≤ c && c ≤ 'F' then some (c.toNat - 'A'.toNat + 10)
  else none

def unit? (a b c d : Char) : Option Nat := do
  let a ← hexDigit? a
  let b ← hexDigit? b
  let c ← hexDigit? c
  let d ← hexDigit? d
  return ((a * 16 + b) * 16 + c) * 16 + d

/-- The character that a letter behind a backslash stands for. -/
def escaped? : Char → Option Char
  | '"' => some '"'
  | '\\' => some '\\'
  | '/' => some '/'
  | 'b' => some '\x08'
  | 'f' => some '\x0c'
  | 'n' => some '\n'
  | 'r' => some '\r'
  | 't' => some '\t'
  | _ => none

/-- Reads a string up to its closing quote.  Controls must be escaped. -/
def string? : List Char → Option (List Piece × List Char)
  | [] => none
  | '"' :: rest => some ([], rest)
  | '\\' :: 'u' :: a :: b :: c :: d :: rest => do
    let n ← unit? a b c d
    let (pieces, rest) ← string? rest
    return (.unit n :: pieces, rest)
  | '\\' :: e :: rest => do
    let c ← escaped? e
    let (pieces, rest) ← string? rest
    return (.char c :: pieces, rest)
  | c :: rest =>
    if c.toNat < 0x20 then none
    else do
      let (pieces, rest) ← string? rest
      return (.char c :: pieces, rest)

theorem string?_length {chars : List Char} {pieces : List Piece} {rest : List Char}
    (h : string? chars = some (pieces, rest)) : rest.length < chars.length := by
  fun_induction string? chars generalizing pieces rest with
  | case1 => simp at h
  | case2 => simp_all
  | case3 a b c d tail ih =>
    simp only [bind, Option.bind_eq_some_iff] at h
    obtain ⟨n, _, ⟨q, r⟩, hr, h⟩ := h
    have := ih hr
    simp_all
    omega
  | case4 e tail _ ih =>
    simp only [bind, Option.bind_eq_some_iff] at h
    obtain ⟨n, _, ⟨q, r⟩, hr, h⟩ := h
    have := ih hr
    simp_all
    omega
  | case5 => simp at h
  | case6 c tail _ _ _ _ ih =>
    simp only [bind, Option.bind_eq_some_iff] at h
    obtain ⟨⟨q, r⟩, hr, h⟩ := h
    have := ih hr
    simp_all
    omega

/-- The characters that numerals are made of. -/
def isNumeralChar (c : Char) : Bool :=
  c.isDigit || c = '-' || c = '+' || c = '.' || c = 'e' || c = 'E'

def isBlank (c : Char) : Bool := c = ' ' || c = '\t' || c = '\n' || c = '\r'

def mark? : Char → Option Lexeme
  | '[' => some openArray
  | ']' => some closeArray
  | '{' => some openObject
  | '}' => some closeObject
  | ',' => some comma
  | ':' => some colon
  | _ => none

def word? (letters : List Char) : Option Lexeme :=
  if letters = ['n', 'u', 'l', 'l'] then some null
  else if letters = ['t', 'r', 'u', 'e'] then some (bool true)
  else if letters = ['f', 'a', 'l', 's', 'e'] then some (bool false)
  else none

/-- Cuts a text into lexemes, skipping blanks. -/
def ofChars? : List Char → Option (List Lexeme)
  | [] => some []
  | c :: rest =>
    if isBlank c then ofChars? rest
    else if c = '"' then
      match h : string? rest with
      | none => none
      | some (pieces, after) =>
        have := string?_length h
        (ofChars? after).map (string pieces :: ·)
    else if c.isAlpha then do
      let lexeme ← word? (c :: rest.takeWhile Char.isAlpha)
      (ofChars? (rest.dropWhile Char.isAlpha)).map (lexeme :: ·)
    else if isNumeralChar c then do
      let n ← Numeral.ofChars? (c :: rest.takeWhile isNumeralChar)
      (ofChars? (rest.dropWhile isNumeralChar)).map (numeral n :: ·)
    else do
      let lexeme ← mark? c
      (ofChars? rest).map (lexeme :: ·)
termination_by chars => chars.length
decreasing_by
  all_goals simp only [List.length_cons]
  · omega
  · omega
  · exact Nat.lt_succ_of_le (List.dropWhile_suffix _).length_le
  · exact Nat.lt_succ_of_le (List.dropWhile_suffix _).length_le
  · omega

end Lexeme

end ScanBounds.Json

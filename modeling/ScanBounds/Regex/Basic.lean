import ScanBounds.Text.CaseFold
import ScanBounds.Text.Classes

/-!
# Regular expressions

A regular expression is a tree over character sets and assertions.  `Regex.Spans` says which stretches of
a text it covers; a text matches when some stretch of it is covered.  Groups need no node of their own,
and since only the fact of a match is asked for, greedy and reluctant repetition are the same.
-/

namespace ScanBounds

/-- A set of characters, as a class between brackets or an escape denotes it. -/
inductive CharSet where
  | none
  | range (first last : Char)
  | digit
  | space
  | word
  | union (s t : CharSet)
  | negated (s : CharSet)
  /-- With every character all its case variants. -/
  | anyCase (s : CharSet)
deriving DecidableEq, Repr

namespace CharSet

def single (c : Char) : CharSet := range c c

def any : CharSet := negated none

def contains : CharSet → Char → Bool
  | none, _ => false
  | range first last, c => first ≤ c && c ≤ last
  | digit, c => Text.isDigit c
  | space, c => Text.isSpace c
  | word, c => Text.isWord c
  | union s t, c => s.contains c || t.contains c
  | negated s, c => !s.contains c
  | anyCase s, c => (Text.caseVariants c).any s.contains

end CharSet

/-- A condition on a place between characters. -/
inductive Assertion where
  | textStart
  | textEnd
  | lineStart
  | lineEnd
  | wordEdge
  | noWordEdge
  | wordStart
  | wordEnd
deriving DecidableEq, Repr

/-- Whether the assertion holds between the characters before and after a place. -/
def Assertion.holds (a : Assertion) (before after : Option Char) : Bool :=
  let wordBefore := before.any Text.isWord
  let wordAfter := after.any Text.isWord
  match a with
  | textStart => before.isNone
  | textEnd => after.isNone
  | lineStart => before.isNone || before == some '\n'
  | lineEnd => after.isNone || after == some '\n'
  | wordEdge => wordBefore != wordAfter
  | noWordEdge => wordBefore == wordAfter
  | wordStart => !wordBefore && wordAfter
  | wordEnd => wordBefore && !wordAfter

inductive Regex where
  | empty
  | one (s : CharSet)
  | assert (a : Assertion)
  | cat (r s : Regex)
  | alt (r s : Regex)
  /-- At least `least` times, and at most `most` times if there is a bound. -/
  | repeated (r : Regex) (least : Nat) (most : Option Nat)
deriving DecidableEq, Repr

namespace Regex

/-- The characters on the two sides of place `i`. -/
def around (text : Array Char) (i : Nat) : Option Char × Option Char :=
  (if i = 0 then none else text[i - 1]?, text[i]?)

mutual

/-- `Spans text r i j`: the expression covers the text from place `i` to place `j`. -/
inductive Spans (text : Array Char) : Regex → Nat → Nat → Prop where
  | empty (i : Nat) : Spans text .empty i i
  | one {s : CharSet} {i : Nat} {c : Char} (at_i : text[i]? = some c) (mem : s.contains c) :
      Spans text (.one s) i (i + 1)
  | assert {a : Assertion} {i : Nat} (holds : a.holds (around text i).1 (around text i).2) :
      Spans text (.assert a) i i
  | cat {r s : Regex} {i j k : Nat} (left : Spans text r i j) (right : Spans text s j k) :
      Spans text (.cat r s) i k
  | altLeft {r s : Regex} {i j : Nat} (left : Spans text r i j) : Spans text (.alt r s) i j
  | altRight {r s : Regex} {i j : Nat} (right : Spans text s i j) : Spans text (.alt r s) i j
  | repeated {r : Regex} {least n : Nat} {most : Option Nat} {i j : Nat} (enough : least ≤ n)
      (bounded : ∀ m, most = some m → n ≤ m) (times : SpansTimes text r n i j) :
      Spans text (.repeated r least most) i j

/-- The expression covers a stretch by `n` copies of itself in a row. -/
inductive SpansTimes (text : Array Char) : Regex → Nat → Nat → Nat → Prop where
  | zero (r : Regex) (i : Nat) : SpansTimes text r 0 i i
  | succ {r : Regex} {n i j k : Nat} (first : Spans text r i j) (rest : SpansTimes text r n j k) :
      SpansTimes text r (n + 1) i k

end

/-- Some stretch of the text is covered. -/
def Matches (r : Regex) (text : String) : Prop :=
  ∃ i j, i ≤ text.toList.length ∧ Spans text.toList.toArray r i j

end Regex

end ScanBounds

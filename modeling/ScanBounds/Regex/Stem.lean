import ScanBounds.Interval.Basic
import ScanBounds.Tightness
import ScanBounds.Value.Extent

/-!
# Stems

An anchored pattern without alternatives starts with characters that every match starts with, its *stem*,
and the strings with that beginning are one range of keys.  The stem is found by walking over the pattern
as far as its characters speak for themselves.  A pattern that cannot be read this way has an empty stem
and scans all strings.
-/

namespace ScanBounds

/-- A regular expression as an operand or as a stored value. -/
structure RegexTerm where
  pattern : String
  flags : String
deriving DecidableEq, Repr

namespace RegexTerm

/-- Regular expressions are indexed as themselves. -/
def asValue (term : RegexTerm) : Value := .regex term.pattern term.flags

def text (term : RegexTerm) : String := "/" ++ term.pattern ++ "/" ++ term.flags

end RegexTerm

/-- A stem and how well the range of its extensions stands for the pattern. -/
structure Stem where
  literal : String
  tightness : Tightness
deriving DecidableEq, Repr

namespace Stem

/-- Whether a bar in the text may be live, seen after the two characters `beforeLast` and `last`.  A bar
behind a lone backslash is not, but one that also has a backslash two places before is: an escaped
backslash leaves the bar alive.  Bars in classes or quotations are reported too. -/
def mayHoldBar (beforeLast last : Option Char) : List Char → Bool
  | [] => false
  | c :: rest =>
    (c == '|' && (last != some '\\' || beforeLast == some '\\')) || mayHoldBar last (some c) rest

/-- The characters, beside quantifiers and the backslash, at which a literal beginning ends. -/
def isMeta (c : Char) : Bool := ['^', '$', '.', '[', '(', ')', '+', '{'].contains c

/-- How the walk reads the pattern. -/
structure Mode where
  /-- White space is skipped and a comment sign ends the stem. -/
  extended : Bool
  /-- A final `.*` makes the range exact. -/
  exactTail : Bool

/-- The blanks that an extended pattern skips. -/
def isSkipped (c : Char) : Bool := c = ' ' || c = '\t' || c = '\n' || c = '\r' || c = '\x0c'

/-- Walks over a pattern; `literal` is the stem so far, last character first, and `quoting` tells that
the walk is between `\Q` and `\E`. -/
def walk (mode : Mode) (quoting : Bool) (literal : List Char) : List Char → List Char × Tightness
  | [] => (literal, .inexactCovered)
  | c :: rest =>
    if quoting then
      match c, rest with
      | '\\', 'E' :: rest => walk mode false literal rest
      | c, rest => walk mode true (c :: literal) rest
    else if c = '*' || c = '?' then
      -- the character before the quantifier is optional
      (literal.drop 1, .inexactCovered)
    else if c = '\\' then
      match rest with
      | [] => (literal, .inexactCovered)
      | e :: rest =>
        if e = 'Q' then walk mode true literal rest
        else if e.isAlphanum then (literal, .inexactCovered)
        else walk mode false (e :: literal) rest
    else if isMeta c then
      (literal, if mode.exactTail && c = '.' && rest = ['*'] then .exact else .inexactCovered)
    else if mode.extended && c = '#' then (literal, .inexactCovered)
    else if mode.extended && isSkipped c then walk mode false literal rest
    else walk mode false (c :: literal) rest

/-- The text after a leading anchor, and whether the anchor is `\A`, which no flag affects. -/
def anchored? : List Char → Option (Bool × List Char)
  | '\\' :: 'A' :: rest => some (true, rest)
  | '^' :: rest => some (false, rest)
  | _ => none

/-- Flags under which the walk is sound: `s` and `x`, and `m` after `\A`. -/
def flagsAllow (fixedAnchor : Bool) (flags : String) : Bool :=
  flags.toList.all fun c => c = 's' || c = 'x' || (c = 'm' && fixedAnchor)

/-- The stem of a pattern that cannot be read: every string may match. -/
def unknown : Stem := ⟨"", .inexactCovered⟩

/-- The stem of a pattern.  Collation keys are not in the order of code points, so with a collation there
is no range to speak of. -/
def ofPattern (pattern flags : String) (collated : Bool) : Stem :=
  if collated then ⟨"", .inexactFetch⟩
  else
    match anchored? pattern.toList with
    | none => unknown
    | some (fixedAnchor, rest) =>
      if mayHoldBar none none rest || !flagsAllow fixedAnchor flags then unknown
      else
        let mode : Mode := ⟨flags.toList.contains 'x', !fixedAnchor⟩
        let (literal, tightness) := walk mode false [] rest
        ⟨String.ofList literal.reverse, tightness⟩

/-! ## The range of a stem -/

/-- The next character; surrogates are none. -/
def nextChar? (c : Char) : Option Char :=
  if c = '\ud7ff' then some '\ue000'
  else if c.toNat = 0x10FFFF then none
  else some (Char.ofNat (c.toNat + 1))

/-- Raises the last character that can be raised, dropping those after it; takes and gives the text last
character first. -/
def raise? : List Char → Option (List Char)
  | [] => none
  | c :: rest =>
    match nextChar? c with
    | some next => some (next :: rest)
    | none => raise? rest

/-- The least text above all texts that start with `s`, if there is one. -/
def successor? (s : String) : Option String :=
  (raise? s.toList.reverse).map fun chars => String.ofList chars.reverse

/-- The strings that a stem leaves possible; an empty stem leaves all of them. -/
def range (stem : Stem) : Interval :=
  if stem.literal.isEmpty then .range TypeTag.string.least TypeTag.string.upper .startOnly
  else
    let stop := match successor? stem.literal with
      | some s => .string s
      | none => TypeTag.string.upper
    .range (.string stem.literal) stop .startOnly

end Stem

/-- The keys of a regular expression: the strings it may match, and the expression as a stored value. -/
def RegexTerm.bounds (term : RegexTerm) (collated : Bool) : List Interval × Tightness :=
  let stem := Stem.ofPattern term.pattern term.flags collated
  ([stem.range, .point term.asValue], stem.tightness)

end ScanBounds

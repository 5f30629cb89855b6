import ScanBounds.Regex.Basic

/-!
# Matching

A matcher that follows all possibilities at once.  A set of places of a text is a number with one bit for
each place.  `Regex.locate` replaces every character set and every assertion by the places where it holds,
and `Located.lead` takes a set of places to all places up to which the expression covers the text from one
of them.  A text matches when its places together lead to any place at all.
-/

namespace ScanBounds.Regex

/-- The number whose bits are given, lowest first. -/
def ofBits (bits : List Bool) : Nat := bits.foldr (fun b n => 2 * n + b.toNat) 0

/-! ## Where sets and assertions hold -/

/-- The different characters of a text, each with the places before it. -/
def letters (text : List Char) : List (Char × Nat) :=
  text.eraseDups.map fun c => (c, ofBits (text.map (· == c)))

/-- The places before characters of the set. -/
def placesOf (letters : List (Char × Nat)) (s : CharSet) : Nat :=
  letters.foldr (fun (c, places) rest => if s.contains c then places ||| rest else rest) 0

/-- The places where the assertion holds. -/
def placesWhere (text : Array Char) (a : Assertion) : Nat :=
  ofBits ((List.range (text.size + 1)).map fun i => a.holds (around text i).1 (around text i).2)

/-- A regular expression about one text. -/
inductive Located where
  | empty
  /-- The places before the characters of a set. -/
  | one (places : Nat)
  /-- The places where an assertion holds. -/
  | assert (places : Nat)
  | cat (r s : Located)
  | alt (r s : Located)
  /-- `least` copies, and up to `more` further ones. -/
  | repeated (r : Located) (least more : Nat)

/-- What an expression says about a text, whose letters are given too. -/
def locate (text : Array Char) (letters : List (Char × Nat)) : Regex → Located
  | .empty => .empty
  | .one s => .one (placesOf letters s)
  | .assert a => .assert (placesWhere text a)
  | .cat r s => .cat (locate text letters r) (locate text letters s)
  | .alt r s => .alt (locate text letters r) (locate text letters s)
  | .repeated r least most =>
    -- a text has no more than `size + 1` places, so more copies than that add nothing
    let more := match most with
      | some m => m - least
      | none => text.size + 1
    .repeated (locate text letters r) least more

/-! ## Where an expression leads -/

/-- Repeats a step `n` times.  When one step changes nothing, neither do the others. -/
def steps (step : Nat → Nat) : Nat → Nat → Nat
  | 0, places => places
  | n + 1, places =>
    let next := step places
    if next = places then places else steps step n next

/-- The places that the expression can lead to from a set of places. -/
def Located.lead : Located → Nat → Nat
  | empty, places => places
  | one before, places => (places &&& before) <<< 1
  | assert holding, places => places &&& holding
  | cat r s, places => s.lead (r.lead places)
  | alt r s, places => r.lead places ||| s.lead places
  | repeated r least more, places =>
    steps (fun reached => reached ||| r.lead reached) more (steps r.lead least places)

/-- Whether some stretch of the text is covered. -/
def isMatch (r : Regex) (text : String) : Bool :=
  let chars := text.toList
  (locate chars.toArray (letters chars) r).lead (Nat.pow 2 (chars.length + 1) - 1) != 0

end ScanBounds.Regex

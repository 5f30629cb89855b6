/-!
# Tables of code points

A property of characters is kept as the closed ranges of code points that have it, and a
letter-to-letter map as runs of code points moved by one distance.  Both are looked up by a plain
scan: the tables have under a thousand rows and the texts are keys and patterns, never documents.
-/

namespace ScanBounds.Text

/-- Closed ranges of code points, in ascending order and apart. -/
abbrev CharRanges := Array (Nat × Nat)

/-- A character has the property when one of the ranges holds its code point. -/
def CharRanges.has (ranges : CharRanges) (c : Char) : Bool :=
  ranges.any fun (first, last) => first ≤ c.toNat && c.toNat ≤ last

/-- A run `(first, last, stride, distance)` moves every `stride`-th code point from `first` to
`last` by `distance`. -/
abbrev CharRuns := Array (Nat × Nat × Nat × Int)

/-- Where one run sends a code point, if the run reaches it. -/
def runTarget (n : Nat) : Nat × Nat × Nat × Int → Option Nat
  | (first, last, stride, distance) =>
    if first ≤ n && n ≤ last && (n - first) % stride == 0 then some (n + distance).toNat else none

/-- The image of a character; a character that no run reaches stays as it is. -/
def CharRuns.image (runs : CharRuns) (c : Char) : Char :=
  match runs.findSome? (runTarget c.toNat) with
  | some n => Char.ofNat n
  | none => c

/-- The characters that the runs send to `c`. -/
def CharRuns.preimage (runs : CharRuns) (c : Char) : List Char :=
  runs.toList.filterMap fun run =>
    let n := ((c.toNat : Int) - run.2.2.2).toNat
    if runTarget n run == some c.toNat then some (Char.ofNat n) else none

end ScanBounds.Text

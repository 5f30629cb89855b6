/-!
# Tightness

How well bounds stand for their predicate, tightest first.  Results are combined to the looser of two.
-/

namespace ScanBounds

inductive Tightness where
  /-- The bounds hold exactly the keys that satisfy the predicate. -/
  | exact
  /-- Some keys in the bounds may not satisfy it; looking at the key settles that. -/
  | inexactCovered
  /-- Some keys in the bounds may not satisfy it; the document must be fetched. -/
  | inexactFetch
deriving DecidableEq, Repr

namespace Tightness

/-- How loose, counted from zero. -/
def looseness : Tightness → Nat
  | exact => 0
  | inexactCovered => 1
  | inexactFetch => 2

instance : Ord Tightness := ⟨fun s t => Ord.compare s.looseness t.looseness⟩

instance : LE Tightness := ⟨fun s t => s.looseness ≤ t.looseness⟩

instance (s t : Tightness) : Decidable (s ≤ t) :=
  inferInstanceAs (Decidable (s.looseness ≤ t.looseness))

/-- The looser of two. -/
def combine (s t : Tightness) : Tightness := if s ≤ t then t else s

def text : Tightness → String
  | exact => "EXACT"
  | inexactCovered => "INEXACT_COVERED"
  | inexactFetch => "INEXACT_FETCH"

end Tightness

end ScanBounds

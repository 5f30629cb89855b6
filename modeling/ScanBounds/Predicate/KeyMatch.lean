import ScanBounds.Predicate.Basic
import ScanBounds.Regex.Matching
import ScanBounds.Regex.Reader

/-!
# Settling a predicate by the key

Covered bounds leave some keys to be looked at again.  Regular expressions can be asked again about a key,
and so can a membership list of regular expressions only; `none` is the answer where the key does not
settle the matter.
-/

namespace ScanBounds

/-- Only strings and symbols match; `none` if the pattern denotes no expression. -/
def RegexTerm.matchesKey (term : RegexTerm) (key : Value) : Option Bool := do
  let r ← Regex.read? term.pattern term.flags
  match key with
  | .string s | .symbol s => return r.isMatch s
  | _ => return false

def Predicate.matchesKey (p : Predicate) (key : Value) : Option Bool :=
  match p with
  | regex _ term => term.matchesKey key
  | isIn _ members =>
    -- with literals among the members the key may be a collation key
    if members.literals.isEmpty then do
      let answers ← members.regexes.mapM (·.matchesKey key)
      return answers.any id
    else none
  | _ => none

end ScanBounds

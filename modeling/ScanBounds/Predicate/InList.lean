import ScanBounds.Regex.Stem
import ScanBounds.Value.Order

/-!
# Operands of membership predicates

The members of an `$in` are literals, which match by equality, and regular expressions, which match by
pattern.  Literals are kept in order and each once; regular expressions as they come.
-/

namespace ScanBounds

structure InList where
  literals : List Value
  regexes : List RegexTerm

namespace InList

def regex? : Value → Option RegexTerm
  | .regex pattern flags => some ⟨pattern, flags⟩
  | _ => none

def ofValues (values : List Value) : InList where
  literals := Value.dropRepeats (Value.sort (values.filter fun v => (regex? v).isNone))
  regexes := values.filterMap regex?

def hasNull (members : InList) : Bool := members.literals.any Value.isNull

def hasEmptyArray (members : InList) : Bool := members.literals.any Value.isEmptyArray

def size (members : InList) : Nat := members.literals.length + members.regexes.length

def isEmpty (members : InList) : Bool := members.size == 0

/-- Null, the empty array, and nothing else: the one list whose negation has bounds of its own. -/
def isNullAndEmptyArray (members : InList) : Bool :=
  members.regexes.isEmpty && members.literals.length == 2 && members.hasNull && members.hasEmptyArray

end InList

end ScanBounds

import ScanBounds.Value.TypeTag

/-!
# Type sets

The operand of a type predicate: some types, and perhaps the word `number`, which means every numeric
type at once and is remembered apart from them.
-/

namespace ScanBounds

structure TypeSet where
  allNumbers : Bool
  /-- The named types, each once, in the order of `TypeTag.all`. -/
  tags : List TypeTag
deriving DecidableEq, Repr

namespace TypeSet

/-- The set of the named types, put in order. -/
def ofTags (allNumbers : Bool) (tags : List TypeTag) : TypeSet :=
  ⟨allNumbers, TypeTag.all.filter tags.contains⟩

/-- Reads type names; `none` if one of them is unknown. -/
def ofNames? (names : List String) : Option TypeSet := do
  let tags ← (names.filter (· != "number")).mapM TypeTag.ofName?
  return ofTags (names.contains "number") tags

def has (types : TypeSet) (tag : TypeTag) : Bool := types.tags.contains tag

def isEmpty (types : TypeSet) : Bool := !types.allNumbers && types.tags.isEmpty

/-- The names, `number` first. -/
def names (types : TypeSet) : List String :=
  (if types.allNumbers then ["number"] else []) ++ types.tags.map TypeTag.name

end TypeSet

end ScanBounds

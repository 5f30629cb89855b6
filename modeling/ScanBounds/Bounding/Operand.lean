import ScanBounds.Index.Basic
import ScanBounds.Interval.SetOps
import ScanBounds.Predicate.Basic
import ScanBounds.Bounding.Refusal
import ScanBounds.Value.Extent

/-!
# Bounds of single operands

The keys that a comparison, an equality, a type test or a membership test can hit, and how tight these
bounds are.  Three facts about keys shape them all: a comparison stays in the bracket of its operand, an
array is stored as its elements, and a missing field is stored as null.
-/

namespace ScanBounds

/-- Intervals and how well they stand for what was asked. -/
abbrev OperandBounds := List Interval × Tightness

/-- The union of some intervals. -/
def unionOf (intervals : List Interval) : Except Refusal (List Interval) :=
  match (IntervalList.mk "" intervals).union with
  | .ok list => .ok list.intervals
  | .error d => .error (.disorder d)

/-! ## Equality -/

/-- Null is stored for missing fields too, and old data stores undefined; digests of the two need not be
in their order. -/
def nullBounds (hashed : Bool) : Except Refusal OperandBounds := do
  return (← unionOf [.undefinedPoint hashed, .nullPoint hashed], .inexactFetch)

/-- The keys of documents whose value may equal the operand.  An array is stored by its elements, the
empty array as undefined, and a nested array as itself, so of an array operand the first element and the
whole are looked up. -/
def equalityBounds (operand : Value) (index : Index) (hashed : Bool) : Except Refusal OperandBounds :=
  match operand with
  | .null => nullBounds hashed
  | .array items =>
    if hashed then .error (.hashedArray operand)
    else
      let element := match items with
        | first :: _ => first.indexKey index.collator
        | [] => .undefined
      .ok (Interval.sortByStart [.point (operand.indexKey index.collator), .point element], .inexactFetch)
  | _ =>
    let key := operand.indexKey index.collator
    let inexact := hashed || (index.collator.isSome && operand.isCollatable)
    .ok ([.point (if hashed then key.hashKey else key)], if inexact then .inexactFetch else .exact)

/-! ## Inequalities -/

/-- Whether the keys in the bounds of an inequality are exactly those that satisfy it. -/
def isExactOperand : Value → Bool
  | .null | .undefined | .array _ | .regex .. | .symbol _ => false
  | _ => true

/-- Bounds without values are exact; otherwise the operand decides. -/
def inequalityTightness (i : Interval) (operand : Value) (index : Index) : Tightness :=
  if i.isVoid then .exact
  else if !isExactOperand operand || (index.collator.isSome && operand.isCollatable) then .inexactFetch
  else .exact

/-- The ends of the keys below an operand.  Below an array may be any element of a lower bracket, so the
range starts at the bottom; it ends at the array itself or, if that is higher, at its first element. -/
def endsBelow (operand : Value) (index : Index) : Value × Value :=
  match operand with
  | .array items =>
    let stop := match items with
      | [] => TypeTag.array.least
      | first :: _ =>
        if TypeTag.array.rank < first.rank then first.indexKey index.collator
        else operand.indexKey index.collator
    (.minKey, stop)
  | .number _ => (.double .negInfinity, operand.indexKey index.collator)
  | v => (v.tag.least, v.indexKey index.collator)

/-- The ends of the keys above an operand, in the same way. -/
def endsAbove (operand : Value) (index : Index) : Value × Value :=
  match operand with
  | .array items =>
    let start := match items with
      | [] => .minKey
      | first :: _ =>
        if first.rank < TypeTag.array.rank then first.indexKey index.collator
        else operand.indexKey index.collator
    (start, .maxKey)
  | .number _ => (operand.indexKey index.collator, .double .infinity)
  | v => (v.indexKey index.collator, v.tag.upper)

/-- Bounds of one interval, dropped when it holds no values. -/
def unlessVoid (i : Interval) (tightness : Tightness) : OperandBounds :=
  (if i.isVoid then [] else [i], tightness)

/-- The keys below `MaxKey`, or above `MinKey`: all but the extreme, which the array of just the extreme
may be stored as. -/
def allBut (inclusion : Inclusion) (index : Index) : OperandBounds :=
  ([.allValuesWith inclusion],
    if index.collator.isSome || index.multikey then .inexactFetch else .exact)

/-- The keys up to `MaxKey`, or from `MinKey` on. -/
def allOf (index : Index) : OperandBounds :=
  ([.allValues], if index.collator.isSome then .inexactFetch else .exact)

def ltBounds (operand : Value) (index : Index) : OperandBounds :=
  if operand.isMaxKey then allBut (.ofEnds true index.multikey) index
  else if operand.isNaN then ([], .exact)
  else
    let (start, stop) := endsBelow operand index
    let i : Interval :=
      ⟨start, start.rank == stop.rank || operand.isArray, stop, operand.isArray⟩
    unlessVoid i (inequalityTightness i operand index)

def lteBounds (operand : Value) (index : Index) (hashed : Bool) : Except Refusal OperandBounds :=
  if operand.isMaxKey then .ok (allOf index)
  else if operand.isNaN then .ok ([.point operand], .exact)
  else if operand.isNull then nullBounds hashed
  else
    let (start, stop) := endsBelow operand index
    let i : Interval := ⟨start, operand.isArray || start.rank == stop.rank, stop, true⟩
    .ok ([i], inequalityTightness i operand index)

def gtBounds (operand : Value) (index : Index) : OperandBounds :=
  if operand.isMinKey then allBut (.ofEnds index.multikey true) index
  else if operand.isNaN then ([], .exact)
  else
    let (start, stop) := endsAbove operand index
    let i : Interval :=
      ⟨start, operand.isArray, stop, operand.isArray || start.rank == stop.rank⟩
    unlessVoid i (inequalityTightness i operand index)

def gteBounds (operand : Value) (index : Index) (hashed : Bool) : Except Refusal OperandBounds :=
  if operand.isMinKey then .ok (allOf index)
  else if operand.isNaN then .ok ([.point operand], .exact)
  else if operand.isNull then nullBounds hashed
  else
    let (start, stop) := endsAbove operand index
    let i : Interval := ⟨start, true, stop, operand.isArray || start.rank == stop.rank⟩
    .ok ([i], inequalityTightness i operand index)

def comparisonBounds (op : ComparisonOp) (operand : Value) (index : Index) (hashed : Bool) :
    Except Refusal OperandBounds :=
  match op with
  | .eq => equalityBounds operand index hashed
  | .lt => .ok (ltBounds operand index)
  | .lte => lteBounds operand index hashed
  | .gt => .ok (gtBounds operand index)
  | .gte => gteBounds operand index hashed

/-- Inequalities of the expression language range over all brackets.  A missing field is below null there
and is stored as null, so bounds below null include null itself, and only `≤ null` and `> null` treat the
two alike. -/
def exprBounds (op : ComparisonOp) (operand : Value) (index : Index) : OperandBounds :=
  let key := operand.indexKey index.collator
  let i : Interval := match op with
    | .lt => ⟨.minKey, true, key, operand.isNull⟩
    | .lte => ⟨.minKey, true, key, true⟩
    | .gt => ⟨key, false, .maxKey, true⟩
    | .gte | .eq => ⟨key, true, .maxKey, true⟩
  let aboutNull := operand.isNull && (op = .lte || op = .gt)
  unlessVoid i (if aboutNull then .exact else inequalityTightness i operand index)

/-! ## Types -/

/-- How tight the brackets of some types are, arrays aside.  Null and undefined are also stored for what
has no value, and a bracket that several types share is wider than any one of them. -/
def TypeSet.tightness (types : TypeSet) (index : Index) : Tightness :=
  let numeric := types.tags.filter TypeTag.isNumber
  if index.collator.isSome && (types.has .string || types.has .object) then .inexactFetch
  else if types.has .null || types.has .undefined then .inexactFetch
  else if !numeric.isEmpty && numeric.length != 4 && !types.allNumbers then .inexactCovered
  else if types.has .string != types.has .symbol then .inexactCovered
  else .exact

/-- The bracket of a type. -/
def TypeTag.bracket (tag : TypeTag) : Interval :=
  .range tag.least tag.upper (if tag.isVariableWidth then .startOnly else .both)

def typeBounds (types : TypeSet) (index : Index) : Except Refusal OperandBounds :=
  -- arrays are stored by their elements, so only the document can tell
  if types.has .array then .ok ([.allValues], .inexactFetch)
  else do
    let numbers := if types.allNumbers then [TypeTag.int.bracket] else []
    return (← unionOf (numbers ++ types.tags.map TypeTag.bracket), types.tightness index)

/-! ## Membership -/

/-- The bounds of all literals, one after the other. -/
def literalBounds (index : Index) (hashed : Bool) : List Value → Except Refusal OperandBounds
  | [] => .ok ([], .exact)
  | v :: rest => do
    let (first, tightness) ← equalityBounds v index hashed
    let (others, tightness') ← literalBounds index hashed rest
    return (first ++ others, tightness.combine tightness')

def membershipBounds (members : InList) (index : Index) (hashed : Bool) :
    Except Refusal OperandBounds := do
  let (literals, literalTightness) ← literalBounds index hashed members.literals
  let regexes := members.regexes.map (·.bounds index.collator.isSome)
  let tightness := regexes.foldl (fun t r => t.combine r.2) literalTightness
  -- a null key may stand for a missing field, and an empty array is stored as undefined
  let emptyArray := if members.hasEmptyArray then [Interval.undefinedPoint false] else []
  let tightness :=
    if members.hasNull || members.hasEmptyArray then .inexactFetch else tightness
  return (← unionOf (literals ++ regexes.flatMap Prod.fst ++ emptyArray), tightness)

end ScanBounds

import ScanBounds.Event
import ScanBounds.Settings
import ScanBounds.Bounding.Operand
import ScanBounds.Bounding.Traced

/-!
# Bounds of predicates

`Builder.derive` turns a predicate on one indexed field into an interval list and its tightness, and
reports the steps by which the list came about: lists that were given, lists that depend on operands, and
the operations that joined them, in postfix order.  `Builder.bounds` is the whole of it: on a wildcard
index the result is adjusted, and failures and adjustments are logged if the settings ask for it.
-/

namespace ScanBounds

/-- Covers geo regions by intervals of cells.  What it returns holds at least all keys of the region. -/
structure Coverer where
  spherical : Json → Index → Except Fault (List Interval)
  /-- With at most the given number of cells. -/
  planar : Json → Index → Nat → Except Fault (List Interval)

/-- Covers every region by all keys. -/
def Coverer.fullScan : Coverer where
  spherical _ _ := .ok [.allValues]
  planar _ _ _ := .ok [.allValues]

/-- Has the last word on the result for a wildcard index.  It may replace the list. -/
structure WildcardAdjuster where
  adjust : Index → Tightness → IntervalList → IntervalList × Tightness

/-- All keys of objects and arrays. -/
def objectsAndArrays : Interval := .range TypeTag.object.least TypeTag.array.upper .startOnly

/-- A wildcard index stores the leaves of objects and arrays and never these themselves, so bounds that
reach into their brackets, and bounds on a path with arrays, need the document. -/
def WildcardAdjuster.standard : WildcardAdjuster where
  adjust index tightness list :=
    let loose := list.intervals.any (·.intersects objectsAndArrays) || index.isMultikeyPath list.field
    (list, if tightness = .inexactFetch || loose then .inexactFetch else tightness)

structure Builder where
  settings : Settings
  coverer : Coverer
  adjuster : WildcardAdjuster

def Builder.ofSettings (settings : Settings) : Builder := ⟨settings, .fullScan, .standard⟩

/-- One step of how a list came about. -/
inductive Step where
  /-- A list that depends on no operand. -/
  | const (list : IntervalList)
  /-- A list for a predicate, whose operands may be replaced later. -/
  | eval (p : Predicate) (list : IntervalList)
  | union
  | intersect
  | complement

/-- A list and how well it stands for its predicate. -/
abbrev FieldBounds := IntervalList × Tightness

abbrev Derivation := Traced Step Refusal

namespace Builder

def ofDisorder {α : Type} : Except Disorder α → Derivation α
  | .ok a => .ofExcept (.ok a)
  | .error d => .fail (.disorder d)

/-- Bounds that no operand changes. -/
def constant (field : String) (bounds : Except Refusal OperandBounds) : Derivation FieldBounds := do
  let (intervals, tightness) ← .ofExcept bounds
  let list : IntervalList := ⟨field, intervals⟩
  .report (.const list)
  return (list, tightness)

/-- Bounds that come from the operands of `p`. -/
def evaluated (p : Predicate) (field : String) (bounds : Except Refusal OperandBounds) :
    Derivation FieldBounds := do
  let (intervals, tightness) ← .ofExcept bounds
  let list : IntervalList := ⟨field, intervals⟩
  .report (.eval p list)
  return (list, tightness)

/-- The cells that cover the region of a geo predicate, merged. -/
def cells (b : Builder) (p : Predicate) (geometry : Geometry) (bucket : Bool) (field : IndexedField)
    (index : Index) : Except Refusal OperandBounds := do
  let region (shape : String) : Option Json → Except Refusal Json
    | some region => .ok region
    | none => .error (.noRegion p shape)
  let cover : Except Fault (List Interval) → Except Refusal (List Interval)
    | .ok intervals => .ok intervals
    | .error fault => .error (.covering fault)
  let covering ← match bucket, field.option with
    | false, .spherical | true, .sphericalBucket => do
      cover (b.coverer.spherical (← region "spherical" geometry.spherical) index)
    | false, .planar => do
      cover (b.coverer.planar (← region "planar" geometry.planar) index b.settings.maxPlanarCells)
    | _, _ => .error (.notGeoField p field)
  return (← unionOf covering, .inexactFetch)

/-- The two negations whose bounds are not the complement of the child's: a missing field is stored as
null, and what is neither null nor empty is found by leaving out their keys. -/
def absence? (child : Predicate) (field : IndexedField) (index : Index) :
    Option (Derivation FieldBounds) :=
  let hashed := field.option.isHashed
  match child with
  | .present _ =>
    some <|
      if index.sparse then .fail (.sparseAbsence index.name)
      else constant field.name (nullBounds hashed)
  | .isIn _ members =>
    if members.isNullAndEmptyArray then
      some <| constant field.name do
        let (nulls, _) ← nullBounds hashed
        let rest := (IntervalList.mk field.name (nulls ++ [.emptyArrayPoint])).complement
        return (← unionOf rest.intervals, .inexactFetch)
    else none
  | _ => none

/-- The complement of a child's bounds.  It is refused when the bounds may hold keys that do not satisfy
the child.  Bounds for null are taken as exact, since the negation excludes missing fields as well, and
collated bounds are inexact only for the documents behind their keys.  On a multikey path a document
satisfies a negation by all of its elements. -/
def negate (child : Predicate) (field : IndexedField) (index : Index) (bounds : FieldBounds) :
    Derivation FieldBounds := do
  let list := bounds.1.complement
  .report .complement
  let tightness := if child.isEqualityOrInNull then .exact else bounds.2
  if tightness != .exact && index.collator.isNone then .fail (.inexactComplement child list)
  else return (list, if index.isMultikeyPath field.name then .inexactFetch else tightness)

/-- The bounds of a predicate without subpredicates. -/
def leaf (b : Builder) (p : Predicate) (field : IndexedField) (index : Index) :
    Derivation FieldBounds :=
  let hashed := field.option.isHashed
  match p with
  | .present _ =>
    -- a sparse index on several fields holds documents that lack some of them
    let tightness := if index.sparse && index.pattern.size == 1 then .exact else .inexactFetch
    constant field.name (.ok ([.allValues], tightness))
  | .comparison _ op operand => evaluated p field.name (comparisonBounds op operand index hashed)
  | .exprComparison _ op operand =>
    if op = .eq then constant field.name (equalityBounds operand index hashed)
    else if index.isMultikeyPath field.name then .fail (.multikeyPath p field.name)
    else constant field.name (.ok (exprBounds op operand index))
  | .regex _ term => evaluated p field.name (.ok (term.bounds index.collator.isSome))
  | .mod .. => constant field.name (.ok ([TypeTag.double.bracket], .inexactCovered))
  | .hasType _ types => evaluated p field.name (typeBounds types index)
  | .isIn _ members => evaluated p field.name (membershipBounds members index hashed)
  | .geo _ geometry => constant field.name (b.cells p geometry false field index)
  | .bucketGeo _ geometry => constant field.name (b.cells p geometry true field index)
  | .elemMatch .. | .not _ => .fail (.noChildren p)

mutual

/-- The list of a predicate on a field, with the steps that lead to it. -/
def derive (b : Builder) (field : IndexedField) (index : Index) (p : Predicate) :
    Derivation FieldBounds :=
  if field.option.isHashed && !p.isHashable then .fail (.hashedField p field.name)
  else
    match p with
    | .elemMatch path children => do
      match children with
      | [] => .fail (.noChildren (.elemMatch path []))
      | first :: rest =>
        let (list, _) ← derive b field index first
        let list ← deriveAll b field index list rest
        -- a key does not tell whether it came from an array
        return (list, .inexactFetch)
    | .not child =>
      match absence? child field index with
      | some derivation => derivation
      | none => do
        let bounds ← derive b field index child
        negate child field index bounds
    | p => leaf b p field index

/-- Intersects a list with the lists of more predicates. -/
def deriveAll (b : Builder) (field : IndexedField) (index : Index) (list : IntervalList) :
    List Predicate → Derivation IntervalList
  | [] => return list
  | p :: rest => do
    let (next, _) ← derive b field index p
    let list ← ofDisorder (next.intersect list)
    .report .intersect
    deriveAll b field index list rest

end

/-! ## The bounds for an index -/

/-- The result for the index: on a wildcard index the adjuster may replace the list and loosen, never
tighten, the result. -/
def adjusted (b : Builder) (index : Index) (bounds : FieldBounds) : FieldBounds :=
  if index.kind = .wildcard then
    let (list, tightness) := b.adjuster.adjust index bounds.2 bounds.1
    (list, tightness.combine bounds.2)
  else bounds

def failureEntry (p : Predicate) (field : IndexedField) (index : Index) (refusal : Refusal) : LogEntry :=
  .ofEvent .boundsRefused
    [("error", refusal.fault.text), ("expression", p.text), ("field", field.name), ("index", index.name)]

def adjustmentEntry (index : Index) (list : IntervalList) (before after : Tightness) : LogEntry :=
  .ofEvent .wildcardAdjusted
    [("bounds", list.text), ("from", before.text), ("index", index.name), ("to", after.text)]

/-- The bounds of a predicate for a field of an index. -/
def bounds (b : Builder) (p : Predicate) (field : IndexedField) (index : Index) :
    Traced LogEntry Refusal FieldBounds :=
  match (b.derive field index p).result with
  | .error refusal =>
    ⟨if b.settings.logFailures then [failureEntry p field index refusal] else [], .error refusal⟩
  | .ok bounds =>
    let result := b.adjusted index bounds
    ⟨if result.2 != bounds.2 && b.settings.logAdjustments then
        [adjustmentEntry index result.1 bounds.2 result.2]
      else [],
      .ok result⟩

/-- The steps that deriving the bounds of a predicate reports. -/
def steps (b : Builder) (p : Predicate) (field : IndexedField) (index : Index) : List Step :=
  (b.derive field index p).reports

/-- Whether the index key alone can settle the predicate, on whichever field. -/
def coversMatching (b : Builder) (p : Predicate) (index : Index) : Traced LogEntry Refusal Bool := do
  let (_, tightness) ← b.bounds p ⟨"", .ascending⟩ index
  return tightness ≤ .inexactCovered

/-! ## Siblings -/

/-- A list after a further predicate on its field, failed or not. -/
structure Joined where
  list : IntervalList
  steps : List Step
  outcome : Traced LogEntry Refusal Tightness

/-- Intersects the list with the bounds of one more predicate. -/
def narrow (b : Builder) (p : Predicate) (field : IndexedField) (index : Index) (list : IntervalList) :
    Joined :=
  let steps := b.steps p field index
  let derived := b.bounds p field index
  match derived.result with
  | .error refusal => ⟨list, steps, ⟨derived.reports, .error refusal⟩⟩
  | .ok (next, tightness) =>
    match next.intersect list with
    | .error d => ⟨list, steps, ⟨derived.reports, .error (.disorder d)⟩⟩
    | .ok both => ⟨both, steps ++ [.intersect], ⟨derived.reports, .ok tightness⟩⟩

/-- Adds the bounds of one more predicate to the list.  When they cannot be merged, the list keeps them
as far as they were. -/
def widen (b : Builder) (p : Predicate) (field : IndexedField) (index : Index) (list : IntervalList) :
    Joined :=
  let steps := b.steps p field index
  let derived := b.bounds p field index
  match derived.result with
  | .error refusal => ⟨list, steps, ⟨derived.reports, .error refusal⟩⟩
  | .ok (next, tightness) =>
    let merged := (IntervalList.mk list.field (list.intervals ++ next.intervals)).merged
    match merged.disorder with
    | some d => ⟨merged.list, steps, ⟨derived.reports, .error (.disorder d)⟩⟩
    | none => ⟨merged.list, steps ++ [.union], ⟨derived.reports, .ok tightness⟩⟩

end Builder

end ScanBounds

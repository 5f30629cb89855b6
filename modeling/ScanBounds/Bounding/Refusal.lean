import ScanBounds.Index.Basic
import ScanBounds.Interval.SetOps
import ScanBounds.Predicate.Writer

/-!
# Why a predicate has no bounds

The reasons for which a predicate is refused bounds.  Bounds that are merely imprecise are no reason: they are
given, with their tightness.
-/

namespace ScanBounds

inductive Refusal where
  /-- The predicate asks more of a hashed field than equality and existence. -/
  | hashedField (p : Predicate) (field : String)
  /-- A hashed field holds digests of elements, so no array equals its key. -/
  | hashedArray (operand : Value)
  | noChildren (p : Predicate)
  /-- A comparison of the expression language is about the whole array, and the keys are of its
  elements. -/
  | multikeyPath (p : Predicate) (field : String)
  /-- A sparse index leaves out the very documents that are asked for. -/
  | sparseAbsence (index : String)
  /-- The complement of bounds that hold too much holds too little. -/
  | inexactComplement (child : Predicate) (complement : IntervalList)
  | noRegion (p : Predicate) (shape : String)
  | notGeoField (p : Predicate) (field : IndexedField)
  | disorder (d : Disorder)
  /-- Whoever covers regions has failed. -/
  | covering (fault : Fault)

namespace Refusal

def fault : Refusal → Fault
  | hashedField p field =>
    ⟨.precondition, p.kindName ++ " cannot use hashed field '" ++ field ++ "'", some p.text⟩
  | hashedArray operand => ⟨.precondition, "array equality cannot use a hashed field", some operand.text⟩
  | noChildren p => ⟨.unsupported, "$elemMatch without children", some p.text⟩
  | multikeyPath p field =>
    ⟨.precondition, "expression comparison on multikey path '" ++ field ++ "' cannot use an index",
      some p.text⟩
  | sparseAbsence index =>
    ⟨.precondition, "$exists: false cannot use sparse index '" ++ index ++ "'", none⟩
  | inexactComplement child complement =>
    ⟨.invariant, "cannot invert inexact bounds",
      some ("$not (" ++ child.text ++ ") -> " ++ complement.text)⟩
  | noRegion p shape => ⟨.unsupported, "geo predicate has no " ++ shape ++ " region", some p.text⟩
  | notGeoField p field =>
    ⟨.unsupported, "cannot build geo bounds for index element " ++ field.name ++ ": " ++
      field.option.label, some p.text⟩
  | disorder d => d.fault
  | covering fault => fault

end Refusal

end ScanBounds

import ScanBounds.Json.Basic
import ScanBounds.Predicate.InList
import ScanBounds.Value.TypeSet

/-!
# Predicates on one field

A predicate names the path that it is about; a negation is about its child's path.
-/

namespace ScanBounds

inductive ComparisonOp where
  | eq
  | lt
  | lte
  | gt
  | gte
deriving DecidableEq, Repr

namespace ComparisonOp

def name : ComparisonOp → String
  | eq => "$eq"
  | lt => "$lt"
  | lte => "$lte"
  | gt => "$gt"
  | gte => "$gte"

/-- The name of the operator in the expression language. -/
def exprName : ComparisonOp → String
  | eq => "$_internalExprEq"
  | lt => "$_internalExprLt"
  | lte => "$_internalExprLte"
  | gt => "$_internalExprGt"
  | gte => "$_internalExprGte"

end ComparisonOp

/-- The region of a geo predicate, in the plane, on the sphere, or in both forms. -/
structure Geometry where
  planar : Option Json
  spherical : Option Json

inductive Predicate where
  /-- Matches values of the operand's bracket only. -/
  | comparison (path : String) (op : ComparisonOp) (operand : Value)
  /-- A comparison of the expression language: across brackets, and a missing field is below null. -/
  | exprComparison (path : String) (op : ComparisonOp) (operand : Value)
  | regex (path : String) (term : RegexTerm)
  | isIn (path : String) (members : InList)
  | hasType (path : String) (types : TypeSet)
  /-- The field exists. -/
  | present (path : String)
  | mod (path : String) (divisor remainder : Int64)
  | not (child : Predicate)
  /-- Some element of an array satisfies all children. -/
  | elemMatch (path : String) (children : List Predicate)
  | geo (path : String) (geometry : Geometry)
  /-- Containment over buckets of measurements. -/
  | bucketGeo (path : String) (geometry : Geometry)

namespace Predicate

def path : Predicate → String
  | comparison path .. | exprComparison path .. | regex path _ | isIn path _ | hasType path _
  | present path | mod path .. | elemMatch path _ | geo path _ | bucketGeo path _ => path
  | not child => child.path

/-- The name of the predicate's operator. -/
def kindName : Predicate → String
  | comparison _ op _ => op.name
  | exprComparison _ op _ => op.exprName
  | regex .. => "$regex"
  | isIn .. => "$in"
  | hasType .. => "$type"
  | present _ => "$exists"
  | mod .. => "$mod"
  | not _ => "$not"
  | elemMatch .. => "$elemMatch"
  | geo .. => "$geoWithin"
  | bucketGeo .. => "$_internalBucketGeoWithin"

/-- Equality to null, in any of the three forms that mean it, or membership in a list with null. -/
def isEqualityOrInNull : Predicate → Bool
  | comparison _ .eq operand | comparison _ .lte operand | comparison _ .gte operand => operand.isNull
  | isIn _ members => members.hasNull
  | _ => false

/-- What a hashed field can answer: equality, membership without regular expressions, and existence. -/
def isHashable : Predicate → Bool
  | comparison _ .eq _ | exprComparison _ .eq _ | present _ | not (present _) => true
  | isIn _ members => members.regexes.isEmpty
  | _ => false

end Predicate

end ScanBounds

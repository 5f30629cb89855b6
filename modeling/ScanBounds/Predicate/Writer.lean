import ScanBounds.Json.Writer
import ScanBounds.Predicate.Basic
import ScanBounds.Value.Writer

/-!
# The text of a predicate
-/

namespace ScanBounds

/-- The spherical form is shown if there is one. -/
def Geometry.text (geometry : Geometry) : String :=
  match geometry.spherical <|> geometry.planar with
  | some region => region.text
  | none => "<no region>"

def InList.text (members : InList) : String :=
  "[" ++ ", ".intercalate (members.literals.map Value.text ++ members.regexes.map RegexTerm.text) ++ "]"

namespace Predicate

mutual

def text : Predicate → String
  | comparison path op operand => path ++ " " ++ op.name ++ " " ++ operand.text
  | exprComparison path op operand => path ++ " " ++ op.exprName ++ " " ++ operand.text
  | regex path term => path ++ " $regex " ++ term.text
  | isIn path members => path ++ " $in " ++ members.text
  | hasType path types => path ++ " $type [" ++ ", ".intercalate types.names ++ "]"
  | present path => path ++ " $exists true"
  | mod path divisor remainder =>
    path ++ " $mod [" ++ toString divisor.toInt ++ ", " ++ toString remainder.toInt ++ "]"
  | not child => "$not (" ++ child.text ++ ")"
  | elemMatch path children => path ++ " $elemMatch (" ++ ", ".intercalate (childTexts children) ++ ")"
  | geo path geometry => path ++ " $geoWithin " ++ geometry.text
  | bucketGeo path geometry => path ++ " $_internalBucketGeoWithin " ++ geometry.text

def childTexts : List Predicate → List String
  | [] => []
  | child :: rest => text child :: childTexts rest

end

end Predicate

end ScanBounds

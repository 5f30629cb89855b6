/-!
# Types and their brackets

Every value has a type, and every type sorts in one *bracket*.  Values of different brackets never
interleave, whatever they hold.  The four numeric types share a bracket, and so do strings and symbols.
-/

namespace ScanBounds

/-- The types, in the order of their brackets. -/
inductive TypeTag where
  | minKey
  | undefined
  | null
  | int
  | long
  | double
  /-- A name for type predicates only: no value has this type. -/
  | decimal
  | string
  | symbol
  | object
  | array
  | binData
  | objectId
  | bool
  | date
  | timestamp
  | regex
  | code
  | codeWithScope
  | maxKey
deriving DecidableEq, Repr

namespace TypeTag

def all : List TypeTag :=
  [minKey, undefined, null, int, long, double, decimal, string, symbol, object, array, binData,
   objectId, bool, date, timestamp, regex, code, codeWithScope, maxKey]

/-- The place of the type's bracket among all brackets. -/
def rank : TypeTag → Int
  | minKey => -1
  | undefined => 0
  | null => 5
  | int | long | double | decimal => 10
  | string | symbol => 15
  | object => 20
  | array => 25
  | binData => 30
  | objectId => 35
  | bool => 40
  | date => 45
  | timestamp => 47
  | regex => 50
  | code => 60
  | codeWithScope => 65
  | maxKey => 127

def isNumber : TypeTag → Bool
  | int | long | double | decimal => true
  | _ => false

/-- Types without a greatest value: their bracket ends where the next one starts. -/
def isVariableWidth : TypeTag → Bool
  | string | symbol | object | array | binData | regex | code | codeWithScope => true
  | _ => false

/-- The name by which a type predicate mentions the type. -/
def name : TypeTag → String
  | minKey => "minKey"
  | undefined => "undefined"
  | null => "null"
  | int => "int"
  | long => "long"
  | double => "double"
  | decimal => "decimal"
  | string => "string"
  | symbol => "symbol"
  | object => "object"
  | array => "array"
  | binData => "binData"
  | objectId => "objectId"
  | bool => "bool"
  | date => "date"
  | timestamp => "timestamp"
  | regex => "regex"
  | code => "javascript"
  | codeWithScope => "javascriptWithScope"
  | maxKey => "maxKey"

def ofName? (name : String) : Option TypeTag := all.find? (·.name == name)

end TypeTag

end ScanBounds

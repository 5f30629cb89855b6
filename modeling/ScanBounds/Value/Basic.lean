import ScanBounds.Value.Number
import ScanBounds.Value.TypeTag

/-!
# Document values

The values that index keys and predicate operands are made of.  Objects keep their fields in document
order and may repeat a name.  An object identifier is its twelve bytes read as one big-endian number, so
that its order is the order of the number.
-/

namespace ScanBounds

inductive Value where
  | minKey
  | undefined
  | null
  | number (n : Number)
  | symbol (s : String)
  | string (s : String)
  | object (fields : List (String × Value))
  | array (items : List Value)
  | binData (subtype : UInt8) (bytes : List UInt8)
  | objectId (id : BitVec 96)
  | bool (b : Bool)
  /-- Milliseconds since the epoch. -/
  | date (millis : Int64)
  /-- Seconds in the upper half of the word, an ordinal in the lower. -/
  | timestamp (t : UInt64)
  | regex (pattern flags : String)
  | code (source : String)
  | codeWithScope (source : String) (scope : List (String × Value))
  | maxKey
deriving Inhabited

namespace Value

def int (n : Int32) : Value := number (.int n)

def long (n : Int64) : Value := number (.long n)

def double (d : Double) : Value := number (.double d)

def tag : Value → TypeTag
  | minKey => .minKey
  | undefined => .undefined
  | null => .null
  | number (.int _) => .int
  | number (.long _) => .long
  | number (.double _) => .double
  | symbol _ => .symbol
  | string _ => .string
  | object _ => .object
  | array _ => .array
  | binData .. => .binData
  | objectId _ => .objectId
  | bool _ => .bool
  | date _ => .date
  | timestamp _ => .timestamp
  | regex .. => .regex
  | code _ => .code
  | codeWithScope .. => .codeWithScope
  | maxKey => .maxKey

/-- The bracket that the value sorts in. -/
def rank (v : Value) : Int := v.tag.rank

def isNumber : Value → Bool
  | number _ => true
  | _ => false

def isNaN : Value → Bool
  | number n => n.isNaN
  | _ => false

def isNull : Value → Bool
  | null => true
  | _ => false

def isMinKey : Value → Bool
  | minKey => true
  | _ => false

def isMaxKey : Value → Bool
  | maxKey => true
  | _ => false

def isArray : Value → Bool
  | array _ => true
  | _ => false

def isEmptyArray : Value → Bool
  | array items => items.isEmpty
  | _ => false

end Value

end ScanBounds

import ScanBounds.Value.Basic

/-!
# Where a bracket starts and ends

Every bracket has a least value.  Where values can be lengthened without end there is no greatest one,
and the bracket is bounded by the least value of the next.
-/

namespace ScanBounds.TypeTag

/-- The least value of the type's bracket; of numbers it is NaN. -/
def least : TypeTag → Value
  | minKey => .minKey
  | undefined => .undefined
  | null => .null
  | int | long | double | decimal => .double .nan
  | string | symbol => .string ""
  | object => .object []
  | array => .array []
  | binData => .binData 0 []
  | objectId => .objectId 0
  | bool => .bool false
  | date => .date Int64.minValue
  | timestamp => .timestamp 0
  | regex => .regex "" ""
  | code => .code ""
  | codeWithScope => .codeWithScope "" []
  | maxKey => .maxKey

/-- The greatest value of the type's bracket, or the least value of the next bracket if there is none. -/
def upper : TypeTag → Value
  | minKey => .minKey
  | undefined => .undefined
  | null => .null
  | int | long | double | decimal => .double .infinity
  | string | symbol => object.least
  | object => array.least
  | array => binData.least
  | binData => objectId.least
  | objectId => .objectId (BitVec.allOnes 96)
  | bool => .bool true
  | date => .date Int64.maxValue
  | timestamp => .timestamp (UInt64.ofNat (Nat.pow 2 64 - 1))
  | regex => code.least
  | code => codeWithScope.least
  | codeWithScope => maxKey.least
  | maxKey => .maxKey

end ScanBounds.TypeTag

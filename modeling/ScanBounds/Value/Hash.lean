import ScanBounds.Digest.Sha256
import ScanBounds.Value.Writer

/-!
# Hash keys

A hashed index stores a digest of each value.  The value is first laid out as bytes: its bracket, then
its content, with a length before everything that can vary in length.  Numbers enter as folded integers,
strings and symbols as their text, so that equal values of different types have one key.
-/

namespace ScanBounds.Value

/-- The bytes of `n` modulo `256 ^ width`, least significant first. -/
def littleEndian (width : Nat) (n : Nat) : List UInt8 :=
  (List.range width).map fun i => (n / Nat.pow 256 i).toUInt8

def rankBytes (v : Value) : List UInt8 := littleEndian 4 (BitVec.ofInt 32 v.rank).toNat

def textBytes (s : String) : List UInt8 :=
  let bytes := s.toUTF8.toList
  littleEndian 8 bytes.length ++ bytes

mutual

/-- The content of a value as bytes. -/
def contentBytes : Value → List UInt8
  | minKey | maxKey | undefined | null => []
  | number n => littleEndian 8 n.fold.toUInt64.toNat
  | string s | symbol s | code s => textBytes s
  | object fields => littleEndian 8 fields.length ++ fieldBytes fields
  | array items => littleEndian 8 items.length ++ itemBytes items
  | binData subtype bytes => subtype :: (littleEndian 8 bytes.length ++ bytes)
  | objectId id => idBytes id
  | bool b => [if b then 1 else 0]
  | date millis => littleEndian 8 millis.toUInt64.toNat
  | timestamp t => littleEndian 8 t.toNat
  | regex pattern flags => textBytes pattern ++ textBytes flags
  | codeWithScope source scope =>
    textBytes source ++ littleEndian 8 scope.length ++ fieldBytes scope

def itemBytes : List Value → List UInt8
  | [] => []
  | item :: rest => rankBytes item ++ contentBytes item ++ itemBytes rest

def fieldBytes : List (String × Value) → List UInt8
  | [] => []
  | (name, value) :: rest =>
    textBytes name ++ rankBytes value ++ contentBytes value ++ fieldBytes rest

end

/-- The bytes that are digested for a value: its bracket, then its content. -/
def hashInput (v : Value) : List UInt8 := rankBytes v ++ contentBytes v

/-- The key that a hashed index stores: the first eight bytes of the digest as one integer. -/
def hashKey (v : Value) : Value :=
  let word := ((Sha256.digest v.hashInput).take 8).foldr (fun byte n => 256 * n + byte.toNat) 0
  long (Int64.ofNat word)

end ScanBounds.Value

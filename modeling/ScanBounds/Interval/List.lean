import ScanBounds.Interval.Position
import ScanBounds.Value.Hash

/-!
# Interval lists

What one indexed field is allowed to be.  A list is *canonical* when its intervals ascend and no two of
them overlap or touch; every list that is handed out is.
-/

namespace ScanBounds

structure IntervalList where
  field : String
  intervals : List Interval
deriving Inhabited

/-! ## Keys of values that are not there

A missing field is stored as null, and an empty array as undefined; a hashed field stores the digests of
these. -/

namespace Interval

def undefinedPoint (hashed : Bool) : Interval :=
  point (if hashed then Value.undefined.hashKey else .undefined)

def nullPoint (hashed : Bool) : Interval :=
  point (if hashed then Value.null.hashKey else .null)

def emptyArrayPoint : Interval := point (.array [])

end Interval

namespace IntervalList

instance : BEq IntervalList where
  beq l m := l.field == m.field && l.intervals == m.intervals

def allValues (field : String) : IntervalList := ⟨field, [.allValues]⟩

def isEmpty (l : IntervalList) : Bool := l.intervals.isEmpty

def push (l : IntervalList) (i : Interval) : IntervalList := ⟨l.field, l.intervals ++ [i]⟩

/-- For a scan the other way: the last interval comes first, and each is turned around. -/
def reverse (l : IntervalList) : IntervalList := ⟨l.field, l.intervals.reverse.map .reverse⟩

/-- Whether the list is the two keys that an equality to null can hit. -/
def isNullOnly (l : IntervalList) : Bool :=
  l.intervals == [.undefinedPoint false, .nullPoint false]

def isNullAndEmptyArrayOnly (l : IntervalList) : Bool :=
  l.intervals == [.undefinedPoint false, .nullPoint false, .emptyArrayPoint]

/-- Whether each interval lies before the next without touching it. -/
def areApart : List Interval → Bool
  | i :: j :: rest => i.position j == .precedes && areApart (j :: rest)
  | _ => true

def isCanonical (l : IntervalList) : Bool :=
  l.intervals.all (fun i => decide (i.start < i.stop) || i.isPoint) && areApart l.intervals

def text (l : IntervalList) : String :=
  l.field ++ ": " ++ ", ".intercalate (l.intervals.map Interval.text)

end IntervalList

end ScanBounds

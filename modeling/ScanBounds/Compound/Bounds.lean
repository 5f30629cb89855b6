import ScanBounds.Event
import ScanBounds.Index.Basic
import ScanBounds.Interval.SetOps

/-!
# Bounds of several fields

One interval list for each field of a key pattern, in its order.  A scan walks some fields backwards;
before it starts, the lists of those are turned around, and then every list must run the way the scan
moves.
-/

namespace ScanBounds

structure CompoundBounds where
  lists : List IntervalList

/-- Why bounds cannot be scanned. -/
inductive Misalignment where
  | direction (dir : Int)
  | fieldCount (count : Nat) (pattern : KeyPattern)
  | invalid (bounds : CompoundBounds)

namespace CompoundBounds

def text (b : CompoundBounds) : String :=
  if b.lists.isEmpty then "\x7b\x7d"
  else "\x7b " ++ "; ".intercalate (b.lists.map IntervalList.text) ++ " \x7d"

/-- Which way from `v` to `w`: 1 up, −1 down, 0 for equal values. -/
def directionBetween (v w : Value) : Int :=
  match v.compare w with
  | .lt => 1
  | .eq => 0
  | .gt => -1

/-- Whether an interval runs the way `dir`; points run every way. -/
def intervalRuns (dir : Int) (i : Interval) : Bool :=
  i.isPoint || directionBetween i.start i.stop == dir

/-- Whether each interval lies from the one before it the way `dir`; they may share an end that not both
include. -/
def neighboursRun (dir : Int) : List Interval → Bool
  | i :: j :: rest =>
    let between := directionBetween i.stop j.start
    (between == dir || (between == 0 && !(j.startInclusive && i.stopInclusive))) &&
      neighboursRun dir (j :: rest)
  | _ => true

def listRuns (dir : Int) (field : IndexedField) (list : IntervalList) : Bool :=
  let expected := dir * field.option.direction
  list.field == field.name && list.intervals.all (intervalRuns expected) &&
    neighboursRun expected list.intervals

/-- Whether a scan of the pattern in direction `dir` can walk these bounds. -/
def isValidFor (b : CompoundBounds) (pattern : KeyPattern) (dir : Int) : Bool :=
  b.lists.length == pattern.size && (b.lists.zip pattern.fields).all fun (list, field) =>
    listRuns dir field list

/-- All keys of a field. -/
def allValuesOf (field : IndexedField) : IntervalList := .allValues field.name

/-- Bounds after an attempt to align them; they may have been turned around in vain. -/
structure Aligned where
  bounds : CompoundBounds
  reports : List LogEntry
  misalignment : Option Misalignment

def invalidEntry (b : CompoundBounds) (pattern : KeyPattern) (dir : Int) : LogEntry :=
  .ofEvent .boundsInvalid
    [("bounds", b.text), ("key_pattern", pattern.text), ("scan_direction", toString dir)]

/-- Turns around the lists of the fields that a scan in direction `dir` walks backwards, and checks the
outcome. -/
def align (b : CompoundBounds) (pattern : KeyPattern) (dir : Int) : Aligned :=
  if dir != 1 && dir != -1 then ⟨b, [], some (.direction dir)⟩
  else if b.lists.length != pattern.size then
    ⟨b, [], some (.fieldCount b.lists.length pattern)⟩
  else
    let lists := (b.lists.zip pattern.fields).map fun (list, field) =>
      if field.option.direction * dir = -1 then list.reverse else list
    let turned : CompoundBounds := ⟨lists⟩
    if turned.isValidFor pattern dir then ⟨turned, [], none⟩
    else ⟨turned, [turned.invalidEntry pattern dir], some (.invalid turned)⟩

/-- All keys of an index, for a forward scan. -/
def allValues (pattern : KeyPattern) : Aligned :=
  align ⟨pattern.fields.map allValuesOf⟩ pattern 1

end CompoundBounds

def Misalignment.fault : Misalignment → Fault
  | direction dir => ⟨.precondition, "scan direction must be 1 or -1, got " ++ toString dir, none⟩
  | fieldCount count pattern =>
    ⟨.precondition, toString count ++ " interval lists for key pattern " ++ pattern.text, none⟩
  | invalid bounds => ⟨.invariant, "invalid bounds", some bounds.text⟩

end ScanBounds

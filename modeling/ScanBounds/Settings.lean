import ScanBounds.Json.Tree

/-!
# Settings

Three settings, each with a default, read from a JSON object by name or from a JSON array by position.
Names that are not settings are passed over, and what they hold only has to be well-formed text; a setting
given twice, or of the wrong form, makes the whole text malformed.
-/

namespace ScanBounds

structure Settings where
  /-- How many cells a planar region may be covered by. -/
  maxPlanarCells : Nat := 16
  /-- Whether a refusal is logged. -/
  logFailures : Bool := true
  /-- Whether it is logged that a wildcard index has loosened a result. -/
  logAdjustments : Bool := false
deriving DecidableEq, Repr

inductive SettingsError where
  /-- The text does not have the form of settings. -/
  | malformed
  | noCells
deriving DecidableEq, Repr

namespace Settings

open Json

/-- For callers that report failures themselves. -/
def quiet : Settings := { logFailures := false }

/-- What a text has set so far. -/
structure Draft where
  cells : Option Nat := none
  failures : Option Bool := none
  adjustments : Option Bool := none

def Draft.complete (p : Draft) : Settings where
  maxPlanarCells := p.cells.getD 16
  logFailures := p.failures.getD true
  logAdjustments := p.adjustments.getD false

/-- Only digits make a count, and it fits in sixty-four bits. -/
def cells? : Tree → Option Nat
  | .numeral ⟨false, whole, none, none⟩ =>
    let n := Numeral.digitsValue whole
    if n < Nat.pow 2 64 then some n else none
  | _ => none

def flag? : Tree → Option Bool
  | .bool b => some b
  | _ => none

/-- Takes one member of an object. -/
def Draft.member? (p : Draft) (member : List Piece × Tree) : Option Draft := do
  match ← Tree.text? member.1 with
  | "max_covering_cells_2d" =>
    if p.cells.isSome then none else return { p with cells := some (← cells? member.2) }
  | "log_translation_failures" =>
    if p.failures.isSome then none else return { p with failures := some (← flag? member.2) }
  | "log_wildcard_adjustments" =>
    if p.adjustments.isSome then none else return { p with adjustments := some (← flag? member.2) }
  | _ => return p

/-- Settings by position; the ones at the end may be left out. -/
def ofItems? : List Tree → Option Draft
  | [] => some {}
  | [a] => do return { cells := some (← cells? a) }
  | [a, b] => do return { cells := some (← cells? a), failures := some (← flag? b) }
  | [a, b, c] => do
    return { cells := some (← cells? a), failures := some (← flag? b), adjustments := some (← flag? c) }
  | _ => none

def ofTree? : Tree → Option Settings
  | .object members => (members.foldlM Draft.member? {}).map Draft.complete
  | .array items => (ofItems? items).map Draft.complete
  | _ => none

/-- A planar region needs at least one cell. -/
def validate (settings : Settings) : Except SettingsError Settings :=
  if settings.maxPlanarCells = 0 then .error .noCells else .ok settings

def read (text : String) : Except SettingsError Settings :=
  match Tree.read? text >>= ofTree? with
  | some settings => settings.validate
  | none => .error .malformed

end Settings

/-- The sentence for settings that were read but are refused. -/
def SettingsError.message : SettingsError → String
  | malformed => "Malformed bounds builder config"
  | noCells => "Invalid bounds builder config: max_covering_cells_2d must be greater than 0"

end ScanBounds

import ScanBounds.Text.Lowercase
import ScanBounds.Value.Basic

/-!
# Collation keys

An index with a collation does not store a string but the key the string sorts by.  Bounds for such an
index speak about keys, so every operand goes through the same map as the stored values: strings,
also those inside arrays and objects, and nothing else.
-/

namespace ScanBounds

/-- Sends a string to the key that it sorts by. -/
structure Collator where
  key : String → String

/-- Collations simple enough to be named. -/
inductive CollatorKind where
  /-- Sorts strings by their characters read backwards. -/
  | reversed
  /-- Sorts strings by their lower case. -/
  | lowercase
  /-- Holds all strings equal. -/
  | constant
deriving DecidableEq, Repr

def CollatorKind.collator : CollatorKind → Collator
  | reversed => ⟨fun s => String.ofList s.toList.reverse⟩
  | lowercase => ⟨Text.lowercase⟩
  | constant => ⟨fun _ => ""⟩

namespace Value

mutual

/-- Replaces every string of a value by its key. -/
def collate (key : String → String) : Value → Value
  | string s => string (key s)
  | array items => array (collateItems key items)
  | object fields => object (collateFields key fields)
  | v => v

def collateItems (key : String → String) : List Value → List Value
  | [] => []
  | item :: rest => collate key item :: collateItems key rest

def collateFields (key : String → String) : List (String × Value) → List (String × Value)
  | [] => []
  | (name, value) :: rest => (name, collate key value) :: collateFields key rest

end

/-- The form in which an index with this collation stores the value. -/
def indexKey (collator : Option Collator) (v : Value) : Value :=
  match collator with
  | none => v
  | some c => v.collate c.key

mutual

/-- Whether the value is or holds a string, at any depth of arrays and objects. -/
def isCollatable : Value → Bool
  | string _ => true
  | array items => anyItemCollatable items
  | object fields => anyFieldCollatable fields
  | _ => false

def anyItemCollatable : List Value → Bool
  | [] => false
  | item :: rest => isCollatable item || anyItemCollatable rest

def anyFieldCollatable : List (String × Value) → Bool
  | [] => false
  | (_, value) :: rest => isCollatable value || anyFieldCollatable rest

end

end Value

end ScanBounds

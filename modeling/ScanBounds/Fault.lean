/-!
# Faults

Whatever goes wrong here is a defect of the caller or of this library, never of the data.  Each operation
has a type of its own for the causes of its failure; a `Fault` is what every cause is reported as: the
kind of promise that was broken, a sentence, and perhaps the text of the offending input.
-/

namespace ScanBounds

inductive FaultKind where
  /-- Intervals are not in the order they must be in. -/
  | invariant
  /-- A predicate and an index that must not meet. -/
  | precondition
  /-- A predicate of a shape that should have been refused before. -/
  | unsupported
deriving DecidableEq, Repr

namespace FaultKind

def code : FaultKind → String
  | invariant => "AERO_BOUNDS_INVARIANT_VIOLATION"
  | precondition => "AERO_BOUNDS_PRECONDITION_VIOLATION"
  | unsupported => "AERO_BOUNDS_UNSUPPORTED_PREDICATE"

/-- The promise that a fault of this kind breaks. -/
def guarantee : FaultKind → String
  | invariant => "canonical interval order"
  | precondition => "index contract"
  | unsupported => "validated predicate shape"

end FaultKind

structure Fault where
  kind : FaultKind
  message : String
  /-- The text of what the fault was found in. -/
  context : Option String
deriving DecidableEq, Repr

namespace Fault

/-- Every fault stops the planning that met it. -/
def severity (_ : Fault) : String := "FATAL"

def text (fault : Fault) : String :=
  let context := match fault.context with
    | some context => " (" ++ context ++ ")"
    | none => ""
  "[" ++ fault.severity ++ "] " ++ fault.kind.code ++ ": " ++ fault.message ++ context ++
    " [violates " ++ fault.kind.guarantee ++ "]"

end Fault

end ScanBounds

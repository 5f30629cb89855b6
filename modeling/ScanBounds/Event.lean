import ScanBounds.Json.Writer
import ScanBounds.Sorting

/-!
# Events and log lines

One line of JSON for one event, written at once.  The fields of a line are sorted by name, so that equal
events give equal lines.
-/

namespace ScanBounds

inductive Severity where
  | trace
  | info
  | warn
  | error
  | fatal
deriving DecidableEq, Repr

namespace Severity

def name : Severity → String
  | trace => "TRACE"
  | info => "INFO"
  | warn => "WARN"
  | error => "ERROR"
  | fatal => "FATAL"

/-- Errors and worse go to the error stream. -/
def isError : Severity → Bool
  | error | fatal => true
  | _ => false

end Severity

inductive Event where
  | boundsRefused
  | boundsInvalid
  | wildcardAdjusted
deriving DecidableEq, Repr

namespace Event

def name : Event → String
  | boundsRefused => "BOUNDS_TRANSLATE_FAILED"
  | boundsInvalid => "BOUNDS_INVALID"
  | wildcardAdjusted => "BOUNDS_WILDCARD_ADJUSTED"

def severity : Event → Severity
  | boundsRefused => .error
  | boundsInvalid => .fatal
  | wildcardAdjusted => .trace

def isFatal (event : Event) : Bool := event.severity = .fatal

end Event

structure LogEntry where
  severity : Severity
  event : String
  fields : List (String × String)
deriving DecidableEq, Repr

namespace LogEntry

def ofEvent (event : Event) (fields : List (String × String)) : LogEntry :=
  ⟨event.severity, event.name, fields⟩

/-- The line of an entry, without its end: the event, its severity, then the fields in the order of
their names; of fields with one name the order is kept. -/
def line (entry : LogEntry) : String :=
  let fields := Sorting.sort (fun x y => decide (x.1 ≤ y.1)) entry.fields
  (Json.object (("event", .string entry.event) :: ("severity", .string entry.severity.name) ::
    fields.map fun (name, value) => (name, .string value))).text

end LogEntry

end ScanBounds

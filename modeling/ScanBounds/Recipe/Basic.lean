import ScanBounds.Bounding.Builder

/-!
# Recipes

A recipe is a tree of the steps by which a list was built.  Kept with a plan, it rebuilds the list when the
plan is used again with other operands.  Steps come in postfix order, so a recipe is put together on a
stack; a step that finds too little on the stack is remembered and spoils the whole recording.
-/

namespace ScanBounds

inductive Recipe where
  | const (list : IntervalList)
  | eval (p : Predicate) (list : IntervalList)
  | union (left right : Recipe)
  | intersect (left right : Recipe)
  | complement (child : Recipe)

namespace Recipe

def text : Recipe → String
  | const list => "(const " ++ list.text ++ ")"
  | eval p _ => "(eval " ++ p.text ++ ")"
  | union left right => "(or " ++ left.text ++ " " ++ right.text ++ ")"
  | intersect left right => "(and " ++ left.text ++ " " ++ right.text ++ ")"
  | complement child => "(not " ++ child.text ++ ")"

/-- Builds the list anew, deriving the bounds of every predicate again. -/
def replay (b : Builder) (field : IndexedField) (index : Index) :
    Recipe → Traced LogEntry Refusal IntervalList
  | const list => return list
  | eval p _ => do
    let (list, _) ← b.bounds p field index
    return list
  | union left right => do
    let l ← replay b field index left
    let r ← replay b field index right
    ofDisorder (IntervalList.mk l.field (l.intervals ++ r.intervals)).union
  | intersect left right => do
    let l ← replay b field index left
    let r ← replay b field index right
    ofDisorder (l.intersect r)
  | complement child => do
    let list ← replay b field index child
    return list.complement
where
  ofDisorder : Except Disorder IntervalList → Traced LogEntry Refusal IntervalList
    | .ok list => .ofExcept (.ok list)
    | .error d => .fail (.disorder d)

end Recipe

/-! ## Recording -/

/-- A step that did not find its operands: which one, and how many it found. -/
structure Misuse where
  step : String
  depth : Nat
deriving DecidableEq, Repr

/-- Why a recording gives no recipe. -/
inductive RecordingError where
  | misuse (m : Misuse)
  | nothing
  /-- The steps left several recipes unjoined. -/
  | unconnected (count : Nat)
deriving DecidableEq, Repr

def RecordingError.fault : RecordingError → Fault
  | misuse m =>
    ⟨.invariant, m.step ++ " recorded with " ++ toString m.depth ++ " operand(s) on the stack", none⟩
  | nothing => ⟨.invariant, "evaluation tree recorder is empty", none⟩
  | unconnected count =>
    ⟨.invariant, "evaluation tree recorder holds " ++ toString count ++ " unconnected trees", none⟩

structure Recording where
  /-- The recipes so far, the last one first. -/
  stack : List Recipe
  /-- The first misuse. -/
  misuse : Option Misuse

namespace Recording

def empty : Recording := ⟨[], none⟩

def depth (r : Recording) : Nat := r.stack.length

/-- Only the first misuse is remembered, and the stack stays as it is. -/
def spoil (r : Recording) (step : String) : Recording :=
  { r with misuse := r.misuse <|> some ⟨step, r.depth⟩ }

def record (r : Recording) : Step → Recording
  | .const list => { r with stack := .const list :: r.stack }
  | .eval p list => { r with stack := .eval p list :: r.stack }
  | .union =>
    match r.stack with
    | right :: left :: rest => { r with stack := .union left right :: rest }
    | _ => r.spoil "union"
  | .intersect =>
    match r.stack with
    | right :: left :: rest => { r with stack := .intersect left right :: rest }
    | _ => r.spoil "intersect"
  | .complement =>
    match r.stack with
    | child :: rest => { r with stack := .complement child :: rest }
    | [] => r.spoil "complement"

def recordAll (r : Recording) (steps : List Step) : Recording := steps.foldl record r

/-- The one recipe that the steps made. -/
def finish (r : Recording) : Except RecordingError Recipe :=
  match r.misuse with
  | some m => .error (.misuse m)
  | none =>
    match r.stack with
    | [recipe] => .ok recipe
    | [] => .error .nothing
    | several => .error (.unconnected several.length)

end Recording

/-- The bounds of a predicate while a recording listens: the bounds, and the recording with every step of
the derivation added. -/
def Builder.boundsRecorded (b : Builder) (p : Predicate) (field : IndexedField) (index : Index)
    (recording : Recording) : Except Refusal FieldBounds × Recording :=
  let (derived, heard) := (b.derive field index p).hear Recording.record recording
  (derived.map (b.adjusted index), heard)

end ScanBounds

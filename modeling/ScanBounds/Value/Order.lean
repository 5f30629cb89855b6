import ScanBounds.Sorting
import ScanBounds.Value.Basic

/-!
# The order of an index scan

Brackets come first; the comparison inside a bracket is only asked for two values of it.  Equality is
what this order leaves indistinguishable, so `1` and `1.0` are equal, and so are a string and a symbol
with the same text.  Texts compare by code point.
-/

namespace ScanBounds.Value

mutual

/-- The order of values: by bracket, then by the rule of the bracket. -/
protected def compare : Value → Value → Ordering
  | number m, number n => Ord.compare m n
  | string s, string t => Ord.compare s t
  | string s, symbol t => Ord.compare s t
  | symbol s, string t => Ord.compare s t
  | symbol s, symbol t => Ord.compare s t
  | object xs, object ys => compareFields xs ys
  | array xs, array ys => compareItems xs ys
  | binData s bs, binData t cs =>
    (Ord.compare bs.length cs.length).then ((Ord.compare s t).then (Ord.compare bs cs))
  | objectId x, objectId y => Ord.compare x y
  | bool b, bool c => Ord.compare b c
  | date x, date y => Ord.compare x y
  | timestamp x, timestamp y => Ord.compare x y
  | regex p f, regex q g => (Ord.compare p q).then (Ord.compare f g)
  | code s, code t => Ord.compare s t
  | codeWithScope s xs, codeWithScope t ys => (Ord.compare s t).then (compareFields xs ys)
  | v, w => Ord.compare v.rank w.rank

/-- Item by item; of two arrays that agree as far as both go, the shorter comes first. -/
def compareItems : List Value → List Value → Ordering
  | [], [] => .eq
  | [], _ :: _ => .lt
  | _ :: _, [] => .gt
  | v :: vs, w :: ws => (Value.compare v w).then (compareItems vs ws)

/-- Field by field, where the bracket of the value counts before the name, and the name before the
value. -/
def compareFields : List (String × Value) → List (String × Value) → Ordering
  | [], [] => .eq
  | [], _ :: _ => .lt
  | _ :: _, [] => .gt
  | (x, v) :: xs, (y, w) :: ys =>
    (Ord.compare v.rank w.rank).then <| (Ord.compare x y).then <|
      (Value.compare v w).then (compareFields xs ys)

end

instance : Ord Value := ⟨Value.compare⟩

instance : BEq Value := ⟨fun v w => v.compare w == .eq⟩

instance : LT Value := ⟨fun v w => v.compare w = .lt⟩

instance : LE Value := ⟨fun v w => v.compare w ≠ .gt⟩

instance (v w : Value) : Decidable (v < w) := inferInstanceAs (Decidable (v.compare w = .lt))

instance (v w : Value) : Decidable (v ≤ w) := inferInstanceAs (Decidable (v.compare w ≠ .gt))

/-- Sorting is stable: of equal values the one that stood first stays first. -/
def sort (values : List Value) : List Value := Sorting.sort (fun v w => v ≤ w) values

/-- Drops every value that equals the one kept before it. -/
def dropRepeats : List Value → List Value
  | [] => []
  | v :: rest => v :: go v rest
where
  go (kept : Value) : List Value → List Value
    | [] => []
    | v :: rest => if kept == v then go kept rest else v :: go v rest

end ScanBounds.Value

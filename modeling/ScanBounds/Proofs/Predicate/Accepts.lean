import ScanBounds.Predicate.KeyMatch
import ScanBounds.Proofs.Value.Bracket
import ScanBounds.Proofs.Value.Collation

/-!
# What a predicate accepts

The meaning of the predicates that say something about a single value: which values satisfy them.  Nothing
here speaks about indexes.  Comparisons stay in the bracket of their operand, with three exceptions: the
extremes compare with every value, NaN is related to NaN only, and null is equal to undefined.
-/

namespace ScanBounds

namespace ComparisonOp

/-- The comparison in the order of all values. -/
def Relates (v w : Value) : ComparisonOp → Prop
  | eq => (v == w) = true
  | lt => v < w
  | lte => v ≤ w
  | gt => w < v
  | gte => w ≤ v

/-- Whether equal values satisfy the comparison. -/
def admitsEqual : ComparisonOp → Bool
  | eq | lte | gte => true
  | lt | gt => false

/-- Whether `v` satisfies the comparison with the operand. -/
def Accepts (op : ComparisonOp) (operand v : Value) : Prop :=
  if operand.isMinKey || operand.isMaxKey then op.Relates v operand
  else if operand.isNaN then op.admitsEqual ∧ v.isNaN
  else
    (v.rank = operand.rank ∧ v.isNaN = false ∧ op.Relates v operand) ∨
      (op.admitsEqual ∧ operand.isNull ∧ v = .undefined)

instance (v w : Value) : (op : ComparisonOp) → Decidable (op.Relates v w)
  | eq => inferInstanceAs (Decidable ((v == w) = true))
  | lt => inferInstanceAs (Decidable (v < w))
  | lte => inferInstanceAs (Decidable (v ≤ w))
  | gt => inferInstanceAs (Decidable (w < v))
  | gte => inferInstanceAs (Decidable (w ≤ v))

instance (op : ComparisonOp) (operand v : Value) : Decidable (op.Accepts operand v) :=
  have : Decidable (v = .undefined) := decidable_of_iff _ Value.beq_undefined_iff
  inferInstanceAs (Decidable (ite _ _ (ite _ _ _)))

lemma Relates.le {op : ComparisonOp} (hop : op = lt ∨ op = lte) {v w : Value} (h : op.Relates v w) : v ≤ w := by
  rcases hop with rfl | rfl
  · exact le_of_lt h
  · exact h

lemma Relates.ge {op : ComparisonOp} (hop : op = gt ∨ op = gte) {v w : Value} (h : op.Relates v w) : w ≤ v := by
  rcases hop with rfl | rfl
  · exact le_of_lt h
  · exact h

lemma relates_of_lt {op : ComparisonOp} (hop : op = lt ∨ op = lte) {v w : Value} (h : v < w) : op.Relates v w := by
  rcases hop with rfl | rfl
  · exact h
  · exact le_of_lt h

lemma relates_of_gt {op : ComparisonOp} (hop : op = gt ∨ op = gte) {v w : Value} (h : w < v) : op.Relates v w := by
  rcases hop with rfl | rfl
  · exact h
  · exact le_of_lt h

end ComparisonOp

/-- The type is named, or is numeric and all numeric types are meant. -/
def TypeSet.Accepts (types : TypeSet) (tag : TypeTag) : Prop :=
  types.has tag ∨ types.allNumbers ∧ tag.isNumber

/-- The expression matches the value as a text, or is the value. -/
def RegexTerm.Accepts (term : RegexTerm) (v : Value) : Prop :=
  term.matchesKey v = some true ∨ (v == term.asValue) = true

/-- Some literal equals the value, or some regular expression matches it. -/
def InList.Accepts (members : InList) (v : Value) : Prop :=
  (∃ m ∈ members.literals, ComparisonOp.eq.Accepts m v) ∨ ∃ r ∈ members.regexes, r.Accepts v

/-- The whole part of a finite number, toward zero. -/
def Number.whole? (n : Number) : Option Int :=
  match n.quantity with
  | .finite scaled => some (scaled.tdiv Double.unitsPerOne)
  | _ => none

/-- The value is a finite number whose whole part leaves the remainder. -/
def modAccepts (divisor remainder : Int64) : Value → Prop
  | .number n => ∃ k, n.whole? = some k ∧ k.tmod divisor.toInt = remainder.toInt
  | _ => False

namespace Predicate

/-- Comparisons, memberships, type tests and remainder tests: what a single value can satisfy.  A type set
names each type once. -/
def IsTest : Predicate → Prop
  | comparison .. | isIn .. | mod .. => True
  | hasType _ types => types.tags.Nodup
  | _ => False

/-- Whether the value satisfies the test. -/
def Accepts (v : Value) : Predicate → Prop
  | comparison _ op operand => op.Accepts operand v
  | isIn _ members => members.Accepts v
  | hasType _ types => types.Accepts v.tag
  | mod _ divisor remainder => modAccepts divisor remainder v
  | _ => False

/-- Whether the value satisfies the test on an index with a collation, where comparisons are made between
keys. -/
def AcceptsCollated (collator : Option Collator) (v : Value) : Predicate → Prop
  | comparison _ op operand => op.Accepts (operand.indexKey collator) (v.indexKey collator)
  | p => p.Accepts v

end Predicate

/-! ## Equal values are accepted alike -/

section Congruence

variable {v w : Value} (h : v.toClass = w.toClass)

include h

lemma isNaN_congr : v.isNaN = w.isNaN := by
  have imp {v w : Value} (h : v.toClass = w.toClass) (hw : w.isNaN = true) : v.isNaN = true :=
    (Value.beq_nan_iff hw).1 (Value.toClass_eq.1 h)
  rw [Bool.eq_iff_iff]
  exact ⟨imp h.symm, imp h⟩

lemma ComparisonOp.relates_congr (op : ComparisonOp) (u : Value) : op.Relates v u ↔ op.Relates w u := by
  cases op <;> simp only [Relates, ← Value.toClass_eq, ← Value.toClass_lt, ← Value.toClass_le, h]

lemma ComparisonOp.accepts_congr (op : ComparisonOp) (operand : Value) :
    op.Accepts operand v ↔ op.Accepts operand w := by
  have hrank : v.rank = w.rank := Value.rank_eq_of_beq (Value.toClass_eq.1 h)
  have hundef : v = .undefined ↔ w = .undefined := by
    rw [← Value.beq_undefined_iff, ← Value.beq_undefined_iff, ← Value.toClass_eq, ← Value.toClass_eq, h]
  simp only [Accepts, isNaN_congr h, relates_congr h, hrank, hundef]

lemma RegexTerm.matchesKey_congr (term : RegexTerm) : term.matchesKey v = term.matchesKey w := by
  have heq := Value.toClass_eq.1 h
  cases Value.sameBracket_of_rank_eq (Value.rank_eq_of_beq heq) <;> try rfl
  -- what is left are texts, and equal texts are the same
  all_goals
    rename_i s t
    obtain rfl : s = t := Std.LawfulEqOrd.eq_of_compare (Value.beq_iff_compare.1 heq)
    rfl

lemma RegexTerm.accepts_congr (term : RegexTerm) : term.Accepts v ↔ term.Accepts w := by
  rw [Accepts, Accepts, matchesKey_congr h, ← Value.toClass_eq, ← Value.toClass_eq, h]

lemma InList.accepts_congr (members : InList) : members.Accepts v ↔ members.Accepts w := by
  simp only [Accepts, ComparisonOp.accepts_congr h, RegexTerm.accepts_congr h]

end Congruence

end ScanBounds

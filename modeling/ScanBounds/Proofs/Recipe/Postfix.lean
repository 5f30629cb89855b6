import Mathlib.Data.List.Basic
import Mathlib.Data.List.Induction
import ScanBounds.Recipe.Basic

/-!
# Recordings read as postfix expressions

A recording takes steps in any order, and the stack on which it puts recipes together is a calculator for
postfix notation.  Read from the bottom to the top, in post-order, the stack spells the steps that were
recorded (`recordAll_spells`), and it does so as long as no step has found too few operands.  A step that
has found too few leaves the stack alone, and the steps after it can bring the stack down to one recipe
again; that the recording is spoilt all the same rests on the first misuse being kept
(`misuse_recordAll`).

So a recording gives a recipe exactly for the post-order of that recipe (`finish_eq_ok_iff`), and to tell
whether there is one it is enough to count (`finish_spec`).
-/

namespace ScanBounds

/-! ## Postfix notation -/

/-- How many recipes a step takes. -/
def Step.operands : Step → Nat
  | .const _ | .eval .. => 0
  | .complement => 1
  | .union | .intersect => 2

/-- The steps of a recipe in post-order: those of its operands, left one first, before its own. -/
def Recipe.postOrder : Recipe → List Step
  | const list => [.const list]
  | eval p list => [.eval p list]
  | union left right => left.postOrder ++ right.postOrder ++ [.union]
  | intersect left right => left.postOrder ++ right.postOrder ++ [.intersect]
  | complement child => child.postOrder ++ [.complement]

/-- How many recipes there are after the steps when each has taken its operands and left one recipe. -/
def balance : List Step → Int
  | [] => 0
  | step :: steps => 1 - step.operands + balance steps

/-- No step finds fewer recipes than it takes. -/
def FindOperands (steps : List Step) : Prop :=
  ∀ before step after, steps = before ++ step :: after → (step.operands : Int) ≤ balance before

/-- Steps that are an expression in postfix notation. -/
structure IsPostfix (steps : List Step) : Prop where
  operands : FindOperands steps
  one : balance steps = 1

lemma balance_concat (steps : List Step) (step : Step) :
    balance (steps ++ [step]) = balance steps + (1 - step.operands) := by
  induction steps with
  | nil => simp [balance]
  | cons first steps ih =>
    rw [List.cons_append, balance, ih, balance]
    omega

lemma findOperands_concat {steps : List Step} {step : Step} :
    FindOperands (steps ++ [step]) ↔ FindOperands steps ∧ (step.operands : Int) ≤ balance steps := by
  constructor
  · intro h
    refine ⟨fun before other after heq => ?_, h steps step [] rfl⟩
    exact h before other (after ++ [step]) (by rw [heq, List.append_assoc, List.cons_append])
  · rintro ⟨hsteps, hstep⟩ before other after heq
    obtain rfl | ⟨after, last, rfl⟩ := List.eq_nil_or_concat' after
    · obtain ⟨rfl, hlast⟩ := List.append_inj' heq rfl
      obtain rfl : step = other := by simpa using hlast
      exact hstep
    · rw [← List.cons_append, ← List.append_assoc] at heq
      exact hsteps before other after (List.append_inj' heq rfl).1

namespace Recording

variable {r : Recording} {step : Step} {steps : List Step}

/-! ## One step -/

section

variable (before : List Recipe) (misuse : Option Misuse)

lemma record_const (list : IntervalList) :
    Recording.record ⟨before, misuse⟩ (.const list) = ⟨.const list :: before, misuse⟩ := rfl

lemma record_eval (p : Predicate) (list : IntervalList) :
    Recording.record ⟨before, misuse⟩ (.eval p list) = ⟨.eval p list :: before, misuse⟩ := rfl

lemma record_union (left right : Recipe) :
    Recording.record ⟨right :: left :: before, misuse⟩ .union = ⟨.union left right :: before, misuse⟩ := rfl

lemma record_intersect (left right : Recipe) :
    Recording.record ⟨right :: left :: before, misuse⟩ .intersect =
      ⟨.intersect left right :: before, misuse⟩ := rfl

lemma record_complement (child : Recipe) :
    Recording.record ⟨child :: before, misuse⟩ .complement = ⟨.complement child :: before, misuse⟩ := rfl

end

/-- What a step can do: it joins its operands to one recipe, whose post-order is theirs and then the step, or
it finds too few of them and spoils the recording. -/
lemma record_cases (r : Recording) (step : Step) :
    (step.operands ≤ r.depth ∧
      ∃ recipe, r.record step = ⟨recipe :: r.stack.drop step.operands, r.misuse⟩ ∧
        recipe.postOrder = (r.stack.take step.operands).reverse.flatMap Recipe.postOrder ++ [step]) ∨
    (r.depth < step.operands ∧ ∃ name, r.record step = r.spoil name) := by
  obtain ⟨stack, misuse⟩ := r
  cases step with
  | const list => exact .inl ⟨Nat.zero_le _, .const list, rfl, rfl⟩
  | eval p list => exact .inl ⟨Nat.zero_le _, .eval p list, rfl, rfl⟩
  | complement =>
    obtain _ | ⟨child, rest⟩ := stack
    · exact .inr ⟨Nat.one_pos, "complement", rfl⟩
    · exact .inl ⟨Nat.le_add_left 1 _, .complement child, rfl, by simp [Recipe.postOrder, Step.operands]⟩
  | union =>
    obtain _ | ⟨right, _ | ⟨left, rest⟩⟩ := stack
    · exact .inr ⟨Nat.two_pos, "union", rfl⟩
    · exact .inr ⟨Nat.one_lt_two, "union", rfl⟩
    · exact .inl ⟨Nat.le_add_left 2 _, .union left right, rfl, by simp [Recipe.postOrder, Step.operands]⟩
  | intersect =>
    obtain _ | ⟨right, _ | ⟨left, rest⟩⟩ := stack
    · exact .inr ⟨Nat.two_pos, "intersect", rfl⟩
    · exact .inr ⟨Nat.one_lt_two, "intersect", rfl⟩
    · exact .inl ⟨Nat.le_add_left 2 _, .intersect left right, rfl, by simp [Recipe.postOrder, Step.operands]⟩

/-- The first misuse is kept. -/
lemma misuse_record {m : Misuse} (h : r.misuse = some m) (step : Step) : (r.record step).misuse = some m := by
  obtain ⟨-, recipe, hrecord, -⟩ | ⟨-, name, hrecord⟩ := r.record_cases step
  · rw [hrecord]
    exact h
  · rw [hrecord, spoil, h]
    rfl

/-- There is no misuse after a step exactly if there was none before and the step finds its operands. -/
lemma misuse_record_eq_none_iff :
    (r.record step).misuse = none ↔ r.misuse = none ∧ step.operands ≤ r.depth := by
  obtain ⟨hle, recipe, hrecord, -⟩ | ⟨hlt, name, hrecord⟩ := r.record_cases step
  · rw [hrecord]
    exact (and_iff_left hle).symm
  · rw [hrecord, spoil]
    refine iff_of_false ?_ fun h => Nat.not_le_of_lt hlt h.2
    cases r.misuse <;> nofun

/-- What the recipes on the stack spell, from the bottom to the top. -/
def spelling (r : Recording) : List Step := r.stack.reverse.flatMap Recipe.postOrder

/-- A step that finds its operands is added to what the stack spells. -/
lemma record_spells (h : step.operands ≤ r.depth) :
    (r.record step).spelling = r.spelling ++ [step] ∧
      ((r.record step).depth : Int) = r.depth + (1 - step.operands) := by
  obtain ⟨-, recipe, hrecord, horder⟩ | ⟨hlt, -⟩ := r.record_cases step
  · rw [hrecord]
    constructor
    · rw [spelling, List.reverse_cons, List.flatMap_append, List.flatMap_singleton, horder, ← List.append_assoc,
        ← List.flatMap_append, ← List.reverse_append, List.take_append_drop]
      rfl
    · have hdepth : r.depth = r.stack.length := rfl
      simp only [depth, List.length_cons, List.length_drop]
      omega
  · exact absurd h (Nat.not_le_of_lt hlt)

/-! ## All steps -/

lemma recordAll_append (r : Recording) (steps more : List Step) :
    r.recordAll (steps ++ more) = (r.recordAll steps).recordAll more := List.foldl_append

lemma recordAll_concat (r : Recording) (steps : List Step) (step : Step) :
    r.recordAll (steps ++ [step]) = (r.recordAll steps).record step := recordAll_append r steps [step]

lemma misuse_recordAll {m : Misuse} (h : r.misuse = some m) (steps : List Step) :
    (r.recordAll steps).misuse = some m :=
  List.foldlRecOn (motive := fun r => r.misuse = some m) steps record h fun _ hr step _ =>
    misuse_record hr step

/-- **What the stack spells.**  Steps that find their operands note no misuse, the stack spells them in
their order, and it is as deep as counting says; other steps note a misuse. -/
theorem recordAll_spells (steps : List Step) :
    ((empty.recordAll steps).misuse = none ↔ FindOperands steps) ∧
      (FindOperands steps →
        (empty.recordAll steps).spelling = steps ∧ ((empty.recordAll steps).depth : Int) = balance steps) := by
  induction steps using List.reverseRecOn with
  | nil => exact ⟨iff_of_true rfl (by simp [FindOperands]), fun _ => ⟨rfl, rfl⟩⟩
  | append_singleton steps step ih =>
    obtain ⟨hmisuse, hspells⟩ := ih
    rw [recordAll_concat, misuse_record_eq_none_iff, findOperands_concat, hmisuse, balance_concat]
    refine ⟨and_congr_right fun hfind => ?_, fun ⟨hfind, hstep⟩ => ?_⟩
    · rw [← (hspells hfind).2, Int.ofNat_le]
    · obtain ⟨hspelling, hdepth⟩ := hspells hfind
      rw [← hdepth, Int.ofNat_le] at hstep
      rw [← hdepth, (record_spells hstep).1, hspelling]
      exact ⟨rfl, (record_spells hstep).2⟩

/-- The post-order of a recipe puts the recipe on the stack. -/
lemma recordAll_postOrder (recipe : Recipe) (before : List Recipe) (misuse : Option Misuse) :
    recordAll ⟨before, misuse⟩ recipe.postOrder = ⟨recipe :: before, misuse⟩ := by
  induction recipe generalizing before with
  | const list => exact record_const before misuse list
  | eval p list => exact record_eval before misuse p list
  | union left right ihl ihr =>
    rw [Recipe.postOrder, recordAll_concat, recordAll_append, ihl, ihr, record_union]
  | intersect left right ihl ihr =>
    rw [Recipe.postOrder, recordAll_concat, recordAll_append, ihl, ihr, record_intersect]
  | complement child ih =>
    rw [Recipe.postOrder, recordAll_concat, ih, record_complement]

/-! ## The recipe -/

lemma finish_eq_ok {recipe : Recipe} : r.finish = .ok recipe ↔ r.misuse = none ∧ r.stack = [recipe] := by
  obtain ⟨stack, misuse⟩ := r
  cases misuse with
  | some m => exact iff_of_false nofun nofun
  | none =>
    obtain _ | ⟨top, _ | ⟨next, rest⟩⟩ := stack
    · exact iff_of_false nofun nofun
    · simp [finish]
    · exact iff_of_false nofun nofun

lemma finish_of_misuse {m : Misuse} (h : r.misuse = some m) : r.finish = .error (.misuse m) := by
  rw [finish, h]

/-- **Round trip.**  A recording gives a recipe exactly for the steps of the recipe in post-order. -/
theorem finish_eq_ok_iff {recipe : Recipe} :
    (empty.recordAll steps).finish = .ok recipe ↔ recipe.postOrder = steps := by
  rw [finish_eq_ok]
  constructor
  · rintro ⟨hmisuse, hstack⟩
    obtain ⟨hfind, hspells⟩ := recordAll_spells steps
    rw [← (hspells (hfind.1 hmisuse)).1, spelling, hstack]
    simp
  · rintro rfl
    rw [empty, recordAll_postOrder]
    exact ⟨rfl, rfl⟩

/-- Counting tells whether there is a recipe. -/
lemma exists_finish_iff : (∃ recipe, (empty.recordAll steps).finish = .ok recipe) ↔ IsPostfix steps := by
  obtain ⟨hfind, hspells⟩ := recordAll_spells steps
  simp only [finish_eq_ok, exists_and_left, ← List.length_eq_one_iff, hfind]
  constructor
  · rintro ⟨hsteps, hlength⟩
    exact ⟨hsteps, (hspells hsteps).2.symm.trans (congrArg Nat.cast hlength)⟩
  · rintro ⟨hsteps, hone⟩
    exact ⟨hsteps, Int.ofNat.inj ((hspells hsteps).2.trans hone)⟩

/-- **Recordings and postfix notation.**  A new recording gives a recipe exactly if the steps that it hears
are an expression in postfix notation, and then they are the post-order of the recipe.  A misuse is not made
good by what is recorded after it: the first one is the reason why there is no recipe. -/
theorem finish_spec (steps : List Step) :
    ((∃ recipe, (empty.recordAll steps).finish = .ok recipe) ↔ IsPostfix steps) ∧
      (∀ recipe, (empty.recordAll steps).finish = .ok recipe ↔ recipe.postOrder = steps) ∧
      ∀ before after m, steps = before ++ after → (empty.recordAll before).misuse = some m →
        (empty.recordAll steps).finish = .error (.misuse m) := by
  refine ⟨exists_finish_iff, fun recipe => finish_eq_ok_iff, ?_⟩
  rintro before after m rfl hm
  rw [recordAll_append]
  exact finish_of_misuse (misuse_recordAll hm after)

/-- A union of one list is not made good by the negation behind it, although that leaves one recipe. -/
theorem finish_spec_of_lone_union :
    let list := IntervalList.allValues "a"
    (empty.recordAll [.const list, .union]).misuse = some ⟨"union", 1⟩ ∧
      (empty.recordAll [.const list, .union, .complement]).depth = 1 ∧
      (empty.recordAll [.const list, .union, .complement]).finish = .error (.misuse ⟨"union", 1⟩) :=
  ⟨rfl, rfl, (finish_spec _).2.2 [.const _, .union] [.complement] _ rfl rfl⟩

end Recording

end ScanBounds

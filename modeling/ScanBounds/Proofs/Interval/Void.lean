import Mathlib.Data.List.Induction
import Mathlib.Order.MinMax
import ScanBounds.Proofs.Interval.SetOps

/-!
# Unions with void intervals

An interval whose ends are one value that does not fully belong to it holds nothing, and a union should not
notice it.  As cuts, `[v, v)` and `(v, v]` end where they begin.  But `(v, v)` begins above `v` and ends below
it: it is a *hole*.  When merging reaches a hole, and what is merged so far ends with `v`, the two touch, and
the end of the hole becomes the end of both.  So `v` is cut off (`CutsOff`), and nothing later can bring it
back, since later intervals begin no lower than the hole.  No other step loses or adds a value
(`coalesce_step_held`).

An interval that begins at `v` and goes on is left standing in front of the hole.  Therefore what is merged
so far may hold `v` before its last interval, and then it does not matter that the last one loses it.
-/

namespace ScanBounds

namespace Interval

/-- The interval is `(v, v)`. -/
def IsHoleAt (i : Interval) (v : Value) : Prop := i.lower = .above v ∧ i.upper = .below v

lemma IsHoleAt.not_holds {i : Interval} {v : Value} (h : i.IsHoleAt v) : ¬i.Holds v := by
  rw [holds_iff, Covers, h.2]
  exact fun hv => hv.2.false

/-- Of all intervals that do not run backwards only holes end below their beginning. -/
lemma lower_le_upper_or_hole {i : Interval} (h : i.WellFormed ∨ i.isVoid = true) :
    i.lower ≤ i.upper ∨ i.IsHoleAt i.start := by
  rcases h with h | h
  · exact .inl h.lower_lt_upper.le
  rw [isVoid, Bool.and_eq_true, ← Value.toClass_eq] at h
  by_cases hends : i.startInclusive = false ∧ i.stopInclusive = false
  · right
    rw [IsHoleAt, lower, upper, hends.1, hends.2, ← h.2]
    exact ⟨rfl, rfl⟩
  · left
    rw [lower, upper, ← h.2, Prod.Lex.toLex_le_toLex]
    refine .inr ⟨rfl, ?_⟩
    revert hends
    cases i.startInclusive <;> cases i.stopInclusive <;> simp

/-- `q` begins no higher than `k`, and goes beyond every value that `k` goes beyond. -/
def Keeps (q k : Interval) : Prop :=
  q.lower ≤ k.lower ∧ ∀ v, .above v < k.upper → .above v < q.upper

lemma Keeps.trans {p q k : Interval} (h : p.Keeps q) (h' : q.Keeps k) : p.Keeps k :=
  ⟨h.1.trans h'.1, fun v hv => h.2 v (h'.2 v hv)⟩

lemma keeps_of_upper_le {q k : Interval} (hlower : q.lower ≤ k.lower) (hupper : k.upper ≤ q.upper) :
    q.Keeps k :=
  ⟨hlower, fun _ hv => hv.trans_le hupper⟩

end Interval

namespace IntervalList

open ScanBounds.Interval

variable {i j last : Interval} {front rest done : List Interval} {v : Value}

/-! ## One step of merging -/

/-- Merging goes on from the last interval of what is merged so far. -/
lemma coalesce_append (h : coalesce i (front ++ rest) = (done, none)) :
    ∃ before last behind, coalesce i front = (before ++ [last], none) ∧
      coalesce last rest = (behind, none) ∧ done = before ++ behind := by
  induction front generalizing i done with
  | nil => exact ⟨[], i, done, rfl, h, rfl⟩
  | cons j front ih =>
    rw [List.cons_append, coalesce] at h
    rw [coalesce]
    cases hp : i.position j <;> simp only [hp] at h ⊢
    case precedes =>
      obtain ⟨rfl, hnone⟩ := Prod.mk.inj h
      obtain ⟨before, last, behind, hfront, hrest, heq⟩ := ih (Prod.ext rfl hnone)
      refine ⟨i :: before, last, behind, ?_, hrest, ?_⟩
      · rw [hfront, List.cons_append]
      · exact congrArg (i :: ·) heq
    case equals | within | contains | overlapsBefore | abutsBefore => exact ih h
    case succeeds | overlapsAfter => cases h

/-- When two intervals touch and the second is no hole, it begins where the first one ends. -/
lemma upper_eq_lower_of_touch (hj : j.WellFormed ∨ j.isVoid = true) (hlt : i.lower < j.lower)
    (happart : ¬(i.lower < j.upper ∧ j.lower < i.upper))
    (htouch : (i.stop == j.start && (i.stopInclusive || j.startInclusive)) = true) :
    i.upper = j.lower := by
  refine (touches_iff ?_).1 htouch
  rcases lower_le_upper_or_hole hj with hle | hhole
  · exact not_lt.1 fun h => happart ⟨hlt.trans_le hle, h⟩
  · rw [Bool.and_eq_true, ← Value.toClass_eq] at htouch
    rw [hhole.1, Cut.above, ← htouch.1]
    exact i.upper_le_above_stop

/-- The next interval is left apart or joined to the last one; a hole takes away the value with which the last
one ends. -/
lemma coalesce_step (hj : j.WellFormed ∨ j.isVoid = true) (hle : i.lower ≤ j.lower)
    (h : coalesce i [j] = (done, none)) :
    (∃ v k, j.IsHoleAt v ∧ i.upper = .above v ∧ done = [k] ∧ k.lower = i.lower ∧ k.upper = .below v) ∨
      (∀ v, j.IsHoleAt v → i.upper ≠ .above v) ∧
        (done = [i, j] ∨
          ∃ k, done = [k] ∧ k.lower = i.lower ∧ j.lower ≤ i.upper ∧ k.upper = max i.upper j.upper) := by
  simp only [IsHoleAt]
  unfold coalesce position at h
  simp only [intersects_iff, beq_iff, within_iff, startsBefore_iff] at h
  split_ifs at h with h₁ h₂ h₃ h₄ h₅ h₅ h₆ <;>
    simp only [coalesce, Prod.mk.injEq, and_true, reduceCtorEq, and_false] at h
  · -- equal ends
    exact .inr ⟨by grind, .inr ⟨j, h.symm, by grind⟩⟩
  · -- `i` within `j`
    exact .inr ⟨by grind, .inr ⟨j, h.symm, by grind⟩⟩
  · -- `j` within `i`
    exact .inr ⟨by grind, .inr ⟨i, h.symm, by grind⟩⟩
  · -- they overlap
    refine .inr ⟨by grind, .inr ⟨_, h.symm, rfl, h₁.2.le, ?_⟩⟩
    show j.upper = _
    grind
  · -- they touch
    have htouch := upper_eq_lower_of_touch hj h₅ h₁ h₆
    rcases lower_le_upper_or_hole hj with hup | hhole
    · refine .inr ⟨?_, .inr ⟨_, h.symm, rfl, htouch.ge, (max_eq_right (htouch ▸ hup)).symm⟩⟩
      rintro v ⟨hlower, hupper⟩ -
      rw [hlower, hupper, Cut.above_le_below] at hup
      exact (Value.toClass_lt.2 hup).false
    · exact .inl ⟨_, _, hhole, htouch.trans hhole.1, h.symm, rfl, hhole.2⟩
  · -- they are apart
    refine .inr ⟨?_, .inl h.symm⟩
    rintro v ⟨hlower, -⟩ hupper
    have heq : i.upper = j.lower := hupper.trans hlower.symm
    exact h₆ ((touches_iff heq.le).2 heq)

/-- A step loses a value only if the next interval is the hole there, and adds none. -/
lemma coalesce_step_held (hj : j.WellFormed ∨ j.isVoid = true) (hle : i.lower ≤ j.lower)
    (h : coalesce i [j] = (done, none)) (v : Value) :
    Held done v ↔ (i.Holds v ∨ j.Holds v) ∧ ¬(j.IsHoleAt v ∧ i.upper = .above v) := by
  rw [held_iff, holds_iff, holds_iff]
  rcases coalesce_step hj hle h with ⟨w, k, hhole, hi, rfl, hlower, hupper⟩ | ⟨hno, hdone⟩
  · have hbetween := Cut.le_below_or_above_le (.below v) w
    have hsame : Cut.below v = .below w ↔ Cut.above v = .above w := by
      simp only [Cut.below, Cut.above, EmbeddingLike.apply_eq_iff_eq, Prod.mk.injEq, and_true]
    simp only [IsHoleAt, covered_cons, covered_nil, or_false, Covers] at hhole ⊢
    grind
  · rw [and_iff_left fun hv => hno v hv.1 hv.2]
    rcases hdone with rfl | ⟨k, rfl, hlower, hreach, hupper⟩
    · simp only [covered_cons, covered_nil, or_false]
    · simp only [covered_cons, covered_nil, or_false, Covers, hlower, hupper, lt_max_iff]
      grind

/-- A step takes nothing from the two intervals but a value with which they end. -/
lemma coalesce_step_keeps (hj : j.WellFormed ∨ j.isVoid = true) (hle : i.lower ≤ j.lower)
    (h : coalesce i [j] = (done, none)) : (∃ q ∈ done, q.Keeps i) ∧ ∃ q ∈ done, q.Keeps j := by
  rcases coalesce_step hj hle h with
    ⟨v, k, hhole, hi, rfl, hlower, hupper⟩ | ⟨-, rfl | ⟨k, rfl, hlower, -, hupper⟩⟩
  · refine ⟨⟨k, by simp, hlower.le, fun w hw => ?_⟩, ⟨k, by simp, ?_⟩⟩
    · rw [hi, Cut.above_lt_above] at hw
      rwa [hupper, Cut.above_lt_below]
    · exact keeps_of_upper_le (hlower.trans_le hle) (hhole.2.trans hupper.symm).le
  · exact ⟨⟨i, by simp, keeps_of_upper_le le_rfl le_rfl⟩, ⟨j, by simp, keeps_of_upper_le le_rfl le_rfl⟩⟩
  · refine ⟨⟨k, by simp, keeps_of_upper_le hlower.le ?_⟩, ⟨k, by simp, keeps_of_upper_le ?_ ?_⟩⟩
    · exact hupper ▸ le_max_left _ _
    · exact hlower.trans_le hle
    · exact hupper ▸ le_max_right _ _

/-! ## Merging all -/

/-- Induction along a merge: whatever the first interval satisfies and each step preserves holds of the
outcome. -/
lemma coalesce_induct {motive : List Interval → List Interval → Prop}
    (hvoid : ∀ j ∈ rest, j.WellFormed ∨ j.isVoid = true)
    (hs : (i :: rest).Pairwise fun j k => j.lower ≤ k.lower) (h : coalesce i rest = (done, none))
    (first : motive [] [i])
    (next : ∀ front j before last behind, (i :: (front ++ [j])).Pairwise (fun j k => j.lower ≤ k.lower) →
      (j.WellFormed ∨ j.isVoid = true) → coalesce i front = (before ++ [last], none) →
      last.lower ≤ j.lower → coalesce last [j] = (behind, none) → motive front (before ++ [last]) →
      motive (front ++ [j]) (before ++ behind)) :
    motive rest done := by
  -- the last interval begins no higher than what was merged, hence no higher than what comes next
  suffices hlast : motive rest done ∧ ∀ last ∈ done.getLast?, ∃ k ∈ i :: rest, last.lower ≤ k.lower from
    hlast.1
  induction rest using List.reverseRecOn generalizing done with
  | nil =>
    obtain ⟨rfl, -⟩ := Prod.mk.inj h
    exact ⟨first, by simp⟩
  | append_singleton front j ih =>
    obtain ⟨before, last, behind, hfront, hstep, rfl⟩ := coalesce_append h
    obtain ⟨hvoid, hj⟩ := List.forall_mem_append.1 hvoid
    have hs' := hs
    rw [← List.cons_append, List.pairwise_append] at hs'
    obtain ⟨hmotive, hlower⟩ := ih hvoid hs'.1 hfront
    obtain ⟨k, hk, hlower⟩ := hlower last (by simp)
    have hle : last.lower ≤ j.lower := hlower.trans (hs'.2.2 k hk j (by simp))
    have hj := hj j (by simp)
    refine ⟨next front j before last behind hs hj hfront hle hstep hmotive, fun final hfinal => ?_⟩
    refine ⟨j, by simp, ?_⟩
    rcases coalesce_step hj hle hstep with ⟨_, k, -, -, rfl, hk, -⟩ | ⟨-, rfl | ⟨k, rfl, hk, -⟩⟩ <;>
      simp only [List.getLast?_append, List.getLast?_cons, List.getLast?_nil, Option.mem_def,
        Option.some_or, Option.getD_none, Option.getD_some, Option.some.injEq] at hfinal <;> subst hfinal
    · exact hk.trans_le hle
    · exact le_rfl
    · exact hk.trans_le hle

/-- Merging `rest` after `i` comes to a hole, and what is merged so far ends with `v` and holds `v` nowhere
else. -/
def CutsOffAfter (i : Interval) (rest : List Interval) (v : Value) : Prop :=
  ∃ front hole back before last, rest = front ++ hole :: back ∧ hole.IsHoleAt v ∧
    coalesce i front = (before ++ [last], none) ∧ last.upper = .above v ∧ ¬Held before v

lemma cutsOffAfter_concat {before : List Interval} (h : coalesce i front = (before ++ [last], none)) :
    CutsOffAfter i (front ++ [j]) v ↔
      CutsOffAfter i front v ∨ j.IsHoleAt v ∧ last.upper = .above v ∧ ¬Held before v := by
  constructor
  · rintro ⟨front', hole, back, before', last', heq, hhole, hfront, hend⟩
    rcases List.eq_nil_or_concat back with rfl | ⟨back, k, rfl⟩
    · obtain ⟨rfl, hj⟩ := List.append_inj' heq rfl
      obtain rfl := List.singleton_inj.1 hj
      obtain ⟨rfl, hl⟩ := List.append_inj' (Prod.mk.inj (h.symm.trans hfront)).1 rfl
      obtain rfl := List.singleton_inj.1 hl
      exact .inr ⟨hhole, hend⟩
    · rw [List.concat_eq_append, ← List.cons_append, ← List.append_assoc] at heq
      obtain ⟨rfl, -⟩ := List.append_inj' heq rfl
      exact .inl ⟨front', hole, back, before', last', rfl, hhole, hfront, hend⟩
  · rintro (⟨front', hole, back, before', last', rfl, hhole, hfront, hend⟩ | ⟨hhole, hend⟩)
    · refine ⟨front', hole, back ++ [j], before', last', ?_, hhole, hfront, hend⟩
      rw [List.append_assoc, List.cons_append]
    · exact ⟨front, j, [], before, last, rfl, hhole, h, hend⟩

/-- **Merging.**  The outcome holds what the intervals hold, but for the values that are cut off. -/
lemma coalesce_held (hvoid : ∀ j ∈ rest, j.WellFormed ∨ j.isVoid = true)
    (hs : (i :: rest).Pairwise fun j k => j.lower ≤ k.lower) (h : coalesce i rest = (done, none)) (v : Value) :
    Held done v ↔ Held (i :: rest) v ∧ ¬CutsOffAfter i rest v := by
  refine coalesce_induct (motive := fun rest done => Held done v ↔ Held (i :: rest) v ∧ ¬CutsOffAfter i rest v)
    hvoid hs h ?_ ?_
  · simp [CutsOffAfter]
  · intro front j before last behind hs hj hfront hle hstep ih
    have hstep := coalesce_step_held hj hle hstep v
    -- behind a hole nothing begins low enough to bring the value back
    have hback (hv : CutsOffAfter i front v) : ¬j.Holds v := by
      obtain ⟨front', hole, back, -, -, rfl, hhole, -⟩ := hv
      have hle : hole.lower ≤ j.lower := by
        simp only [List.pairwise_cons, List.pairwise_append] at hs
        exact hs.2.2.2 hole (by simp) j (by simp)
      rw [hhole.1] at hle
      intro hj
      exact (Value.toClass_lt.2 (Cut.above_le_below.1 (hle.trans (holds_iff.1 hj).1))).false
    have hhole : j.IsHoleAt v → ¬j.Holds v := IsHoleAt.not_holds
    simp only [held_append, held_cons, held_nil, or_false, cutsOffAfter_concat hfront] at hstep ih ⊢
    grind

/-- What an interval goes beyond is gone beyond by one in the outcome that begins no higher. -/
lemma coalesce_keeps (hvoid : ∀ j ∈ rest, j.WellFormed ∨ j.isVoid = true)
    (hs : (i :: rest).Pairwise fun j k => j.lower ≤ k.lower) (h : coalesce i rest = (done, none)) :
    ∀ k ∈ i :: rest, ∃ q ∈ done, q.Keeps k := by
  refine coalesce_induct (motive := fun rest done => ∀ k ∈ i :: rest, ∃ q ∈ done, q.Keeps k) hvoid hs h ?_ ?_
  · simp [Keeps]
  · intro front j before last behind hs hj hfront hle hstep ih
    obtain ⟨⟨q, hq, hlast⟩, ⟨q', hq', hnext⟩⟩ := coalesce_step_keeps hj hle hstep
    intro k hk
    rw [← List.cons_append, List.mem_append, List.mem_singleton] at hk
    rcases hk with hk | rfl
    · obtain ⟨p, hp, hkeeps⟩ := ih k hk
      rw [List.mem_append, List.mem_singleton] at hp
      rcases hp with hp | rfl
      · exact ⟨p, List.mem_append_left _ hp, hkeeps⟩
      · exact ⟨q, List.mem_append_right _ hq, hlast.trans hkeeps⟩
    · exact ⟨q', List.mem_append_right _ hq', hnext⟩

/-- Only intervals that end with a value can lose it. -/
lemma CutsOffAfter.upper_eq (hvoid : ∀ j ∈ rest, j.WellFormed ∨ j.isVoid = true)
    (hs : (i :: rest).Pairwise fun j k => j.lower ≤ k.lower) (h : CutsOffAfter i rest v) {k : Interval}
    (hk : k ∈ i :: rest) (hv : k.Holds v) : k.upper = .above v := by
  obtain ⟨front, hole, back, before, last, rfl, hhole, hfront, hlast, hbefore⟩ := h
  rw [holds_iff] at hv
  rw [← List.cons_append, List.pairwise_append] at hs
  rw [← List.cons_append, List.mem_append] at hk
  rcases hk with hk | hk
  · obtain ⟨q, hq, hlower, hupper⟩ :=
      coalesce_keeps (fun j hj => hvoid j (List.mem_append_left _ hj)) hs.1 hfront k hk
    by_contra hne
    have hlt : Cut.above v < k.upper :=
      (((Cut.le_below_or_above_le k.upper v).resolve_left hv.2.not_ge).lt_of_ne' hne)
    have hq' : Cut.above v < q.upper := hupper v hlt
    rw [List.mem_append, List.mem_singleton] at hq
    rcases hq with hq | rfl
    · refine hbefore ⟨q, hq, holds_iff.2 ⟨hlower.trans hv.1, ?_⟩⟩
      exact (Cut.below_lt_above.2 (Value.toClass_le.1 le_rfl)).trans hq'
    · exact absurd hlast hq'.ne'
  · -- a hole holds nothing, and what comes after it begins above the value
    have hle : Cut.above v ≤ k.lower := by
      rw [← hhole.1]
      rcases List.mem_cons.1 hk with rfl | hk
      · exact le_rfl
      · exact (List.pairwise_cons.1 hs.2.1).1 k hk
    exact ((Value.toClass_lt.2 (Cut.above_le_below.1 (hle.trans hv.1))).false).elim

/-! ## Unions -/

/-- In the order of merging, the union of the intervals in front of the hole `(v, v)` ends with `v`, and holds
`v` in no interval but the last. -/
def CutsOff (l : IntervalList) (v : Value) : Prop :=
  ∃ i rest, sortByStart l.intervals = i :: rest ∧ CutsOffAfter i rest v

/-- **Unions with void intervals.**  When intervals that do not run backwards have a union, it holds nothing
that they do not, and everything that they do but for the values that a hole cuts off.  All intervals that
hold such a value end with it, so a list without holes loses nothing. -/
theorem union_voids_holds_iff {l m : IntervalList} (hl : ∀ i ∈ l.intervals, i.WellFormed ∨ i.isVoid = true)
    (hm : l.union = .ok m) :
    (∀ v, m.Holds v ↔ l.Holds v ∧ ¬l.CutsOff v) ∧
      ∀ v, l.CutsOff v →
        (∃ hole ∈ l.intervals, hole.IsHoleAt v) ∧ ∀ i ∈ l.intervals, i.Holds v → i.upper = .above v := by
  have hs := sortByStart_pairwise l.intervals
  have hmem (i : Interval) : i ∈ sortByStart l.intervals ↔ i ∈ l.intervals := mem_sortByStart
  have hheld (v : Value) : Held (sortByStart l.intervals) v ↔ l.Holds v := by simp only [Held, hmem]
  simp only [← hmem] at hl ⊢
  simp only [union, Merged.result, merged] at hm
  cases hsort : sortByStart l.intervals with
  | nil =>
    simp only [hsort, Except.ok.injEq] at hm
    subst hm
    simp [CutsOff, hsort]
  | cons i rest =>
    simp only [hsort] at hm hs hl hheld
    have hcut (v : Value) : l.CutsOff v ↔ CutsOffAfter i rest v := by simp [CutsOff, hsort]
    have hvoid := (List.forall_mem_cons.1 hl).2
    split at hm
    · next hnone =>
      obtain rfl := Except.ok.inj hm
      simp only [hcut, ← hheld]
      refine ⟨coalesce_held hvoid hs (Prod.ext rfl hnone), fun v hv => ⟨?_, fun k => hv.upper_eq hvoid hs⟩⟩
      obtain ⟨front, hole, back, -, -, rfl, hhole, -⟩ := hv
      exact ⟨hole, by simp, hhole⟩
    · cases hm

/-- After a range that includes its end, the hole there takes the end away. -/
theorem union_voids_cut_off :
    let l : IntervalList := ⟨"a", [⟨.int 1, true, .int 5, true⟩, ⟨.int 5, false, .int 5, false⟩]⟩
    let m : IntervalList := ⟨"a", [⟨.int 1, true, .int 5, false⟩]⟩
    (∀ i ∈ l.intervals, i.WellFormed ∨ i.isVoid = true) ∧ l.union = .ok m ∧
      l.Holds (.int 5) ∧ l.CutsOff (.int 5) ∧ ¬m.Holds (.int 5) ∧
      ∀ v, m.Holds v ↔ l.Holds v ∧ ¬l.CutsOff v := by
  intro l m
  have hl : ∀ i ∈ l.intervals, i.WellFormed ∨ i.isVoid = true := by
    intro i hi
    simp only [l, List.mem_cons, List.not_mem_nil, or_false] at hi
    rcases hi with rfl | rfl
    · exact .inl (.inl (by decide +kernel))
    · exact .inr (by decide +kernel)
  have hm : l.union = .ok m := by rfl
  have hcut : l.CutsOff (.int 5) := ⟨_, _, rfl, [], _, [], [], _, rfl, ⟨rfl, rfl⟩, rfl, rfl, held_nil⟩
  have hheld : l.Holds (.int 5) := ⟨⟨.int 1, true, .int 5, true⟩, by simp [l], by decide +kernel⟩
  have hiff := (union_voids_holds_iff hl hm).1
  exact ⟨hl, hm, hheld, hcut, fun hlost => ((hiff _).1 hlost).2 hcut, hiff⟩

end IntervalList

end ScanBounds

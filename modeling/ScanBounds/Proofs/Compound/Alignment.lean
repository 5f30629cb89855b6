import Mathlib.Data.List.Chain
import Mathlib.Tactic.MkIffOfInductiveProp
import ScanBounds.Proofs.Compound.ScanOrder

/-!
# Alignment in both directions

Alignment turns around the lists of the fields that a scan walks downwards, and then asks of every list that it runs
the way the scan moves.  What it asks of a list is what the opposite direction asks of the list turned around
(`CompoundBounds.listRuns_down`).  So in either direction a list is accepted if it ascends as it was given: its
intervals are well-formed, and each ends no later than the next one begins.  Canonical lists do; unlike them, an
ascending list may have neighbours that touch.

Nothing is lost when a list is turned around, since an interval contains the same values whichever way it runs.
-/

namespace ScanBounds

open IntervalList

/-! ## Ascending lists -/

namespace Interval

/-- The first ends before the second starts, or the two share an end that not both include. -/
def EndsBefore (i j : Interval) : Prop :=
  i.stop < j.start ∨ (i.stop == j.start) = true ∧ ¬(i.stopInclusive = true ∧ j.startInclusive = true)

lemma endsBefore_iff {i j : Interval} : i.EndsBefore j ↔ i.upper ≤ j.lower := by
  rw [← not_lt, upper, lower, toLex_lt_iff_compare, EndsBefore, Value.beq_iff_compare]
  show i.stop.compare j.start = .lt ∨ i.stop.compare j.start = .eq ∧ _ ↔ _
  rw [Value.compare_swap j.start i.stop]
  cases i.stop.compare j.start <;> cases i.stopInclusive <;> cases j.startInclusive <;> simp

end Interval

namespace IntervalList

/-- Every interval is well-formed and ends before the next one. -/
@[mk_iff]
structure Ascends (l : IntervalList) : Prop where
  wellFormed : ∀ i ∈ l.intervals, i.WellFormed
  inOrder : l.intervals.IsChain Interval.EndsBefore

lemma ascends_of_isCanonical {l : IntervalList} (h : l.isCanonical = true) : l.Ascends := by
  have hcan : Canonical l.intervals := isCanonical_iff.1 h
  refine ⟨hcan.wellFormed, (hcan.apart.imp fun hlt => ?_).isChain⟩
  exact Interval.endsBefore_iff.2 hlt.le

lemma reverse_reverse (l : IntervalList) : l.reverse.reverse = l := by
  show IntervalList.mk l.field _ = l
  simp only [reverse, ← List.map_reverse, List.reverse_reverse, List.map_map]
  exact congrArg (IntervalList.mk l.field) (List.map_id _)

lemma mem_reverse {l : IntervalList} {i : Interval} : i ∈ l.reverse.intervals ↔ i.reverse ∈ l.intervals := by
  simp only [reverse, List.mem_map, List.mem_reverse]
  constructor
  · rintro ⟨j, hj, rfl⟩
    exact hj
  · exact fun hi => ⟨i.reverse, hi, rfl⟩

lemma contains_reverse {l : IntervalList} {v : Value} : l.reverse.Contains v ↔ l.Contains v := by
  constructor
  · rintro ⟨i, hi, hv⟩
    exact ⟨i.reverse, mem_reverse.1 hi, Interval.contains_reverse.2 hv⟩
  · rintro ⟨i, hi, hv⟩
    exact ⟨i.reverse, mem_reverse.2 hi, Interval.contains_reverse.2 hv⟩

/-- An ascending list contains what it holds. -/
lemma Ascends.contains_iff {l : IntervalList} (h : l.Ascends) {v : Value} : l.Contains v ↔ l.Holds v := by
  refine exists_congr fun i => and_congr_right fun hi => ?_
  refine or_iff_left_of_imp (Interval.holds_of_reverse_holds ?_)
  rcases h.wellFormed i hi with hlt | ⟨heq, hstart, hstop⟩
  · exact .inr hlt
  · exact .inl (by rw [Interval.isPoint, hstart, hstop, heq]; rfl)

end IntervalList

/-! ## What is asked of a list -/

namespace CompoundBounds

variable {dir : Int} {i j : Interval} {l : IntervalList} {field : IndexedField}

lemma wellFormed_iff_isPoint_or : i.WellFormed ↔ i.isPoint = true ∨ i.start < i.stop := by
  rw [Interval.WellFormed, Interval.isPoint, Bool.and_eq_true, Bool.and_eq_true]
  tauto

/-- What is asked of neighbours. -/
def neighbourRuns (dir : Int) (i j : Interval) : Bool :=
  directionBetween i.stop j.start == dir ||
    (directionBetween i.stop j.start == 0 && !(j.startInclusive && i.stopInclusive))

lemma neighboursRun_iff {l : List Interval} :
    neighboursRun dir l = true ↔ l.IsChain fun i j => neighbourRuns dir i j = true := by
  induction l with
  | nil => simp [neighboursRun]
  | cons i l ih =>
    cases l with
    | nil => simp [neighboursRun]
    | cons j rest =>
      rw [neighboursRun, Bool.and_eq_true, ih, List.isChain_cons_cons]
      rfl

lemma neighbourRuns_up : neighbourRuns 1 i j = true ↔ i.EndsBefore j := by
  rw [neighbourRuns, directionBetween, Interval.EndsBefore, Value.beq_iff_compare]
  show _ ↔ i.stop.compare j.start = .lt ∨ i.stop.compare j.start = .eq ∧ _
  cases i.stop.compare j.start <;> cases i.stopInclusive <;> cases j.startInclusive <;> decide

lemma directionBetween_swap (v w : Value) : directionBetween w v = -directionBetween v w := by
  rw [directionBetween, directionBetween, Value.compare_swap w v]
  cases v.compare w <;> rfl

/-- The check of neighbours is symmetric under turning them around. -/
lemma neighbourRuns_reverse : neighbourRuns dir j.reverse i.reverse = neighbourRuns (-dir) i j := by
  show (directionBetween j.start i.stop == dir ||
    (directionBetween j.start i.stop == 0 && !(i.stopInclusive && j.startInclusive))) = _
  rw [neighbourRuns, directionBetween_swap i.stop j.start, Bool.and_comm i.stopInclusive, Bool.eq_iff_iff]
  have hdir (d : Int) : -d = dir ↔ d = -dir := by omega
  simp only [Bool.or_eq_true, Bool.and_eq_true, beq_iff_eq, Int.neg_eq_zero, hdir]

lemma neighbourRuns_down : neighbourRuns (-1) i j = true ↔ j.reverse.EndsBefore i.reverse := by
  rw [← neighbourRuns_reverse]
  exact neighbourRuns_up

lemma listRuns_up (h : dir * field.option.direction = 1) :
    listRuns dir field l = true ↔ l.field = field.name ∧ l.Ascends := by
  rw [listRuns, h, Bool.and_eq_true, Bool.and_eq_true, beq_iff_eq, List.all_eq_true, neighboursRun_iff, and_assoc,
    ascends_iff]
  simp only [intervalRuns_up, wellFormed_iff_isPoint_or, neighbourRuns_up]

/-- Downwards the check asks what it asks upwards of the list turned around. -/
lemma listRuns_down (h : dir * field.option.direction = -1) :
    listRuns dir field l = true ↔ l.field = field.name ∧ l.reverse.Ascends := by
  have hchain : l.reverse.intervals.IsChain Interval.EndsBefore ↔
      l.intervals.IsChain fun i j => j.reverse.EndsBefore i.reverse := by
    rw [reverse, List.isChain_map, List.isChain_reverse]
  have hwf : (∀ i ∈ l.reverse.intervals, i.WellFormed) ↔ ∀ i ∈ l.intervals, i.reverse.WellFormed := by
    rw [reverse, List.forall_mem_map]
    simp only [List.mem_reverse]
  rw [listRuns, h, Bool.and_eq_true, Bool.and_eq_true, beq_iff_eq, List.all_eq_true, neighboursRun_iff, and_assoc,
    ascends_iff, hchain, hwf]
  simp only [intervalRuns_down, wellFormed_iff_isPoint_or, neighbourRuns_down, Interval.isPoint_reverse]
  rfl

/-! ## Turning lists around -/

/-- The list of a field as a scan in direction `dir` walks it. -/
def toward (dir : Int) (l : IntervalList) (field : IndexedField) : IntervalList :=
  if field.option.direction * dir = -1 then l.reverse else l

lemma toward_eq_or (dir : Int) (l : IntervalList) (field : IndexedField) :
    toward dir l field = l ∨ toward dir l field = l.reverse := by
  unfold toward
  split_ifs
  · exact .inr rfl
  · exact .inl rfl

lemma toward_backward (l : IntervalList) (field : IndexedField) :
    toward (-1) l field = (toward 1 l field).reverse := by
  unfold toward
  rcases field.option.direction_eq with h | h
  · simp [h]
  · simp [h, reverse_reverse]

lemma contains_toward {v : Value} : (toward dir l field).Contains v ↔ l.Contains v := by
  rcases toward_eq_or dir l field with h | h
  · rw [h]
  · rw [h, contains_reverse]

/-- In either direction a list is accepted if it ascended before it was turned around. -/
lemma listRuns_toward (hdir : dir = 1 ∨ dir = -1) :
    listRuns dir field (toward dir l field) = true ↔ l.field = field.name ∧ l.Ascends := by
  have hcases : dir * field.option.direction = 1 ∨ dir * field.option.direction = -1 := by
    rcases hdir with rfl | rfl <;> rcases field.option.direction_eq with h | h <;> simp [h]
  unfold toward
  rw [mul_comm]
  rcases hcases with h | h
  · rw [if_neg (by rw [h]; decide), listRuns_up h]
  · rw [if_pos h, listRuns_down h, reverse_reverse]
    rfl

/-! ## Aligned bounds -/

variable {b : CompoundBounds} {pattern : KeyPattern}

/-- The bounds as a scan in direction `dir` walks them. -/
def turned (b : CompoundBounds) (pattern : KeyPattern) (dir : Int) : CompoundBounds :=
  ⟨(b.lists.zip pattern.fields).map fun x => toward dir x.1 x.2⟩

lemma align_cases (hlength : b.lists.length = pattern.size) (hdir : dir = 1 ∨ dir = -1) :
    (b.align pattern dir).bounds = b.turned pattern dir ∧
      ((b.align pattern dir).misalignment = none ↔ (b.turned pattern dir).isValidFor pattern dir = true) := by
  have halign : b.align pattern dir =
      if (b.turned pattern dir).isValidFor pattern dir then ⟨b.turned pattern dir, [], none⟩
      else ⟨b.turned pattern dir, [(b.turned pattern dir).invalidEntry pattern dir],
        some (.invalid (b.turned pattern dir))⟩ := by
    rw [align, if_neg (by rcases hdir with rfl | rfl <;> decide), if_neg (by simp [hlength])]
    rfl
  rw [halign]
  split_ifs with hvalid
  · simp [hvalid]
  · simp [hvalid]

section Zip

variable (hlength : b.lists.length = pattern.size)

include hlength

lemma forall₂_lists_iff {R : IntervalList → IndexedField → Prop} :
    List.Forall₂ R b.lists pattern.fields ↔ ∀ x ∈ b.lists.zip pattern.fields, R x.1 x.2 := by
  rw [List.forall₂_iff_zip]
  exact (and_iff_right hlength).trans ⟨fun h x hx => h hx, fun h l field hmem => h (l, field) hmem⟩

lemma forall₂_turned_iff {R : IntervalList → IntervalList → Prop} :
    List.Forall₂ R b.lists (b.turned pattern dir).lists ↔
      ∀ x ∈ b.lists.zip pattern.fields, R x.1 (toward dir x.1 x.2) := by
  have hlists : b.lists = (b.lists.zip pattern.fields).map Prod.fst := (List.map_fst_zip hlength.le).symm
  rw [turned]
  nth_rewrite 1 [hlists]
  rw [List.forall₂_map_left_iff, List.forall₂_map_right_iff, List.forall₂_same]

lemma turned_isValidFor_iff (hdir : dir = 1 ∨ dir = -1) :
    (b.turned pattern dir).isValidFor pattern dir = true ↔
      List.Forall₂ (fun l field => l.field = field.name ∧ l.Ascends) b.lists pattern.fields := by
  have hfields : pattern.fields = (b.lists.zip pattern.fields).map Prod.snd := (List.map_snd_zip hlength.ge).symm
  have hzip : (b.turned pattern dir).lists.zip pattern.fields =
      (b.lists.zip pattern.fields).map fun x => (toward dir x.1 x.2, x.2) := by
    nth_rewrite 1 [hfields]
    exact List.zip_map'
  have hsize : (b.turned pattern dir).lists.length = pattern.size := by
    rw [turned, List.length_map, List.length_zip, hlength]
    exact Nat.min_self _
  rw [isValidFor, hsize, hzip, beq_self_eq_true, Bool.true_and, List.all_eq_true, List.forall_mem_map,
    forall₂_lists_iff hlength]
  exact forall₂_congr fun x _ => listRuns_toward hdir

end Zip

/-- **Alignment in both directions.**  With one list for each field, alignment succeeds in one direction exactly if it
does in the other: when every list carries the name of its field and ascends, as canonical lists do.  The bounds are
then valid for the direction, and each list is as it was or turned around and contains the values it held.  The two
directions give each other's lists turned around. -/
theorem align_succeeds_iff (hlength : b.lists.length = pattern.size) :
    let ordered := List.Forall₂ (fun l field => l.field = field.name ∧ l.Ascends) b.lists pattern.fields
    (∀ dir, dir = 1 ∨ dir = -1 → ((b.align pattern dir).misalignment = none ↔ ordered)) ∧
      (List.Forall₂ (fun l field => l.field = field.name ∧ l.isCanonical = true) b.lists pattern.fields →
        ordered) ∧
      (∀ dir, dir = 1 ∨ dir = -1 → (b.align pattern dir).misalignment = none →
        (b.align pattern dir).bounds.isValidFor pattern dir = true ∧
        List.Forall₂ (fun l l' => (l' = l ∨ l' = l.reverse) ∧ ∀ v, l'.Contains v ↔ l.Holds v)
          b.lists (b.align pattern dir).bounds.lists) ∧
      List.Forall₂ (fun l l' => l' = l.reverse ∧ l = l'.reverse)
        (b.align pattern 1).bounds.lists (b.align pattern (-1)).bounds.lists := by
  intro ordered
  have haligned {dir : Int} (hdir : dir = 1 ∨ dir = -1) := align_cases hlength hdir
  have hsucceeds {dir : Int} (hdir : dir = 1 ∨ dir = -1) :
      (b.align pattern dir).misalignment = none ↔ ordered :=
    (haligned hdir).2.trans (turned_isValidFor_iff hlength hdir)
  refine ⟨fun dir hdir => hsucceeds hdir, ?_, fun dir hdir hnone => ⟨?_, ?_⟩, ?_⟩
  · exact List.Forall₂.imp fun l field h => ⟨h.1, ascends_of_isCanonical h.2⟩
  · rw [(haligned hdir).1]
    exact (haligned hdir).2.1 hnone
  · rw [(haligned hdir).1, forall₂_turned_iff hlength]
    intro x hx
    have hascends := ((forall₂_lists_iff hlength).1 ((hsucceeds hdir).1 hnone) x hx).2
    exact ⟨toward_eq_or dir x.1 x.2, fun v => contains_toward.trans hascends.contains_iff⟩
  · rw [(haligned (.inl rfl)).1, (haligned (.inr rfl)).1, turned, turned, List.forall₂_map_left_iff,
      List.forall₂_map_right_iff, List.forall₂_same]
    intro x _
    rw [toward_backward, reverse_reverse]
    exact ⟨rfl, rfl⟩

/-- Neighbours that touch, and are therefore not canonical, are aligned in both directions. -/
theorem align_succeeds_iff_of_touching :
    let pattern : KeyPattern := ⟨[⟨"a", .ascending⟩, ⟨"b", .descending⟩]⟩
    let b : CompoundBounds := ⟨[
      ⟨"a", [⟨.int 1, true, .int 2, false⟩, .point (.int 2), ⟨.int 2, false, .int 5, true⟩]⟩,
      ⟨"b", [.point (.string "x"), ⟨.string "x", false, .string "y", true⟩]⟩]⟩
    b.lists.length = pattern.size ∧ (b.lists.map isCanonical = [false, false]) ∧
      (b.align pattern 1).misalignment = none ∧ (b.align pattern (-1)).misalignment = none ∧
      (b.align pattern (-1)).bounds.isValidFor pattern (-1) = true ∧
      List.Forall₂ (fun l l' => (l' = l ∨ l' = l.reverse) ∧ ∀ v, l'.Contains v ↔ l.Holds v)
        b.lists (b.align pattern (-1)).bounds.lists ∧
      List.Forall₂ (fun l l' => l' = l.reverse ∧ l = l'.reverse)
        (b.align pattern 1).bounds.lists (b.align pattern (-1)).bounds.lists := by
  intro pattern b
  have hlength : b.lists.length = pattern.size := rfl
  obtain ⟨hsucceeds, -, haligned, hreversed⟩ := align_succeeds_iff hlength
  have hforward : (b.align pattern 1).misalignment = none := rfl
  have hbackward : (b.align pattern (-1)).misalignment = none :=
    (hsucceeds _ (.inr rfl)).2 ((hsucceeds _ (.inl rfl)).1 hforward)
  obtain ⟨hvalid, hlists⟩ := haligned _ (.inr rfl) hbackward
  exact ⟨hlength, by decide, hforward, hbackward, hvalid, hlists, hreversed⟩

end CompoundBounds

end ScanBounds

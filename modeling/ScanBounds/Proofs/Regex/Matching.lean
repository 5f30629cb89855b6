import Mathlib.Order.Iterate
import Mathlib.Tactic.SplitIfs
import ScanBounds.Regex.Matching

/-!
# The matcher and the relation

The matcher of `Regex.Matching` computes with sets of places held as bits of a number; `Regex.Spans` tells
place by place what an expression covers.  Here the two are proved to agree (`isMatch_iff`), so that later
modules argue about stretches of a text and never about bits.

Repetition is where they differ most.  The relation counts copies; the matcher repeats a step, stops as
soon as nothing changes and, where no bound is given, takes as many steps as the text has places.  That is
enough because a copy that covers nothing can be left out (`SpansTimes.shorten`).
-/

namespace ScanBounds.Regex

variable {text : Array Char} {r s : Regex}

/-! ## Stretches -/

lemma spans_empty_iff {i j : Nat} : Spans text .empty i j ↔ i = j := by
  constructor
  · rintro ⟨⟩
    rfl
  · rintro rfl
    exact .empty i

lemma spans_one_iff {set : CharSet} {i j : Nat} :
    Spans text (.one set) i j ↔ j = i + 1 ∧ ∃ c, text[i]? = some c ∧ set.contains c := by
  constructor
  · rintro ⟨⟩
    exact ⟨rfl, _, ‹_›, ‹_›⟩
  · rintro ⟨rfl, c, hc, hmem⟩
    exact .one hc hmem

lemma spans_assert_iff {a : Assertion} {i j : Nat} :
    Spans text (.assert a) i j ↔ i = j ∧ a.holds (around text i).1 (around text i).2 := by
  constructor
  · rintro ⟨⟩
    exact ⟨rfl, ‹_›⟩
  · rintro ⟨rfl, h⟩
    exact .assert h

lemma spans_cat_iff {i k : Nat} :
    Spans text (.cat r s) i k ↔ ∃ j, Spans text r i j ∧ Spans text s j k := by
  constructor
  · rintro ⟨⟩
    exact ⟨_, ‹_›, ‹_›⟩
  · rintro ⟨j, hr, hs⟩
    exact .cat hr hs

lemma spans_alt_iff {i j : Nat} :
    Spans text (.alt r s) i j ↔ Spans text r i j ∨ Spans text s i j := by
  constructor
  · rintro (_ | _)
    · exact .inl ‹_›
    · exact .inr ‹_›
  · rintro (h | h)
    · exact .altLeft h
    · exact .altRight h

lemma spans_repeated_iff {least : Nat} {most : Option Nat} {i j : Nat} :
    Spans text (.repeated r least most) i j ↔
      ∃ n, least ≤ n ∧ (∀ m, most = some m → n ≤ m) ∧ SpansTimes text r n i j := by
  constructor
  · rintro ⟨⟩
    exact ⟨_, ‹_›, ‹_›, ‹_›⟩
  · rintro ⟨n, hleast, hmost, h⟩
    exact .repeated hleast hmost h

lemma spansTimes_zero_iff {i j : Nat} : SpansTimes text r 0 i j ↔ i = j := by
  constructor
  · rintro ⟨⟩
    rfl
  · rintro rfl
    exact .zero r i

lemma spansTimes_succ_iff {n i k : Nat} :
    SpansTimes text r (n + 1) i k ↔ ∃ j, Spans text r i j ∧ SpansTimes text r n j k := by
  constructor
  · rintro ⟨⟩
    exact ⟨_, ‹_›, ‹_›⟩
  · rintro ⟨j, hfirst, hrest⟩
    exact .succ hfirst hrest

lemma spansTimes_add_iff {m n i k : Nat} :
    SpansTimes text r (m + n) i k ↔ ∃ j, SpansTimes text r m i j ∧ SpansTimes text r n j k := by
  induction m generalizing i with
  | zero => simp [spansTimes_zero_iff]
  | succ m ih =>
    rw [Nat.succ_add]
    constructor
    · intro h
      obtain ⟨l, hfirst, hrest⟩ := spansTimes_succ_iff.1 h
      obtain ⟨j, hm, hn⟩ := ih.1 hrest
      exact ⟨j, .succ hfirst hm, hn⟩
    · rintro ⟨j, hm, hn⟩
      obtain ⟨l, hfirst, hrest⟩ := spansTimes_succ_iff.1 hm
      exact .succ hfirst (ih.2 ⟨j, hrest, hn⟩)

mutual

/-- A stretch lies in the text and runs forward. -/
theorem Spans.bounds {r : Regex} {i j : Nat} (h : Spans text r i j) (hi : i ≤ text.size) :
    i ≤ j ∧ j ≤ text.size :=
  match h with
  | .empty _ => ⟨le_refl i, hi⟩
  | .one at_i _ => ⟨Nat.le_succ i, (Array.getElem?_eq_some_iff.1 at_i).1⟩
  | .assert _ => ⟨le_refl i, hi⟩
  | .cat left right =>
    have hl := left.bounds hi
    have hr := right.bounds hl.2
    ⟨hl.1.trans hr.1, hr.2⟩
  | .altLeft left => left.bounds hi
  | .altRight right => right.bounds hi
  | .repeated _ _ times => times.bounds hi

theorem SpansTimes.bounds {r : Regex} {n i j : Nat} (h : SpansTimes text r n i j) (hi : i ≤ text.size) :
    i ≤ j ∧ j ≤ text.size :=
  match h with
  | .zero _ _ => ⟨le_refl i, hi⟩
  | .succ first rest =>
    have hf := first.bounds hi
    have hr := rest.bounds hf.2
    ⟨hf.1.trans hr.1, hr.2⟩

end

/-- Copies that cover nothing can be left out, so no more are needed than there are characters. -/
lemma SpansTimes.shorten {n i j : Nat} (h : SpansTimes text r n i j) (hi : i ≤ text.size) :
    ∃ m, m ≤ n ∧ m ≤ j - i ∧ SpansTimes text r m i j := by
  induction n generalizing i with
  | zero => exact ⟨0, le_refl 0, Nat.zero_le _, h⟩
  | succ n ih =>
    obtain ⟨k, hfirst, hrest⟩ := spansTimes_succ_iff.1 h
    have hk := hfirst.bounds hi
    have hj := hrest.bounds hk.2
    obtain ⟨m, hmn, hmj, hm⟩ := ih hrest hk.2
    by_cases heq : k = i
    · subst heq
      exact ⟨m, by omega, hmj, hm⟩
    · exact ⟨m + 1, by omega, by omega, .succ hfirst hm⟩

/-! ## Bits -/

lemma testBit_ofBits (bits : List Bool) (i : Nat) : (ofBits bits).testBit i = bits.getD i false := by
  induction bits generalizing i with
  | nil => simp [ofBits]
  | cons b bits ih =>
    have hcons : ofBits (b :: bits) = 2 * ofBits bits + b.toNat := rfl
    cases i with
    | zero =>
      rw [hcons, Nat.testBit_zero]
      cases b <;> simp
    | succ i =>
      have hdiv : (2 * ofBits bits + b.toNat) / 2 = ofBits bits := by
        have hb : b.toNat ≤ 1 := Bool.toNat_le b
        omega
      rw [hcons, Nat.testBit_succ, hdiv, ih]
      rfl

lemma testBit_placesOf (set : CharSet) (i : Nat) :
    (placesOf (letters text.toList) set).testBit i ↔ ∃ c, text[i]? = some c ∧ set.contains c := by
  have hfold : ∀ ls : List (Char × Nat), (placesOf ls set).testBit i ↔
      ∃ p ∈ ls, set.contains p.1 ∧ p.2.testBit i := by
    intro ls
    induction ls with
    | nil => simp [placesOf]
    | cons p ls ih =>
      have hcons : placesOf (p :: ls) set =
          if set.contains p.1 then p.2 ||| placesOf ls set else placesOf ls set := rfl
      rw [hcons]
      split_ifs with hp <;> simp [ih, hp]
  have hbit : ∀ c, (ofBits (text.toList.map (· == c))).testBit i ↔ text[i]? = some c := by
    intro c
    rw [testBit_ofBits, List.getD_eq_getElem?_getD, List.getElem?_map, Array.getElem?_toList]
    cases text[i]? <;> simp
  rw [hfold]
  constructor
  · rintro ⟨p, hp, hset, hi⟩
    obtain ⟨c, -, rfl⟩ := List.mem_map.1 hp
    exact ⟨c, (hbit c).1 hi, hset⟩
  · rintro ⟨c, hc, hset⟩
    have hmem : c ∈ text.toList := by
      rw [Array.mem_toList_iff]
      exact Array.mem_of_getElem? hc
    exact ⟨_, List.mem_map_of_mem (List.mem_eraseDups.2 hmem), hset, (hbit c).2 hc⟩

lemma testBit_placesWhere (a : Assertion) (i : Nat) :
    (placesWhere text a).testBit i ↔
      i ≤ text.size ∧ a.holds (around text i).1 (around text i).2 := by
  rw [placesWhere, testBit_ofBits, List.getD_eq_getElem?_getD, List.getElem?_map]
  by_cases hi : i < text.size + 1
  · rw [List.getElem?_range hi]
    simp [Nat.lt_succ_iff.1 hi]
  · rw [List.getElem?_eq_none (by simpa using hi)]
    simp only [Option.map_none, Option.getD_none, Bool.false_eq_true, false_iff, not_and]
    omega

/-! ## Repeated steps -/

/-- Stopping early makes no difference. -/
lemma steps_eq_iterate (step : Nat → Nat) (n places : Nat) : steps step n places = step^[n] places := by
  induction n generalizing places with
  | zero => rfl
  | succ n ih =>
    rw [steps, Function.iterate_succ_apply]
    split_ifs with h
    · rw [h, Function.iterate_fixed h]
    · exact ih _

/-- All places of the set lie in the text. -/
def Within (text : Array Char) (places : Nat) : Prop := ∀ i, places.testBit i → i ≤ text.size

/-- The step from a set of places takes the expression once. -/
def LeadsBy (text : Array Char) (r : Regex) (step : Nat → Nat) : Prop :=
  ∀ places, Within text places →
    ∀ j, (step places).testBit j ↔ ∃ i, places.testBit i ∧ Spans text r i j

lemma LeadsBy.within {step : Nat → Nat} (h : LeadsBy text r step) {places : Nat}
    (hp : Within text places) : Within text (step places) := by
  intro j hj
  obtain ⟨i, hi, hspan⟩ := (h places hp j).1 hj
  exact (hspan.bounds (hp i hi)).2

lemma LeadsBy.iterate {step : Nat → Nat} (h : LeadsBy text r step) (n : Nat) {places : Nat}
    (hp : Within text places) (j : Nat) :
    (step^[n] places).testBit j ↔ ∃ i, places.testBit i ∧ SpansTimes text r n i j := by
  induction n generalizing places with
  | zero => simp [spansTimes_zero_iff]
  | succ n ih =>
    rw [Function.iterate_succ_apply, ih (h.within hp)]
    constructor
    · rintro ⟨k, hk, hrest⟩
      obtain ⟨i, hi, hfirst⟩ := (h places hp k).1 hk
      exact ⟨i, hi, .succ hfirst hrest⟩
    · rintro ⟨i, hi, htimes⟩
      obtain ⟨k, hfirst, hrest⟩ := spansTimes_succ_iff.1 htimes
      exact ⟨k, (h places hp k).2 ⟨i, hi, hfirst⟩, hrest⟩

lemma LeadsBy.within_iterate {step : Nat → Nat} (h : LeadsBy text r step) (n : Nat) {places : Nat}
    (hp : Within text places) : Within text (step^[n] places) := by
  intro j hj
  obtain ⟨i, hi, htimes⟩ := (h.iterate n hp j).1 hj
  exact (htimes.bounds (hp i hi)).2

/-- Steps that keep what they have reached take the expression any number of times up to their own. -/
lemma LeadsBy.iterate_or {step : Nat → Nat} (h : LeadsBy text r step) (n : Nat) {places : Nat}
    (hp : Within text places) (j : Nat) :
    ((fun reached => reached ||| step reached)^[n] places).testBit j ↔
      ∃ i, places.testBit i ∧ ∃ m ≤ n, SpansTimes text r m i j := by
  induction n generalizing places with
  | zero => simp [spansTimes_zero_iff]
  | succ n ih =>
    have hor : Within text (places ||| step places) := by
      intro i hi
      rw [Nat.testBit_or, Bool.or_eq_true] at hi
      exact hi.elim (hp i) (h.within hp i)
    rw [Function.iterate_succ_apply, ih hor]
    constructor
    · rintro ⟨k, hk, m, hm, htimes⟩
      rw [Nat.testBit_or, Bool.or_eq_true] at hk
      rcases hk with hk | hk
      · exact ⟨k, hk, m, by omega, htimes⟩
      · obtain ⟨i, hi, hfirst⟩ := (h places hp k).1 hk
        exact ⟨i, hi, m + 1, by omega, .succ hfirst htimes⟩
    · rintro ⟨i, hi, m, hm, htimes⟩
      cases m with
      | zero => exact ⟨i, by simp [hi], 0, Nat.zero_le n, htimes⟩
      | succ m =>
        obtain ⟨k, hfirst, hrest⟩ := spansTimes_succ_iff.1 htimes
        have hk : (step places).testBit k := (h places hp k).2 ⟨i, hi, hfirst⟩
        exact ⟨k, by simp [hk], m, by omega, hrest⟩

/-! ## Agreement -/

/-- No repetition asks for more copies than it allows. -/
def BoundsInOrder : Regex → Prop
  | .empty | .one _ | .assert _ => True
  | .cat r s | .alt r s => r.BoundsInOrder ∧ s.BoundsInOrder
  | .repeated r least most => r.BoundsInOrder ∧ ∀ m, most = some m → least ≤ m

/-- How many copies beyond the least the matcher tries. -/
def moreCopies (text : Array Char) (least : Nat) : Option Nat → Nat
  | some m => m - least
  | none => text.size + 1

/-- The matcher takes a repetition as its least copies and then as many more as it allows. -/
lemma leadsBy_repeated {step : Nat → Nat} (h : LeadsBy text r step) {least : Nat} {most : Option Nat}
    (horder : ∀ m, most = some m → least ≤ m) :
    LeadsBy text (.repeated r least most) fun places =>
      steps (fun reached => reached ||| step reached) (moreCopies text least most)
        (steps step least places) := by
  intro places hp j
  simp only
  rw [steps_eq_iterate, steps_eq_iterate, h.iterate_or _ (h.within_iterate least hp)]
  constructor
  · rintro ⟨k, hk, m, hm, hmore⟩
    obtain ⟨i, hi, hleast⟩ := (h.iterate least hp k).1 hk
    refine ⟨i, hi, spans_repeated_iff.2 ⟨least + m, Nat.le_add_right _ _, ?_,
      spansTimes_add_iff.2 ⟨k, hleast, hmore⟩⟩⟩
    rintro n rfl
    have hn := horder n rfl
    rw [moreCopies] at hm
    omega
  · rintro ⟨i, hi, hspan⟩
    obtain ⟨n, hleast, hmost, htimes⟩ := spans_repeated_iff.1 hspan
    obtain ⟨m, rfl⟩ := Nat.exists_eq_add_of_le hleast
    obtain ⟨k, hfirst, hmore⟩ := spansTimes_add_iff.1 htimes
    have hk := hfirst.bounds (hp i hi)
    have hj := hmore.bounds hk.2
    refine ⟨k, (h.iterate least hp k).2 ⟨i, hi, hfirst⟩, ?_⟩
    cases most with
    | some b =>
      have hb := hmost b rfl
      exact ⟨m, by rw [moreCopies]; omega, hmore⟩
    | none =>
      obtain ⟨m', -, hm', hshort⟩ := hmore.shorten hk.2
      exact ⟨m', by rw [moreCopies]; omega, hshort⟩

/-- What the matcher computes from a set of places is what the expression covers from them. -/
lemma leadsBy_lead (hr : r.BoundsInOrder) :
    LeadsBy text r (locate text (letters text.toList) r).lead := by
  induction r with
  | empty =>
    intro places _ j
    simp [locate, Located.lead, spans_empty_iff]
  | one set =>
    intro places _ j
    rw [locate, Located.lead, Nat.testBit_shiftLeft, Bool.and_eq_true, decide_eq_true_iff,
      Nat.testBit_and, Bool.and_eq_true, testBit_placesOf]
    constructor
    · rintro ⟨hj, hi, hc⟩
      exact ⟨j - 1, hi, spans_one_iff.2 ⟨by omega, hc⟩⟩
    · rintro ⟨i, hi, hspan⟩
      obtain ⟨rfl, hc⟩ := spans_one_iff.1 hspan
      exact ⟨by omega, hi, hc⟩
  | assert a =>
    intro places hp j
    rw [locate, Located.lead, Nat.testBit_and, Bool.and_eq_true, testBit_placesWhere]
    constructor
    · rintro ⟨hj, -, ha⟩
      exact ⟨j, hj, .assert ha⟩
    · rintro ⟨i, hi, hspan⟩
      obtain ⟨rfl, ha⟩ := spans_assert_iff.1 hspan
      exact ⟨hi, hp i hi, ha⟩
  | cat r s ihr ihs =>
    intro places hp j
    have hleft := ihr hr.1
    rw [locate, Located.lead, ihs hr.2 _ (hleft.within hp)]
    constructor
    · rintro ⟨k, hk, hright⟩
      obtain ⟨i, hi, hspan⟩ := (hleft places hp k).1 hk
      exact ⟨i, hi, .cat hspan hright⟩
    · rintro ⟨i, hi, hspan⟩
      obtain ⟨k, hspan, hright⟩ := spans_cat_iff.1 hspan
      exact ⟨k, (hleft places hp k).2 ⟨i, hi, hspan⟩, hright⟩
  | alt r s ihr ihs =>
    intro places hp j
    rw [locate, Located.lead, Nat.testBit_or, Bool.or_eq_true, ihr hr.1 places hp, ihs hr.2 places hp,
      ← exists_or]
    simp only [spans_alt_iff, and_or_left]
  | repeated r least most ih => exact leadsBy_repeated (ih hr.1) hr.2

/-- **Matching.**  The matcher finds a match exactly when some stretch of the text is covered. -/
theorem isMatch_iff (hr : r.BoundsInOrder) (text : String) : r.isMatch text = true ↔ r.Matches text := by
  have hbits : ∀ i, (Nat.pow 2 (text.toList.length + 1) - 1).testBit i ↔ i ≤ text.toList.length := by
    intro i
    have hpow : (Nat.pow 2 (text.toList.length + 1) - 1).testBit i = decide (i < text.toList.length + 1) :=
      Nat.testBit_two_pow_sub_one _ i
    rw [hpow, decide_eq_true_iff, Nat.lt_succ_iff]
  have hall : Within text.toList.toArray (Nat.pow 2 (text.toList.length + 1) - 1) := by
    intro i hi
    simpa using (hbits i).1 hi
  have hlead := leadsBy_lead hr _ hall
  have hne : ∀ n : Nat, n ≠ 0 ↔ ∃ j, n.testBit j := by
    intro n
    refine ⟨Nat.exists_testBit_of_ne_zero, ?_⟩
    rintro ⟨j, hj⟩ rfl
    simp at hj
  simp only [isMatch, bne_iff_ne]
  rw [hne]
  constructor
  · rintro ⟨j, hj⟩
    obtain ⟨i, hi, hspan⟩ := (hlead j).1 hj
    exact ⟨i, j, (hbits i).1 hi, hspan⟩
  · rintro ⟨i, j, hi, hspan⟩
    exact ⟨j, (hlead j).2 ⟨i, (hbits i).2 hi, hspan⟩⟩

end ScanBounds.Regex

import Mathlib.Algebra.Group.Nat.Even
import Mathlib.Data.List.DropRight
import ScanBounds.Proofs.Regex.Range
import ScanBounds.Proofs.Regex.Tokens
import ScanBounds.Text.Offset

/-!
# Live bars

A bar is live when the backslashes right before it pair up, however many there are.  The detector looks back
two characters only: it passes over a bar exactly when a single backslash stands before it
(`mayHoldBar_iff`).  One is odd, so no live bar is passed over; the other odd runs are reported without need.
A pattern with a live bar behind its anchor therefore has no stem.
-/

namespace ScanBounds.Stem

/-- How many backslashes a text ends in. -/
def backslashes (text : List Char) : Nat := (text.rtakeWhile (· == '\\')).length

/-- Some bar in the text has an even number of backslashes right before it. -/
def LiveBar (text : List Char) : Prop := ∃ u v, text = u ++ '|' :: v ∧ Even (backslashes u)

/-- Some bar is live, or a reader of the text takes it for the sign of an alternative. -/
def Alternates (text : List Char) : Prop :=
  LiveBar text ∨ ∃ options fuel tokens, Regex.tokens? options fuel text = some tokens ∧ .bar ∈ tokens

/-! ## What the detector sees -/

lemma backslashes_concat (text : List Char) (c : Char) :
    backslashes (text ++ [c]) = if c = '\\' then backslashes text + 1 else 0 := by
  unfold backslashes
  split_ifs with hc
  · rw [List.rtakeWhile_concat_pos _ _ _ (by simpa using hc), List.length_append, List.length_singleton]
  · rw [List.rtakeWhile_concat_neg _ _ _ (by simpa using hc), List.length_nil]

lemma backslashes_eq_zero_iff (text : List Char) : backslashes text = 0 ↔ text.getLast? ≠ some '\\' := by
  rcases List.eq_nil_or_concat text with rfl | ⟨text, c, rfl⟩
  · simp [backslashes]
  · rw [List.concat_eq_append, backslashes_concat, List.getLast?_concat]
    split_ifs with hc <;> simp [hc]

/-- The last two characters tell whether a text ends in just one backslash. -/
lemma backslashes_ne_one_iff (text : List Char) :
    backslashes text ≠ 1 ↔ text.getLast? ≠ some '\\' ∨ text.dropLast.getLast? = some '\\' := by
  rcases List.eq_nil_or_concat text with rfl | ⟨text, c, rfl⟩
  · simp [backslashes]
  · rw [List.concat_eq_append, backslashes_concat, List.getLast?_concat, List.dropLast_concat]
    split_ifs with hc
    · have hzero := backslashes_eq_zero_iff text
      simp only [hc, ne_eq, not_true_eq_false, false_or, Nat.add_eq_right, hzero, not_not]
    · simp [hc]

/-- Behind `before`, the detector reports a bar unless just one backslash stands before it. -/
lemma mayHoldBar_behind_iff (before text : List Char) :
    mayHoldBar before.dropLast.getLast? before.getLast? text = true ↔
      ∃ u v, text = u ++ '|' :: v ∧ backslashes (before ++ u) ≠ 1 := by
  induction text generalizing before with
  | nil => simp [mayHoldBar]
  | cons c rest ih =>
    have hrest := ih (before ++ [c])
    rw [List.getLast?_concat, List.dropLast_concat] at hrest
    rw [mayHoldBar, Bool.or_eq_true, hrest, Text.exists_occurrence_cons_iff, List.append_nil,
      backslashes_ne_one_iff]
    simp

theorem mayHoldBar_iff (text : List Char) :
    mayHoldBar none none text = true ↔ ∃ u v, text = u ++ '|' :: v ∧ backslashes u ≠ 1 :=
  mayHoldBar_behind_iff [] text

/-- An even number of backslashes is not one. -/
lemma mayHoldBar_of_liveBar {text : List Char} (h : LiveBar text) : mayHoldBar none none text = true := by
  obtain ⟨u, v, htext, heven⟩ := h
  refine (mayHoldBar_iff text).2 ⟨u, v, htext, fun hone => ?_⟩
  rw [hone] at heven
  exact Nat.not_even_one heven

lemma mayHoldBar_of_alternates {text : List Char} (h : Alternates text) : mayHoldBar none none text = true := by
  rcases h with hlive | ⟨options, fuel, tokens, htokens, hbar⟩
  · exact mayHoldBar_of_liveBar hlive
  · by_contra hquiet
    rw [Bool.not_eq_true] at hquiet
    exact (Regex.cuts_of_tokens? htokens).bar_notMem ⟨none, none, .inl nofun, hquiet⟩ hbar

/-! ## Patterns -/

lemma anchored?_eq_some {pattern : String} {text : List Char}
    (h : pattern.toList = '^' :: text ∨ pattern.toList = '\\' :: 'A' :: text) :
    ∃ fixed, anchored? pattern.toList = some (fixed, text) := by
  rcases h with h | h <;> rw [h]
  · exact ⟨false, rfl⟩
  · exact ⟨true, rfl⟩

/-- **Live bars.**  The detector reports every text with a live bar, and every text in which a bar is read as
the sign of an alternative.  A pattern with such a text behind its anchor has the empty stem, whatever its
flags, so that its range holds every string. -/
theorem liveBar_reported {text : List Char} (h : Alternates text) :
    mayHoldBar none none text = true ∧
      ∀ (pattern flags : String) (collated : Bool),
        pattern.toList = '^' :: text ∨ pattern.toList = '\\' :: 'A' :: text →
        (ofPattern pattern flags collated).literal = "" ∧
          ∀ s, (ofPattern pattern flags collated).range.Holds (.string s) := by
  have hbar := mayHoldBar_of_alternates h
  refine ⟨hbar, fun pattern flags collated hanchor => ?_⟩
  have hempty : (ofPattern pattern flags collated).literal = "" := by
    obtain ⟨fixed, hanchored⟩ := anchored?_eq_some hanchor
    unfold ofPattern
    split_ifs
    · rfl
    · simp only [hanchored, hbar, Bool.true_or, if_true]
      rfl
  refine ⟨hempty, fun s => range_holds_string.2 ?_⟩
  rw [hempty]
  exact List.nil_prefix

/-- Two escaped backslashes before the bar. -/
theorem liveBar_reported_behind_backslashes :
    let text := "a\\\\\\\\|c".toList
    let pattern := "^a\\\\\\\\|c"
    Alternates text ∧ (pattern.toList = '^' :: text ∨ pattern.toList = '\\' :: 'A' :: text) ∧
      mayHoldBar none none text = true ∧ (ofPattern pattern "x" false).literal = "" ∧
      ∀ s, (ofPattern pattern "x" false).range.Holds (.string s) := by
  intro text pattern
  have hlive : LiveBar text := ⟨"a\\\\\\\\".toList, "c".toList, by decide, by decide⟩
  have hanchor : pattern.toList = '^' :: text ∨ pattern.toList = '\\' :: 'A' :: text := .inl (by decide)
  obtain ⟨hbar, hstem⟩ := liveBar_reported (.inl hlive)
  exact ⟨.inl hlive, hanchor, hbar, hstem pattern "x" false hanchor⟩

end ScanBounds.Stem

import Mathlib.Data.List.Infix
import Mathlib.Data.List.TakeWhile
import ScanBounds.Proofs.Regex.Matching
import ScanBounds.Regex.Stem
import ScanBounds.Regex.Token

/-!
# Tokens of a pattern

What one token can be, and how much of the pattern it takes (`token?_spec`).  Two facts about whole
patterns follow.  The repetition marks among the tokens have their bounds in order, which the agreement of
matcher and relation asks for.  And a pattern in which no live bar was seen has no token for one: the
detector looks at two characters before a bar only, so the argument is that a token never ends in a
backslash unless it is an escaped one.
-/

namespace ScanBounds.Regex

/-! ## What is left of a text -/

/-- The rest lies behind characters of which the last is no backslash.  Nothing is asked of an empty
rest, so that a comment may run to the end of the text. -/
def Passed (text rest : List Char) : Prop :=
  rest = [] ∨ text = rest ∨ ∃ u c, c ≠ '\\' ∧ text = u ++ c :: rest

lemma Passed.refl (text : List Char) : Passed text text := .inr (.inl rfl)

lemma Passed.trans {a b c : List Char} (hab : Passed a b) (hbc : Passed b c) : Passed a c := by
  rcases hbc with hc | rfl | ⟨u, d, hd, rfl⟩
  · exact .inl hc
  · exact hab
  · rcases hab with hb | rfl | ⟨v, e, -, rfl⟩
    · simp at hb
    · exact .inr (.inr ⟨u, d, hd, rfl⟩)
    · exact .inr (.inr ⟨v ++ e :: u, d, hd, by simp⟩)

lemma Passed.cons {c : Char} (hc : c ≠ '\\') {text rest : List Char} (h : Passed text rest) :
    Passed (c :: text) rest :=
  Passed.trans (.inr (.inr ⟨[], c, hc, rfl⟩)) h

lemma passed_of_append {text rest : List Char} {c : Char} (hc : c ≠ '\\')
    (h : ∃ u, text = u ++ c :: rest) : Passed text rest :=
  let ⟨u, hu⟩ := h
  .inr (.inr ⟨u, c, hc, hu⟩)

/-- A blank run ends in a blank or in the end of a comment line. -/
lemma skipBlank_spec (comment : Bool) (chars : List Char) :
    skipBlank comment chars = [] ∨ (comment = false ∧ chars = skipBlank comment chars) ∨
      ∃ u c, c ≠ '\\' ∧ chars = u ++ c :: skipBlank comment chars := by
  induction chars generalizing comment with
  | nil => exact .inl rfl
  | cons c rest ih =>
    -- one more character before what the rest of the text leaves
    have hmore : ∀ next : Bool, c ≠ '\\' ∨ next = true → skipBlank next rest = [] ∨
        ∃ u d, d ≠ '\\' ∧ c :: rest = u ++ d :: skipBlank next rest := by
      intro next hc
      rcases ih next with h | ⟨hnext, h⟩ | ⟨u, d, hd, h⟩
      · exact .inl h
      · have hc : c ≠ '\\' := hc.resolve_right (by simp [hnext])
        exact .inr ⟨[], c, hc, by rw [← h]; rfl⟩
      · exact .inr ⟨c :: u, d, hd, by rw [List.cons_append, ← h]⟩
    rw [skipBlank]
    split_ifs with hcomment hspace hhash
    · subst hcomment
      refine (hmore (c != '\n') ?_).imp_right .inr
      by_cases hc : c = '\n'
      · exact .inl (by rw [hc]; decide)
      · exact .inr (by simpa using hc)
    · refine (hmore false (.inl ?_)).imp_right .inr
      rintro rfl
      exact absurd hspace (by decide +kernel)
    · refine (hmore true (.inr rfl)).imp_right .inr
    · exact .inr (.inl ⟨by simpa using hcomment, rfl⟩)

lemma skipBlank_passed (comment : Bool) (chars : List Char) : Passed chars (skipBlank comment chars) := by
  rcases skipBlank_spec comment chars with h | ⟨-, h⟩ | h
  · exact .inl h
  · exact .inr (.inl h)
  · exact .inr (.inr h)

lemma Options.skip_passed (options : Options) (chars : List Char) : Passed chars (options.skip chars) := by
  unfold Options.skip
  split_ifs
  · exact skipBlank_passed false chars
  · exact Passed.refl chars

lemma Passed.suffix {text rest : List Char} (h : Passed text rest) : rest <:+ text := by
  rcases h with rfl | rfl | ⟨u, c, -, rfl⟩
  · exact List.nil_suffix
  · exact List.suffix_refl _
  · exact ⟨u ++ [c], by simp⟩

lemma Options.skip_suffix (options : Options) (chars : List Char) : options.skip chars <:+ chars :=
  (options.skip_passed chars).suffix

/-- What stands before a character of the rest stands before it in the text. -/
lemma exists_append_of_suffix {text rest tail : List Char} {c : Char} (h : rest <:+ text)
    (hrest : ∃ u, rest = u ++ c :: tail) : ∃ u, text = u ++ c :: tail := by
  obtain ⟨v, rfl⟩ := h
  obtain ⟨u, rfl⟩ := hrest
  exact ⟨v ++ u, by simp⟩

/-! ## Classes -/

lemma element?_suffix {chars rest : List Char} {e : Element} (h : element? chars = some (e, rest)) :
    rest <:+ chars := by
  unfold element? at h
  split at h
  · cases h
  · split at h <;> cases h
    · exact ⟨[_, _], rfl⟩
    · exact ⟨[_, _], rfl⟩
  · cases h
  · cases h
    exact List.suffix_cons _ _

lemma rangeOrElement?_suffix {options : Options} {chars rest : List Char} {s : CharSet}
    (h : rangeOrElement? options chars = some (s, rest)) : rest <:+ chars := by
  unfold rangeOrElement? at h
  obtain ⟨⟨first, behind⟩, hfirst, h⟩ := Option.bind_eq_some_iff.1 h
  have hbehind := element?_suffix hfirst
  have hskip := options.skip_suffix behind
  simp only at h
  split at h
  case h_1 after heq =>
    rw [heq] at hskip
    split_ifs at h
    · cases h
      exact hbehind
    · obtain ⟨⟨last, rest'⟩, hlast, h⟩ := Option.bind_eq_some_iff.1 h
      have hrest : rest' <:+ chars :=
        (element?_suffix hlast).trans ((options.skip_suffix after).trans
          ((List.suffix_cons _ _).trans (hskip.trans hbehind)))
      simp only at h
      split at h
      · split_ifs at h
        cases h
        exact hrest
      · cases h
  · cases h
    exact hbehind

lemma elements?_closed {options : Options} {fuel : Nat} {chars rest : List Char} {sets : List CharSet}
    (h : elements? options fuel chars = some (sets, rest)) : ∃ u, chars = u ++ ']' :: rest := by
  induction fuel generalizing chars sets with
  | zero => cases h
  | succ fuel ih =>
    have hskip := options.skip_suffix chars
    rw [elements?] at h
    split at h
    case h_2 rest' heq =>
      cases h
      rw [heq] at hskip
      exact exists_append_of_suffix hskip ⟨[], rfl⟩
    case h_7 =>
      obtain ⟨⟨set, behind⟩, hset, h⟩ := Option.bind_eq_some_iff.1 h
      obtain ⟨⟨others, rest'⟩, hothers, h⟩ := Option.bind_eq_some_iff.1 h
      cases h
      exact exists_append_of_suffix ((rangeOrElement?_suffix hset).trans hskip) (ih hothers)
    all_goals cases h

lemma leadingHyphens_suffix (options : Options) (fuel : Nat) (chars : List Char) :
    (leadingHyphens options fuel chars).2 <:+ chars := by
  induction fuel generalizing chars with
  | zero => exact List.suffix_refl chars
  | succ fuel ih =>
    have hskip := options.skip_suffix chars
    rw [leadingHyphens]
    split
    case h_1 rest heq =>
      rw [heq] at hskip
      exact (ih rest).trans ((List.suffix_cons _ _).trans hskip)
    · exact hskip

lemma class?_closed {options : Options} {chars rest : List Char} {s : CharSet} {depth : Nat}
    (h : class? options chars = some (s, depth, rest)) : ∃ u, chars = u ++ ']' :: rest := by
  unfold class? at h
  have hskip := options.skip_suffix chars
  split at h
  next inverted behind hhead =>
  have hbehind : behind <:+ chars := by
    split at hhead
    case h_1 rest heq =>
      cases hhead
      rw [heq] at hskip
      exact (List.suffix_cons _ _).trans hskip
    · cases hhead
      exact hskip
  have hhyphens := (leadingHyphens_suffix options (behind.length + 1) behind).trans hbehind
  split at h
  next hyphens behind heq =>
  rw [heq] at hhyphens
  split at h
  next first behind' hfirst =>
  have hbehind' : behind' <:+ chars := by
    split at hfirst
    · cases hfirst
      exact (List.suffix_cons _ _).trans hhyphens
    · cases hfirst
      exact hhyphens
  obtain ⟨⟨others, rest'⟩, hothers, h⟩ := Option.bind_eq_some_iff.1 h
  cases h
  exact exists_append_of_suffix hbehind' (elements?_closed hothers)

/-! ## Repetition counts -/

lemma digits_suffix (extended comment : Bool) (chars : List Char) :
    (digits extended comment chars).2 <:+ chars := by
  induction chars generalizing comment with
  | nil => exact List.suffix_refl []
  | cons c rest ih =>
    have hrest : ∀ comment, (digits extended comment rest).2 <:+ c :: rest := fun comment =>
      (ih comment).trans (List.suffix_cons c rest)
    rw [digits]
    split_ifs
    · exact hrest _
    · exact hrest false
    · exact hrest false
    · exact hrest true
    · exact List.suffix_refl _

lemma count?_suffix {options : Options} {chars rest : List Char} {n : Nat}
    (h : count? options chars = some (n, rest)) : rest <:+ chars := by
  unfold count? at h
  have hdigits := digits_suffix options.extended false (chars.dropWhile Text.isSpace)
  generalize digits options.extended false (chars.dropWhile Text.isSpace) = ds at h hdigits
  obtain ⟨ds, behind⟩ := ds
  simp only at h hdigits
  split_ifs at h
  cases h
  exact (List.dropWhile_suffix _).trans (hdigits.trans (List.dropWhile_suffix _))

/-- A counted repetition ends in its brace and has its bounds in order. -/
lemma counted?_spec {options : Options} {chars rest : List Char} {least : Nat} {most : Option Nat}
    (h : counted? options chars = some (least, most, rest)) :
    (∃ u, chars = u ++ '}' :: rest) ∧ ∀ m, most = some m → least ≤ m := by
  unfold counted? at h
  obtain ⟨⟨n, behind⟩, hn, h⟩ := Option.bind_eq_some_iff.1 h
  have hbehind := (count?_suffix hn).trans (options.skip_suffix chars)
  simp only at h
  split at h
  · cases h
    exact ⟨exists_append_of_suffix hbehind ⟨[], rfl⟩, by simp⟩
  case h_2 after =>
    have hafter := (options.skip_suffix after).trans ((List.suffix_cons ',' after).trans hbehind)
    split at h
    case h_1 rest' heq =>
      cases h
      rw [heq] at hafter
      exact ⟨exists_append_of_suffix hafter ⟨[], rfl⟩, by simp⟩
    · obtain ⟨⟨m, last⟩, hm, h⟩ := Option.bind_eq_some_iff.1 h
      have hlast := (count?_suffix hm).trans hafter
      simp only at h
      split at h
      · split_ifs at h with hle
        cases h
        exact ⟨exists_append_of_suffix hlast ⟨[], rfl⟩, by simpa using hle⟩
      · cases h
  · cases h

lemma dropReluctant_passed (chars : List Char) : Passed chars (dropReluctant chars) := by
  unfold dropReluctant
  split
  · exact .inr (.inr ⟨[], '?', by decide, rfl⟩)
  · exact Passed.refl _

/-! ## One token -/

/-- A character that separates nothing, whatever the options. -/
lemma not_blank (options : Options) {c : Char} (hspace : Text.isSpace c = false) (hsharp : c ≠ '#') :
    ¬(options.extended && (Text.isSpace c || c = '#')) = true := by
  simp [hspace, hsharp]

/-- The expression of an item has no repetition out of order, and neither is a repetition mark. -/
def Token.InOrder : Token → Prop
  | .item r _ => r.BoundsInOrder
  | .repeated least most => ∀ m, most = some m → least ≤ m
  | .bar | .openGroup _ | .closeGroup => True

/-- What a token may be and what it takes: an escape takes two characters and is never a bar; everything
else takes characters of which the last is no backslash, and is a bar just when it is written as one. -/
lemma token?_spec {options : Options} {c : Char} {rest rest' : List Char} {t : Option Token}
    (h : token? options c rest = some (t, rest')) :
    (∀ token ∈ t, token.InOrder) ∧
      (c = '\\' ∧ (∃ e, rest = e :: rest') ∧ t ≠ some .bar ∨
        c ≠ '\\' ∧ Passed rest rest' ∧ (t = some .bar ↔ c = '|')) := by
  unfold token? at h
  by_cases hblank : (options.extended && (Text.isSpace c || c = '#')) = true
  · rw [if_pos hblank] at h
    cases h
    have hc : c ≠ '\\' := by
      rintro rfl
      exact not_blank options (by decide +kernel) (by decide) hblank
    have hbar : c ≠ '|' := by
      rintro rfl
      exact not_blank options (by decide +kernel) (by decide) hblank
    exact ⟨by simp, .inr ⟨hc, skipBlank_passed (c = '#') rest, by simp [hbar]⟩⟩
  rw [if_neg hblank] at h
  split at h
  · cases h
    exact ⟨by simp [Token.InOrder], .inr ⟨by decide, Passed.refl _, by simp⟩⟩
  · have hskip := options.skip_passed rest
    split at h
    next heq =>
      cases h
      rw [heq] at hskip
      have hcolon : Passed ('?' :: ':' :: rest') rest' := .inr (.inr ⟨['?'], ':', by decide, rfl⟩)
      exact ⟨by simp [Token.InOrder], .inr ⟨by decide, hskip.trans hcolon, by simp⟩⟩
    · cases h
    · cases h
      exact ⟨by simp [Token.InOrder], .inr ⟨by decide, hskip, by simp⟩⟩
  · cases h
    exact ⟨by simp [Token.InOrder], .inr ⟨by decide, Passed.refl _, by simp⟩⟩
  · cases h
    exact ⟨by simp [Token.InOrder], .inr ⟨by decide, dropReluctant_passed rest, by simp⟩⟩
  · cases h
    exact ⟨by simp [Token.InOrder], .inr ⟨by decide, dropReluctant_passed rest, by simp⟩⟩
  · cases h
    exact ⟨by simp [Token.InOrder], .inr ⟨by decide, dropReluctant_passed rest, by simp⟩⟩
  · obtain ⟨⟨least, most, behind⟩, hcount, h⟩ := Option.bind_eq_some_iff.1 h
    cases h
    obtain ⟨hclosed, horder⟩ := counted?_spec hcount
    have hbehind : Passed rest behind := passed_of_append (by decide) hclosed
    have hmark := (options.skip_passed behind).trans (dropReluctant_passed _)
    exact ⟨by simpa [Token.InOrder] using horder, .inr ⟨by decide, hbehind.trans hmark, by simp⟩⟩
  · obtain ⟨⟨set, depth, behind⟩, hclass, h⟩ := Option.bind_eq_some_iff.1 h
    have hbehind : Passed rest behind := passed_of_append (by decide) (class?_closed hclass)
    cases h
    exact ⟨by simp [Token.InOrder, BoundsInOrder], .inr ⟨by decide, hbehind, by simp⟩⟩
  · cases h
    exact ⟨by simp [Token.InOrder, BoundsInOrder], .inr ⟨by decide, Passed.refl _, by simp⟩⟩
  · cases h
    exact ⟨by simp [Token.InOrder, BoundsInOrder], .inr ⟨by decide, Passed.refl _, by simp⟩⟩
  · cases h
    exact ⟨by simp [Token.InOrder, BoundsInOrder], .inr ⟨by decide, Passed.refl _, by simp⟩⟩
  · split at h
    · cases h
    next e behind =>
      obtain ⟨escape, -, h⟩ := Option.bind_eq_some_iff.1 h
      cases escape <;> cases h <;>
        exact ⟨by simp [Token.InOrder, BoundsInOrder], .inl ⟨rfl, ⟨e, rfl⟩, by simp⟩⟩
  next hbar _ _ _ _ _ _ _ _ _ _ hbackslash =>
    cases h
    exact ⟨by simp [Token.InOrder, BoundsInOrder],
      .inr ⟨hbackslash, Passed.refl _, by simpa using hbar⟩⟩

/-! ## All tokens -/

/-- `Cuts options text ts`: the text is cut into the tokens, one after the other. -/
inductive Cuts (options : Options) : List Char → List Token → Prop where
  | nil : Cuts options [] []
  | cons {c : Char} {rest rest' : List Char} {t : Option Token} {ts : List Token}
      (first : token? options c rest = some (t, rest')) (others : Cuts options rest' ts) :
      Cuts options (c :: rest) (t.toList ++ ts)

lemma cuts_of_tokens? {options : Options} {fuel : Nat} {text : List Char} {ts : List Token}
    (h : tokens? options fuel text = some ts) : Cuts options text ts := by
  induction fuel generalizing text ts with
  | zero =>
    cases text <;> cases h
    exact .nil
  | succ fuel ih =>
    cases text with
    | nil =>
      cases h
      exact .nil
    | cons c rest =>
      rw [tokens?] at h
      obtain ⟨⟨t, rest'⟩, ht, h⟩ := Option.bind_eq_some_iff.1 h
      obtain ⟨ts', hts, h⟩ := Option.bind_eq_some_iff.1 h
      cases h
      exact .cons ht (ih hts)

lemma Cuts.inOrder {options : Options} {text : List Char} {ts : List Token} (h : Cuts options text ts) :
    ∀ t ∈ ts, t.InOrder := by
  induction h with
  | nil => simp
  | cons first _ ih =>
    intro token hmem
    rcases List.mem_append.1 hmem with hmem | hmem
    · exact (token?_spec first).1 token (Option.mem_toList.1 hmem)
    · exact ih token hmem

/-- Blanks before the first token make no difference. -/
lemma cuts_skipBlank {options : Options} (hx : options.extended = true) {text : List Char}
    {ts : List Token} (h : Cuts options (skipBlank false text) ts) : Cuts options text ts := by
  cases text with
  | nil => exact h
  | cons c rest =>
    by_cases hblank : Text.isSpace c = true ∨ c = '#'
    · have htoken : token? options c rest = some (none, skipBlank (c = '#') rest) := by
        unfold token?
        rw [if_pos (by simpa [hx] using hblank)]
      have hskip : skipBlank false (c :: rest) = skipBlank (c = '#') rest := by
        have hsharp : Text.isSpace '#' = false := by decide +kernel
        rw [skipBlank]
        rcases hblank with hspace | rfl
        · have hc : c ≠ '#' := by
            rintro rfl
            simp [hsharp] at hspace
          simp [hspace, hc]
        · simp [hsharp]
      rw [hskip] at h
      exact .cons htoken h
    · have hskip : skipBlank false (c :: rest) = c :: rest := by
        rw [skipBlank]
        simp only [not_or] at hblank
        simp [hblank.1, hblank.2]
      rwa [hskip] at h

/-! ## Bars -/

/-- Seen from a place between two tokens, no bar is reported. -/
def Quiet (text : List Char) : Prop :=
  ∃ beforeLast last : Option Char, (last ≠ some '\\' ∨ beforeLast = some '\\') ∧
    Stem.mayHoldBar beforeLast last text = false

lemma mayHoldBar_behind {beforeLast last : Option Char} {u rest : List Char} {c : Char}
    (h : Stem.mayHoldBar beforeLast last (u ++ c :: rest) = false) :
    ∃ before, Stem.mayHoldBar before (some c) rest = false := by
  induction u generalizing beforeLast last with
  | nil =>
    rw [List.nil_append, Stem.mayHoldBar, Bool.or_eq_false_iff] at h
    exact ⟨last, h.2⟩
  | cons d u ih =>
    rw [List.cons_append, Stem.mayHoldBar, Bool.or_eq_false_iff] at h
    exact ih h.2

lemma Quiet.passed {text rest : List Char} (h : Quiet text) (hrest : Passed text rest) : Quiet rest := by
  rcases hrest with rfl | rfl | ⟨u, c, hc, rfl⟩
  · exact ⟨none, none, .inl (by simp), rfl⟩
  · exact h
  · obtain ⟨beforeLast, last, -, h⟩ := h
    obtain ⟨before, h⟩ := mayHoldBar_behind h
    exact ⟨before, some c, .inl (by simpa using hc), h⟩

lemma Quiet.escaped {e : Char} {rest : List Char} (h : Quiet ('\\' :: e :: rest)) : Quiet rest := by
  obtain ⟨beforeLast, last, -, h⟩ := h
  rw [Stem.mayHoldBar, Bool.or_eq_false_iff, Stem.mayHoldBar, Bool.or_eq_false_iff] at h
  exact ⟨some '\\', some e, .inr rfl, h.2.2⟩

lemma Quiet.head_ne_bar {c : Char} {rest : List Char} (h : Quiet (c :: rest)) : c ≠ '|' := by
  obtain ⟨beforeLast, last, hlast, h⟩ := h
  rintro rfl
  rw [Stem.mayHoldBar, Bool.or_eq_false_iff] at h
  rcases hlast with hlast | hlast <;> simp [hlast] at h

/-- **Bars.**  A text in which the detector sees no live bar has no token for one. -/
theorem Cuts.bar_notMem {options : Options} {text : List Char} {ts : List Token}
    (h : Cuts options text ts) (hquiet : Quiet text) : Token.bar ∉ ts := by
  induction h with
  | nil => simp
  | cons first _ ih =>
    obtain ⟨-, ⟨rfl, ⟨e, rfl⟩, hbar⟩ | ⟨hc, hpassed, hbar⟩⟩ := token?_spec first
    · have hrest := ih hquiet.escaped
      simpa [hrest, eq_comm] using hbar
    · have hrest := ih (hquiet.passed (hpassed.cons hc))
      have hne := mt hbar.1 hquiet.head_ne_bar
      simpa [hrest, eq_comm] using hne

end ScanBounds.Regex

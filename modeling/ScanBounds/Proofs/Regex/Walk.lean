import ScanBounds.Proofs.Regex.Tokens

/-!
# The walk beside the reader

The stem of a pattern comes from a walk over its characters that knows little of the notation; what the
pattern means is up to the reader of tokens.  This module runs the two side by side.  `Stem.scan` is the
walk with its letters kept apart, and `Stem.scan_spec` says which tokens the reader makes of them: one
literal character for each letter, but for two kinds of letters that the walk misreads.
-/

namespace ScanBounds.Stem

open Regex

/-- A character that the walk puts on the stem, and whether a backslash stands before it. -/
structure Letter where
  escaped : Bool
  char : Char

/-- The letters on the way of the walk, and the text at which it stops. -/
def scan (extended : Bool) : List Char → List Letter × List Char
  | [] => ([], [])
  | c :: rest =>
    if c = '\\' then
      match rest with
      | [] => ([], [c])
      | e :: rest =>
        if e.isAlphanum then ([], c :: e :: rest)
        else (⟨true, e⟩ :: (scan extended rest).1, (scan extended rest).2)
    else if c = '*' || c = '?' || isMeta c || (extended && c = '#') then ([], c :: rest)
    else if extended && isSkipped c then scan extended rest
    else (⟨false, c⟩ :: (scan extended rest).1, (scan extended rest).2)

/-- Whether the text starts with a quantifier that makes the last letter optional. -/
def startsOptional : List Char → Bool
  | '*' :: _ | '?' :: _ => true
  | _ => false

/-- The letters that stay on the stem. -/
def kept (extended : Bool) (text : List Char) : List Letter :=
  if startsOptional (scan extended text).2 then (scan extended text).1.dropLast
  else (scan extended text).1

/-! ## The walk -/

/-- One step of the walk outside of a quotation. -/
lemma walk_cons (mode : Mode) (literal : List Char) (c : Char) (rest : List Char) :
    walk mode false literal (c :: rest) =
      if c = '*' || c = '?' then (literal.drop 1, .inexactCovered)
      else if c = '\\' then
        match rest with
        | [] => (literal, .inexactCovered)
        | e :: rest =>
          if e = 'Q' then walk mode true literal rest
          else if e.isAlphanum then (literal, .inexactCovered)
          else walk mode false (e :: literal) rest
      else if isMeta c then
        (literal, if mode.exactTail && c = '.' && rest = ['*'] then .exact else .inexactCovered)
      else if mode.extended && c = '#' then (literal, .inexactCovered)
      else if mode.extended && isSkipped c then walk mode false literal rest
      else walk mode false (c :: literal) rest := by
  conv_lhs => rw [walk.eq_def]
  rfl

lemma startsOptional_cons {c : Char} {rest : List Char} :
    startsOptional (c :: rest) = (c = '*' || c = '?') := by
  by_cases hstar : c = '*'
  · subst hstar
    rfl
  · by_cases hquestion : c = '?'
    · subst hquestion
      rfl
    · simp [startsOptional, hstar, hquestion]

/-- Without quotations the stem consists of the letters on the way, less one that a quantifier makes
optional.  It is exact where the walk stops at a last dot and star and the anchor allows it. -/
lemma walk_eq {mode : Mode} {text : List Char}
    (hquote : ∀ rest, (scan mode.extended text).2 ≠ '\\' :: 'Q' :: rest) (literal : List Char) :
    walk mode false literal text =
      (if startsOptional (scan mode.extended text).2
        then (((scan mode.extended text).1.map Letter.char).reverse ++ literal).drop 1
        else ((scan mode.extended text).1.map Letter.char).reverse ++ literal,
      if mode.exactTail && (scan mode.extended text).2 = ['.', '*'] then .exact else .inexactCovered) := by
  fun_induction scan mode.extended text generalizing literal with
  | case1 => simp [walk, startsOptional]
  | case2 => simp [walk, startsOptional]
  | case3 e rest halnum =>
    have he : e ≠ 'Q' := fun h => hquote rest (by rw [h])
    rw [walk_cons]
    simp [he, halnum, startsOptional_cons]
  | case4 e rest halnum ih =>
    have he : e ≠ 'Q' := by
      rintro rfl
      exact halnum (by decide)
    rw [walk_cons]
    simp only [Char.reduceEq, decide_false, Bool.or_self, Bool.false_eq_true, if_false, if_true, he, halnum]
    rw [ih hquote (e :: literal)]
    simp
  | case5 c rest hbackslash hstop =>
    rw [walk_cons, startsOptional_cons]
    by_cases hoptional : (decide (c = '*') || decide (c = '?')) = true
    · have hdot : c ≠ '.' := by
        rintro rfl
        exact absurd hoptional (by decide)
      simp [hoptional, hdot]
    · rw [if_neg hoptional, if_neg hbackslash, if_neg hoptional]
      by_cases hmeta : isMeta c = true
      · simp [hmeta, and_assoc]
      · have hsharp : (mode.extended && decide (c = '#')) = true := by simpa [hoptional, hmeta] using hstop
        have hdot : c ≠ '.' := by
          rintro rfl
          exact hmeta (by decide)
        simp [hmeta, hsharp, hdot]
  | case6 c rest hbackslash hstop hskip ih =>
    simp only [Bool.or_eq_true, not_or] at hstop
    rw [walk_cons, if_neg (by simpa using hstop.1.1), if_neg hbackslash, if_neg hstop.1.2, if_neg hstop.2,
      if_pos hskip]
    exact ih hquote literal
  | case7 c rest hbackslash hstop hskip ih =>
    simp only [Bool.or_eq_true, not_or] at hstop
    rw [walk_cons, if_neg (by simpa using hstop.1.1), if_neg hbackslash, if_neg hstop.1.2, if_neg hstop.2,
      if_neg hskip, ih hquote (c :: literal)]
    simp

/-- The text of the stem. -/
lemma walk_eq_kept {mode : Mode} {text : List Char}
    (hquote : ∀ rest, (scan mode.extended text).2 ≠ '\\' :: 'Q' :: rest) :
    (walk mode false [] text).1.reverse = (kept mode.extended text).map Letter.char := by
  simp only [walk_eq hquote, kept]
  split_ifs with hoptional
  · rw [List.append_nil, List.drop_one, ← List.map_reverse, ← List.map_tail, ← List.map_reverse,
      List.tail_reverse, List.reverse_reverse]
  · simp

lemma walk_exact_iff {mode : Mode} {text : List Char}
    (hquote : ∀ rest, (scan mode.extended text).2 ≠ '\\' :: 'Q' :: rest) (literal : List Char) :
    (walk mode false literal text).2 = .exact ↔
      mode.exactTail = true ∧ (scan mode.extended text).2 = ['.', '*'] := by
  rw [walk_eq hquote]
  simp

/-- The kept letters come first on the way, and they are all of it unless a quantifier takes the last. -/
lemma exists_scan_eq_kept_append (extended : Bool) (text : List Char) :
    ∃ others, (scan extended text).1 = kept extended text ++ others ∧
      (startsOptional (scan extended text).2 = false → others = []) := by
  unfold kept
  split_ifs with hoptional
  · obtain ⟨others, h⟩ := List.dropLast_prefix (scan extended text).1
    exact ⟨others, h.symm, by simp [hoptional]⟩
  · exact ⟨[], by simp⟩

/-! ## The reader -/

/-- What the reader makes of a letter.  The edges of words look like escaped characters to the walk, and
it skips less white space than the reader. -/
def Letter.tokens (extended : Bool) (l : Letter) : List Token :=
  if l.escaped then
    if l.char = '<' then [.item (.assert .wordStart) 0]
    else if l.char = '>' then [.item (.assert .wordEnd) 0]
    else [.item (.one (.single l.char)) 0]
  else if extended && Text.isSpace l.char then []
  else [.item (.one (.single l.char)) 0]

/-- The reader does not take the letter for a character. -/
def Letter.Misread (extended : Bool) (l : Letter) : Prop :=
  if l.escaped then l.char = '<' ∨ l.char = '>' else extended = true ∧ Text.isSpace l.char = true

instance (extended : Bool) (l : Letter) : Decidable (l.Misread extended) := by
  unfold Letter.Misread
  infer_instance

lemma Letter.tokens_of_not_misread {extended : Bool} {l : Letter} (h : ¬l.Misread extended) :
    l.tokens extended = [.item (.one (.single l.char)) 0] := by
  unfold Letter.Misread at h
  unfold Letter.tokens
  split_ifs at h ⊢ <;> simp_all

/-- A character without a meaning of its own. -/
lemma token?_plain {options : Options} {c : Char} {rest : List Char} (hcase : options.ignoreCase = false)
    (hblank : ¬(options.extended && (Text.isSpace c || c = '#')) = true) (hmeta : isMeta c = false)
    (hquantifier : ¬(c = '*' || c = '?') = true) (hbackslash : c ≠ '\\') (hbar : c ≠ '|') :
    token? options c rest = some (some (.item (.one (.single c)) 0), rest) := by
  unfold token?
  rw [if_neg hblank]
  split
  all_goals first
    | exact absurd rfl hbar
    | exact absurd rfl hbackslash
    | exact absurd (by decide) hquantifier
    | exact absurd hmeta (by decide)
    | simp [literalSet, hcase]

/-- An escaped character that is no letter or digit. -/
lemma token?_escaped {options : Options} {e : Char} {rest rest' : List Char} {t : Option Token}
    (hcase : options.ignoreCase = false) (he : ¬e.isAlphanum = true)
    (h : token? options '\\' (e :: rest) = some (t, rest')) :
    rest' = rest ∧ t.toList = Letter.tokens options.extended ⟨true, e⟩ := by
  unfold token? at h
  rw [if_neg (not_blank options (by decide +kernel) (by decide))] at h
  obtain ⟨escape, hescape, h⟩ := Option.bind_eq_some_iff.1 h
  unfold escape? at hescape
  split at hescape
  all_goals first
    | exact absurd (by decide) he
    | skip
  · cases hescape
    cases h
    exact ⟨rfl, rfl⟩
  · cases hescape
    cases h
    exact ⟨rfl, rfl⟩
  next hlt hgt =>
    have hlt : e ≠ '<' := hlt
    have hgt : e ≠ '>' := hgt
    split_ifs at hescape
    cases hescape
    cases h
    exact ⟨rfl, by simp [Letter.tokens, hlt, hgt, literalSet, hcase]⟩

/-- White space of an extended pattern, with all that separates behind it. -/
lemma cuts_behind_space {options : Options} {c : Char} {rest : List Char} {ts : List Token}
    (hx : options.extended = true) (hspace : Text.isSpace c = true) (h : Cuts options (c :: rest) ts) :
    Cuts options rest ts := by
  have hsharp : c ≠ '#' := by
    rintro rfl
    exact absurd hspace (by decide +kernel)
  have htoken : token? options c rest = some (none, skipBlank false rest) := by
    unfold token?
    rw [if_pos (by simp [hx, hspace])]
    simp [hsharp]
  cases h with
  | cons first others =>
    rw [htoken] at first
    cases first
    exact cuts_skipBlank hx others

lemma isSpace_of_isSkipped {c : Char} (h : isSkipped c = true) : Text.isSpace c = true := by
  simp only [isSkipped, Bool.or_eq_true, decide_eq_true_iff] at h
  obtain (((rfl | rfl) | rfl) | rfl) | rfl := h <;> decide +kernel

/-- **Walk and reader.**  The tokens of a text start with those of the letters on the way of the walk, and
the others are the tokens of the text at which the walk stops. -/
theorem scan_spec {options : Options} (hcase : options.ignoreCase = false) {text : List Char}
    {ts : List Token} (h : Cuts options text ts) (hbar : .bar ∉ ts) :
    ∃ us, Cuts options (scan options.extended text).2 us ∧
      ts = (scan options.extended text).1.flatMap (Letter.tokens options.extended) ++ us := by
  fun_induction scan options.extended text generalizing ts with
  | case1 => exact ⟨ts, h, rfl⟩
  | case2 => exact ⟨ts, h, rfl⟩
  | case3 => exact ⟨ts, h, rfl⟩
  | case5 => exact ⟨ts, h, rfl⟩
  | case4 e rest halnum ih =>
    cases h with
    | cons first others =>
      obtain ⟨rfl, htokens⟩ := token?_escaped hcase halnum first
      obtain ⟨us, hus, rfl⟩ := ih others fun hmem => hbar (List.mem_append_right _ hmem)
      exact ⟨us, hus, by rw [htokens]; simp⟩
  | case6 c rest hbackslash hstop hskip ih =>
    rw [Bool.and_eq_true] at hskip
    exact ih (cuts_behind_space hskip.1 (isSpace_of_isSkipped hskip.2) h) hbar
  | case7 c rest hbackslash hstop hskip ih =>
    simp only [Bool.or_eq_true, not_or] at hstop
    by_cases hblank : (options.extended && Text.isSpace c) = true
    · -- white space that the walk does not know and the reader skips
      have hspace := Bool.and_eq_true_iff.1 hblank
      obtain ⟨us, hus, rfl⟩ := ih (cuts_behind_space hspace.1 hspace.2 h) hbar
      exact ⟨us, hus, by simp [Letter.tokens, hspace.1, hspace.2]⟩
    · cases h with
      | cons first others =>
        have hc : c ≠ '|' := by
          rintro rfl
          obtain ⟨-, ⟨habs, -⟩ | ⟨-, -, ht⟩⟩ := token?_spec first
          · exact absurd habs (by decide)
          · exact hbar (List.mem_append_left _ (by simp [ht.2 rfl]))
        have hplain : ¬(options.extended && (Text.isSpace c || c = '#')) = true := by
          rw [Bool.and_or_distrib_left, Bool.or_eq_true, not_or]
          exact ⟨hblank, hstop.2⟩
        rw [token?_plain hcase hplain (by simpa using hstop.1.2) (by simpa using hstop.1.1) hbackslash hc]
          at first
        cases first
        obtain ⟨us, hus, rfl⟩ := ih others fun hmem => hbar (List.mem_append_right _ hmem)
        exact ⟨us, hus, by simp [Letter.tokens, hblank]⟩

/-- Where no kept letter is misread, each of them is one literal character to the reader.  If the walk
keeps all its letters, the other tokens are those of the text at which it stops. -/
lemma exists_tokens_eq_kept {options : Options} (hcase : options.ignoreCase = false) {text : List Char}
    {ts : List Token} (h : Cuts options text ts) (hbar : .bar ∉ ts)
    (hread : ∀ l ∈ kept options.extended text, ¬l.Misread options.extended) :
    ∃ us, ts = (kept options.extended text).map (fun l => .item (.one (.single l.char)) 0) ++ us ∧
      (startsOptional (scan options.extended text).2 = false →
        Cuts options (scan options.extended text).2 us) := by
  obtain ⟨us, hus, rfl⟩ := scan_spec hcase h hbar
  obtain ⟨others, hothers, hall⟩ := exists_scan_eq_kept_append options.extended text
  have hkept : (kept options.extended text).flatMap (Letter.tokens options.extended) =
      (kept options.extended text).map fun l => .item (.one (.single l.char)) 0 := by
    rw [List.map_eq_flatMap]
    exact List.flatMap_congr fun l hl => Letter.tokens_of_not_misread (hread l hl)
  refine ⟨others.flatMap (Letter.tokens options.extended) ++ us, ?_, ?_⟩
  · rw [hothers, List.flatMap_append, hkept, List.append_assoc]
  · intro hoptional
    rw [hall hoptional]
    exact hus

/-- A text that can be cut opens no quotation. -/
lemma not_quote_of_cuts {options : Options} {text : List Char} {ts : List Token}
    (h : Cuts options text ts) (rest : List Char) : text ≠ '\\' :: 'Q' :: rest := by
  rintro rfl
  have hnone : token? options '\\' ('Q' :: rest) = none := by
    unfold token?
    rw [if_neg (not_blank options (by decide +kernel) (by decide))]
    rfl
  cases h with
  | cons first _ => simp [hnone] at first

/-- A last dot and star are a set and a mark that asks for no copy. -/
lemma eq_of_cuts_dotStar {options : Options} {ts : List Token} (h : Cuts options ['.', '*'] ts) :
    ∃ s, ts = [.item (.one s) 0, .repeated 0 none] := by
  obtain ⟨s, hdot⟩ : ∃ s, token? options '.' ['*'] = some (some (.item (.one s) 0), ['*']) := by
    unfold token?
    rw [if_neg (not_blank options (by decide +kernel) (by decide))]
    exact ⟨_, rfl⟩
  have hstar : token? options '*' [] = some (some (.repeated 0 none), []) := by
    unfold token?
    rw [if_neg (not_blank options (by decide +kernel) (by decide))]
    rfl
  cases h with
  | cons first others =>
    rw [hdot] at first
    cases first
    cases others with
    | cons second last =>
      rw [hstar] at second
      cases second
      cases last
      exact ⟨s, rfl⟩

end ScanBounds.Stem

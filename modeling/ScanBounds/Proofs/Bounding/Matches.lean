import ScanBounds.Predicate.KeyMatch
import ScanBounds.Proofs.Bounding.Held
import ScanBounds.Proofs.Regex.Beginning
import ScanBounds.Proofs.Regex.Range
import ScanBounds.Proofs.Regex.Walk

/-!
# Strings that match and bounds

The bounds of a regular expression are meant to hold every string that matches it.  They do where the
stem of the pattern is a beginning of all its matches, and this module says when that is so.

The walk that finds the stem can go wrong in two ways.  It may misread a letter (`Misread`): the edges of
words, which look escaped, and white space of an extended pattern beyond ASCII blanks.  And it stops at a
counted repetition, at a plus sign and at a comment without looking at what repetition marks follow, which
may leave the last letter of the stem out (`LastOptional`).  Where neither happens no string is lost.

A stem that ends at a last dot and star is called exact, as whatever follows it matches.  Exact bounds then
hold the strings and symbols that match and nothing else but the expression as a value.
-/

namespace ScanBounds.RegexTerm

open Regex IntervalList

variable {term : RegexTerm} {r : Regex}

/-! ## The pattern of a term -/

/-- The stem that uncollated bounds are built from. -/
def stem (term : RegexTerm) : Stem := Stem.ofPattern term.pattern term.flags false

def options (term : RegexTerm) : Options := Options.ofFlags term.flags

def tokens (term : RegexTerm) : List Token :=
  (tokens? term.options term.pattern.toList.length term.pattern.toList).getD []

/-- The letters of the stem, as they stand in the pattern. -/
def stemLetters (term : RegexTerm) : List Stem.Letter :=
  match Stem.anchored? term.pattern.toList with
  | some (_, text) => Stem.kept term.options.extended text
  | none => []

/-- Some letter of the stem is no character of the pattern. -/
def Misread (term : RegexTerm) : Prop := ∃ l ∈ term.stemLetters, l.Misread term.options.extended

/-- The tokens behind the anchor and the stem. -/
def behindStem (term : RegexTerm) : List Token := term.tokens.drop (term.stem.literal.length + 1)

/-- Repetition marks behind the stem allow none of its last letter. -/
def LastOptional (term : RegexTerm) : Prop := ∃ mark ∈ marks term.behindStem, mark.1 = 0

/-- The pattern without the last letter of the stem and the marks behind it. -/
def withoutLast (term : RegexTerm) : Option Regex :=
  join? (term.tokens.take term.stem.literal.length ++ behindMarks term.behindStem)

lemma read?_spec (h : read? term.pattern term.flags = some r) :
    Cuts term.options term.pattern.toList term.tokens ∧ join? term.tokens = some r ∧ r.BoundsInOrder := by
  obtain ⟨ts, hts, h⟩ := Option.bind_eq_some_iff.1 h
  have htokens : term.tokens = ts := by
    rw [tokens, options, hts]
    rfl
  have hcuts : Cuts term.options term.pattern.toList ts := cuts_of_tokens? hts
  have hjoin := join?_of_ofTokens? h
  exact ⟨htokens ▸ hcuts, htokens ▸ hjoin, join?_inOrder hcuts.inOrder hjoin⟩

/-- What a stem takes: an anchor, no bars, and flags that leave the letters and the anchor what they are. -/
lemma exists_anchored_of_stem (hstem : term.stem ≠ Stem.unknown) :
    ∃ fixed text, Stem.anchored? term.pattern.toList = some (fixed, text) ∧
      Stem.mayHoldBar none none text = false ∧ Stem.flagsAllow fixed term.flags = true ∧
      term.stem.literal.toList =
        (Stem.walk ⟨term.options.extended, !fixed⟩ false [] text).1.reverse ∧
      term.stem.tightness = (Stem.walk ⟨term.options.extended, !fixed⟩ false [] text).2 := by
  unfold stem Stem.ofPattern at hstem ⊢
  simp only [Bool.false_eq_true, if_false] at hstem ⊢
  cases hanchor : Stem.anchored? term.pattern.toList with
  | none =>
    rw [hanchor] at hstem
    exact absurd rfl hstem
  | some anchored =>
    obtain ⟨fixed, text⟩ := anchored
    simp only [hanchor] at hstem ⊢
    by_cases hrefused : (Stem.mayHoldBar none none text || !Stem.flagsAllow fixed term.flags) = true
    · rw [if_pos hrefused] at hstem
      exact absurd rfl hstem
    · rw [if_neg hrefused]
      simp only [Bool.or_eq_true, Bool.not_eq_true', not_or, Bool.not_eq_true, Bool.not_eq_false] at hrefused
      refine ⟨fixed, text, rfl, hrefused.1, hrefused.2, ?_, rfl⟩
      rw [String.toList_ofList]
      rfl

/-- Under the flags that a stem allows, characters stand for themselves. -/
lemma ignoreCase_of_flagsAllow {fixed : Bool} (h : Stem.flagsAllow fixed term.flags = true) :
    term.options.ignoreCase = false := by
  have hall := List.all_eq_true.1 h
  by_contra hi
  have hmem : 'i' ∈ term.flags.toList := by simpa [options, Options.ofFlags] using hi
  simpa using hall 'i' hmem

/-- Under the flags that a stem allows, its anchor is the start of the text. -/
lemma cuts_behind_anchor {fixed : Bool} {text : List Char} {ts : List Token}
    (hanchor : Stem.anchored? term.pattern.toList = some (fixed, text))
    (hflags : Stem.flagsAllow fixed term.flags = true) (h : Cuts term.options term.pattern.toList ts) :
    ∃ us, ts = .anchor :: us ∧ Cuts term.options text us := by
  unfold Stem.anchored? at hanchor
  split at hanchor
  next behind heq =>
    cases hanchor
    rw [heq] at h
    cases h with
    | cons first others =>
      have htoken : token? term.options '\\' ('A' :: text) = some (some .anchor, text) := by
        unfold token?
        rw [if_neg (not_blank term.options (by decide +kernel) (by decide))]
        rfl
      rw [htoken] at first
      cases first
      exact ⟨_, rfl, others⟩
  next behind heq =>
    cases hanchor
    rw [heq] at h
    have hall := List.all_eq_true.1 hflags
    have hline : term.options.multiline = false := by
      by_contra hm
      have hmem : 'm' ∈ term.flags.toList := by simpa [options, Options.ofFlags] using hm
      simpa using hall 'm' hmem
    cases h with
    | cons first others =>
      have htoken : token? term.options '^' text = some (some .anchor, text) := by
        unfold token?
        rw [if_neg (not_blank term.options (by decide +kernel) (by decide))]
        simp only [hline]
        rfl
      rw [htoken] at first
      cases first
      exact ⟨_, rfl, others⟩
  · cases hanchor

/-- Where no letter is misread, the pattern begins with the start of the text and the stem.  What follows
an exact stem is a set under a mark that asks for no copy. -/
lemma exists_tokens_eq_stem (h : Cuts term.options term.pattern.toList term.tokens)
    (hstem : term.stem ≠ Stem.unknown) (hmisread : ¬term.Misread) :
    ∃ us, term.tokens = .anchor :: term.stem.literal.toList.map Token.letter ++ us ∧ .bar ∉ us ∧
      (term.stem.tightness = .exact → ∃ s, us = [.item (.one s) 0, .repeated 0 none]) := by
  obtain ⟨fixed, text, hanchor, hbars, hflags, hliteral, htightness⟩ := exists_anchored_of_stem hstem
  have hcase := ignoreCase_of_flagsAllow hflags
  obtain ⟨ts, hts, htext⟩ := cuts_behind_anchor hanchor hflags h
  have hquiet : Quiet text := ⟨none, none, .inl (by simp), hbars⟩
  have hbar := htext.bar_notMem hquiet
  have hletters : term.stemLetters = Stem.kept term.options.extended text := by
    rw [stemLetters, hanchor]
  have hread : ∀ l ∈ Stem.kept term.options.extended text, ¬l.Misread term.options.extended := by
    rw [← hletters]
    exact fun l hl hl' => hmisread ⟨l, hl, hl'⟩
  obtain ⟨us, hus, hbehind⟩ := Stem.exists_tokens_eq_kept hcase htext hbar hread
  obtain ⟨vs, hvs, -⟩ := Stem.scan_spec hcase htext hbar
  have hquote := Stem.not_quote_of_cuts hvs
  have hwalk := @Stem.walk_eq_kept ⟨term.options.extended, !fixed⟩ text hquote
  refine ⟨us, ?_, fun hmem => hbar (hus ▸ List.mem_append_right _ hmem), fun hexact => ?_⟩
  · rw [hts, hus, hliteral, hwalk, List.map_map]
    rfl
  · rw [htightness, Stem.walk_exact_iff hquote] at hexact
    rw [hexact.2] at hbehind
    exact Stem.eq_of_cuts_dotStar (hbehind rfl)

/-! ## Bounds -/

lemma held_string_iff {s : String} :
    Held (term.bounds false).1 (.string s) ↔ term.stem.literal.toList <+: s.toList := by
  have hvalue : ¬(Value.string s == term.asValue) = true := by
    intro h
    have hrank := Value.rank_eq_of_beq h
    simp [asValue] at hrank
  rw [regexBounds_held, Stem.range_holds_string, or_iff_left hvalue]
  rfl

lemma matchesKey_string_iff (h : read? term.pattern term.flags = some r) {s : String} :
    term.matchesKey (.string s) = some true ↔ r.Matches s := by
  rw [← isMatch_iff (read?_spec h).2.2]
  simp [matchesKey, h]

/-- The pattern with the last letter of its stem, and without it. -/
lemma exists_marked_of_stem (h : read? term.pattern term.flags = some r)
    (hstem : term.stem.literal.toList ≠ []) (hmisread : ¬term.Misread) :
    ∃ cs c r', term.stem.literal.toList = cs ++ [c] ∧
      r = anchored cs (.cat (marked (letter c) (marks term.behindStem)) r') ∧
      term.withoutLast = some (anchored cs r') ∧
      ∀ mark ∈ marks term.behindStem, ∀ m, mark.2 = some m → mark.1 ≤ m := by
  obtain ⟨hcuts, hjoin, -⟩ := read?_spec h
  have hknown : term.stem ≠ Stem.unknown := fun h => hstem (by rw [h]; rfl)
  obtain ⟨us, hts, hbar, -⟩ := exists_tokens_eq_stem hcuts hknown hmisread
  obtain ⟨cs, c, hliteral⟩ := (List.eq_nil_or_concat _).resolve_left hstem
  rw [List.concat_eq_append] at hliteral
  have hlength : term.stem.literal.length = cs.length + 1 := by
    rw [← String.length_toList, hliteral, List.length_append, List.length_singleton]
  have hbehind : term.behindStem = us := by
    rw [behindStem, hts, hlength, hliteral]
    exact List.drop_left' (by simp)
  have hbefore : term.tokens.take term.stem.literal.length = .anchor :: cs.map Token.letter := by
    rw [hts, hlength, hliteral, List.map_append, List.cons_append, List.take_succ_cons, List.append_assoc]
    congr 1
    exact List.take_left' (by simp)
  have horder : ∀ mark ∈ marks us, ∀ m, mark.2 = some m → mark.1 ≤ m := by
    have hus : ∀ t ∈ us, t.InOrder := by
      intro t ht
      apply hcuts.inOrder
      rw [hts]
      exact List.mem_append_right _ ht
    exact fun mark hmark => inOrder_of_mem_marks hus hmark
  rw [hts, hliteral, join?_marked hbar] at hjoin
  obtain ⟨r', hr', rfl⟩ := Option.map_eq_some_iff.1 hjoin
  refine ⟨cs, c, r', hliteral, by rw [hbehind], ?_, by rwa [hbehind]⟩
  have hrest := bar_notMem_behindMarks hbar
  rw [withoutLast, hbefore, hbehind, join?_anchored hrest (not_isMark_head_behindMarks us), hr']
  rfl

/-- A pattern with an exact stem matches all texts that start with the stem. -/
lemma matches_iff_of_exact (h : read? term.pattern term.flags = some r)
    (hexact : term.stem.tightness = .exact) (hmisread : ¬term.Misread) (s : String) :
    r.Matches s ↔ term.stem.literal.toList <+: s.toList := by
  obtain ⟨hcuts, hjoin, -⟩ := read?_spec h
  have hknown : term.stem ≠ Stem.unknown := by
    intro hstem
    rw [hstem] at hexact
    cases hexact
  obtain ⟨us, hts, hbar, htail⟩ := exists_tokens_eq_stem hcuts hknown hmisread
  obtain ⟨d, rfl⟩ := htail hexact
  have hhead : ∀ t ∈ [Token.item (.one d) 0, .repeated 0 none].head?, ¬t.IsMark := by
    rintro t ⟨⟩
    exact id
  have hany : join? [.item (.one d) 0, .repeated 0 none] =
      some (.cat (.repeated (.one d) 0 none) .empty) := rfl
  rw [hts, join?_anchored hbar hhead, hany] at hjoin
  cases hjoin
  rw [matches_anchored_iff, and_iff_left]
  -- no copy of the set is asked for
  have hnone : Spans s.toList.toArray (.repeated (.one d) 0 none) term.stem.literal.toList.length
      term.stem.literal.toList.length := .repeated (le_refl 0) (by simp) (.zero _ _)
  exact ⟨_, .cat hnone (.empty _)⟩

lemma matchesKey_eq_some_true_iff {v : Value} :
    term.matchesKey v = some true ↔
      ∃ s, (v = .string s ∨ v = .symbol s) ∧ term.matchesKey (.string s) = some true := by
  constructor
  · intro h
    cases v with
    | string s => exact ⟨s, .inl rfl, h⟩
    | symbol s => exact ⟨s, .inr rfl, h⟩
    | _ =>
      obtain ⟨r, -, hr⟩ := Option.bind_eq_some_iff.1 h
      cases hr
  · rintro ⟨s, rfl | rfl, h⟩
    · exact h
    · exact h

/-- No other value compares equal to an expression. -/
lemma beq_asValue_iff {v : Value} : (v == term.asValue) = true ↔ v = term.asValue := by
  constructor
  · intro h
    have hrank : v.rank = 50 := Value.rank_eq_of_beq h
    cases v <;> simp at hrank
    case regex p f =>
      obtain ⟨hpattern, hflags⟩ := Ordering.then_eq_eq.1 (Value.beq_iff_compare.1 h)
      rw [Std.compare_eq_iff_eq.1 hpattern, Std.compare_eq_iff_eq.1 hflags, asValue]
  · rintro rfl
    exact Value.toClass_eq.1 rfl

end ScanBounds.RegexTerm

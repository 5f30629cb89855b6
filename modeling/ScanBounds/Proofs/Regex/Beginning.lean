import ScanBounds.Proofs.Regex.Sequence

/-!
# Literal beginnings

A pattern that begins with the start of the text and some characters, and what it matches.  Its matches
start with those characters (`matches_anchored_iff`), except for the last one when repetition marks stand
behind it.  A mark with a least count of zero makes that character optional, and the pattern then also
matches what it would match without the character and its marks (`matches_marked_iff`).
-/

namespace ScanBounds.Regex

variable {text : Array Char}

/-! ## Tokens of a beginning -/

/-- One literal character. -/
def letter (c : Char) : Regex := .one (.single c)

def Token.letter (c : Char) : Token := .item (Regex.letter c) 0

/-- The start of the text. -/
def Token.anchor : Token := .item (.assert .textStart) 0

def Part.letter (c : Char) : Part := Part.item (Regex.letter c) 0

def Part.anchor : Part := Part.item (.assert .textStart) 0

lemma map_regex_letter (cs : List Char) :
    (cs.map Part.letter).map Part.regex = cs.map Regex.letter := by
  rw [List.map_map]
  rfl

/-- The repetition marks at the head of the tokens. -/
def marks : List Token → List (Nat × Option Nat)
  | .repeated least most :: ts => (least, most) :: marks ts
  | _ => []

def behindMarks : List Token → List Token
  | .repeated _ _ :: ts => behindMarks ts
  | ts => ts

/-- The expression under the marks, first one innermost. -/
def marked (r : Regex) (ms : List (Nat × Option Nat)) : Regex :=
  ms.foldl (fun r mark => .repeated r mark.1 mark.2) r

lemma marks_append_behindMarks (ts : List Token) :
    (marks ts).map (fun mark => .repeated mark.1 mark.2) ++ behindMarks ts = ts := by
  fun_induction marks ts with
  | case1 least most ts ih => simpa [behindMarks] using ih
  | case2 ts hts =>
    rw [behindMarks.eq_2 ts hts]
    rfl

lemma bar_notMem_behindMarks {ts : List Token} (h : .bar ∉ ts) : .bar ∉ behindMarks ts := by
  intro hmem
  apply h
  rw [← marks_append_behindMarks ts]
  exact List.mem_append_right _ hmem

lemma not_isMark_head_behindMarks (ts : List Token) : ∀ t ∈ (behindMarks ts).head?, ¬t.IsMark := by
  fun_induction behindMarks ts with
  | case1 least most ts ih => exact ih
  | case2 ts hts =>
    intro t ht
    cases ts with
    | nil => cases ht
    | cons t' ts =>
      cases ht
      cases t with
      | repeated least most => exact absurd rfl (hts least most ts)
      | _ => exact id

lemma inOrder_of_mem_marks {ts : List Token} (hts : ∀ t ∈ ts, t.InOrder) {mark : Nat × Option Nat}
    (h : mark ∈ marks ts) : ∀ m, mark.2 = some m → mark.1 ≤ m := by
  have hmem : .repeated mark.1 mark.2 ∈ ts := by
    rw [← marks_append_behindMarks ts]
    exact List.mem_append_left _ (List.mem_map_of_mem h)
  exact hts _ hmem

lemma run_letters (cs : List Char) (base : List Part) :
    (cs.map Token.letter).foldlM Machine.step? ⟨⟨false, base, []⟩, []⟩ =
      some ⟨⟨false, (cs.map Part.letter).reverse ++ base, []⟩, []⟩ := by
  induction cs generalizing base with
  | nil => rfl
  | cons c cs ih =>
    have hstep : Machine.step? ⟨⟨false, base, []⟩, []⟩ (.letter c) =
        some ⟨⟨false, Part.letter c :: base, []⟩, []⟩ := rfl
    rw [List.map_cons, List.foldlM_cons, hstep, Option.bind_eq_bind, Option.bind_some, ih]
    simp

lemma run_anchored (cs : List Char) :
    (.anchor :: cs.map Token.letter).foldlM Machine.step? Machine.start =
      some ⟨⟨false, (cs.map Part.letter).reverse ++ [Part.anchor], []⟩, []⟩ :=
  run_letters cs [Part.anchor]

lemma run_marks (ms : List (Nat × Option Nat)) (p : Part) (base : List Part) :
    ∃ q : Part, q.regex = marked p.regex ms ∧
      (ms.map fun mark => Token.repeated mark.1 mark.2).foldlM Machine.step? ⟨⟨false, p :: base, []⟩, []⟩ =
        some ⟨⟨false, q :: base, []⟩, []⟩ := by
  induction ms generalizing p with
  | nil => exact ⟨p, rfl, rfl⟩
  | cons mark ms ih =>
    obtain ⟨q, hq, hrun⟩ := ih (p.repeated mark.1 mark.2)
    refine ⟨q, hq, ?_⟩
    rw [List.map_cons, List.foldlM_cons]
    exact hrun

/-! ## Expressions of a beginning -/

/-- The start of the text, the characters and the expression. -/
def anchored (cs : List Char) (r : Regex) : Regex := .cat (.assert .textStart) (chain (cs.map letter) r)

lemma join?_anchored {cs : List Char} {us : List Token} (hus : .bar ∉ us)
    (hhead : ∀ t ∈ us.head?, ¬t.IsMark) :
    join? (.anchor :: cs.map Token.letter ++ us) = (join? us).map (anchored cs) := by
  rw [join?_append hus hhead (run_anchored cs), List.reverse_append, List.reverse_reverse,
    List.reverse_singleton, List.map_append, map_regex_letter]
  rfl

/-- Marks apply to the character before them. -/
lemma join?_marked {cs : List Char} {c : Char} {us : List Token} (hus : .bar ∉ us) :
    join? (.anchor :: (cs ++ [c]).map Token.letter ++ us) =
      (join? (behindMarks us)).map fun r => anchored cs (.cat (marked (letter c) (marks us)) r) := by
  have hletters := run_anchored (cs ++ [c])
  rw [List.map_append (f := Part.letter), List.map_singleton (f := Part.letter), List.reverse_append,
    List.reverse_singleton, List.singleton_append, List.cons_append] at hletters
  obtain ⟨q, hq, hmarks⟩ := run_marks (marks us) (Part.letter c)
    ((cs.map Part.letter).reverse ++ [Part.anchor])
  have hrun : ((.anchor :: (cs ++ [c]).map Token.letter) ++
      (marks us).map fun mark => Token.repeated mark.1 mark.2).foldlM Machine.step? Machine.start =
        some ⟨⟨false, q :: ((cs.map Part.letter).reverse ++ [Part.anchor]), []⟩, []⟩ := by
    rw [List.foldlM_append, hletters]
    exact hmarks
  have hjoin := join?_append (bar_notMem_behindMarks hus) (not_isMark_head_behindMarks us) hrun
  rw [List.append_assoc, marks_append_behindMarks] at hjoin
  rw [hjoin]
  congr 1
  funext r
  have hregex : (q :: ((cs.map Part.letter).reverse ++ [Part.anchor])).reverse.map Part.regex =
      .assert .textStart :: cs.map letter ++ [marked (letter c) (marks us)] := by
    rw [List.reverse_cons, List.reverse_append, List.reverse_reverse, List.reverse_singleton,
      List.map_append, List.map_append, map_regex_letter]
    simp only [List.map_singleton, hq]
    rfl
  rw [hregex, chain, List.foldr_append]
  rfl

/-! ## Matches of a beginning -/

lemma spans_letter_iff {c : Char} {i j : Nat} :
    Spans text (letter c) i j ↔ j = i + 1 ∧ text[i]? = some c := by
  rw [letter, spans_one_iff]
  have hsingle : ∀ d, (CharSet.single c).contains d = true ↔ d = c := by
    intro d
    simp only [CharSet.single, CharSet.contains, Bool.and_eq_true, decide_eq_true_iff]
    exact ⟨fun h => Char.le_antisymm h.2 h.1, fun h => h ▸ ⟨Char.le_refl d, Char.le_refl d⟩⟩
  simp only [hsingle, exists_eq_right]

lemma spans_letters_iff {cs : List Char} {r : Regex} {i j : Nat} :
    Spans text (chain (cs.map letter) r) i j ↔
      cs <+: text.toList.drop i ∧ Spans text r (i + cs.length) j := by
  induction cs generalizing i with
  | nil => simp [chain]
  | cons c cs ih =>
    have hchain : chain ((c :: cs).map letter) r = .cat (letter c) (chain (cs.map letter) r) := rfl
    have hlength : i + 1 + cs.length = i + (c :: cs).length := by
      rw [List.length_cons]
      omega
    rw [hchain, spans_cat_iff]
    simp only [spans_letter_iff, and_assoc, exists_eq_left, ih, hlength]
    rw [← and_assoc]
    refine and_congr_left fun _ => ?_
    rw [← Array.getElem?_toList]
    cases hd : text.toList.drop i with
    | nil =>
      have hlen := List.drop_eq_nil_iff.1 hd
      simp [List.getElem?_eq_none hlen]
    | cons d rest =>
      have hget : text.toList[i]? = some d := by
        rw [← List.head?_drop, hd]
        rfl
      have hrest : text.toList.drop (i + 1) = rest := by
        rw [← List.drop_drop, hd]
        rfl
      rw [hget, hrest, List.cons_prefix_cons, Option.some_inj, eq_comm]

/-- **Anchored patterns.**  A match is a text with the characters at its start, from behind which the rest
of the pattern covers some stretch. -/
theorem matches_anchored_iff {cs : List Char} {r : Regex} {s : String} :
    (anchored cs r).Matches s ↔ cs <+: s.toList ∧ ∃ j, Spans s.toList.toArray r cs.length j := by
  have hstart : ∀ i ≤ s.toList.length,
      (Assertion.textStart.holds (around s.toList.toArray i).1 (around s.toList.toArray i).2 ↔ i = 0) := by
    intro i hi
    rw [Assertion.holds, Option.isNone_iff_eq_none]
    by_cases h0 : i = 0
    · simp [h0, around]
    · have hbefore : (around s.toList.toArray i).1 = s.toList[i - 1]? := by
        rw [around, if_neg h0, List.getElem?_toArray]
      rw [hbefore, List.getElem?_eq_none_iff]
      omega
  constructor
  · rintro ⟨i, j, hi, hspan⟩
    obtain ⟨k, hanchor, hspan⟩ := spans_cat_iff.1 hspan
    obtain ⟨rfl, hholds⟩ := spans_assert_iff.1 hanchor
    obtain rfl := (hstart i hi).1 hholds
    obtain ⟨hcs, hr⟩ := spans_letters_iff.1 hspan
    rw [Nat.zero_add] at hr
    exact ⟨by simpa using hcs, j, hr⟩
  · rintro ⟨hcs, j, hr⟩
    have hletters : Spans s.toList.toArray (chain (cs.map letter) r) 0 j :=
      spans_letters_iff.2 ⟨by simpa using hcs, by rwa [Nat.zero_add]⟩
    exact ⟨0, j, Nat.zero_le _, .cat (.assert ((hstart 0 (Nat.zero_le _)).2 rfl)) hletters⟩

/-! ## Marks -/

/-- What every mark keeps, all marks together keep. -/
lemma marked_induction {P : Regex → Prop} {ms : List (Nat × Option Nat)}
    (hstep : ∀ mark ∈ ms, ∀ r, P r → P (.repeated r mark.1 mark.2)) {r : Regex} (hr : P r) :
    P (marked r ms) := by
  induction ms generalizing r with
  | nil => exact hr
  | cons mark ms ih =>
    have hmark : P (.repeated r mark.1 mark.2) := hstep mark List.mem_cons_self r hr
    exact ih (fun m hm => hstep m (List.mem_cons_of_mem _ hm)) hmark

/-- Marks that ask for a copy leave the character where it is. -/
lemma getElem?_of_spans_marked {c : Char} {ms : List (Nat × Option Nat)} (hms : ∀ mark ∈ ms, mark.1 ≠ 0)
    {i j : Nat} (h : Spans text (marked (letter c) ms) i j) : text[i]? = some c := by
  have hletter : ∀ i j, Spans text (letter c) i j → text[i]? = some c := fun i j h =>
    (spans_letter_iff.1 h).2
  refine marked_induction (P := fun r => ∀ i j, Spans text r i j → text[i]? = some c) ?_ hletter i j h
  intro mark hmark r hr i j hspan
  have hleast := hms mark hmark
  obtain ⟨n, hn, -, htimes⟩ := spans_repeated_iff.1 hspan
  cases n with
  | zero => omega
  | succ n =>
    obtain ⟨k, hfirst, -⟩ := spansTimes_succ_iff.1 htimes
    exact hr i k hfirst

/-- Under any marks the character is there or nothing is covered. -/
lemma getElem?_or_eq_of_spans_marked {c : Char} {ms : List (Nat × Option Nat)} {i j : Nat}
    (h : Spans text (marked (letter c) ms) i j) : text[i]? = some c ∨ i = j := by
  have hletter : ∀ i j, Spans text (letter c) i j → text[i]? = some c ∨ i = j := fun i j h =>
    .inl (spans_letter_iff.1 h).2
  refine marked_induction (P := fun r => ∀ i j, Spans text r i j → text[i]? = some c ∨ i = j) ?_ hletter i j h
  intro mark _ r hr i j hspan
  obtain ⟨n, -, -, htimes⟩ := spans_repeated_iff.1 hspan
  clear hspan
  induction n generalizing i with
  | zero => exact .inr (spansTimes_zero_iff.1 htimes)
  | succ n ih =>
    obtain ⟨k, hfirst, hrest⟩ := spansTimes_succ_iff.1 htimes
    rcases hr i k hfirst with hc | rfl
    · exact .inl hc
    · exact ih i hrest

lemma spansTimes_self {r : Regex} {i : Nat} (hr : Spans text r i i) (n : Nat) : SpansTimes text r n i i := by
  induction n with
  | zero => exact .zero r i
  | succ n ih => exact .succ hr ih

/-- A mark without a least count lets the character be left out, whatever marks stand around it. -/
lemma spans_marked_self {c : Char} {ms : List (Nat × Option Nat)}
    (horder : ∀ mark ∈ ms, ∀ m, mark.2 = some m → mark.1 ≤ m) {mark : Nat × Option Nat} (hmark : mark ∈ ms)
    (hzero : mark.1 = 0) (i : Nat) : Spans text (marked (letter c) ms) i i := by
  obtain ⟨inner, outer, rfl⟩ := List.append_of_mem hmark
  have hsplit : marked (letter c) (inner ++ mark :: outer) =
      marked (.repeated (marked (letter c) inner) mark.1 mark.2) outer := by
    rw [marked, List.foldl_append]
    rfl
  have hempty : Spans text (.repeated (marked (letter c) inner) mark.1 mark.2) i i :=
    .repeated (Nat.le_of_eq hzero) (fun _ _ => Nat.zero_le _) (.zero _ i)
  rw [hsplit]
  refine marked_induction (P := fun r => Spans text r i i) ?_ hempty
  intro m hm r hr
  have hm := horder m (List.mem_append_right _ (List.mem_cons_of_mem _ hm))
  exact .repeated (le_refl _) hm (spansTimes_self hr _)

/-- A beginning goes on with the character behind it. -/
lemma append_singleton_begins_iff {cs l : List Char} {c : Char} (h : cs <+: l) :
    cs ++ [c] <+: l ↔ l[cs.length]? = some c := by
  obtain ⟨rest, rfl⟩ := h
  rw [List.prefix_append_right_inj, List.getElem?_append_right (le_refl _), Nat.sub_self]
  cases rest with
  | nil => simp
  | cons d rest => simp [List.cons_prefix_cons, eq_comm]

/-- **Required characters.**  Behind marks that all ask for a copy, a pattern matches only texts that have
the character there. -/
theorem begins_of_matches_marked {cs : List Char} {c : Char} {ms : List (Nat × Option Nat)} {r : Regex}
    {s : String} (hms : ∀ mark ∈ ms, mark.1 ≠ 0)
    (h : (anchored cs (.cat (marked (letter c) ms) r)).Matches s) : cs ++ [c] <+: s.toList := by
  obtain ⟨hcs, j, hspan⟩ := matches_anchored_iff.1 h
  obtain ⟨k, hmarked, -⟩ := spans_cat_iff.1 hspan
  have hc := getElem?_of_spans_marked hms hmarked
  rw [List.getElem?_toArray] at hc
  exact (append_singleton_begins_iff hcs).2 hc

/-- **Optional characters.**  Behind marks that allow none of a character, a pattern matches a text that
has the character there or that it matches without the character and its marks. -/
theorem matches_marked_iff {cs : List Char} {c : Char} {ms : List (Nat × Option Nat)} {r : Regex} {s : String}
    (horder : ∀ mark ∈ ms, ∀ m, mark.2 = some m → mark.1 ≤ m) (hzero : ∃ mark ∈ ms, mark.1 = 0)
    (hs : ¬cs ++ [c] <+: s.toList) :
    (anchored cs (.cat (marked (letter c) ms) r)).Matches s ↔ (anchored cs r).Matches s := by
  rw [matches_anchored_iff, matches_anchored_iff]
  refine and_congr_right fun hcs => ?_
  constructor
  · rintro ⟨j, hspan⟩
    obtain ⟨k, hmarked, hr⟩ := spans_cat_iff.1 hspan
    rcases getElem?_or_eq_of_spans_marked hmarked with hc | rfl
    · rw [List.getElem?_toArray] at hc
      exact absurd ((append_singleton_begins_iff hcs).2 hc) hs
    · exact ⟨j, hr⟩
  · rintro ⟨j, hr⟩
    obtain ⟨mark, hmark, hzero⟩ := hzero
    exact ⟨j, .cat (spans_marked_self horder hmark hzero _) hr⟩

end ScanBounds.Regex

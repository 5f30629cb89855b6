import ScanBounds.Proofs.Interval.Canonical
import ScanBounds.Proofs.Value.Bracket
import ScanBounds.Regex.Stem

/-!
# The range of a stem

The range of a stem holds the texts that start with the stem and no others.  Texts are ordered by code
point, so those with a common beginning stand together, and the first text above all of them comes from
raising the last character of the beginning.  Characters that cannot be raised are dropped first, which
leaves no gap: what lies above them and below the raised text continues them.
-/

namespace ScanBounds.Stem

/-! ## The next character -/

lemma toNat_valid (c : Char) : c.toNat < 0xD800 ∨ 0xDFFF < c.toNat ∧ c.toNat < 0x110000 := c.valid

lemma toNat_ofNat {n : Nat} (h : n < 0xD800 ∨ 0xDFFF < n ∧ n < 0x110000) :
    (Char.ofNat n).toNat = n := by
  have hv : n.isValidChar := h
  rw [Char.ofNat, dif_pos hv]
  rfl

/-- No character stands between a character and the next. -/
lemma lt_nextChar_iff {c n : Char} (h : nextChar? c = some n) (d : Char) : d < n ↔ d ≤ c := by
  have hd := toNat_valid d
  have hc := toNat_valid c
  have hlt : d < n ↔ d.toNat < n.toNat := UInt32.lt_iff_toNat_lt
  have hle : d ≤ c ↔ d.toNat ≤ c.toNat := UInt32.le_iff_toNat_le
  rw [hlt, hle]
  unfold nextChar? at h
  split_ifs at h with h₁ h₂ <;> cases h
  · have hn : ('\ue000').toNat = 0xE000 := rfl
    have hc : c.toNat = 0xD7FF := by rw [h₁]; rfl
    omega
  · have hc' : c.toNat ≠ 0xD7FF := fun heq => h₁ (Char.toNat_inj.1 heq)
    rw [toNat_ofNat (by omega)]
    omega

/-- A character without a next one is the last. -/
lemma le_of_nextChar?_eq_none {c : Char} (h : nextChar? c = none) (d : Char) : d ≤ c := by
  have hd := toNat_valid d
  have hle : d ≤ c ↔ d.toNat ≤ c.toNat := UInt32.le_iff_toNat_le
  rw [hle]
  unfold nextChar? at h
  split_ifs at h with h₁ h₂
  omega

/-! ## Texts with a common beginning -/

/-- What stands between two continuations of a text continues it too. -/
lemma between_append_iff {p a b w : List Char} :
    (¬w < p ++ a ∧ w < p ++ b) ↔ ∃ v, w = p ++ v ∧ ¬v < a ∧ v < b := by
  induction p generalizing w with
  | nil => simp
  | cons c p ih =>
    rcases w with - | ⟨d, w⟩
    · simp
    · rw [List.cons_append, List.cons_append, List.cons_lt_cons_iff, List.cons_lt_cons_iff]
      constructor
      · rintro ⟨hle, hdc | ⟨rfl, hlt⟩⟩
        · exact absurd (.inl hdc) hle
        · have hle : ¬w < p ++ a := fun h => hle (.inr ⟨rfl, h⟩)
          obtain ⟨v, rfl, hav, hvb⟩ := ih.1 ⟨hle, hlt⟩
          exact ⟨v, rfl, hav, hvb⟩
      · rintro ⟨v, heq, hav, hvb⟩
        obtain ⟨rfl, rfl⟩ := List.cons.inj heq
        obtain ⟨hle, hlt⟩ := ih.2 ⟨v, rfl, hav, hvb⟩
        refine ⟨?_, .inr ⟨rfl, hlt⟩⟩
        rintro (h | ⟨-, h⟩)
        · exact Char.lt_irrefl d h
        · exact hle h

lemma not_lt_singleton_iff {c d : Char} {v : List Char} : ¬d :: v < [c] ↔ ¬d < c := by
  rw [List.cons_lt_cons_iff]
  simp

/-- Below the raised character only continuations of the character are left. -/
lemma singleton_between_iff {c n : Char} (h : ∀ d, d < n ↔ d ≤ c) {v : List Char} :
    (¬v < [c] ∧ v < [n]) ↔ [c] <+: v := by
  rcases v with - | ⟨d, v⟩
  · simp
  · rw [not_lt_singleton_iff, List.cons_lt_cons_iff, List.cons_prefix_cons]
    simp only [List.not_lt_nil, and_false, or_false, List.nil_prefix, and_true, h]
    constructor
    · rintro ⟨hle, hdc⟩
      exact Char.le_antisymm (Char.not_lt.1 hle) hdc
    · rintro rfl
      exact ⟨Char.lt_irrefl c, Char.le_refl c⟩

lemma not_lt_singleton_iff_of_last {c : Char} (h : ∀ d, d ≤ c) {v : List Char} :
    ¬v < [c] ↔ [c] <+: v := by
  rcases v with - | ⟨d, v⟩
  · simp
  · rw [not_lt_singleton_iff, List.cons_prefix_cons]
    simp only [List.nil_prefix, and_true]
    constructor
    · intro hle
      exact Char.le_antisymm (Char.not_lt.1 hle) (h d)
    · rintro rfl
      exact Char.lt_irrefl c

lemma append_lt_append_iff {p a b : List Char} : p ++ a < p ++ b ↔ a < b := by
  induction p with
  | nil => rfl
  | cons c p ih => simp [ih]

lemma not_lt_beginning {p w : List Char} (h : p <+: w) : ¬w < p := by
  obtain ⟨v, rfl⟩ := h
  have h : ¬p ++ v < p ++ [] := mt append_lt_append_iff.1 (List.not_lt_nil v)
  rwa [List.append_nil] at h

/-- The raised text stands just above all texts with the given beginning; where nothing can be raised, no
other text stands above them. -/
lemma raise?_spec (r w : List Char) :
    (¬w < r.reverse ∧ ∀ t ∈ raise? r, w < t.reverse) ↔ r.reverse <+: w := by
  induction r with
  | nil => simp [raise?]
  | cons c r ih =>
    rw [List.reverse_cons, raise?]
    cases hn : nextChar? c with
    | some n =>
      simp only [Option.mem_some_iff, forall_eq', List.reverse_cons, between_append_iff]
      simp only [singleton_between_iff (lt_nextChar_iff hn)]
      constructor
      · rintro ⟨v, rfl, h⟩
        exact (List.prefix_append_right_inj _).2 h
      · rintro ⟨v, rfl⟩
        exact ⟨c :: v, by simp, by simp⟩
    | none =>
      have hlast := le_of_nextChar?_eq_none hn
      constructor
      · rintro ⟨hle, ht⟩
        have hp : ¬w < r.reverse := fun h =>
          not_lt_beginning (List.prefix_append _ _) (List.lt_of_le_of_lt (List.not_lt.1 hle) h)
        obtain ⟨v, rfl⟩ := ih.1 ⟨hp, ht⟩
        rw [append_lt_append_iff, not_lt_singleton_iff_of_last hlast] at hle
        exact (List.prefix_append_right_inj _).2 hle
      · intro h
        exact ⟨not_lt_beginning h, (ih.2 ((List.prefix_append _ _).trans h)).2⟩

/-! ## The range -/

/-- The upper end of the range. -/
lemma successor?_spec (s w : String) :
    (Value.string s ≤ .string w ∧ ∀ t ∈ successor? s, Value.string w < .string t) ↔
      s.toList <+: w.toList := by
  rw [← List.reverse_reverse s.toList, ← raise?_spec, List.reverse_reverse, Value.string_le_string]
  refine and_congr_right fun _ => ?_
  simp only [successor?, Option.mem_def, Option.map_eq_some_iff, forall_exists_index, and_imp,
    forall_apply_eq_imp_iff₂, Value.string_lt_string, String.toList_ofList]

/-- Where the range of a stem stops. -/
def stop (literal : String) : Value :=
  match successor? literal with
  | some s => .string s
  | none => TypeTag.string.upper

/-- The empty stem needs no case of its own. -/
lemma range_eq (stem : Stem) : stem.range = .range (.string stem.literal) (stop stem.literal) .startOnly := by
  unfold range
  split_ifs with h
  · rw [String.isEmpty_iff.1 h]
    rfl
  · rfl

lemma string_lt_upper (s : String) : Value.string s < TypeTag.string.upper :=
  Value.lt_of_rank_lt (show (15 : Int) < 20 by decide)

lemma stop_le_upper (literal : String) : stop literal ≤ TypeTag.string.upper := by
  unfold stop
  cases successor? literal with
  | none => exact le_refl _
  | some s => exact (string_lt_upper s).le

lemma lt_stop_iff {literal s : String} :
    Value.string s < stop literal ↔ ∀ t ∈ successor? literal, Value.string s < .string t := by
  unfold stop
  cases successor? literal with
  | none => simpa using string_lt_upper s
  | some t => simp

lemma range_holds_string {stem : Stem} {s : String} :
    stem.range.Holds (.string s) ↔ stem.literal.toList <+: s.toList := by
  rw [← successor?_spec, ← lt_stop_iff, range_eq]
  rfl

/-- A symbol compares as the string with its text. -/
lemma range_holds_symbol {stem : Stem} {s : String} :
    stem.range.Holds (.symbol s) ↔ stem.literal.toList <+: s.toList := by
  rw [← range_holds_string]
  refine Interval.holds_congr (Value.toClass_eq.2 ?_)
  exact Value.beq_iff_compare.2 (Std.compare_self (a := s))

lemma range_wellFormed (stem : Stem) : stem.range.WellFormed := by
  have h : stem.range.Holds (.string stem.literal) := range_holds_string.2 (List.prefix_refl _)
  rw [range_eq] at h ⊢
  exact .inl h.2

lemma range_upper_le (stem : Stem) : stem.range.upper ≤ Cut.below TypeTag.string.upper := by
  rw [range_eq]
  exact Cut.below_le_below.2 (stop_le_upper stem.literal)

/-- **Stem ranges.**  A range holds the strings, and the symbols, that start with its stem. -/
theorem range_holds_iff {stem : Stem} {v : Value} :
    stem.range.Holds v ↔
      ∃ s, (v = .string s ∨ v = .symbol s) ∧ stem.literal.toList <+: s.toList := by
  constructor
  · intro h
    have hv := h
    rw [range_eq] at hv
    have hlow : (15 : Int) ≤ v.rank := Value.rank_le_of_le hv.1
    have hup : v.rank < 20 := by
      have hlt : v < TypeTag.string.upper := lt_of_lt_of_le hv.2 (stop_le_upper _)
      exact (TypeTag.lt_upper_iff rfl).1 hlt
    cases v <;> simp at hlow hup
    case string s => exact ⟨s, .inl rfl, range_holds_string.1 h⟩
    case symbol s => exact ⟨s, .inr rfl, range_holds_symbol.1 h⟩
  · rintro ⟨s, rfl | rfl, h⟩
    · exact range_holds_string.2 h
    · exact range_holds_symbol.2 h

/-- The successor of a text, in the order of texts. -/
lemma successor?_bounds (p s : String) :
    (p ≤ s ∧ ∀ q ∈ successor? p, s < q) ↔ p.toList <+: s.toList := by
  rw [← successor?_spec, Value.string_le_string, ← String.lt_iff, String.not_lt]
  simp only [Value.string_lt_string, String.lt_iff]

/-- **Extensions of a text.**  The texts that start with `p` are those from `p` up to its successor, or all
from `p` on if it has none.  So the first interval of the bounds of a pattern holds the strings and symbols
that start with the stem, and no other values. -/
theorem extensions_contiguous :
    (∀ p s : String, match successor? p with
      | some q => p.toList <+: s.toList ↔ p ≤ s ∧ s < q
      | none => p.toList <+: s.toList ↔ p ≤ s) ∧
    ∀ (term : RegexTerm) (collated : Bool),
      ∃ range, (term.bounds collated).1 = [range, .point term.asValue] ∧
        ∀ v, range.Holds v ↔ ∃ s, (v = .string s ∨ v = .symbol s) ∧
          (ofPattern term.pattern term.flags collated).literal.toList <+: s.toList := by
  refine ⟨fun p s => ?_, fun term collated => ⟨_, rfl, fun v => range_holds_iff⟩⟩
  have hbounds := successor?_bounds p s
  cases hq : successor? p with
  | some q => simpa [hq] using hbounds.symm
  | none => simpa [hq] using hbounds.symm

/-- A last character without a next one is dropped, and the one before it is raised over the surrogates. -/
example : successor? (String.ofList ['a', '\ud7ff', Char.ofNat 0x10ffff]) = some "a\ue000" := by decide

end ScanBounds.Stem

/-!
# Places in a text

A place in a text can be told by the bytes in front of it, as its UTF-8 form has them.  Only an offset
between two characters, or at an end of the text, is such a place: a cut anywhere else has no result.
Where a character occurs can also be told by the parts of the text before and behind it.
-/

namespace ScanBounds.Text

/-- The length of a text in bytes. -/
def byteSize : List Char → Nat
  | [] => 0
  | c :: rest => c.utf8Size + byteSize rest

/-- The two parts of a text at a byte offset.  There is none within a character or behind the end. -/
def cut? : Nat → List Char → Option (List Char × List Char)
  | 0, text => some ([], text)
  | _ + 1, [] => none
  | n + 1, c :: rest =>
    if c.utf8Size ≤ n + 1 then
      (cut? (n + 1 - c.utf8Size) rest).map fun (before, behind) => (c :: before, behind)
    else none

/-- The byte offset of the first `d` in a text. -/
def offsetOf? (d : Char) : List Char → Option Nat
  | [] => none
  | c :: rest => if c = d then some 0 else (offsetOf? d rest).map (c.utf8Size + ·)

@[simp] theorem byteSize_nil : byteSize [] = 0 := rfl

@[simp] theorem byteSize_cons (c : Char) (rest : List Char) :
    byteSize (c :: rest) = c.utf8Size + byteSize rest := rfl

@[simp] theorem byteSize_append (text more : List Char) :
    byteSize (text ++ more) = byteSize text + byteSize more := by
  induction text with
  | nil => rw [List.nil_append, byteSize_nil, Nat.zero_add]
  | cons c text ih => rw [List.cons_append, byteSize_cons, ih, byteSize_cons, Nat.add_assoc]

theorem byteSize_eq_utf8ByteSize (text : List Char) : byteSize text = (String.ofList text).utf8ByteSize := by
  induction text with
  | nil => rfl
  | cons c text ih =>
    have hsplit : String.ofList (c :: text) = String.singleton c ++ String.ofList text := by
      rw [String.singleton_eq_ofList, ← String.ofList_append, List.singleton_append]
    rw [hsplit, String.utf8ByteSize_append, String.utf8ByteSize_singleton, byteSize_cons, ih]

/-- A text is cut where its first part ends. -/
theorem cut?_append (before behind : List Char) :
    cut? (byteSize before) (before ++ behind) = some (before, behind) := by
  induction before with
  | nil => rw [byteSize_nil, List.nil_append, cut?]
  | cons c before ih =>
    obtain ⟨n, hn⟩ : ∃ n, c.utf8Size = n + 1 := ⟨c.utf8Size - 1, by have := c.utf8Size_pos; omega⟩
    have hsize : byteSize (c :: before) = n + byteSize before + 1 := by
      rw [byteSize_cons, hn]
      omega
    have hrest : n + byteSize before + 1 - c.utf8Size = byteSize before := by omega
    rw [hsize, List.cons_append, cut?, if_pos (by omega), hrest, ih]
    rfl

theorem of_cut?_eq_some {n : Nat} {text before behind : List Char}
    (h : cut? n text = some (before, behind)) : text = before ++ behind ∧ n = byteSize before := by
  induction n, text using cut?.induct generalizing before with
  | case1 text =>
    rw [cut?] at h
    cases h
    exact ⟨rfl, rfl⟩
  | case2 n => cases h
  | case3 n c rest hle ih =>
    rw [cut?, if_pos hle] at h
    obtain ⟨⟨u, v⟩, hcut, heq⟩ := Option.map_eq_some_iff.1 h
    cases heq
    obtain ⟨rfl, hsize⟩ := ih hcut
    refine ⟨rfl, ?_⟩
    rw [byteSize_cons]
    omega
  | case4 n c rest hlt =>
    rw [cut?, if_neg hlt] at h
    cases h

/-- A text has a cut at the valid positions of its UTF-8 form and nowhere else. -/
theorem isSome_cut?_iff {n : Nat} {s : String} :
    (cut? n s.toList).isSome = true ↔ String.Pos.Raw.IsValid s ⟨n⟩ := by
  rw [String.Pos.Raw.isValid_iff_exists_append]
  constructor
  · intro h
    obtain ⟨⟨before, behind⟩, hcut⟩ := Option.isSome_iff_exists.1 h
    obtain ⟨htext, rfl⟩ := of_cut?_eq_some hcut
    refine ⟨String.ofList before, String.ofList behind, ?_, ?_⟩
    · rw [← String.ofList_append, ← htext, String.ofList_toList]
    · rw [byteSize_eq_utf8ByteSize]
      rfl
  · rintro ⟨before, behind, rfl, hn⟩
    have hsize : n = byteSize before.toList := by
      rw [byteSize_eq_utf8ByteSize, String.ofList_toList]
      exact congrArg String.Pos.Raw.byteIdx hn
    rw [hsize, String.toList_append, cut?_append]
    rfl

/-- What is found is the first occurrence. -/
theorem of_offsetOf?_eq_some {d : Char} {text : List Char} {n : Nat} (h : offsetOf? d text = some n) :
    ∃ u v, text = u ++ d :: v ∧ d ∉ u ∧ n = byteSize u := by
  induction text generalizing n with
  | nil => cases h
  | cons c rest ih =>
    rw [offsetOf?] at h
    split at h
    next heq =>
      cases h
      exact ⟨[], rest, by rw [heq, List.nil_append], List.not_mem_nil, rfl⟩
    next hne =>
      obtain ⟨m, hm, rfl⟩ := Option.map_eq_some_iff.1 h
      obtain ⟨u, v, rfl, hu, rfl⟩ := ih hm
      refine ⟨c :: u, v, rfl, ?_, (byteSize_cons c u).symm⟩
      rw [List.mem_cons, not_or]
      exact ⟨Ne.symm hne, hu⟩

theorem offsetOf?_append {d : Char} {u : List Char} (hu : d ∉ u) (v : List Char) :
    offsetOf? d (u ++ d :: v) = some (byteSize u) := by
  induction u with
  | nil => rw [List.nil_append, offsetOf?, if_pos rfl, byteSize_nil]
  | cons c u ih =>
    rw [List.mem_cons, not_or] at hu
    rw [List.cons_append, offsetOf?, if_neg (Ne.symm hu.1), ih hu.2, byteSize_cons]
    rfl

theorem offsetOf?_eq_none {d : Char} {text : List Char} (h : d ∉ text) : offsetOf? d text = none := by
  induction text with
  | nil => rfl
  | cons c rest ih =>
    rw [List.mem_cons, not_or] at h
    rw [offsetOf?, if_neg (Ne.symm h.1), ih h.2]
    rfl

/-- A character that is found behind a cut stands before the end of the text. -/
theorem cut_add_offset_lt {start n : Nat} {d : Char} {text before behind : List Char}
    (hcut : cut? start text = some (before, behind)) (hn : offsetOf? d behind = some n) :
    start + n < byteSize text := by
  obtain ⟨rfl, rfl⟩ := of_cut?_eq_some hcut
  obtain ⟨u, v, rfl, -, rfl⟩ := of_offsetOf?_eq_some hn
  have := d.utf8Size_pos
  simp only [byteSize_append, byteSize_cons]
  omega

/-! ## Occurrences -/

/-- A character occurs in a text as its first one or in the rest. -/
theorem exists_occurrence_cons_iff {c d : Char} {rest : List Char} {P : List Char → Prop} :
    (∃ u v, c :: rest = u ++ d :: v ∧ P u) ↔ (c = d ∧ P []) ∨ ∃ u v, rest = u ++ d :: v ∧ P (c :: u) := by
  constructor
  · rintro ⟨u, v, heq, hu⟩
    cases u with
    | nil => exact .inl ⟨(List.cons.inj heq).1, hu⟩
    | cons e u =>
      obtain ⟨rfl, hrest⟩ := List.cons.inj heq
      exact .inr ⟨u, v, hrest, hu⟩
  · rintro (⟨rfl, hu⟩ | ⟨u, v, rfl, hu⟩)
    · exact ⟨[], rest, rfl, hu⟩
    · exact ⟨c :: u, v, rfl, hu⟩

/-- Behind a part without it, a character occurs first where it follows, and then in the rest. -/
theorem exists_occurrence_append_iff {d : Char} {u v : List Char} (hu : d ∉ u) {P : List Char → Prop} :
    (∃ x y, u ++ d :: v = x ++ d :: y ∧ P x) ↔ P u ∨ ∃ x y, v = x ++ d :: y ∧ P (u ++ d :: x) := by
  induction u generalizing P with
  | nil => simp only [List.nil_append, exists_occurrence_cons_iff, true_and]
  | cons c u ih =>
    rw [List.mem_cons, not_or] at hu
    simp only [List.cons_append, exists_occurrence_cons_iff, ih hu.2, Ne.symm hu.1, false_and, false_or]

end ScanBounds.Text

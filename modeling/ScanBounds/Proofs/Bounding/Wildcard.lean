import ScanBounds.Proofs.Bounding.Covered
import ScanBounds.Proofs.Bounding.Siblings
import ScanBounds.Proofs.Index.MultikeyPath

/-!
# Bounds that a wildcard index may settle

A wildcard index has no keys for objects and arrays, so a scan over their brackets would miss documents
without a trace.  The standard adjuster sends such bounds to the documents, and those on paths with arrays
too.  It asks whether an interval of the list meets the one of all objects and arrays, where both ends of
that interval count: it begins with the least object, which is also where the range of all strings stops,
and stops before the least binary value, with which other ranges begin.  Whatever the list is, what is left
for the index alone holds no object and no array (`not_held_of_nested`).
-/

namespace ScanBounds

open IntervalList

/-- Intervals with a value in common intersect, well-formed or not. -/
lemma Interval.intersects_of_holds {i j : Interval} {v : Value} (hi : i.Holds v) (hj : j.Holds v) :
    i.intersects j = true := by
  rw [holds_iff] at hi hj
  exact intersects_iff.2 ⟨hi.1.trans_lt hj.2, hj.1.trans_lt hi.2⟩

lemma objectsAndArrays_holds_iff {v : Value} :
    objectsAndArrays.Holds v ↔ (∃ fields, v = .object fields) ∨ ∃ items, v = .array items := by
  constructor
  · intro h
    have hlow : (20 : Int) ≤ v.rank := Value.rank_le_of_le h.1
    have hstop : v < TypeTag.array.upper := h.2
    have hup : v.rank < 30 := (TypeTag.lt_upper_iff rfl).1 hstop
    cases v <;> simp at hlow hup
    case object fields => exact .inl ⟨fields, rfl⟩
    case array items => exact .inr ⟨items, rfl⟩
  · rintro (⟨fields, rfl⟩ | ⟨items, rfl⟩)
    · have hstart : TypeTag.object.least ≤ .object fields := TypeTag.least_le rfl
      exact ⟨hstart, Value.lt_of_rank_lt (show (20 : Int) < 30 by decide)⟩
    · have hstart : TypeTag.object.least < .array items := Value.lt_of_rank_lt (show (20 : Int) < 25 by decide)
      exact ⟨hstart.le, Value.lt_of_rank_lt (show (25 : Int) < 30 by decide)⟩

/-- Intervals that stay clear of objects and arrays hold none of them. -/
lemma not_held_of_nested {l : List Interval} (h : ∀ i ∈ l, i.intersects objectsAndArrays = false) {v : Value}
    (hv : objectsAndArrays.Holds v) : ¬Held l v := by
  rintro ⟨i, hi, hiv⟩
  simpa [h i hi] using Interval.intersects_of_holds hiv hv

namespace Builder

variable {b : Builder} {field : IndexedField} {index : Index} {bounds : FieldBounds}

/-- What the standard adjuster lets pass. -/
lemma adjusted_standard_iff (hadjust : b.adjuster = .standard) (hkind : index.kind = .wildcard) :
    (b.adjusted index bounds).2 ≠ .inexactFetch ↔
      bounds.2 ≠ .inexactFetch ∧ (∀ i ∈ bounds.1.intervals, i.intersects objectsAndArrays = false) ∧
        index.isMultikeyPath bounds.1.field = false := by
  unfold adjusted
  rw [if_pos hkind, hadjust]
  simp only [WildcardAdjuster.standard, Tightness.combine_ne_inexactFetch_iff]
  split_ifs with h
  · refine iff_of_false (fun hne => hne.1 rfl) fun ⟨hfetch, hapart, hpath⟩ => ?_
    have hnone : bounds.1.intervals.any (·.intersects objectsAndArrays) = false := by simpa using hapart
    simp [hfetch, hnone, hpath] at h
  · simp only [Bool.or_eq_true, decide_eq_true_iff, not_or, Bool.not_eq_true] at h
    obtain ⟨hfetch, hnone, hpath⟩ := h
    simpa [hfetch, hpath] using hnone

/-- **Wildcard indexes.**  Bounds on a wildcard index that do not ask for the document hold no object and no
array, and no path on the way to the field is known to lead to an array. -/
theorem wildcard_holds_no_nested (hcover : b.coverer.GivesWellFormed) (hadjust : b.adjuster = .standard)
    (hkind : index.kind = .wildcard) {p : Predicate} {list : IntervalList} {tightness : Tightness}
    (h : (b.bounds p field index).result = .ok (list, tightness)) (htight : tightness ≠ .inexactFetch) :
    (∀ fields, ¬list.Holds (.object fields)) ∧ (∀ items, ¬list.Holds (.array items)) ∧
      ∀ path, Index.LeadsTo path field.name → ¬index.FlagsArray path := by
  have hkeeps : b.adjuster.KeepsList := hadjust ▸ standard_keepsList
  have hfield : list.field = field.name := (bounds_canonicalFor hcover (fun _ => hkeeps) h).2
  rw [bounds_eq_map] at h
  cases hderived : (b.derive field index p).result with
  | error refusal =>
    rw [hderived] at h
    cases h
  | ok derived =>
    rw [hderived] at h
    have hadjusted : b.adjusted index derived = (list, tightness) := Except.ok.inj h
    have hlist : derived.1 = list := by rw [← adjusted_fst (fun _ => hkeeps) derived, hadjusted]
    have hpassed : (b.adjusted index derived).2 ≠ .inexactFetch := by rwa [hadjusted]
    obtain ⟨-, hapart, hpath⟩ := (adjusted_standard_iff hadjust hkind).1 hpassed
    rw [hlist] at hapart hpath
    rw [hfield] at hpath
    refine ⟨fun fields => ?_, fun items => ?_, fun path hleads hflags => ?_⟩
    · exact not_held_of_nested hapart (objectsAndArrays_holds_iff.2 (.inl ⟨fields, rfl⟩))
    · exact not_held_of_nested hapart (objectsAndArrays_holds_iff.2 (.inr ⟨items, rfl⟩))
    · simpa [hpath] using Index.isMultikeyPath_iff.2 ⟨path, hleads, hflags⟩

/-- Strings and binary values stand right below the objects and right above the arrays.  Arrays are known on
other paths, one of which goes on from the field's. -/
theorem wildcard_holds_no_nested_of_types :
    let b := Builder.ofSettings {}
    let field : IndexedField := ⟨"b.c", .ascending⟩
    let index := (Index.ofPattern "all" ⟨[⟨"$**", .ascending⟩]⟩).withMultikeyPaths ["a", "b.c.d"]
    let p : Predicate := .hasType "b.c" (.ofTags false [.string, .binData])
    let list : IntervalList :=
      ⟨"b.c", [.range (.string "") (.object []) .startOnly, .range (.binData 0 []) (.objectId 0) .startOnly]⟩
    b.coverer.GivesWellFormed ∧ b.adjuster = .standard ∧ index.kind = .wildcard ∧
      (b.bounds p field index).result = .ok (list, .inexactCovered) ∧ Tightness.inexactCovered ≠ .inexactFetch ∧
      (∀ fields, ¬list.Holds (.object fields)) ∧ (∀ items, ¬list.Holds (.array items)) ∧
      ∀ path, Index.LeadsTo path field.name → ¬index.FlagsArray path := by
  intro b field index p list
  have hcover : b.coverer.GivesWellFormed := fullScan_sound.givesWellFormed
  have hkind : index.kind = .wildcard := by decide +kernel
  have hderived : (b.derive field index p).result = .ok (list, .inexactCovered) := rfl
  have hadjusted : b.adjusted index (list, .inexactCovered) = (list, .inexactCovered) :=
    Prod.ext (adjusted_fst (fun _ => standard_keepsList) _) (by decide +kernel)
  have hresult : (b.bounds p field index).result = .ok (list, .inexactCovered) := by
    rw [bounds_eq_map, hderived, Except.map, hadjusted]
  have htight : Tightness.inexactCovered ≠ .inexactFetch := nofun
  exact ⟨hcover, rfl, hkind, hresult, htight, wildcard_holds_no_nested hcover rfl hkind hresult htight⟩

end Builder

end ScanBounds

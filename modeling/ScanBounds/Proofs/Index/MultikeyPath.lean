import Mathlib.Data.List.Infix
import ScanBounds.Index.Basic

/-!
# Arrays on a path

An array anywhere on the way to a value gives a document several keys for the path.  What has to be looked up
are therefore all paths on that way: the path itself and its beginnings up to a dot.  A beginning that stops
within a component is none of them, and a component may be empty.

The walk over a path counts in bytes.  It only ever stands behind a dot or at the start of the path, so that
each cut is at a place between two characters, however many bytes these have (`anyLeading?_spec`).
-/

namespace ScanBounds.Index

/-- The path itself, or a beginning of it with a dot behind. -/
def LeadsTo (before path : String) : Prop := before = path ∨ before.toList ++ ['.'] <+: path.toList

/-- The path is known to lead to an array.  Where this is not tracked, all paths of a multikey index may. -/
def FlagsArray (index : Index) (path : String) : Prop :=
  match index.multikeyPaths with
  | none => index.multikey = true
  | some paths => path ∈ paths

/-! ## The walk -/

/-- With no dot ahead, the path itself is looked up. -/
lemma anyLeading?_last (flagged : String → Bool) (u : List Char) {w : List Char} (hw : '.' ∉ w) :
    anyLeading? flagged (u ++ w) (Text.byteSize u) = some (flagged (String.ofList (u ++ w))) := by
  rw [anyLeading?]
  split
  next hcut => simp [Text.cut?_append] at hcut
  next before behind hcut =>
    rw [Text.cut?_append] at hcut
    cases hcut
    split
    next hdot => rfl
    next n hdot => simp [Text.offsetOf?_eq_none hw] at hdot

/-- A step looks up what ends before the next dot, and comes to stand behind that dot. -/
lemma anyLeading?_step (flagged : String → Bool) (u : List Char) {x : List Char} (hx : '.' ∉ x) (y : List Char) :
    anyLeading? flagged (u ++ (x ++ '.' :: y)) (Text.byteSize u) =
      if flagged (String.ofList (u ++ x)) then some true
      else anyLeading? flagged (u ++ (x ++ '.' :: y)) (Text.byteSize (u ++ x ++ ['.'])) := by
  have hbehind : Text.byteSize u + Text.byteSize x + 1 = Text.byteSize (u ++ x ++ ['.']) := by
    have hdot : Char.utf8Size '.' = 1 := by decide
    simp only [Text.byteSize_append, Text.byteSize_cons, Text.byteSize_nil, hdot]
  have hleading : Text.cut? (Text.byteSize u + Text.byteSize x) (u ++ (x ++ '.' :: y)) =
      some (u ++ x, '.' :: y) := by
    rw [← Text.byteSize_append, ← List.append_assoc, Text.cut?_append]
  conv_lhs => rw [anyLeading?]
  split
  next hcut => simp [Text.cut?_append] at hcut
  next before behind hcut =>
    rw [Text.cut?_append] at hcut
    cases hcut
    split
    next hdot => simp [Text.offsetOf?_append hx] at hdot
    next n hdot =>
      rw [Text.offsetOf?_append hx] at hdot
      cases hdot
      simp only [hleading, hbehind]

/-- From wherever the walk stands behind a beginning `u` of the path, it comes to an answer: whether the path
is flagged, or a beginning of it that ends before a later dot. -/
lemma anyLeading?_spec (flagged : String → Bool) (u w : List Char) :
    ∃ answer, anyLeading? flagged (u ++ w) (Text.byteSize u) = some answer ∧
      (answer = true ↔ flagged (String.ofList (u ++ w)) = true ∨
        ∃ x y, w = x ++ '.' :: y ∧ flagged (String.ofList (u ++ x)) = true) := by
  induction hn : w.length using Nat.strong_induction_on generalizing u w with
  | _ n ih =>
    by_cases hdot : '.' ∈ w
    · obtain ⟨x, y, rfl, hx⟩ := List.eq_append_cons_of_mem hdot
      rw [anyLeading?_step flagged u hx y, Text.exists_occurrence_append_iff hx]
      split_ifs with hflag
      · exact ⟨true, rfl, iff_of_true rfl (.inr (.inl hflag))⟩
      · have hpath : u ++ (x ++ '.' :: y) = u ++ x ++ ['.'] ++ y := by simp
        have hshorter : y.length < n := by
          rw [← hn, List.length_append, List.length_cons]
          omega
        obtain ⟨answer, hanswer, hiff⟩ := ih y.length hshorter (u ++ x ++ ['.']) y rfl
        refine ⟨answer, hpath ▸ hanswer, ?_⟩
        rw [hiff, or_iff_right hflag]
        simp only [List.append_assoc, List.singleton_append]
    · refine ⟨_, anyLeading?_last flagged u hdot, (or_iff_left ?_).symm⟩
      rintro ⟨x, y, rfl, -⟩
      exact hdot (by simp)

/-- The walk over a whole path always has an answer, and flags are looked up for what leads to the path. -/
lemma anyLeading?_iff (flagged : String → Bool) (path : String) :
    ∃ answer, anyLeading? flagged path.toList 0 = some answer ∧
      (answer = true ↔ ∃ before, LeadsTo before path ∧ flagged before = true) := by
  obtain ⟨answer, hanswer, hiff⟩ := anyLeading?_spec flagged [] path.toList
  refine ⟨answer, hanswer, hiff.trans ?_⟩
  simp only [List.nil_append, String.ofList_toList]
  constructor
  · rintro (hpath | ⟨x, y, hxy, hx⟩)
    · exact ⟨path, .inl rfl, hpath⟩
    · refine ⟨String.ofList x, .inr ⟨y, ?_⟩, hx⟩
      rw [String.toList_ofList, List.append_assoc, List.singleton_append, hxy]
  · rintro ⟨before, rfl | ⟨y, hxy⟩, hbefore⟩
    · exact .inl hbefore
    · refine .inr ⟨before.toList, y, ?_, by rwa [String.ofList_toList]⟩
      rw [← hxy, List.append_assoc, List.singleton_append]

/-- **Arrays on a path.**  A path counts as multikey when some path on the way to it is known to lead to an
array. -/
theorem isMultikeyPath_iff {index : Index} {path : String} :
    index.isMultikeyPath path = true ↔ ∃ before, LeadsTo before path ∧ index.FlagsArray before := by
  unfold isMultikeyPath FlagsArray
  cases index.multikeyPaths with
  | none => exact ⟨fun h => ⟨path, .inl rfl, h⟩, fun ⟨_, _, h⟩ => h⟩
  | some paths =>
    obtain ⟨answer, hanswer, hiff⟩ := anyLeading?_iff paths.contains path
    simpa [hanswer] using hiff

/-! ## Tracked paths -/

lemma mem_insertPath {path other : String} {held : List String} :
    other ∈ insertPath path held ↔ other = path ∨ other ∈ held := by
  induction held with
  | nil => simp [insertPath]
  | cons first rest ih =>
    rw [insertPath]
    split_ifs with hlt heq
    · rw [List.mem_cons]
    · rw [heq, List.mem_cons, ← or_assoc, or_self]
    · rw [List.mem_cons, ih, List.mem_cons, or_left_comm]

lemma mem_foldl_insertPath {other : String} {tracked held : List String} :
    other ∈ tracked.foldl (fun held path => insertPath path held) held ↔ other ∈ tracked ∨ other ∈ held := by
  induction tracked generalizing held with
  | nil => simp
  | cons path tracked ih => rw [List.foldl_cons, ih, mem_insertPath, List.mem_cons, or_left_comm, or_assoc]

/-- **The walk over a path.**  Where array paths are tracked, the walk over a path comes to an answer, never
having to cut within a character: whether the path is tracked, or a beginning of it with a dot behind.  It is
of no account in which order the paths were given, or how often.  Where no paths are tracked, what is known
of the index holds of every path. -/
theorem multikeyPath_answer (index : Index) (path : String) :
    (index.multikeyPaths = none → index.isMultikeyPath path = index.multikey) ∧
    (∀ paths, index.multikeyPaths = some paths →
      anyLeading? paths.contains path.toList 0 = some (index.isMultikeyPath path) ∧
        (index.isMultikeyPath path = true ↔ ∃ before ∈ paths, LeadsTo before path)) ∧
    ∀ tracked, (index.withMultikeyPaths tracked).isMultikeyPath path = true ↔
      ∃ before ∈ tracked, LeadsTo before path := by
  refine ⟨fun hnone => ?_, fun paths hpaths => ?_, fun tracked => ?_⟩
  · rw [isMultikeyPath, hnone]
  · obtain ⟨answer, hanswer, hiff⟩ := anyLeading?_iff paths.contains path
    have hresult : index.isMultikeyPath path = answer := by simp [isMultikeyPath, hpaths, hanswer]
    rw [hresult, hiff]
    refine ⟨hanswer, exists_congr fun before => ?_⟩
    rw [List.contains_iff_mem, and_comm]
  · rw [isMultikeyPath_iff]
    refine exists_congr fun before => ?_
    simp [FlagsArray, withMultikeyPaths, mem_foldl_insertPath, and_comm]

/-- A path with an empty component, a last dot and a character of two bytes. -/
theorem multikeyPath_answer_empty_component :
    let path := "é..b."
    let untracked := Index.ofPattern "ix" ⟨[⟨path, .ascending⟩]⟩
    let index := untracked.withMultikeyPaths ["é.", "b"]
    untracked.multikeyPaths = none ∧ untracked.isMultikeyPath path = untracked.multikey ∧
      index.multikeyPaths = some ["b", "é."] ∧
      anyLeading? ["b", "é."].contains path.toList 0 = some (index.isMultikeyPath path) ∧
      (index.isMultikeyPath path = true ↔ ∃ before ∈ ["b", "é."], LeadsTo before path) ∧
      index.isMultikeyPath path = true ∧ (untracked.withMultikeyPaths ["é..", "b"]).isMultikeyPath path = false := by
  intro path untracked index
  have hpaths : index.multikeyPaths = some ["b", "é."] := by decide
  have hnone : untracked.multikeyPaths = none := rfl
  obtain ⟨hanswer, hiff⟩ := (multikeyPath_answer index path).2.1 _ hpaths
  exact ⟨hnone, (multikeyPath_answer untracked path).1 hnone, hpaths, hanswer, hiff, by decide, by decide⟩

end ScanBounds.Index

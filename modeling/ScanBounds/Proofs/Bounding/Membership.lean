import ScanBounds.Proofs.Bounding.Negation
import ScanBounds.Proofs.Bounding.Siblings
import ScanBounds.Proofs.Value.Layout

/-!
# Membership against its members one by one

A membership list is bounded in one go: its literals are sorted, each is kept once, and the bounds of what is left
are merged.  Here that is compared with the members taken on their own, widening an empty list by an equality for
each literal and by a test for each regular expression.

Success does not tell the two apart, since equal literals are refused together, nor do the kept members: merging
them at once or one by one covers the same (`InList.bounds_lookups`, `Builder.union_of_members`).  What is left are
the literals that were dropped for an equal one.  Equal values have equal digests (`Value.hashKey_congr`), so
without a collation a dropped literal is looked up by the keys of the kept one.  But a text and a symbol can be
equal, and a collation rewrites the text and leaves the symbol alone.  The one that was dropped then has a key of
its own, which the list misses unless another member looks it up.
-/

namespace ScanBounds

open IntervalList

/-! ## What a literal is looked up by -/

namespace Value

variable {v w : Value} {index : Index} {hashed : Bool}

/-- The form in which a key is stored. -/
def stored (hashed : Bool) (key : Value) : Value := if hashed then key.hashKey else key

/-- The keys that an equality with the value looks up. -/
def lookups (index : Index) (hashed : Bool) : Value → List Value
  | null => [stored hashed undefined, stored hashed null]
  | array items => [(array items).indexKey index.collator, firstKey index.collator items]
  | v => [stored hashed (v.indexKey index.collator)]

/-- How tight the bounds of an equality with the value are. -/
def lookupTightness (index : Index) (hashed : Bool) (v : Value) : Tightness :=
  if v.isNull || v.isArray || hashed || (index.collator.isSome && v.isCollatable) then .inexactFetch else .exact

lemma isNull_eq_of_rank_eq (h : v.rank = w.rank) : v.isNull = w.isNull := by
  have hnull (v : Value) : v.isNull = true ↔ v.rank = 5 := by cases v <;> simp [isNull]
  rw [Bool.eq_iff_iff, hnull, hnull, h]

lemma isArray_eq_of_rank_eq (h : v.rank = w.rank) : v.isArray = w.isArray := by
  rw [Bool.eq_iff_iff, isArray_iff, isArray_iff, h]

lemma lookups_of_plain (hnull : v.isNull = false) (harray : v.isArray = false) :
    v.lookups index hashed = [stored hashed (v.indexKey index.collator)] := by
  cases v with
  | null => exact absurd hnull Bool.noConfusion
  | array items => exact absurd harray Bool.noConfusion
  | _ => rfl

lemma hashKey_congr (h : (v == w) = true) : v.hashKey = w.hashKey := by
  have hbytes : v.hashInput = w.hashInput := hashInput_congr (beq_iff_compare.1 h)
  simp only [hashKey, hbytes]

lemma stored_congr (hashed : Bool) (h : (v == w) = true) : (stored hashed v == stored hashed w) = true := by
  cases hashed
  · exact h
  · exact toClass_eq.1 (congrArg toClass (hashKey_congr h))

/-- Equal arrays have equal first elements. -/
lemma firstKey_congr {collator : Option Collator} {items others : List Value}
    (h : ((array items).indexKey collator == (array others).indexKey collator) = true) :
    (firstKey collator items == firstKey collator others) = true := by
  rw [indexKey_array, indexKey_array] at h
  have h : compareItems (items.map (indexKey collator)) (others.map (indexKey collator)) = .eq :=
    beq_iff_compare.1 h
  cases items with
  | nil =>
    cases others with
    | nil => rfl
    | cons other rest => cases h
  | cons first rest =>
    cases others with
    | nil => cases h
    | cons other rest' => exact beq_iff_compare.2 (Ordering.then_eq_eq.1 h).1

/-- Literals with equal keys are looked up alike. -/
lemma lookups_congr (h : (v.indexKey index.collator == w.indexKey index.collator) = true) :
    ∀ k ∈ v.lookups index hashed, ∃ k' ∈ w.lookups index hashed, (k == k') = true := by
  have hrank : v.rank = w.rank := by
    rw [← rank_indexKey index.collator v, ← rank_indexKey index.collator w]
    exact rank_eq_of_beq h
  by_cases hnull : v.isNull = true
  · obtain rfl := eq_null_of_isNull hnull
    obtain rfl := eq_null_of_rank hrank.symm
    exact fun k hk => ⟨k, hk, toClass_eq.1 rfl⟩
  by_cases harray : v.isArray = true
  · obtain ⟨items, rfl⟩ := exists_array_of_isArray harray
    obtain ⟨others, rfl⟩ := exists_array_of_isArray (isArray_iff.2 hrank.symm)
    have hfirst := firstKey_congr h
    simp only [lookups, List.mem_cons, List.not_mem_nil, or_false, forall_eq_or_imp, forall_eq,
      exists_eq_or_imp, exists_eq_left]
    exact ⟨.inl h, .inr hfirst⟩
  · rw [Bool.not_eq_true] at hnull harray
    have hnull' : w.isNull = false := (isNull_eq_of_rank_eq hrank).symm.trans hnull
    have harray' : w.isArray = false := (isArray_eq_of_rank_eq hrank).symm.trans harray
    rw [lookups_of_plain hnull harray, lookups_of_plain hnull' harray']
    simpa using stored_congr hashed h

end Value

/-- Without an array on a hashed field an equality has bounds, the points of its keys. -/
lemma equalityBounds_lookups {v : Value} (index : Index) {hashed : Bool} (h : (hashed && v.isArray) = false) :
    ∃ points, equalityBounds v index hashed = .ok (points, v.lookupTightness index hashed) ∧ Canonical points ∧
      ∀ c, Covered points c ↔ ∃ k ∈ v.lookups index hashed, c = .below k := by
  have hcan (o : OperandBounds) : equalityBounds v index hashed = .ok o → Canonical o.1 :=
    (equalityBounds_yields v index hashed).of_eq_ok
  by_cases hnull : v.isNull = true
  · obtain rfl := Value.eq_null_of_isNull hnull
    obtain ⟨m, hm, hmcan, hc⟩ := nullBounds_spec hashed
    refine ⟨m, hm, hmcan, fun c => ?_⟩
    rw [hc]
    simp [Value.lookups, Interval.undefinedPoint, Interval.nullPoint, Interval.point_covers, Value.stored]
  by_cases harray : v.isArray = true
  · obtain ⟨items, rfl⟩ := Value.exists_array_of_isArray harray
    obtain rfl : hashed = false := by simpa [Value.isArray] using h
    have heq : equalityBounds (.array items) index false = .ok (Interval.sortByStart
        [.point ((Value.array items).indexKey index.collator), .point (firstKey index.collator items)],
        .inexactFetch) := by
      cases items <;> rfl
    refine ⟨_, heq, hcan _ heq, fun c => ?_⟩
    simp [Covered, mem_sortByStart, Interval.point_covers, Value.lookups]
  · rw [Bool.not_eq_true] at hnull harray
    have heq : equalityBounds v index hashed =
        .ok ([.point (Value.stored hashed (v.indexKey index.collator))], v.lookupTightness index hashed) := by
      unfold Value.lookupTightness
      rw [hnull, harray]
      cases v with
      | null => exact absurd hnull Bool.noConfusion
      | array items => exact absurd harray Bool.noConfusion
      | _ => rfl
    refine ⟨_, heq, hcan _ heq, fun c => ?_⟩
    rw [Value.lookups_of_plain hnull harray]
    simp [Interval.point_covers]

lemma equalityBounds_refused {v : Value} (index : Index) {hashed : Bool} (h : (hashed && v.isArray) = true) :
    ∃ refusal, equalityBounds v index hashed = .error refusal := by
  obtain ⟨rfl, harray⟩ := Bool.and_eq_true_iff.1 h
  obtain ⟨items, rfl⟩ := Value.exists_array_of_isArray harray
  exact ⟨_, rfl⟩

/-! ## The bounds of a whole list -/

namespace Tightness

lemma foldl_combine_le_iff {t u : Tightness} {bounds : List OperandBounds} :
    bounds.foldl (fun t r => t.combine r.2) t ≤ u ↔ t ≤ u ∧ ∀ r ∈ bounds, r.2 ≤ u := by
  induction bounds generalizing t with
  | nil => simp
  | cons r rest ih => rw [List.foldl_cons, ih, combine_le_iff, List.forall_mem_cons, and_assoc]

end Tightness

section Literals

variable {hashed : Bool} {literals : List Value} (index : Index)

lemma literalBounds_lookups (h : ∀ m ∈ literals, (hashed && m.isArray) = false) :
    ∃ points tightness, literalBounds index hashed literals = .ok (points, tightness) ∧
      (∀ i ∈ points, i.WellFormed) ∧
      (∀ c, Covered points c ↔ ∃ m ∈ literals, ∃ k ∈ m.lookups index hashed, c = .below k) ∧
      ∀ t, tightness ≤ t ↔ ∀ m ∈ literals, m.lookupTightness index hashed ≤ t := by
  induction literals with
  | nil => exact ⟨[], .exact, rfl, by simp, by simp, by simp [Tightness.exact_le]⟩
  | cons m rest ih =>
    obtain ⟨hm, hrest⟩ := List.forall_mem_cons.1 h
    obtain ⟨points, hpoints, hcan, hc⟩ := equalityBounds_lookups index hm
    obtain ⟨others, tightness, hothers, hwf, hc', ht⟩ := ih hrest
    refine ⟨points ++ others, (m.lookupTightness index hashed).combine tightness, ?_, ?_, fun c => ?_, fun t => ?_⟩
    · rw [literalBounds, hpoints, hothers]
      rfl
    · exact List.forall_mem_append.2 ⟨hcan.wellFormed, hwf⟩
    · rw [covered_append, hc, hc', List.exists_mem_cons_iff]
    · rw [Tightness.combine_le_iff, ht, List.forall_mem_cons]

lemma literalBounds_refused {m : Value} (hm : m ∈ literals) (h : (hashed && m.isArray) = true) :
    ∃ refusal, literalBounds index hashed literals = .error refusal := by
  obtain ⟨refusal, hrefusal⟩ := equalityBounds_refused index h
  induction literals with
  | nil => cases hm
  | cons other rest ih =>
    rw [literalBounds]
    cases hother : equalityBounds other index hashed with
    | error refusal' => exact ⟨refusal', rfl⟩
    | ok bounds =>
      have hrest : m ∈ rest := by
        refine (List.mem_cons.1 hm).resolve_left ?_
        rintro rfl
        cases hrefusal.symm.trans hother
      obtain ⟨refusal', hrefusal'⟩ := ih hrest
      rw [hrefusal']
      exact ⟨refusal', rfl⟩

end Literals

namespace InList

variable {index : Index} {hashed : Bool} {members : InList}

/-- Some member looks the key up. -/
def LooksUp (members : InList) (index : Index) (hashed : Bool) (key : Value) : Prop :=
  (∃ m ∈ members.literals, ∃ k ∈ m.lookups index hashed, (key == k) = true) ∨
    ∃ r ∈ members.regexes, Held (r.bounds index.collator.isSome).1 key

/-- What the members cover together. -/
def Covers (members : InList) (index : Index) (hashed : Bool) (c : Cut) : Prop :=
  (∃ m ∈ members.literals, ∃ k ∈ m.lookups index hashed, c = .below k) ∨
    ∃ r ∈ members.regexes, Covered (r.bounds index.collator.isSome).1 c

lemma looksUp_iff {key : Value} : members.LooksUp index hashed key ↔ members.Covers index hashed (.below key) := by
  have hcut (k : Value) : Cut.below key = .below k ↔ (key == k) = true := by
    rw [← Value.toClass_eq]
    exact ⟨fun h => congrArg Prod.fst h, fun h => congrArg (fun a => toLex (a, false)) h⟩
  simp only [LooksUp, Covers, hcut, held_iff]

/-- No member is looser. -/
def AreWithin (members : InList) (index : Index) (hashed : Bool) (t : Tightness) : Prop :=
  (∀ m ∈ members.literals, m.lookupTightness index hashed ≤ t) ∧
    ∀ r ∈ members.regexes, (r.bounds index.collator.isSome).2 ≤ t

/-- The key added for an empty array covers nothing new: the array is looked up by it. -/
lemma emptyArray_covered {c : Cut}
    (h : Covered (if members.hasEmptyArray then [Interval.undefinedPoint false] else []) c) :
    ∃ m ∈ members.literals, ∃ k ∈ m.lookups index hashed, c = .below k := by
  split_ifs at h with hempty
  · rw [covered_cons, or_iff_left covered_nil, Interval.undefinedPoint, Interval.point_covers] at h
    exact ⟨_, hasEmptyArray_iff.1 hempty, .undefined, by simp [Value.lookups, firstKey], h⟩
  · exact absurd h covered_nil

/-- That a list with null or an empty array is inexact makes it no looser, since these members are. -/
lemma loosened_le_iff {tightness t : Tightness}
    (h : tightness ≤ t → ∀ m ∈ members.literals, m.lookupTightness index hashed ≤ t) :
    (if members.hasNull || members.hasEmptyArray then .inexactFetch else tightness) ≤ t ↔ tightness ≤ t := by
  split_ifs with hspecial
  · refine ⟨fun ht => Tightness.le_trans (Tightness.le_inexactFetch _) ht, fun ht => ?_⟩
    obtain ⟨m, hm, hfetch⟩ : ∃ m ∈ members.literals, m.lookupTightness index hashed = .inexactFetch := by
      rcases Bool.or_eq_true_iff.1 hspecial with hnull | hempty
      · obtain ⟨m, hm, hnull⟩ := List.any_eq_true.1 hnull
        exact ⟨m, hm, by simp [Value.lookupTightness, hnull]⟩
      · exact ⟨_, hasEmptyArray_iff.1 hempty, by simp [Value.lookupTightness, Value.isArray]⟩
    rw [← hfetch]
    exact h ht m hm
  · exact Iff.rfl

/-- A list without an array on a hashed field has bounds.  They cover what its members do, and are as loose as the
loosest of these. -/
lemma bounds_lookups (index : Index) (h : ∀ m ∈ members.literals, (hashed && m.isArray) = false) :
    ∃ list tightness, membershipBounds members index hashed = .ok (list, tightness) ∧ Canonical list ∧
      (∀ c, Covered list c ↔ members.Covers index hashed c) ∧
      ∀ t, tightness ≤ t ↔ members.AreWithin index hashed t := by
  obtain ⟨points, tightness, hpoints, hwf, hc, ht⟩ := literalBounds_lookups index h
  obtain ⟨list, hlist, hcan, hlc⟩ := unionOf_spec (memberIntervals_wellFormed members index.collator.isSome hwf)
  refine ⟨list, if members.hasNull || members.hasEmptyArray then .inexactFetch
    else (members.regexes.map (·.bounds index.collator.isSome)).foldl (fun t r => t.combine r.2) tightness,
    ?_, hcan, fun c => ?_, fun t => ?_⟩
  · rw [membershipBounds, hpoints]
    show (unionOf _ >>= _) = _
    rw [hlist]
    rfl
  · have hregexes : Covered ((members.regexes.map (·.bounds index.collator.isSome)).flatMap Prod.fst) c ↔
        ∃ r ∈ members.regexes, Covered (r.bounds index.collator.isSome).1 c := by
      simp only [Covered, List.mem_flatMap, List.mem_map]
      grind
    rw [hlc, covered_append, covered_append, hc, hregexes]
    exact or_iff_left_of_imp fun hempty => .inl (emptyArray_covered hempty)
  · have hloosest :
        (members.regexes.map (·.bounds index.collator.isSome)).foldl (fun t r => t.combine r.2) tightness ≤ t ↔
          members.AreWithin index hashed t := by
      rw [Tightness.foldl_combine_le_iff, ht, List.forall_mem_map]
      rfl
    exact (loosened_le_iff fun hle => (hloosest.1 hle).1).trans hloosest

end InList

/-! ## Literals that were dropped -/

namespace Value

lemma dropRepeats_go_sublist (kept : Value) (values : List Value) :
    (dropRepeats.go kept values).Sublist values := by
  induction values generalizing kept with
  | nil => exact .slnil
  | cons v rest ih =>
    rw [dropRepeats.go]
    split_ifs
    · exact (ih kept).cons v
    · exact (ih v).cons_cons v

lemma dropRepeats_sublist : ∀ values : List Value, (dropRepeats values).Sublist values
  | [] => .slnil
  | v :: rest => (dropRepeats_go_sublist v rest).cons_cons v

lemma exists_mem_dropRepeats_go {v kept : Value} {values : List Value} (hv : v ∈ values) :
    ∃ m ∈ kept :: dropRepeats.go kept values, (m == v) = true := by
  induction values generalizing kept with
  | nil => cases hv
  | cons w rest ih =>
    rw [dropRepeats.go]
    split_ifs with heq
    · rcases List.mem_cons.1 hv with rfl | hv
      · exact ⟨kept, List.mem_cons_self, heq⟩
      · exact ih hv
    · rcases List.mem_cons.1 hv with rfl | hv
      · exact ⟨v, List.mem_cons_of_mem _ List.mem_cons_self, toClass_eq.1 rfl⟩
      · obtain ⟨m, hm, hmv⟩ : ∃ m ∈ w :: dropRepeats.go w rest, (m == v) = true := ih hv
        exact ⟨m, List.mem_cons_of_mem _ hm, hmv⟩

/-- Whatever is dropped equals something kept. -/
lemma exists_mem_dropRepeats {v : Value} {values : List Value} (hv : v ∈ values) :
    ∃ m ∈ dropRepeats values, (m == v) = true := by
  cases values with
  | nil => cases hv
  | cons w rest =>
    rcases List.mem_cons.1 hv with rfl | hv
    · exact ⟨v, List.mem_cons_self, toClass_eq.1 rfl⟩
    · exact exists_mem_dropRepeats_go hv

/-- Without a collation, or without texts, a literal is looked up as tightly as one that equals it. -/
lemma lookupTightness_le {v m : Value} {index : Index} {hashed : Bool} (h : (m == v) = true)
    (hplain : index.collator = none ∨ v.isCollatable = false) :
    v.lookupTightness index hashed ≤ m.lookupTightness index hashed := by
  have hrank : m.rank = v.rank := rank_eq_of_beq h
  have htext : (index.collator.isSome && v.isCollatable) = false := by
    rcases hplain with hnone | hv
    · rw [hnone]
      rfl
    · rw [hv, Bool.and_false]
  unfold lookupTightness
  rw [htext, Bool.or_false, isNull_eq_of_rank_eq hrank, isArray_eq_of_rank_eq hrank]
  by_cases hv : (v.isNull || v.isArray || hashed) = true
  · rw [hv, Bool.true_or]
    exact Nat.le_refl _
  · rw [if_neg hv]
    exact Tightness.exact_le _

end Value

namespace InList

variable {values : List Value} {v m : Value}

lemma mem_literals_ofValues (h : m ∈ (ofValues values).literals) : m ∈ values ∧ regex? m = none := by
  have h : m ∈ Value.sort (values.filter fun v => (regex? v).isNone) := (Value.dropRepeats_sublist _).subset h
  rw [Value.sort, Sorting.mem_sort, List.mem_filter] at h
  exact ⟨h.1, Option.isNone_iff_eq_none.1 h.2⟩

/-- Every literal is kept or equals one that is. -/
lemma exists_mem_literals_ofValues (hv : v ∈ values) (hliteral : regex? v = none) :
    ∃ m ∈ (ofValues values).literals, (m == v) = true := by
  apply Value.exists_mem_dropRepeats
  rw [Value.sort, Sorting.mem_sort, List.mem_filter]
  exact ⟨hv, by rw [hliteral]; rfl⟩

lemma mem_regexes_ofValues {r : RegexTerm} : r ∈ (ofValues values).regexes ↔ ∃ v ∈ values, regex? v = some r :=
  List.mem_filterMap

lemma regexes_isEmpty_iff : (ofValues values).regexes.isEmpty = true ↔ ∀ v ∈ values, regex? v = none := by
  rw [List.isEmpty_iff]
  exact List.filterMap_eq_nil_iff

end InList

/-! ## Members on their own -/

/-- The predicate that a member of a list stands for. -/
def Predicate.ofMember (path : String) (v : Value) : Predicate :=
  match InList.regex? v with
  | some term => .regex path term
  | none => .comparison path .eq v

/-- The predicate is neither a negation nor about the elements of an array. -/
def Predicate.IsLeaf : Predicate → Prop
  | .elemMatch .. | .not _ => False
  | _ => True

namespace Value

/-- What a hashed field cannot be asked for. -/
def hashRefuses (hashed : Bool) (v : Value) : Bool := hashed && (v.isArray || (InList.regex? v).isSome)

lemma hashRefuses_eq_false {hashed : Bool} {v : Value} :
    v.hashRefuses hashed = false ↔
      (hashed && v.isArray) = false ∧ (hashed && (InList.regex? v).isSome) = false := by
  rw [hashRefuses, Bool.and_or_distrib_left, Bool.or_eq_false_iff]

/-- What the bounds of a member on its own cover. -/
def MemberCovers (index : Index) (hashed : Bool) (v : Value) (c : Cut) : Prop :=
  match InList.regex? v with
  | some term => Covered (term.bounds index.collator.isSome).1 c
  | none => ∃ k ∈ v.lookups index hashed, c = .below k

def memberTightness (index : Index) (hashed : Bool) (v : Value) : Tightness :=
  match InList.regex? v with
  | some term => (term.bounds index.collator.isSome).2
  | none => v.lookupTightness index hashed

end Value

namespace Builder

variable {b : Builder} {field : IndexedField} {index : Index} {path : String} {v : Value} {values : List Value}

lemma evaluated_ok (p : Predicate) (name : String) {x : Except Refusal OperandBounds} {o : OperandBounds}
    (h : x = .ok o) : (evaluated p name x).result = .ok (⟨name, o.1⟩, o.2) := by
  rw [h]
  rfl

lemma evaluated_refused (p : Predicate) (name : String) {x : Except Refusal OperandBounds} {refusal : Refusal}
    (h : x = .error refusal) : (evaluated p name x).result = .error refusal := by
  rw [h]
  rfl

section Bounded

variable (hkind : index.kind ≠ .wildcard)

include hkind

lemma bounds_leaf (p : Predicate) (hleaf : p.IsLeaf) (h : (field.option.isHashed && !p.isHashable) = false) :
    (b.bounds p field index).result = (b.leaf p field index).result := by
  rw [bounds_result hkind]
  unfold derive
  rw [h, if_neg Bool.false_ne_true]
  cases p <;> first | rfl | exact hleaf.elim

lemma bounds_not_hashable (p : Predicate) (h : (field.option.isHashed && !p.isHashable) = true) :
    ∃ refusal, (b.bounds p field index).result = .error refusal := by
  rw [bounds_result hkind]
  unfold derive
  rw [if_pos h]
  exact ⟨_, rfl⟩

variable (path : String)

/-- A member that a hashed field can be asked for has bounds of its own. -/
lemma member_spec (h : v.hashRefuses field.option.isHashed = false) :
    ∃ own, (b.bounds (.ofMember path v) field index).result =
        .ok (own, v.memberTightness index field.option.isHashed) ∧
      CanonicalFor field.name own ∧
      ∀ c, Covered own.intervals c ↔ v.MemberCovers index field.option.isHashed c := by
  obtain ⟨harray, hregex⟩ := Value.hashRefuses_eq_false.1 h
  unfold Value.MemberCovers Value.memberTightness Predicate.ofMember
  cases hmember : InList.regex? v with
  | some term =>
    have hhash : field.option.isHashed = false := by simpa [hmember] using hregex
    refine ⟨⟨field.name, (term.bounds index.collator.isSome).1⟩, ?_, ⟨regexBounds_canonical _ _, rfl⟩,
      fun c => Iff.rfl⟩
    exact bounds_leaf hkind (.regex path term) trivial (by rw [hhash]; rfl)
  | none =>
    obtain ⟨points, hpoints, hcan, hc⟩ := equalityBounds_lookups index harray
    refine ⟨⟨field.name, points⟩, ?_, ⟨hcan, rfl⟩, hc⟩
    exact (bounds_leaf hkind (.comparison path .eq v) trivial (Bool.and_false _)).trans (evaluated_ok _ _ hpoints)

lemma member_refused (h : v.hashRefuses field.option.isHashed = true) :
    ∃ refusal, (b.bounds (.ofMember path v) field index).result = .error refusal := by
  obtain ⟨hhash, hv⟩ := Bool.and_eq_true_iff.1 h
  unfold Predicate.ofMember
  cases hmember : InList.regex? v with
  | some term => exact bounds_not_hashable hkind (.regex path term) (by rw [hhash]; rfl)
  | none =>
    have harray : (field.option.isHashed && v.isArray) = true := by simpa [hmember, hhash] using hv
    obtain ⟨refusal, hrefusal⟩ := equalityBounds_refused index harray
    refine ⟨refusal, ?_⟩
    exact (bounds_leaf hkind (.comparison path .eq v) trivial (Bool.and_false _)).trans
      (evaluated_refused _ _ hrefusal)

/-- Without such a member a list has bounds, those of the literals that are kept and of the regular expressions. -/
lemma membership_spec (h : ∀ v ∈ values, v.hashRefuses field.option.isHashed = false) :
    let members := InList.ofValues values
    let hashed := field.option.isHashed
    ∃ list tightness, (b.bounds (.isIn path members) field index).result = .ok (list, tightness) ∧
      CanonicalFor field.name list ∧
      (∀ c, Covered list.intervals c ↔ members.Covers index hashed c) ∧
      ∀ t, tightness ≤ t ↔ members.AreWithin index hashed t := by
  intro members hashed
  have hparts : ∀ v ∈ values, (hashed && v.isArray) = false ∧ (hashed && (InList.regex? v).isSome) = false :=
    fun v hv => Value.hashRefuses_eq_false.1 (h v hv)
  have hregexes : (hashed && !members.regexes.isEmpty) = false := by
    by_cases hhash : hashed = true
    · have hnone : members.regexes.isEmpty = true :=
        InList.regexes_isEmpty_iff.2 fun v hv => by simpa [hhash] using (hparts v hv).2
      rw [hnone, Bool.not_true, Bool.and_false]
    · rw [Bool.eq_false_of_not_eq_true hhash, Bool.false_and]
  obtain ⟨list, tightness, hlist, hcan, hc, ht⟩ := InList.bounds_lookups index
    fun m hm => (hparts m (InList.mem_literals_ofValues hm).1).1
  refine ⟨⟨field.name, list⟩, tightness, ?_, ⟨hcan, rfl⟩, hc, ht⟩
  exact (bounds_leaf hkind (.isIn path members) trivial hregexes).trans (evaluated_ok _ _ hlist)

lemma membership_refused (hv : v ∈ values) (h : v.hashRefuses field.option.isHashed = true) :
    ∃ refusal, (b.bounds (.isIn path (.ofValues values)) field index).result = .error refusal := by
  obtain ⟨hhash, hrefused⟩ := Bool.and_eq_true_iff.1 h
  by_cases hregexes : (InList.ofValues values).regexes.isEmpty = true
  · have hliteral : InList.regex? v = none := InList.regexes_isEmpty_iff.1 hregexes v hv
    obtain ⟨m, hm, hmv⟩ := InList.exists_mem_literals_ofValues hv hliteral
    have harray : m.isArray = true := by
      rw [Value.isArray_eq_of_rank_eq (Value.rank_eq_of_beq hmv)]
      simpa [hliteral] using hrefused
    obtain ⟨refusal, hrefusal⟩ := literalBounds_refused index hm
      (show (field.option.isHashed && m.isArray) = true by rw [hhash, harray]; rfl)
    have hhashable : (field.option.isHashed && !(Predicate.isIn path (.ofValues values)).isHashable) = false := by
      simp [Predicate.isHashable, hregexes]
    have hbounds : membershipBounds (.ofValues values) index field.option.isHashed = .error refusal := by
      rw [membershipBounds, hrefusal]
      rfl
    refine ⟨refusal, ?_⟩
    exact (bounds_leaf hkind (.isIn path (.ofValues values)) trivial hhashable).trans
      (evaluated_refused _ _ hbounds)
  · refine bounds_not_hashable hkind _ ?_
    simpa [hhash, Predicate.isHashable] using hregexes

end Bounded

/-- A list has bounds exactly if each of its members has bounds on its own. -/
lemma membership_isOk_iff (hkind : index.kind ≠ .wildcard) (path : String) (values : List Value) :
    (b.bounds (.isIn path (.ofValues values)) field index).result.isOk = true ↔
      ∀ v ∈ values, (b.bounds (.ofMember path v) field index).result.isOk = true := by
  by_cases h : ∀ v ∈ values, v.hashRefuses field.option.isHashed = false
  · obtain ⟨list, tightness, hlist, -⟩ := membership_spec (b := b) hkind path h
    refine iff_of_true (by rw [hlist]; rfl) fun v hv => ?_
    obtain ⟨own, hown, -⟩ := member_spec (b := b) hkind path (h v hv)
    rw [hown]
    rfl
  · push Not at h
    obtain ⟨v, hv, hrefuses⟩ := h
    rw [ne_eq, Bool.not_eq_false] at hrefuses
    obtain ⟨refusal, hlist⟩ := membership_refused (b := b) hkind path hv hrefuses
    obtain ⟨refusal', hown⟩ := member_refused (b := b) hkind path hrefuses
    refine iff_of_false (by rw [hlist]; exact Bool.noConfusion) fun hall => ?_
    have hok := hall v hv
    rw [hown] at hok
    exact Bool.noConfusion hok

/-! ## The members put together -/

/-- Members with bounds, joined to an empty list in whatever order, cover what each of them does. -/
lemma union_of_members (hkind : index.kind ≠ .wildcard) (path : String)
    (h : ∀ v ∈ values, v.hashRefuses field.option.isHashed = false) {order : List Value}
    (horder : order.Perm values) :
    ∃ joined,
      b.accumulate .widen field index (⟨field.name, []⟩, .exact) (order.map (.ofMember path)) = .ok joined ∧
      CanonicalFor field.name joined.1 ∧
      (∀ c, Covered joined.1.intervals c ↔ ∃ v ∈ values, v.MemberCovers index field.option.isHashed c) ∧
      (∀ t, joined.2 ≤ t ↔ ∀ v ∈ values, v.memberTightness index field.option.isHashed ≤ t) ∧
      ∀ t, joined.2 ≤ t ↔ ∀ v ∈ values, b.Finds field index (fun own => own.2 ≤ t) (.ofMember path v) := by
  have hmembers : ∀ p ∈ order.map (Predicate.ofMember path),
      b.Finds field index (fun own => CanonicalFor field.name own.1) p := by
    rw [List.forall_mem_map]
    intro v hv
    obtain ⟨own, hown, hcan, -⟩ := member_spec (b := b) hkind path (h v (horder.mem_iff.1 hv))
    exact ⟨_, hown, hcan⟩
  obtain ⟨joined, hjoined, hcan, hc, ht⟩ := accumulate_spec .widen hmembers
    (⟨field.name, []⟩, .exact) ⟨Canonical.nil, rfl⟩
  have hfinds (t : Tightness) :
      joined.2 ≤ t ↔ ∀ v ∈ values, b.Finds field index (fun own => own.2 ≤ t) (.ofMember path v) := by
    rw [ht, and_iff_right (Tightness.exact_le t), List.forall_mem_map]
    simp only [horder.mem_iff]
  refine ⟨joined, hjoined, hcan, fun c => ?_, fun t => ?_, hfinds⟩
  · rw [hc]
    simp only [Joining.Joins, Joining.Jointly, covered_nil, false_or, List.mem_map, exists_exists_and_eq_and,
      horder.mem_iff]
    refine exists_congr fun v => and_congr_right fun hv => ?_
    obtain ⟨own, hown, -, hcovers⟩ := member_spec (b := b) hkind path (h v hv)
    exact (finds_iff hown).trans (hcovers c)
  · rw [hfinds]
    refine forall₂_congr fun v hv => ?_
    obtain ⟨own, hown, -⟩ := member_spec (b := b) hkind path (h v hv)
    exact finds_iff hown

end Builder

namespace InList

variable {index : Index} {hashed : Bool} {values : List Value}

/-- What the kept members cover, every member covers. -/
lemma memberCovers_of_covers {c : Cut} (h : (ofValues values).Covers index hashed c) :
    ∃ v ∈ values, v.MemberCovers index hashed c := by
  rcases h with ⟨m, hm, hk⟩ | ⟨r, hr, hc⟩
  · obtain ⟨hmem, hliteral⟩ := mem_literals_ofValues hm
    refine ⟨m, hmem, ?_⟩
    rw [Value.MemberCovers, hliteral]
    exact hk
  · obtain ⟨v, hv, hregex⟩ := mem_regexes_ofValues.1 hr
    refine ⟨v, hv, ?_⟩
    rw [Value.MemberCovers, hregex]
    exact hc

/-- The kept members cover what all members do exactly if they look up every key that some literal does. -/
lemma covers_of_memberCovers_iff :
    (∀ c, (∃ v ∈ values, v.MemberCovers index hashed c) → (ofValues values).Covers index hashed c) ↔
      ∀ v ∈ values, regex? v = none →
        ∀ k ∈ v.lookups index hashed, (ofValues values).LooksUp index hashed k := by
  constructor
  · intro h v hv hliteral k hk
    refine looksUp_iff.2 (h _ ⟨v, hv, ?_⟩)
    rw [Value.MemberCovers, hliteral]
    exact ⟨k, hk, rfl⟩
  · rintro h c ⟨v, hv, hc⟩
    rw [Value.MemberCovers] at hc
    cases hmember : regex? v with
    | some r =>
      rw [hmember] at hc
      exact .inr ⟨r, mem_regexes_ofValues.2 ⟨v, hv, hmember⟩, hc⟩
    | none =>
      rw [hmember] at hc
      obtain ⟨k, hk, rfl⟩ := hc
      exact looksUp_iff.1 (h v hv hmember k hk)

/-- Where equal values have equal keys, no key of a dropped literal is missed. -/
lemma looksUp_of_keys_congr
    (h : ∀ v ∈ values, ∀ w ∈ values, (v == w) = true →
      (v.indexKey index.collator == w.indexKey index.collator) = true) :
    ∀ v ∈ values, regex? v = none →
      ∀ k ∈ v.lookups index hashed, (ofValues values).LooksUp index hashed k := by
  intro v hv hliteral k hk
  obtain ⟨m, hm, hmv⟩ := exists_mem_literals_ofValues hv hliteral
  have hvm : (v == m) = true := Value.toClass_eq.1 (Value.toClass_eq.2 hmv).symm
  exact .inl ⟨m, hm, Value.lookups_congr (h v hv m (mem_literals_ofValues hm).1 hvm) k hk⟩

/-- The kept members are as loose as all of them, unless only a dropped text was looser. -/
lemma tightness_eq_iff {tightness tightness' : Tightness}
    (hkept : ∀ t, tightness ≤ t ↔ (ofValues values).AreWithin index hashed t)
    (hall : ∀ t, tightness' ≤ t ↔ ∀ v ∈ values, v.memberTightness index hashed ≤ t) :
    tightness = tightness' ↔
      tightness = .inexactFetch ∨ index.collator = none ∨ ∀ v ∈ values, v.isCollatable = false := by
  have hle : tightness ≤ tightness' := by
    have hmembers := (hall tightness').1 (Nat.le_refl _)
    refine (hkept _).2 ⟨fun m hm => ?_, fun r hr => ?_⟩
    · obtain ⟨hmem, hliteral⟩ := mem_literals_ofValues hm
      have hm := hmembers m hmem
      rwa [Value.memberTightness, hliteral] at hm
    · obtain ⟨v, hv, hregex⟩ := mem_regexes_ofValues.1 hr
      have hv := hmembers v hv
      rwa [Value.memberTightness, hregex] at hv
  constructor
  · rintro rfl
    by_contra hother
    push Not at hother
    obtain ⟨hfetch, hcollated, v, hv, htext⟩ := hother
    have hloose : v.memberTightness index hashed = .inexactFetch := by
      cases v with
      | regex pattern flags => exact absurd rfl htext
      | _ => simp [Value.memberTightness, regex?, Value.lookupTightness, htext, Option.isSome_iff_ne_none.2 hcollated]
    have hbelow := (hall tightness).1 (Nat.le_refl _) v hv
    rw [hloose] at hbelow
    exact hfetch (Tightness.le_antisymm (Tightness.le_inexactFetch _) hbelow)
  · intro hplain
    rcases hplain with rfl | hplain
    · exact Tightness.le_antisymm hle (Tightness.le_inexactFetch _)
    obtain ⟨hliterals, hregexes⟩ := (hkept tightness).1 (Nat.le_refl _)
    refine Tightness.le_antisymm hle ((hall _).2 fun v hv => ?_)
    rw [Value.memberTightness]
    cases hmember : regex? v with
    | some r => exact hregexes r (mem_regexes_ofValues.2 ⟨v, hv, hmember⟩)
    | none =>
      obtain ⟨m, hm, hmv⟩ := exists_mem_literals_ofValues hv hmember
      exact Tightness.le_trans (Value.lookupTightness_le hmv (hplain.imp_right fun h => h v hv)) (hliterals m hm)

end InList

namespace Builder

variable {b : Builder} {field : IndexedField} {index : Index}

/-- **Members one by one.**  A membership list has bounds exactly if each of its members has bounds on its own.
These then join an empty list in every order, and the outcome covers what the bounds of the list cover.  It covers
no more exactly if the members that are kept look up every key of the literals, as they do where equal values have
equal keys; and it is no looser unless a text was dropped for a symbol. -/
theorem membership_eq_union_iff (hkind : index.kind ≠ .wildcard) (path : String) {values order : List Value}
    (horder : order.Perm values) :
    let members := InList.ofValues values
    let hashed := field.option.isHashed
    let whole := (b.bounds (.isIn path members) field index).result
    (whole.isOk = true ↔ ∀ v ∈ values, (b.bounds (.ofMember path v) field index).result.isOk = true) ∧
      ∀ list tightness, whole = .ok (list, tightness) →
        ∃ list' tightness',
          b.accumulate .widen field index (⟨field.name, []⟩, .exact) (order.map (.ofMember path)) =
            .ok (list', tightness') ∧
          (∀ t, tightness' ≤ t ↔ ∀ v ∈ values, b.Finds field index (fun own => own.2 ≤ t) (.ofMember path v)) ∧
          (∀ v, list.Holds v → list'.Holds v) ∧
          ((list == list') = true ↔ ∀ v ∈ values, InList.regex? v = none →
            ∀ k ∈ v.lookups index hashed, members.LooksUp index hashed k) ∧
          ((∀ v ∈ values, ∀ w ∈ values, (v == w) = true →
            (v.indexKey index.collator == w.indexKey index.collator) = true) → (list == list') = true) ∧
          (tightness = tightness' ↔
            tightness = .inexactFetch ∨ index.collator = none ∨ ∀ v ∈ values, v.isCollatable = false) := by
  intro members hashed whole
  refine ⟨membership_isOk_iff hkind path values, fun list tightness hwhole => ?_⟩
  have hrefuses : ∀ v ∈ values, v.hashRefuses hashed = false := by
    intro v hv
    by_contra hrefuses
    obtain ⟨refusal, hrefusal⟩ := membership_refused (b := b) hkind path hv (Bool.eq_true_of_not_eq_false hrefuses)
    cases hwhole.symm.trans hrefusal
  obtain ⟨list₁, tightness₁, hlist, hcan, hc, ht⟩ := membership_spec (b := b) hkind path hrefuses
  obtain ⟨rfl, rfl⟩ := Prod.mk.inj (Except.ok.inj (hwhole.symm.trans hlist))
  obtain ⟨⟨list', tightness'⟩, hjoined, hcan', hc', ht', hfinds⟩ :=
    union_of_members (b := b) hkind path hrefuses horder
  have hlists : (list == list') = true ↔ ∀ v ∈ values, InList.regex? v = none →
      ∀ k ∈ v.lookups index hashed, members.LooksUp index hashed k := by
    rw [← InList.covers_of_memberCovers_iff]
    constructor
    · intro heq c hmember
      rw [← hc, covered_congr (intervals_beq heq), hc']
      exact hmember
    · intro hkept
      refine beq_of_covered (hcan.2.trans hcan'.2.symm) hcan.1 hcan'.1 fun c => ?_
      rw [hc, hc']
      exact ⟨InList.memberCovers_of_covers, hkept c⟩
  refine ⟨list', tightness', hjoined, hfinds, fun v hv => ?_, hlists, fun hkeys => ?_,
    InList.tightness_eq_iff ht ht'⟩
  · rw [Holds, held_iff] at hv ⊢
    rw [hc']
    exact InList.memberCovers_of_covers ((hc _).1 hv)
  · exact hlists.2 (InList.looksUp_of_keys_congr hkeys)

/-- On an index sorted by characters read backwards, a symbol and the equal text have keys of their own.  The list of
both looks up the symbol alone, and takes its bounds for exact. -/
theorem membership_of_symbol_and_text_loses :
    let b := Builder.ofSettings {}
    let field : IndexedField := ⟨"a", .ascending⟩
    let index : Index :=
      { Index.ofPattern "a_1" ⟨[field]⟩ with collator := some CollatorKind.reversed.collator }
    let values : List Value := [.symbol "ab", .string "ab"]
    let list : IntervalList := ⟨"a", [.point (.symbol "ab")]⟩
    index.kind ≠ .wildcard ∧ values.reverse.Perm values ∧
      (b.bounds (.isIn "a" (.ofValues values)) field index).result = .ok (list, .exact) ∧
      ∃ list' tightness',
        b.accumulate .widen field index (⟨"a", []⟩, .exact) (values.reverse.map (.ofMember "a")) =
          .ok (list', tightness') ∧
        ¬(list == list') = true ∧ tightness' ≠ .exact := by
  intro b field index values list
  have hkind : index.kind ≠ .wildcard := by decide
  have horder : values.reverse.Perm values := List.reverse_perm values
  have hwhole : (b.bounds (.isIn "a" (.ofValues values)) field index).result = .ok (list, .exact) := by
    subst b field index values list
    rfl
  obtain ⟨-, hunion⟩ := @membership_eq_union_iff b field index hkind "a" _ _ horder
  obtain ⟨list', tightness', hjoined, -, -, hlists, -, htightness⟩ := hunion list .exact hwhole
  refine ⟨hkind, horder, hwhole, list', tightness', hjoined, fun heq => ?_, fun hexact => ?_⟩
  · -- no kept member looks up the text read backwards
    have hkey : Value.lookups index field.option.isHashed (.string "ab") = [.string "ba"] := rfl
    have hlookup := hlists.1 heq (.string "ab") (by simp [values]) rfl (.string "ba") (by rw [hkey]; exact .head _)
    rcases hlookup with ⟨m, hm, k, hk, hequal⟩ | ⟨r, hr, -⟩
    · obtain rfl := List.mem_singleton.1 (show m ∈ [Value.symbol "ab"] from hm)
      obtain rfl := List.mem_singleton.1 (show k ∈ [Value.symbol "ab"] from hk)
      exact absurd hequal (by decide)
    · cases hr
  · rcases htightness.1 hexact.symm with h | h | h
    · cases h
    · cases h
    · exact absurd (h (.string "ab") (by simp [values])) (by decide)

end Builder

end ScanBounds

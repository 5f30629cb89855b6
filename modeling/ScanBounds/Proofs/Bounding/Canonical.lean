import ScanBounds.Bounding.Builder
import ScanBounds.Proofs.Bounding.Operand

/-!
# The bounds of every predicate are canonical

A derivation of bounds follows the predicate down to its leaves, whose bounds are canonical.  On the way up
a list is complemented or intersected with others for the same field, which keeps it canonical, and an
intersection of canonical lists always exists.  So the one failure in which intervals are at fault is a
refused complement.  Two parts of a builder come from outside: what covers geo regions must give well-formed
intervals, and what adjusts the result for wildcard indexes must leave the list as it is.
-/

namespace ScanBounds

open IntervalList

/-! ## What is asked of the parts from outside -/

/-- Well-formed intervals, or a refusal of what is not supported. -/
def CoversSoundly : Except Fault (List Interval) → Prop
  | .ok intervals => ∀ i ∈ intervals, i.WellFormed
  | .error fault => fault.kind = .unsupported

structure Coverer.Sound (coverer : Coverer) : Prop where
  spherical : ∀ region index, CoversSoundly (coverer.spherical region index)
  planar : ∀ region index cells, CoversSoundly (coverer.planar region index cells)

/-- Whatever the coverer gives is well-formed; it may fail in any way. -/
structure Coverer.GivesWellFormed (coverer : Coverer) : Prop where
  spherical : ∀ region index intervals, coverer.spherical region index = .ok intervals →
    ∀ i ∈ intervals, i.WellFormed
  planar : ∀ region index cells intervals, coverer.planar region index cells = .ok intervals →
    ∀ i ∈ intervals, i.WellFormed

lemma Coverer.Sound.givesWellFormed {coverer : Coverer} (h : coverer.Sound) : coverer.GivesWellFormed := by
  have hok {x : Except Fault (List Interval)} (hx : CoversSoundly x) :
      ∀ l, x = .ok l → ∀ i ∈ l, i.WellFormed := by
    rintro l rfl
    exact hx
  exact ⟨fun _ _ => hok (h.spherical _ _), fun _ _ _ => hok (h.planar _ _ _)⟩

/-- The adjuster has a say on the tightness only. -/
def WildcardAdjuster.KeepsList (adjuster : WildcardAdjuster) : Prop :=
  ∀ index tightness list, (adjuster.adjust index tightness list).1 = list

/-! ## Derivations -/

@[simp] lemma Traced.bind_result {ω ε α β : Type} (x : Traced ω ε α) (f : α → Traced ω ε β) :
    (x >>= f).result = x.result >>= fun a => (f a).result := by
  show (Traced.bind x f).result = _
  unfold Traced.bind
  cases x.result <;> rfl

/-- A canonical list for the field. -/
def CanonicalFor (field : String) (l : IntervalList) : Prop :=
  Canonical l.intervals ∧ l.field = field

namespace Builder

variable {b : Builder} {field : IndexedField} {index : Index}

lemma evaluated_result {p : Predicate} {name : String} {x : Except Refusal OperandBounds} {r : FieldBounds}
    (h : (evaluated p name x).result = .ok r) : x = .ok (r.1.intervals, r.2) := by
  simp only [evaluated, Traced.bind_result] at h
  obtain ⟨o, ho, h⟩ := exists_of_bind_eq_ok h
  obtain rfl := Except.ok.inj h
  exact ho

lemma constant_result {name : String} {x : Except Refusal OperandBounds} {r : FieldBounds}
    (h : (constant name x).result = .ok r) : x = .ok (r.1.intervals, r.2) := by
  simp only [constant, Traced.bind_result] at h
  obtain ⟨o, ho, h⟩ := exists_of_bind_eq_ok h
  obtain rfl := Except.ok.inj h
  exact ho

lemma constant_yields {name : String} {bounds : Except Refusal OperandBounds}
    (h : Yields (fun o => Canonical o.1) bounds) :
    Yields (fun r => CanonicalFor name r.1) (constant name bounds).result := by
  simp only [constant, Traced.bind_result]
  exact h.bind fun o ho => ⟨ho, rfl⟩

lemma evaluated_yields {p : Predicate} {name : String} {bounds : Except Refusal OperandBounds}
    (h : Yields (fun o => Canonical o.1) bounds) :
    Yields (fun r => CanonicalFor name r.1) (evaluated p name bounds).result := by
  simp only [evaluated, Traced.bind_result]
  exact h.bind fun o ho => ⟨ho, rfl⟩

/-- What becomes of an answer of the coverer. -/
def covering (answer : Except Fault (List Interval)) : Except Refusal OperandBounds :=
  (match answer with
    | .ok intervals => .ok intervals
    | .error fault => .error (.covering fault)) >>= fun intervals =>
  unionOf intervals >>= fun merged => .ok (merged, .inexactFetch)

/-- The cells of a geo predicate come from one answer of the coverer, if it is asked at all. -/
lemma cells_cases (p : Predicate) (geometry : Geometry) (bucket : Bool) :
    (∃ refusal, b.cells p geometry bucket field index = .error refusal ∧ refusal.fault.kind ≠ .invariant) ∨
    (∃ region, b.cells p geometry bucket field index = covering (b.coverer.spherical region index)) ∨
    ∃ region, b.cells p geometry bucket field index =
      covering (b.coverer.planar region index b.settings.maxPlanarCells) := by
  unfold cells
  cases bucket <;> cases field.option <;> try exact .inl ⟨_, rfl, nofun⟩
  case false.planar =>
    cases geometry.planar with
    | none => exact .inl ⟨_, rfl, nofun⟩
    | some region => exact .inr (.inr ⟨region, rfl⟩)
  all_goals
    cases geometry.spherical with
    | none => exact .inl ⟨_, rfl, nofun⟩
    | some region => exact .inr (.inl ⟨region, rfl⟩)

lemma covering_canonical {answer : Except Fault (List Interval)} {o : OperandBounds}
    (h : covering answer = .ok o) (hanswer : ∀ l, answer = .ok l → ∀ i ∈ l, i.WellFormed) :
    Canonical o.1 := by
  cases answer with
  | error fault => cases h
  | ok intervals =>
    obtain ⟨m, hm, h⟩ := exists_of_bind_eq_ok (x := unionOf intervals) h
    obtain rfl := Except.ok.inj h
    exact (unionOf_yields (hanswer _ rfl)).of_eq_ok hm

lemma covering_yields {answer : Except Fault (List Interval)} (h : CoversSoundly answer) :
    Yields (fun o => Canonical o.1) (covering answer) := by
  cases answer with
  | ok intervals =>
    refine (unionOf_yields h).bind fun m hm => ?_
    exact hm
  | error fault =>
    intro hkind
    exact absurd (h.symm.trans hkind) (by decide)

lemma cells_canonical (hcover : b.coverer.GivesWellFormed) {p : Predicate} {geometry : Geometry}
    {bucket : Bool} {o : OperandBounds} (h : b.cells p geometry bucket field index = .ok o) :
    Canonical o.1 := by
  rcases cells_cases (b := b) p geometry bucket with
    ⟨refusal, hcells, -⟩ | ⟨region, hcells⟩ | ⟨region, hcells⟩
  · cases hcells.symm.trans h
  · exact covering_canonical (hcells.symm.trans h) (hcover.spherical _ _)
  · exact covering_canonical (hcells.symm.trans h) (hcover.planar _ _ _)

lemma cells_yields (hcover : b.coverer.Sound) (p : Predicate) (geometry : Geometry) (bucket : Bool) :
    Yields (fun o => Canonical o.1) (b.cells p geometry bucket field index) := by
  rcases cells_cases (b := b) p geometry bucket with
    ⟨refusal, hcells, hkind⟩ | ⟨region, hcells⟩ | ⟨region, hcells⟩
  · rw [hcells]
    exact fun hinvariant => absurd hinvariant hkind
  · rw [hcells]
    exact covering_yields (hcover.spherical _ _)
  · rw [hcells]
    exact covering_yields (hcover.planar _ _ _)

lemma leaf_yields (hcover : b.coverer.Sound) (p : Predicate) :
    Yields (fun r => CanonicalFor field.name r.1) (b.leaf p field index).result := by
  cases p with
  | present path => exact constant_yields (Canonical.singleton (wellFormed_allValuesWith _))
  | comparison path op operand => exact evaluated_yields (comparisonBounds_yields _ _ _ _)
  | exprComparison path op operand =>
    simp only [leaf]
    split_ifs
    · exact constant_yields (equalityBounds_yields _ _ _)
    · exact nofun
    · exact constant_yields (exprBounds_canonical _ _ _)
  | regex path term => exact evaluated_yields (regexBounds_canonical _ _)
  | mod path divisor remainder => exact constant_yields (Canonical.singleton (bracket_wellFormed _))
  | hasType path types => exact evaluated_yields (typeBounds_yields _ _)
  | isIn path members => exact evaluated_yields (membershipBounds_yields _ _ _)
  | geo path geometry => exact constant_yields (cells_yields hcover _ _ _)
  | bucketGeo path geometry => exact constant_yields (cells_yields hcover _ _ _)
  | elemMatch path children => exact nofun
  | not child => exact nofun

/-! ## Negations -/

/-- The points for null and undefined, also those of their digests, end below all texts. -/
lemma nullPoints_upper_le (hashed : Bool) :
    ∀ i ∈ [Interval.undefinedPoint hashed, .nullPoint hashed], i.upper ≤ Cut.below (.string "") := by
  have hpoint {v : Value} (h : v.rank < 15) : (Interval.point v).upper ≤ Cut.below (.string "") :=
    Cut.above_le_below.2 (Value.lt_of_rank_lt h)
  simp only [List.forall_mem_cons, List.not_mem_nil, false_imp_iff, implies_true, and_true]
  cases hashed
  · exact ⟨hpoint (by decide), hpoint (by decide)⟩
  · exact ⟨hpoint (show (10 : Int) < 15 by decide), hpoint (show (10 : Int) < 15 by decide)⟩

lemma nulls_concat_canonical {hashed : Bool} {nulls : List Interval} {t : Tightness}
    (h : nullBounds hashed = .ok (nulls, t)) : Canonical (nulls ++ [.emptyArrayPoint]) := by
  obtain ⟨m, hm, hcan, hc⟩ := nullBounds_spec hashed
  rw [hm] at h
  cases h
  have hupper := upper_le_of_covered hcan.wellFormed (fun c => (hc c).1) (nullPoints_upper_le hashed)
  refine hcan.concat (Interval.wellFormed_point _) fun j hj => (hupper j hj).trans_lt ?_
  exact Cut.below_lt_below.2 (Value.lt_of_rank_lt (show (15 : Int) < 25 by decide))

lemma absence?_yields {child : Predicate} {d : Derivation FieldBounds}
    (h : absence? child field index = some d) :
    Yields (fun r => CanonicalFor field.name r.1) d.result := by
  unfold absence? at h
  split at h
  · cases h
    split_ifs
    · exact nofun
    · exact constant_yields (nullBounds_yields _)
  · split_ifs at h
    cases h
    obtain ⟨nulls, hnulls, -, -⟩ := nullBounds_spec field.option.isHashed
    have hrest := (complement_spec (l := ⟨field.name, nulls ++ [.emptyArrayPoint]⟩)
      (nulls_concat_canonical hnulls)).1
    refine constant_yields ?_
    rw [hnulls]
    refine (unionOf_yields hrest.wellFormed).bind fun m hm => ?_
    exact hm
  · cases h

lemma negate_yields (child : Predicate) {bounds : FieldBounds} (h : CanonicalFor field.name bounds.1) :
    Yields (fun r => CanonicalFor field.name r.1) (negate child field index bounds).result := by
  unfold negate
  simp only [Traced.bind_result]
  refine Yields.bind (show Yields (fun _ => True) (Traced.report Step.complement).result from trivial)
    fun _ _ => ?_
  by_cases hfail : ((if child.isEqualityOrInNull then .exact else bounds.2) != .exact &&
      index.collator.isNone) = true
  · rw [if_pos hfail]
    exact fun _ => ⟨_, _, rfl⟩
  · rw [if_neg hfail]
    exact ⟨(complement_spec h.1).1, h.2⟩

/-! ## Whole predicates -/

lemma intersect_yields {l next : IntervalList} {name : String} (hl : CanonicalFor name l)
    (hnext : CanonicalFor name next) :
    Yields (CanonicalFor name) (ofDisorder (next.intersect l)).result := by
  obtain ⟨m, hm, hfield, hcan, -⟩ := intersect_spec hnext.1 hl.1 (hnext.2.trans hl.2.symm)
  rw [hm]
  exact ⟨hcan, hfield.trans hl.2⟩

mutual

theorem derive_yields (hcover : b.coverer.Sound) (p : Predicate) :
    Yields (fun r => CanonicalFor field.name r.1) (b.derive field index p).result := by
  unfold derive
  split_ifs with hhash
  · exact nofun
  · split
    · split
      · exact nofun
      · simp only [Traced.bind_result]
        refine (derive_yields hcover _).bind fun r hr => ?_
        refine (deriveAll_yields hcover hr _).bind fun l hl => ?_
        exact hl
    · split
      · exact absence?_yields (by assumption)
      · simp only [Traced.bind_result]
        refine (derive_yields hcover _).bind fun r hr => ?_
        exact negate_yields _ hr
    · exact leaf_yields hcover p

theorem deriveAll_yields (hcover : b.coverer.Sound) {list : IntervalList}
    (hlist : CanonicalFor field.name list) (ps : List Predicate) :
    Yields (CanonicalFor field.name) (b.deriveAll field index list ps).result := by
  cases ps with
  | nil => exact hlist
  | cons p rest =>
    simp only [deriveAll, Traced.bind_result]
    refine (derive_yields hcover p).bind fun r hr => ?_
    refine (intersect_yields hlist hr).bind fun m hm => ?_
    exact deriveAll_yields hcover hm rest

end

lemma adjusted_fst (hadjust : index.kind = .wildcard → b.adjuster.KeepsList) (bounds : FieldBounds) :
    (b.adjusted index bounds).1 = bounds.1 := by
  unfold adjusted
  split_ifs with hkind
  · exact hadjust hkind index bounds.2 bounds.1
  · rfl

lemma bounds_eq_map (p : Predicate) :
    (b.bounds p field index).result = (b.derive field index p).result.map (b.adjusted index) := by
  unfold bounds
  cases (b.derive field index p).result with
  | error refusal => rfl
  | ok bounds => rfl

lemma bounds_result (hkind : index.kind ≠ .wildcard) (p : Predicate) :
    (b.bounds p field index).result = (b.derive field index p).result := by
  unfold bounds adjusted
  cases (b.derive field index p).result <;> simp [hkind]

lemma bounds_of_derive (hadjust : index.kind = .wildcard → b.adjuster.KeepsList) {p : Predicate}
    {r : FieldBounds} (h : (b.derive field index p).result = .ok r) :
    ∃ tightness, (b.bounds p field index).result = .ok (r.1, tightness) := by
  refine ⟨(b.adjusted index r).2, ?_⟩
  rw [bounds_eq_map, h]
  exact congrArg Except.ok (Prod.ext (adjusted_fst hadjust r) rfl)

lemma bounds_yields (hcover : b.coverer.Sound) (hadjust : b.adjuster.KeepsList) (p : Predicate) :
    Yields (fun r => CanonicalFor field.name r.1) (b.bounds p field index).result := by
  have h : Yields (fun r => CanonicalFor field.name r.1) (b.derive field index p).result :=
    derive_yields hcover p
  unfold bounds
  cases hr : (b.derive field index p).result with
  | error refusal =>
    rw [hr] at h
    exact h
  | ok bounds =>
    rw [hr] at h
    show CanonicalFor field.name (b.adjusted index bounds).1
    rw [adjusted_fst fun _ => hadjust]
    exact h

/-- **Canonical bounds.**  The bounds of a predicate are a canonical list for the field.  When they are
refused because of intervals out of order, a complement of inexact bounds was asked for: unions and
intersections do not fail on the way. -/
theorem bounds_canonical (hcover : b.coverer.Sound) (hadjust : b.adjuster.KeepsList) (p : Predicate)
    (field : IndexedField) (index : Index) :
    (∀ list tightness, (b.bounds p field index).result = .ok (list, tightness) →
      list.isCanonical = true ∧ list.field = field.name) ∧
    (∀ refusal, (b.bounds p field index).result = .error refusal → refusal.fault.kind = .invariant →
      ∃ child complement, refusal = .inexactComplement child complement) ∧
    ∀ disorder, (b.bounds p field index).result ≠ .error (.disorder disorder) := by
  have h : Yields (fun r => CanonicalFor field.name r.1) (b.bounds p field index).result :=
    bounds_yields hcover hadjust p
  refine ⟨fun list tightness hr => ?_, fun refusal hr => ?_, fun disorder hr => ?_⟩ <;> rw [hr] at h
  · exact ⟨isCanonical_iff.2 h.1, h.2⟩
  · exact h
  · obtain ⟨child, complement, heq⟩ := h (by cases disorder <;> rfl)
    cases heq

lemma fullScan_sound : Coverer.fullScan.Sound := by
  have h : CoversSoundly (.ok [.allValues]) := by
    intro i hi
    rw [List.mem_singleton.1 hi]
    exact wellFormed_allValuesWith _
  exact ⟨fun _ _ => h, fun _ _ _ => h⟩

lemma standard_keepsList : WildcardAdjuster.standard.KeepsList := fun _ _ _ => rfl

/-- Covering by all keys and the standard adjuster are as the theorem asks, here for elements that are
above `1` and neither null nor an empty array. -/
theorem bounds_canonical_standard :
    let b := Builder.ofSettings {}
    let p : Predicate :=
      .elemMatch "a" [.comparison "a" .gt (.int 1), .not (.isIn "a" ⟨[.null, .array []], []⟩)]
    let field : IndexedField := ⟨"a", .ascending⟩
    let index := Index.ofPattern "a_1" ⟨[field]⟩
    b.coverer.Sound ∧ b.adjuster.KeepsList ∧
      (∀ list tightness, (b.bounds p field index).result = .ok (list, tightness) →
        list.isCanonical = true ∧ list.field = field.name) ∧
      (∀ refusal, (b.bounds p field index).result = .error refusal → refusal.fault.kind = .invariant →
        ∃ child complement, refusal = .inexactComplement child complement) ∧
      ∀ disorder, (b.bounds p field index).result ≠ .error (.disorder disorder) :=
  ⟨fullScan_sound, standard_keepsList, bounds_canonical fullScan_sound standard_keepsList _ _ _⟩

end Builder

end ScanBounds

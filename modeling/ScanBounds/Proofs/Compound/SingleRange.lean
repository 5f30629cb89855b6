import ScanBounds.Compound.SingleRange
import ScanBounds.Proofs.Compound.ScanOrder
import ScanBounds.Proofs.Value.Bracket

/-!
# Bounds against the one range they are

When bounds are recognised as one range, the range ends where the scan enters and leaves the field behind
the leading points; the fields behind that one only lengthen the two ends.  So the range holds the keys whose
components are in their lists up to that field, whatever follows (`IsRange.holds_iff`).  It never loses a key
of the bounds.  It admits others exactly when a trailing field leaves out an extreme: the field counts as one
of all values by its ends alone, whether they are included or not.
-/

namespace ScanBounds

/-! ## The shape of bounds that are one range -/

/-- The interval runs from one extreme to the other, in either direction. -/
def Interval.Spans (i : Interval) : Prop := i.isMinToMax = true ∨ i.isMaxToMin = true

/-- Trailing fields from one extreme to the other, and what they add to the ends of a range.  An end that is
included goes on to where the scan enters or leaves the field, one that is not to the opposite. -/
inductive Trails (startInclusive stopInclusive : Bool) : List IntervalList → List Value → List Value → Prop where
  | nil : Trails startInclusive stopInclusive [] [] []
  | cons {list : IntervalList} {i : Interval} {rest : List IntervalList} {starts stops : List Value}
      (only : list.intervals = [i]) (spans : i.Spans)
      (others : Trails startInclusive stopInclusive rest starts stops) :
      Trails startInclusive stopInclusive (list :: rest)
        ((if startInclusive then i.start else i.stop) :: starts)
        ((if stopInclusive then i.stop else i.start) :: stops)

/-- Points, then at most one interval, then trailing fields, and the range that these are. -/
inductive IsRange : List IntervalList → KeyRange → Prop where
  | nil : IsRange [] ⟨[], true, [], true⟩
  | point {list : IntervalList} {i : Interval} {rest : List IntervalList} {r : KeyRange}
      (only : list.intervals = [i]) (isPoint : i.isPoint = true) (others : IsRange rest r) :
      IsRange (list :: rest) ⟨i.start :: r.start, r.startInclusive, i.stop :: r.stop, r.stopInclusive⟩
  | range {list : IntervalList} {i : Interval} {rest : List IntervalList} {starts stops : List Value}
      (only : list.intervals = [i]) (notPoint : i.isPoint = false)
      (others : Trails i.startInclusive i.stopInclusive rest starts stops) :
      IsRange (list :: rest) ⟨i.start :: starts, i.startInclusive, i.stop :: stops, i.stopInclusive⟩

namespace KeyRange

lemma appendAllValues_eq {i : Interval} (h : i.Spans) (r : KeyRange) :
    r.appendAllValues i = ⟨r.start ++ [if r.startInclusive then i.start else i.stop], r.startInclusive,
      r.stop ++ [if r.stopInclusive then i.stop else i.start], r.stopInclusive⟩ := by
  unfold appendAllValues
  by_cases hmin : i.isMinToMax = true
  · obtain ⟨hstart, hstop⟩ := Bool.and_eq_true_iff.1 hmin
    rw [if_pos hmin, Value.eq_minKey_of_isMinKey hstart, Value.eq_maxKey_of_isMaxKey hstop]
  · have hmax : i.isMaxToMin = true := h.resolve_left hmin
    obtain ⟨hstart, hstop⟩ := Bool.and_eq_true_iff.1 hmax
    rw [if_neg hmin, if_pos hmax, Value.eq_maxKey_of_isMaxKey hstart, Value.eq_minKey_of_isMinKey hstop]

lemma appendTrailing?_spec {lists : List IntervalList} {r r' : KeyRange} (h : r.appendTrailing? lists = some r') :
    ∃ starts stops, Trails r.startInclusive r.stopInclusive lists starts stops ∧
      r' = ⟨r.start ++ starts, r.startInclusive, r.stop ++ stops, r.stopInclusive⟩ := by
  induction lists generalizing r with
  | nil =>
    refine ⟨[], [], .nil, ?_⟩
    rw [List.append_nil, List.append_nil]
    exact (Option.some.inj h).symm
  | cons list rest ih =>
    rw [appendTrailing?] at h
    split at h
    · rename_i i only
      split_ifs at h with hspans
      rw [Bool.or_eq_true] at hspans
      rw [appendAllValues_eq hspans] at h
      obtain ⟨starts, stops, others, rfl⟩ := ih h
      refine ⟨_, _, .cons only hspans others, ?_⟩
      simp only [List.append_assoc, List.singleton_append]
    · cases h

lemma afterPoints?_spec {lists : List IntervalList} {starts stops : List Value} {r : KeyRange}
    (h : afterPoints? starts stops lists = some r) :
    ∃ r', IsRange lists r' ∧
      r = ⟨starts.reverse ++ r'.start, r'.startInclusive, stops.reverse ++ r'.stop, r'.stopInclusive⟩ := by
  induction lists generalizing starts stops with
  | nil =>
    refine ⟨_, .nil, ?_⟩
    rw [List.append_nil, List.append_nil]
    exact (Option.some.inj h).symm
  | cons list rest ih =>
    rw [afterPoints?] at h
    split at h
    · rename_i i only
      split_ifs at h with hpoint
      · obtain ⟨r', others, rfl⟩ := ih h
        refine ⟨_, .point only hpoint others, ?_⟩
        simp only [List.reverse_cons, List.append_assoc, List.singleton_append]
      · obtain ⟨starts', stops', others, rfl⟩ := appendTrailing?_spec h
        refine ⟨_, .range only (Bool.not_eq_true _ ▸ hpoint) others, ?_⟩
        simp only [List.reverse_cons, List.append_assoc, List.singleton_append]
    · cases h

end KeyRange

lemma CompoundBounds.isRange_of_singleRange? {b : CompoundBounds} {r : KeyRange} (h : b.singleRange? = some r) :
    IsRange b.lists r := by
  obtain ⟨r', hrange, rfl⟩ := KeyRange.afterPoints?_spec h
  exact hrange

/-! ## Trailing fields -/

namespace Interval

variable {i : Interval} {dir : Int}

lemma Spans.ends_eq (h : i.Spans) :
    i.start = .minKey ∧ i.stop = .maxKey ∨ i.start = .maxKey ∧ i.stop = .minKey := by
  refine h.imp (fun hmin => ?_) fun hmax => ?_
  · obtain ⟨hstart, hstop⟩ := Bool.and_eq_true_iff.1 hmin
    exact ⟨Value.eq_minKey_of_isMinKey hstart, Value.eq_maxKey_of_isMaxKey hstop⟩
  · obtain ⟨hstart, hstop⟩ := Bool.and_eq_true_iff.1 hmax
    exact ⟨Value.eq_maxKey_of_isMaxKey hstart, Value.eq_minKey_of_isMinKey hstop⟩

/-- The scan enters the interval at one extreme and leaves it at the other. -/
lemma Spans.within (h : i.Spans) (hruns : CompoundBounds.intervalRuns dir i = true) (v : Value) :
    Value.compareToward dir i.start v ≠ .gt ∧ Value.compareToward dir v i.stop ≠ .gt := by
  have hruns : i.isPoint = true ∨ CompoundBounds.directionBetween i.start i.stop = dir := by
    simpa [CompoundBounds.intervalRuns] using hruns
  have hpoint : ¬i.isPoint = true := by
    rw [isPoint, Bool.and_eq_true]
    rcases h.ends_eq with ⟨hstart, hstop⟩ | ⟨hstart, hstop⟩
    · rw [hstart, hstop]
      exact fun heq => Bool.false_ne_true heq.2
    · rw [hstart, hstop]
      exact fun heq => Bool.false_ne_true heq.2
  have hdir := hruns.resolve_left hpoint
  rcases h.ends_eq with ⟨hstart, hstop⟩ | ⟨hstart, hstop⟩
  · have hup : dir = 1 := by
      rw [← hdir, hstart, hstop]
      rfl
    rw [hstart, hstop, hup]
    exact ⟨Value.minKey_le v, Value.le_maxKey v⟩
  · have hdown : dir = -1 := by
      rw [← hdir, hstart, hstop]
      rfl
    rw [hstart, hstop, hdown]
    exact ⟨Value.le_maxKey v, Value.minKey_le v⟩

section Ends

variable (h : i.Spans) (hruns : CompoundBounds.intervalRuns dir i = true)

include h hruns

/-- Lengthened so, a start that is included lets every value in, and one that is not lets none in. -/
lemma Spans.admits_start_iff (inclusive : Bool) (v : Value) :
    Admits inclusive (Value.compareToward dir (if inclusive then i.start else i.stop) v) ↔ inclusive = true := by
  obtain ⟨hstart, hstop⟩ := h.within hruns v
  rw [Value.compareToward_swap] at hstop
  cases inclusive with
  | true => simpa [Admits] using hstart
  | false =>
    have hne : Value.compareToward dir i.stop v ≠ .lt := fun hlt => hstop (by rw [hlt]; rfl)
    simpa [Admits] using hne

lemma Spans.admits_stop_iff (inclusive : Bool) (v : Value) :
    Admits inclusive (Value.compareToward dir v (if inclusive then i.stop else i.start)) ↔ inclusive = true := by
  obtain ⟨hstart, hstop⟩ := h.within hruns v
  rw [Value.compareToward_swap] at hstart
  cases inclusive with
  | true => simpa [Admits] using hstop
  | false =>
    have hne : Value.compareToward dir v i.start ≠ .lt := fun hlt => hstart (by rw [hlt]; rfl)
    simpa [Admits] using hne

end Ends

lemma startInclusive_of_contains (h : i.Contains i.start) : i.startInclusive = true := by
  by_contra hopen
  rcases h with hin | hin
  · have hlt := hin.1
    rw [if_neg hopen] at hlt
    exact lt_irrefl _ hlt
  · have hlt := hin.2
    rw [reverse, if_neg hopen] at hlt
    exact lt_irrefl _ hlt

lemma stopInclusive_of_contains (h : i.Contains i.stop) : i.stopInclusive = true :=
  startInclusive_of_contains (i := i.reverse) (contains_reverse.2 h)

/-- An interval between the extremes contains everything just if it includes both. -/
lemma Spans.isFull_iff (h : i.Spans) : i.isFull = true ↔ ∀ v, i.Contains v := by
  have hfull : i.isFull = true ↔ i.startInclusive = true ∧ i.stopInclusive = true := by
    rw [isFull, Bool.or_eq_true_iff.2 h, Bool.true_and, Bool.and_eq_true]
  rw [hfull]
  constructor
  · rintro ⟨hin, hout⟩ v
    rcases h.ends_eq with ⟨hstart, hstop⟩ | ⟨hstart, hstop⟩
    · left
      rw [Holds, hin, hout, hstart, hstop]
      exact ⟨Value.minKey_le v, Value.le_maxKey v⟩
    · right
      rw [Holds, reverse, hin, hout, hstart, hstop]
      exact ⟨Value.minKey_le v, Value.le_maxKey v⟩
  · intro hall
    exact ⟨startInclusive_of_contains (hall _), stopInclusive_of_contains (hall _)⟩

/-- What lies strictly between the extremes is in the interval, as null does. -/
lemma Spans.contains_null (h : i.Spans) : i.Contains .null := by
  have hlow : Value.minKey < .null := by decide
  have hup : Value.null < .maxKey := by decide
  rcases h.ends_eq with ⟨hstart, hstop⟩ | ⟨hstart, hstop⟩
  · left
    rw [Holds, hstart, hstop]
    exact ⟨by split_ifs <;> [exact hlow.le; exact hlow], by split_ifs <;> [exact hup.le; exact hup]⟩
  · right
    rw [Holds, reverse, hstart, hstop]
    exact ⟨by split_ifs <;> [exact hlow.le; exact hlow], by split_ifs <;> [exact hup.le; exact hup]⟩

end Interval

/-! ## The keys of a range -/

/-- Whether a key lies between the ends of the range, in the order of the scan. -/
def KeyRange.Holds (dirs : List Int) (r : KeyRange) (key : List Value) : Prop :=
  Admits r.startInclusive (compareKeys dirs r.start key) ∧ Admits r.stopInclusive (compareKeys dirs key r.stop)

instance (dirs : List Int) (r : KeyRange) (key : List Value) : Decidable (r.Holds dirs key) :=
  inferInstanceAs (Decidable (Admits _ _ ∧ Admits _ _))

/-- The list is one point. -/
def IntervalList.isSinglePoint (l : IntervalList) : Bool :=
  match l.intervals with
  | [i] => i.isPoint
  | _ => false

/-- Whether the components of a key are in their lists, up to the field behind the leading points. -/
def ContainsLeading : List IntervalList → List Value → Prop
  | list :: rest, v :: vs => list.Contains v ∧ (list.isSinglePoint = true → ContainsLeading rest vs)
  | _, _ => True

section Only

variable {list : IntervalList} {i : Interval} (only : list.intervals = [i])

include only

lemma contains_of_only (v : Value) : list.Contains v ↔ i.Contains v := by
  simp [IntervalList.Contains, only]

lemma isSinglePoint_of_only : list.isSinglePoint = i.isPoint := by
  simp [IntervalList.isSinglePoint, only]

lemma Runs.uncons {dirs : List Int} {rest : List IntervalList} (h : Runs dirs (list :: rest)) :
    ∃ dir others, dirs = dir :: others ∧ (dir = 1 ∨ dir = -1) ∧ CompoundBounds.intervalRuns dir i = true ∧
      Runs others rest := by
  obtain ⟨dir, others, ⟨hdir, hrun⟩, hothers, rfl⟩ := List.forall₂_cons_right_iff.1 h
  exact ⟨dir, others, rfl, hdir, hrun i (by rw [only]; exact List.mem_singleton_self i), hothers⟩

end Only

variable {lists rest : List IntervalList} {r : KeyRange} {dirs : List Int} {key starts stops : List Value}

lemma Trails.ends_iff {startInclusive stopInclusive : Bool}
    (h : Trails startInclusive stopInclusive lists starts stops) (hruns : Runs dirs lists)
    (hlength : key.length = lists.length) :
    (Admits startInclusive (compareKeys dirs starts key) ↔ startInclusive = true) ∧
      (Admits stopInclusive (compareKeys dirs key stops) ↔ stopInclusive = true) := by
  induction h generalizing dirs key with
  | nil =>
    obtain rfl := List.eq_nil_of_length_eq_zero hlength
    obtain rfl := List.forall₂_nil_right_iff.1 hruns
    simp [compareKeys, admits_iff]
  | cons only spans others ih =>
    obtain ⟨dir, dirs, rfl, -, hrun, hothers⟩ := hruns.uncons only
    obtain ⟨k, ks, rfl⟩ := List.exists_cons_of_length_eq_add_one hlength
    obtain ⟨hstarts, hstops⟩ := ih hothers (Nat.succ.inj hlength)
    rw [compareKeys, compareKeys, admits_then_iff, admits_then_iff, hstarts, hstops, ← admits_iff, ← admits_iff]
    exact ⟨spans.admits_start_iff hrun _ k, spans.admits_stop_iff hrun _ k⟩

lemma KeyRange.holds_cons_iff {startInclusive stopInclusive : Bool} {dir : Int} {v w k : Value} {ks : List Value} :
    KeyRange.Holds (dir :: dirs) ⟨v :: starts, startInclusive, w :: stops, stopInclusive⟩ (k :: ks) ↔
      (Value.compareToward dir v k = .lt ∨ Value.compareToward dir v k = .eq ∧
        Admits startInclusive (compareKeys dirs starts ks)) ∧
      (Value.compareToward dir k w = .lt ∨ Value.compareToward dir k w = .eq ∧
        Admits stopInclusive (compareKeys dirs ks stops)) :=
  and_congr admits_then_iff admits_then_iff

/-- **The keys of the one range.**  They are those whose components are in their lists up to the field
behind the leading points. -/
theorem IsRange.holds_iff (h : IsRange lists r) (hruns : Runs dirs lists) (hlength : key.length = lists.length) :
    r.Holds dirs key ↔ ContainsLeading lists key := by
  induction h generalizing dirs key with
  | nil =>
    obtain rfl := List.eq_nil_of_length_eq_zero hlength
    obtain rfl := List.forall₂_nil_right_iff.1 hruns
    simp [KeyRange.Holds, compareKeys, admits_iff, ContainsLeading]
  | @point list i rest r only isPoint others ih =>
    obtain ⟨dir, dirs, rfl, hdir, hrun, hothers⟩ := hruns.uncons only
    obtain ⟨k, ks, rfl⟩ := List.exists_cons_of_length_eq_add_one hlength
    have hswap : Value.compareToward dir k i.stop = (Value.compareToward dir i.start k).swap := by
      rw [Value.compareToward_congr_right k (Interval.ends_eq_of_isPoint isPoint).symm, Value.compareToward_swap]
    have hfirst : i.start.toClass = k.toClass ↔ Value.compareToward dir i.start k = .eq :=
      Value.compareToward_eq_eq_iff.symm
    rw [ContainsLeading, contains_of_only only, isSinglePoint_of_only only, Interval.contains_of_isPoint isPoint,
      hfirst, ← ih hothers (Nat.succ.inj hlength), KeyRange.holds_cons_iff, hswap, KeyRange.Holds]
    -- a component in front of the point is behind it when seen from the other end
    cases Value.compareToward dir i.start k <;> simp [isPoint]
  | @range list i rest starts stops only notPoint others =>
    obtain ⟨dir, dirs, rfl, hdir, hrun, hothers⟩ := hruns.uncons only
    obtain ⟨k, ks, rfl⟩ := List.exists_cons_of_length_eq_add_one hlength
    have hcontains := CompoundBounds.contains_iff (v := k) hdir hrun
    obtain ⟨hstarts, hstops⟩ := others.ends_iff hothers (Nat.succ.inj hlength)
    rw [ContainsLeading, contains_of_only only, isSinglePoint_of_only only, hcontains, notPoint]
    rw [KeyRange.holds_cons_iff, hstarts, hstops, ← admits_iff, ← admits_iff]
    simp

lemma containsLeading_of_contains (h : List.Forall₂ IntervalList.Contains lists key) :
    ContainsLeading lists key := by
  induction h with
  | nil => trivial
  | cons hfirst hrest ih => exact ⟨hfirst, fun _ => ih⟩

/-! ## Keys that the range adds -/

/-- The fields behind the leading points and one more. -/
def trailing (lists : List IntervalList) : List IntervalList :=
  (lists.dropWhile IntervalList.isSinglePoint).tail

lemma Trails.exists_contains {startInclusive stopInclusive : Bool}
    (h : Trails startInclusive stopInclusive lists starts stops) : ∃ key, List.Forall₂ IntervalList.Contains lists key := by
  induction h with
  | nil => exact ⟨[], .nil⟩
  | cons only spans others ih =>
    obtain ⟨key, hkey⟩ := ih
    exact ⟨.null :: key, .cons ((contains_of_only only _).2 spans.contains_null) hkey⟩

/-- Trailing fields leave nothing out just if each includes both extremes. -/
lemma Trails.full_iff {startInclusive stopInclusive : Bool} (h : Trails startInclusive stopInclusive lists starts stops) :
    (∀ list ∈ lists, ∀ i ∈ list.intervals, i.isFull = true) ↔
      ∀ key, key.length = lists.length → List.Forall₂ IntervalList.Contains lists key := by
  induction h with
  | nil =>
    refine iff_of_true nofun fun key hlength => ?_
    obtain rfl := List.eq_nil_of_length_eq_zero hlength
    exact .nil
  | @cons list i rest starts stops only spans others ih =>
    have hfull : (∀ j ∈ list.intervals, j.isFull = true) ↔ ∀ v, i.Contains v := by
      rw [only, List.forall_mem_singleton]
      exact spans.isFull_iff
    rw [List.forall_mem_cons, hfull, ih]
    constructor
    · rintro ⟨hfirst, hrest⟩ key hlength
      obtain ⟨k, ks, rfl⟩ := List.exists_cons_of_length_eq_add_one hlength
      exact .cons ((contains_of_only only k).2 (hfirst k)) (hrest ks (Nat.succ.inj hlength))
    · intro hall
      obtain ⟨key, hkey⟩ := others.exists_contains
      refine ⟨fun v => ?_, fun ks hlength => ?_⟩
      · have hcons := hall (v :: key) (congrArg (· + 1) hkey.length_eq.symm)
        exact (contains_of_only only v).1 (List.forall₂_cons.1 hcons).1
      · exact (List.forall₂_cons.1 (hall (.null :: ks) (congrArg (· + 1) hlength))).2

/-- Keys that are in their lists up to the field behind the leading points are in all of them just if the
trailing fields leave nothing out, or if there are no keys in the lists at all. -/
theorem IsRange.leading_suffices_iff (h : IsRange lists r) :
    (∀ key, key.length = lists.length → ContainsLeading lists key → List.Forall₂ IntervalList.Contains lists key) ↔
      (∀ list ∈ trailing lists, ∀ i ∈ list.intervals, i.isFull = true) ∨
        ∀ key, ¬List.Forall₂ IntervalList.Contains lists key := by
  induction h with
  | nil =>
    refine iff_of_true (fun key hlength _ => ?_) (.inl nofun)
    obtain rfl := List.eq_nil_of_length_eq_zero hlength
    exact .nil
  | @point list i rest r only isPoint others ih =>
    have hsingle : list.isSinglePoint = true := (isSinglePoint_of_only only).trans isPoint
    have htrailing : trailing (list :: rest) = trailing rest := by
      rw [trailing, List.dropWhile_cons_of_pos hsingle, trailing]
    have hstart : list.Contains i.start := (contains_of_only only _).2 ((Interval.contains_of_isPoint isPoint).2 rfl)
    have hnone : (∀ key, ¬List.Forall₂ IntervalList.Contains (list :: rest) key) ↔
        ∀ key, ¬List.Forall₂ IntervalList.Contains rest key := by
      refine ⟨fun h key hkey => h _ (.cons hstart hkey), fun h key hkey => ?_⟩
      obtain ⟨k, ks, -, hks, -⟩ := List.forall₂_cons_left_iff.1 hkey
      exact h ks hks
    rw [htrailing, hnone, ← ih]
    constructor
    · intro hall ks hlength hks
      have hcons := hall (i.start :: ks) (congrArg (· + 1) hlength) ⟨hstart, fun _ => hks⟩
      exact (List.forall₂_cons.1 hcons).2
    · intro hall key hlength hkey
      obtain ⟨k, ks, rfl⟩ := List.exists_cons_of_length_eq_add_one hlength
      exact .cons hkey.1 (hall ks (Nat.succ.inj hlength) (hkey.2 hsingle))
  | @range list i rest starts stops only notPoint others =>
    have hsingle : ¬list.isSinglePoint = true := by
      rw [isSinglePoint_of_only only, notPoint]
      exact Bool.false_ne_true
    have htrailing : trailing (list :: rest) = rest := by
      rw [trailing, List.dropWhile_cons_of_neg hsingle, List.tail_cons]
    rw [htrailing, others.full_iff]
    constructor
    · intro hall
      by_cases hsome : ∃ k, list.Contains k
      · obtain ⟨k, hk⟩ := hsome
        refine .inl fun ks hlength => ?_
        have hcons := hall (k :: ks) (congrArg (· + 1) hlength) ⟨hk, fun h => absurd h hsingle⟩
        exact (List.forall₂_cons.1 hcons).2
      · refine .inr fun key hkey => hsome ?_
        obtain ⟨k, ks, hk, -, -⟩ := List.forall₂_cons_left_iff.1 hkey
        exact ⟨k, hk⟩
    · rintro hcases key hlength hkey
      obtain ⟨k, ks, rfl⟩ := List.exists_cons_of_length_eq_add_one hlength
      rcases hcases with hfull | hnone
      · exact .cons hkey.1 (hfull ks (Nat.succ.inj hlength))
      · obtain ⟨ks', hks'⟩ := others.exists_contains
        exact absurd (.cons hkey.1 hks') (hnone _)

/-! ## Bounds that are one range -/

namespace CompoundBounds

variable {b : CompoundBounds} {pattern : KeyPattern} {dir : Int}

/-- **No key is lost.**  When valid bounds are one range, a compound key whose every component is in the list
of its field lies in the range. -/
theorem singleRange_keeps (hdir : dir = 1 ∨ dir = -1) (hvalid : b.isValidFor pattern dir = true)
    (hrange : b.singleRange? = some r) (hkey : b.Contains key) : r.Holds (pattern.directions dir) key := by
  have hruns : Runs (pattern.directions dir) b.lists := runs_of_isValidFor hdir hvalid
  rw [(isRange_of_singleRange? hrange).holds_iff hruns hkey.length_eq.symm]
  exact containsLeading_of_contains hkey

/-- Backwards over a descending last field: the scan enters the range at `("x", 5, MinKey)` and leaves it in
front of `("x", 2, MaxKey)`. -/
theorem singleRange_keeps_backwards :
    let pattern : KeyPattern := ⟨[⟨"a", .ascending⟩, ⟨"b", .ascending⟩, ⟨"c", .descending⟩]⟩
    let b : CompoundBounds := ⟨[⟨"a", [.point (.string "x")]⟩, ⟨"b", [⟨.int 5, true, .int 2, false⟩]⟩,
      ⟨"c", [.allValues]⟩]⟩
    let r : KeyRange := ⟨[.string "x", .int 5, .minKey], true, [.string "x", .int 2, .minKey], false⟩
    let key : List Value := [.string "x", .int 5, .bool true]
    b.isValidFor pattern (-1) = true ∧ b.singleRange? = some r ∧ b.Contains key ∧
      r.Holds (pattern.directions (-1)) key := by
  intro pattern b r key
  have hvalid : b.isValidFor pattern (-1) = true := by decide
  have hrange : b.singleRange? = some r := rfl
  have hkey : b.Contains key := by decide
  exact ⟨hvalid, hrange, hkey, singleRange_keeps (.inr rfl) hvalid hrange hkey⟩

/-- **When no key is added.**  The one range of valid bounds admits only keys of the bounds exactly if every
trailing field includes both extremes, or if there are no keys in the bounds at all. -/
theorem singleRange_adds_nothing_iff (hdir : dir = 1 ∨ dir = -1) (hvalid : b.isValidFor pattern dir = true)
    (hrange : b.singleRange? = some r) :
    (∀ key, key.length = pattern.size → r.Holds (pattern.directions dir) key → b.Contains key) ↔
      (∀ list ∈ trailing b.lists, ∀ i ∈ list.intervals, i.isFull = true) ∨ ∀ key, ¬b.Contains key := by
  have hruns : Runs (pattern.directions dir) b.lists := runs_of_isValidFor hdir hvalid
  have hsize : b.lists.length = pattern.size := by
    rw [← hruns.length_eq, KeyPattern.directions, List.length_map, KeyPattern.size]
  have hshape := isRange_of_singleRange? hrange
  rw [← hsize]
  refine Iff.trans ?_ hshape.leading_suffices_iff
  refine forall_congr' fun key => forall_congr' fun hlength => ?_
  rw [hshape.holds_iff hruns hlength]
  exact Iff.rfl

/-- The key `(2, MaxKey)` is in the range of `1 ≤ a ≤ 5` and `b < MaxKey`, although its last component is in no
interval. -/
theorem singleRange_adds_maxKey :
    let pattern : KeyPattern := ⟨[⟨"a", .ascending⟩, ⟨"b", .ascending⟩]⟩
    let b : CompoundBounds := ⟨[⟨"a", [.range (.int 1) (.int 5) .both]⟩, ⟨"b", [.allValuesWith .startOnly]⟩]⟩
    let r : KeyRange := ⟨[.int 1, .minKey], true, [.int 5, .maxKey], true⟩
    let key : List Value := [.int 2, .maxKey]
    b.isValidFor pattern 1 = true ∧ b.singleRange? = some r ∧
      (¬∀ key, key.length = pattern.size → r.Holds (pattern.directions 1) key → b.Contains key) ∧
      r.Holds (pattern.directions 1) key ∧ ¬b.Contains key := by
  intro pattern b r key
  have hvalid : b.isValidFor pattern 1 = true := by decide
  have hrange : b.singleRange? = some r := rfl
  refine ⟨hvalid, hrange, fun hall => ?_, by decide, by decide⟩
  rcases (singleRange_adds_nothing_iff (.inl rfl) hvalid hrange).1 hall with hfull | hnone
  · have hopen : ¬∀ list ∈ trailing b.lists, ∀ i ∈ list.intervals, i.isFull = true := by decide
    exact hopen hfull
  · have hsome : b.Contains [.int 2, .null] := by decide
    exact hnone _ hsome

end CompoundBounds

end ScanBounds

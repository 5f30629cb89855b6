import ScanBounds.Proofs.Interval.SetOps

/-!
# Intersections of lists in any order

A walk over two lists checks an interval when it comes to it: that it does not run backwards, and that it
does not start before the one in front of it stops.  It ends when either list is at its end, so intervals that
are further back in the other list are never checked, nor is anything of theirs in the outcome.  `Reading` says
what was read of each list and how the outcome follows from that.

Of lists in order nothing is lost that way.  All that is left unread lies above the last interval of the list
that is at its end (`InOrder.holds_of_held`).
-/

namespace ScanBounds

namespace IntervalList

/-- Well-formed intervals, none of which starts before an earlier one stops. -/
structure InOrder (l : List Interval) : Prop where
  wellFormed : ∀ i ∈ l, i.WellFormed
  ascending : l.Pairwise fun i j => i.stop ≤ j.start

namespace InOrder

variable {i j : Interval} {l front back : List Interval} {v : Value}

lemma nil : InOrder [] := ⟨by simp, List.Pairwise.nil⟩

lemma cons (hi : i.WellFormed) (hl : InOrder l) (h : ∀ j ∈ l.head?, i.stop ≤ j.start) : InOrder (i :: l) := by
  refine ⟨List.forall_mem_cons.2 ⟨hi, hl.wellFormed⟩, List.pairwise_cons.2 ⟨fun k hk => ?_, hl.ascending⟩⟩
  cases l with
  | nil => cases hk
  | cons j l =>
    have hj := h j rfl
    rcases List.mem_cons.1 hk with rfl | hk
    · exact hj
    · have hstop := (hl.wellFormed j (by simp)).start_le_stop
      exact hj.trans (hstop.trans ((List.pairwise_cons.1 hl.ascending).1 k hk))

lemma uncons (h : InOrder (i :: l)) :
    i.WellFormed ∧ InOrder l ∧ ∀ v ∈ some i.stop, ∀ j ∈ l.head?, v ≤ j.start := by
  obtain ⟨hstop, hl⟩ := List.pairwise_cons.1 h.ascending
  refine ⟨h.wellFormed i (by simp), ⟨fun j hj => h.wellFormed j (by simp [hj]), hl⟩, ?_⟩
  rintro v hv j hj
  cases hv
  exact hstop j (List.mem_of_mem_head? hj)

/-- What later intervals hold of the values below the end of an interval, it holds itself. -/
lemma holds_of_held (h : InOrder (front ++ back)) (hj : j ∈ front) (hv : Held back v)
    (hlt : .below v < j.upper) : j.Holds v := by
  obtain ⟨k, hk, hv⟩ := hv
  have hwf := (h.wellFormed j (List.mem_append_left _ hj)).lower_lt_upper
  have hstop : j.stop ≤ k.start := (List.pairwise_append.1 h.ascending).2.2 j hj k hk
  have hstart : k.start ≤ v := Cut.below_le_below.1 (k.below_start_le_lower.trans (Interval.holds_iff.1 hv).1)
  refine Interval.holds_iff.2 ⟨(Cut.le_below_or_above_le j.lower v).resolve_right fun hlower => ?_, hlt⟩
  -- the value would be below the stop, and the later interval starts there
  have hbelow : v < j.stop := Cut.above_lt_above.1 (hlower.trans_lt (hwf.trans_le j.upper_le_above_stop))
  exact ((hstop.trans hstart).trans_lt hbelow).false

lemma holds_of_held_tail (h : InOrder (j :: l)) (hv : Held l v) (hlt : .below v < j.upper) : j.Holds v := by
  have h : InOrder ([j] ++ l) := h
  exact h.holds_of_held (by simp) hv hlt

end InOrder

/-- None of the intervals ends above all of the others. -/
def EndsWithin (l m : List Interval) : Prop := ∀ i ∈ l, ∃ j ∈ m, i.upper ≤ j.upper

lemma EndsWithin.mono {l m m' : List Interval} (h : EndsWithin l m) (hsub : m ⊆ m') : EndsWithin l m' := by
  intro i hi
  obtain ⟨j, hj, hle⟩ := h i hi
  exact ⟨j, hsub hj, hle⟩

/-- Of `is` and `js` a walk has read `read` and `read'` when it ends with the outcome `out`.  One list is at
its end, and whatever stands behind what was read of the other, the walk gives the same. -/
structure Reading (previous previous' : Option Value) (walk : List Interval → List Interval → Prop)
    (is js out read read' : List Interval) : Prop where
  left : read <+: is
  right : read' <+: js
  inOrder : InOrder read
  inOrder' : InOrder read'
  after : ∀ v ∈ previous, ∀ i ∈ read.head?, v ≤ i.start
  after' : ∀ v ∈ previous', ∀ j ∈ read'.head?, v ≤ j.start
  begun : is ≠ [] → js ≠ [] → read ≠ [] ∧ read' ≠ []
  held : ∀ v, Held out v ↔ Held read v ∧ Held read' v
  ended : (read = is ∧ EndsWithin is read' ∧ ∀ other, walk is (read' ++ other)) ∨
    (read' = js ∧ EndsWithin js read ∧ ∀ other, walk (read ++ other) js)

namespace Reading

variable {previous previous' : Option Value} {walk walk' : List Interval → List Interval → Prop}
  {i j : Interval} {is js out rest read read' : List Interval}

lemma swap (h : Reading previous previous' walk is js out read read') :
    Reading previous' previous (fun js is => walk is js) js is out read' read where
  left := h.right
  right := h.left
  inOrder := h.inOrder'
  inOrder' := h.inOrder
  after := h.after'
  after' := h.after
  begun hjs his := (h.begun his hjs).symm
  held v := (h.held v).trans and_comm
  ended := h.ended.symm

lemma nil_left (hwalk : ∀ js, walk [] js) : Reading previous previous' walk [] js [] [] [] where
  left := List.nil_prefix
  right := List.nil_prefix
  inOrder := .nil
  inOrder' := .nil
  after := by simp
  after' := by simp
  begun h := (h rfl).elim
  held := by simp
  ended := .inl ⟨rfl, by simp [EndsWithin], fun _ => hwalk _⟩

lemma nil_right (hwalk : ∀ is, walk is []) : Reading previous previous' walk is [] [] [] [] := by
  have h : Reading previous' previous (fun js is => walk is js) [] is [] [] [] := nil_left hwalk
  exact h.swap

/-- The left head is left behind when it ends first: nothing later on the right has more of it than the right
head has. -/
lemma cons_left (hi : i.WellFormed) (hj : j.WellFormed) (hle : i.upper ≤ j.upper)
    (hprevious : ∀ v ∈ previous, v ≤ i.start) (hprevious' : ∀ v ∈ previous', v ≤ j.start)
    (hwalk : ∀ is js, walk is (j :: js) → walk' (i :: is) (j :: js))
    (hout : ∀ v, Held out v ↔ i.Holds v ∧ j.Holds v ∨ Held rest v)
    (h : Reading (some i.stop) previous' walk is (j :: js) rest read read') :
    ∃ front front', Reading previous previous' walk' (i :: is) (j :: js) out front front' := by
  have hread : InOrder (i :: read) := .cons hi h.inOrder fun k hk => h.after i.stop rfl k hk
  -- the right head counts as read, even if the walk ends before it comes to it again
  rcases List.prefix_cons_iff.1 h.right with rfl | ⟨tail, rfl, htail⟩
  · obtain rfl : is = [] := by
      by_contra his
      exact (h.begun his (by simp)).2 rfl
    obtain rfl := List.prefix_nil.1 h.left
    refine ⟨[i], [j], ⟨by simp, by simp, hread, .cons hj .nil (by simp), ?_, ?_, by simp, fun v => ?_, .inl ?_⟩⟩
    · simpa using hprevious
    · simpa using hprevious'
    · simp [hout, h.held]
    · refine ⟨rfl, by simpa [EndsWithin] using hle, fun other => ?_⟩
      rcases h.ended with ⟨-, -, hended⟩ | ⟨hnil, -⟩
      · exact hwalk _ _ (hended _)
      · cases hnil
  · refine ⟨i :: read, j :: tail, ⟨by simpa using h.left, by simpa using htail, hread, h.inOrder', ?_, ?_, by simp,
      fun v => ?_, ?_⟩⟩
    · simpa using hprevious
    · exact h.after'
    · have hlate (hv : Held tail v) (hiv : i.Holds v) : j.Holds v :=
        h.inOrder'.holds_of_held_tail hv ((Interval.holds_iff.1 hiv).2.trans_le hle)
      rw [hout, h.held, held_cons, held_cons]
      tauto
    · rcases h.ended with ⟨rfl, hends, hended⟩ | ⟨hjs, hends, hended⟩
      · exact .inl ⟨rfl, List.forall_mem_cons.2 ⟨⟨j, by simp, hle⟩, hends⟩, fun other => hwalk _ _ (hended other)⟩
      · exact .inr ⟨hjs, hends.mono (List.subset_cons_self _ _), fun other => hwalk _ _ (hended other)⟩

lemma cons_right (hi : i.WellFormed) (hj : j.WellFormed) (hle : j.upper ≤ i.upper)
    (hprevious : ∀ v ∈ previous, v ≤ i.start) (hprevious' : ∀ v ∈ previous', v ≤ j.start)
    (hwalk : ∀ is js, walk (i :: is) js → walk' (i :: is) (j :: js))
    (hout : ∀ v, Held out v ↔ i.Holds v ∧ j.Holds v ∨ Held rest v)
    (h : Reading previous (some j.stop) walk (i :: is) js rest read read') :
    ∃ front front', Reading previous previous' walk' (i :: is) (j :: js) out front front' := by
  obtain ⟨front', front, hswap⟩ : ∃ front' front,
      Reading previous' previous (fun js is => walk' is js) (j :: js) (i :: is) out front' front :=
    h.swap.cons_left hj hi hle hprevious' hprevious (fun js is => hwalk is js)
      fun v => (hout v).trans (or_congr_left and_comm)
  exact ⟨front, front', hswap.swap⟩

/-- Both heads are left behind when they have the same ends. -/
lemma cons_both (hi : i.WellFormed) (hj : j.WellFormed) (heq : i.upper = j.upper)
    (hprevious : ∀ v ∈ previous, v ≤ i.start) (hprevious' : ∀ v ∈ previous', v ≤ j.start)
    (hwalk : ∀ is js, walk is js → walk' (i :: is) (j :: js))
    (hout : ∀ v, Held out v ↔ i.Holds v ∧ j.Holds v ∨ Held rest v)
    (h : Reading (some i.stop) (some j.stop) walk is js rest read read') :
    Reading previous previous' walk' (i :: is) (j :: js) out (i :: read) (j :: read') where
  left := by simpa using h.left
  right := by simpa using h.right
  inOrder := .cons hi h.inOrder fun k hk => h.after i.stop rfl k hk
  inOrder' := .cons hj h.inOrder' fun k hk => h.after' j.stop rfl k hk
  after := by simpa using hprevious
  after' := by simpa using hprevious'
  begun := by simp
  held v := by
    have hread : InOrder (i :: read) := .cons hi h.inOrder fun k hk => h.after i.stop rfl k hk
    have hread' : InOrder (j :: read') := .cons hj h.inOrder' fun k hk => h.after' j.stop rfl k hk
    have hlate (hv : Held read v) (hjv : j.Holds v) : i.Holds v :=
      hread.holds_of_held_tail hv ((Interval.holds_iff.1 hjv).2.trans_le heq.ge)
    have hlate' (hv : Held read' v) (hiv : i.Holds v) : j.Holds v :=
      hread'.holds_of_held_tail hv ((Interval.holds_iff.1 hiv).2.trans_le heq.le)
    rw [hout, h.held, held_cons, held_cons]
    tauto
  ended := by
    rcases h.ended with ⟨rfl, hends, hended⟩ | ⟨rfl, hends, hended⟩
    · refine .inl ⟨rfl, List.forall_mem_cons.2 ⟨⟨j, by simp, heq.le⟩, ?_⟩, fun other => hwalk _ _ (hended other)⟩
      exact hends.mono (List.subset_cons_self _ _)
    · refine .inr ⟨rfl, List.forall_mem_cons.2 ⟨⟨i, by simp, heq.ge⟩, ?_⟩, fun other => hwalk _ _ (hended other)⟩
      exact hends.mono (List.subset_cons_self _ _)

/-- Of lists in order nothing that both hold stands behind what was read. -/
lemma held_iff_of_inOrder (h : Reading previous previous' walk is js out read read') (his : InOrder is)
    (hjs : InOrder js) (v : Value) : Held out v ↔ Held is v ∧ Held js v := by
  have hrest {l m front : List Interval} (hm : InOrder m) (hfront : front <+: m) (hends : EndsWithin l front)
      (hv : Held l v) : Held m v ↔ Held front v := by
    obtain ⟨back, rfl⟩ := hfront
    rw [held_append, or_iff_left_of_imp]
    intro hback
    obtain ⟨i, hi, hiv⟩ := hv
    obtain ⟨j, hj, hle⟩ := hends i hi
    exact ⟨j, hj, hm.holds_of_held hj hback ((Interval.holds_iff.1 hiv).2.trans_le hle)⟩
  rw [h.held]
  rcases h.ended with ⟨rfl, hends, -⟩ | ⟨rfl, hends, -⟩
  · exact and_congr_right fun hv => (hrest hjs h.right hends hv).symm
  · exact and_congr_left fun hv => (hrest his h.left hends hv).symm

end Reading

/-! ## The walk -/

variable {a b : IntervalList} {previous previous' : Option Value} {i j : Interval}
  {is js out : List Interval}

/-- A walk that succeeds has read the beginnings of both lists in order, and its outcome is what they have in
common. -/
lemma overlaps_reading (his : ∀ i ∈ is, i.WellFormed ∨ i.direction = .descending)
    (hjs : ∀ j ∈ js, j.WellFormed ∨ j.direction = .descending)
    (h : overlaps a b previous previous' is js = .ok out) :
    ∃ read read', Reading previous previous'
      (fun is js => ∀ a b, overlaps a b previous previous' is js = .ok out) is js out read read' := by
  induction previous, previous', is, js using overlaps.induct generalizing out with
  | case1 previous previous' i is j js ihBoth ihLeft ihRight =>
    obtain ⟨hcheck, hcheck', rest, hrest, rfl⟩ := overlaps_cons_cons_eq_ok_iff.1 h
    have his' := (List.forall_mem_cons.1 his).2
    have hjs' := (List.forall_mem_cons.1 hjs).2
    have hi : i.WellFormed := (his i (by simp)).resolve_right hcheck.1
    have hj : j.WellFormed := (hjs j (by simp)).resolve_right hcheck'.1
    have hilt := hi.lower_lt_upper
    have hjlt := hj.lower_lt_upper
    have hout (v : Value) : Held ((i.overlap? j (i.position j)).toList ++ rest) v ↔
        i.Holds v ∧ j.Holds v ∨ Held rest v := by
      rw [held_append, held_iff, overlap_covered hi hj, Interval.holds_iff, Interval.holds_iff]
    have again {is js : List Interval}
        (hgo : ∀ a b, goOn a b previous previous' i is j js (i.position j) = .ok rest) (a b : IntervalList) :
        overlaps a b previous previous' (i :: is) (j :: js) =
          .ok ((i.overlap? j (i.position j)).toList ++ rest) :=
      overlaps_cons_cons_eq_ok_iff.2 ⟨hcheck, hcheck', rest, hgo a b, rfl⟩
    have hd := Interval.position_describes hi hj
    cases hp : i.position j <;> simp only [hp, goOn, Position.Describes] at hd hrest again hout ⊢
    case equals =>
      obtain ⟨read, read', hread⟩ := ihBoth his' hjs' hrest
      exact ⟨_, _, hread.cons_both hi hj hd.2 hcheck.2 hcheck'.2 (fun is js => again) hout⟩
    case precedes | abutsBefore | within | overlapsBefore =>
      obtain ⟨read, read', hread⟩ := ihLeft his' hjs hrest
      exact hread.cons_left hi hj (by grind) hcheck.2 hcheck'.2 (fun is js => again) hout
    case succeeds | contains | overlapsAfter =>
      obtain ⟨read, read', hread⟩ := ihRight his hjs' hrest
      exact hread.cons_right hi hj (by grind) hcheck.2 hcheck'.2 (fun is js => again) hout
  | case2 previous previous' is js hnil =>
    rcases is with - | ⟨i, is⟩
    · obtain rfl := Except.ok.inj (overlaps_nil_left.symm.trans h)
      exact ⟨[], [], .nil_left fun js a b => overlaps_nil_left⟩
    rcases js with - | ⟨j, js⟩
    · obtain rfl := Except.ok.inj (overlaps_nil_right.symm.trans h)
      exact ⟨[], [], .nil_right fun is a b => overlaps_nil_right⟩
    · exact (hnil _ _ _ _ rfl rfl).elim

/-- The walk over lists in order never stops. -/
lemma overlaps_succeeds (his : InOrder is) (hjs : InOrder js) (hp : ∀ v ∈ previous, ∀ i ∈ is.head?, v ≤ i.start)
    (hp' : ∀ v ∈ previous', ∀ j ∈ js.head?, v ≤ j.start) :
    ∃ out, overlaps a b previous previous' is js = .ok out := by
  induction previous, previous', is, js using overlaps.induct with
  | case1 previous previous' i is j js ihBoth ihLeft ihRight =>
    obtain ⟨hi, his', hstop⟩ := his.uncons
    obtain ⟨hj, hjs', hstop'⟩ := hjs.uncons
    have hup := hi.direction_ne_descending
    have hup' := hj.direction_ne_descending
    obtain ⟨rest, hrest⟩ : ∃ rest, goOn a b previous previous' i is j js (i.position j) = .ok rest := by
      cases i.position j with
      | equals => exact ihBoth his' hjs' hstop hstop'
      | precedes | abutsBefore | within | overlapsBefore => exact ihLeft his' hjs hstop hp'
      | succeeds | contains | overlapsAfter => exact ihRight his hjs' hp hstop'
    exact ⟨_, overlaps_cons_cons_eq_ok_iff.2
      ⟨⟨hup, fun v hv => hp v hv i rfl⟩, ⟨hup', fun v hv => hp' v hv j rfl⟩, rest, hrest, rfl⟩⟩
  | case2 previous previous' is js hnil =>
    rcases is with - | ⟨i, is⟩
    · exact ⟨[], overlaps_nil_left⟩
    rcases js with - | ⟨j, js⟩
    · exact ⟨[], overlaps_nil_right⟩
    · exact (hnil _ _ _ _ rfl rfl).elim

/-! ## Intersections -/

lemma intersect_eq_ok_iff {m : IntervalList} (hfield : a.field = b.field) :
    a.intersect b = .ok m ↔
      m.field = b.field ∧ overlaps a b none none a.intervals b.intervals = .ok m.intervals := by
  have hbind : a.intersect b =
      (overlaps a b none none a.intervals b.intervals).map fun out => ⟨b.field, out⟩ := by
    rw [intersect, hfield, bne_self_eq_false]
    cases overlaps a b none none a.intervals b.intervals <;> rfl
  rw [hbind]
  obtain ⟨field, intervals⟩ := m
  cases overlaps a b none none a.intervals b.intervals with
  | error d => simp [Except.map]
  | ok out => simp [Except.map, eq_comm]

/-- **Intersections of lists in any order.**  Lists in order have an intersection, and it holds what both hold.
An intersection of any lists is that of their beginnings, which are in order.  One of them is the whole list,
and does not end above the other; what stands behind the other beginning makes no difference. -/
theorem intersect_reads {a b : IntervalList} (hfield : a.field = b.field)
    (ha : ∀ i ∈ a.intervals, i.WellFormed ∨ i.direction = .descending)
    (hb : ∀ i ∈ b.intervals, i.WellFormed ∨ i.direction = .descending) :
    (InOrder a.intervals → InOrder b.intervals →
      ∃ m, a.intersect b = .ok m ∧ ∀ v, m.Holds v ↔ a.Holds v ∧ b.Holds v) ∧
    ∀ m, a.intersect b = .ok m → ∃ read read', read <+: a.intervals ∧ read' <+: b.intervals ∧
      InOrder read ∧ InOrder read' ∧ (∀ v, m.Holds v ↔ Held read v ∧ Held read' v) ∧
      ((read = a.intervals ∧ EndsWithin read read' ∧
          ∀ other, a.intersect ⟨b.field, read' ++ other⟩ = .ok m) ∨
        (read' = b.intervals ∧ EndsWithin read' read ∧
          ∀ other, intersect ⟨a.field, read ++ other⟩ b = .ok m)) := by
  constructor
  · intro hao hbo
    obtain ⟨out, hout⟩ : ∃ out, overlaps a b none none a.intervals b.intervals = .ok out :=
      overlaps_succeeds hao hbo (by simp) (by simp)
    obtain ⟨read, read', hread⟩ := overlaps_reading ha hb hout
    exact ⟨⟨b.field, out⟩, (intersect_eq_ok_iff hfield).2 ⟨rfl, hout⟩, hread.held_iff_of_inOrder hao hbo⟩
  · intro m hm
    obtain ⟨hmfield, hout⟩ := (intersect_eq_ok_iff hfield).1 hm
    obtain ⟨read, read', hread⟩ := overlaps_reading ha hb hout
    refine ⟨read, read', hread.left, hread.right, hread.inOrder, hread.inOrder', hread.held, ?_⟩
    rcases hread.ended with ⟨rfl, hends, hended⟩ | ⟨rfl, hends, hended⟩
    · refine .inl ⟨rfl, hends, fun other => ?_⟩
      exact (intersect_eq_ok_iff (b := ⟨b.field, read' ++ other⟩) hfield).2 ⟨hmfield, hended other _ _⟩
    · refine .inr ⟨rfl, hends, fun other => ?_⟩
      exact (intersect_eq_ok_iff (a := ⟨a.field, read ++ other⟩) hfield).2 ⟨hmfield, hended other _ _⟩

/-- The second list is out of order behind the interval with which the walk ends, and what it has in common with
the first list there is lost. -/
theorem intersect_reads_not_all :
    let a : IntervalList := ⟨"a", [⟨.int 1, true, .int 5, true⟩]⟩
    let b : IntervalList := ⟨"a", [⟨.int 5, true, .int 6, true⟩, ⟨.int 1, true, .int 2, true⟩]⟩
    let m : IntervalList := ⟨"a", [⟨.int 5, true, .int 5, true⟩]⟩
    a.field = b.field ∧ (∀ i ∈ a.intervals, i.WellFormed ∨ i.direction = .descending) ∧
      (∀ i ∈ b.intervals, i.WellFormed ∨ i.direction = .descending) ∧ a.intersect b = .ok m ∧
      a.Holds (.int 1) ∧ b.Holds (.int 1) ∧ ¬m.Holds (.int 1) ∧
      ∃ read read', read <+: a.intervals ∧ read' <+: b.intervals ∧ InOrder read ∧ InOrder read' ∧
        ∀ v, m.Holds v ↔ Held read v ∧ Held read' v := by
  intro a b m
  have ha : ∀ i ∈ a.intervals, i.WellFormed ∨ i.direction = .descending := by
    intro i hi
    simp only [a, List.mem_cons, List.not_mem_nil, or_false] at hi
    subst hi
    exact .inl (.inl (by decide +kernel))
  have hb : ∀ i ∈ b.intervals, i.WellFormed ∨ i.direction = .descending := by
    intro i hi
    simp only [b, List.mem_cons, List.not_mem_nil, or_false] at hi
    rcases hi with rfl | rfl <;> exact .inl (.inl (by decide +kernel))
  have hfield : a.field = b.field := rfl
  have hm : a.intersect b = .ok m := by
    refine (intersect_eq_ok_iff hfield).2 ⟨rfl, overlaps_cons_cons_eq_ok_iff.2 ⟨?_, ?_, [], ?_, rfl⟩⟩
    · exact ⟨by decide +kernel, by simp⟩
    · exact ⟨by decide +kernel, by simp⟩
    · -- the first list is at its end
      exact overlaps_nil_left
  obtain ⟨read, read', hleft, hright, hread, hread', hheld, -⟩ := (intersect_reads hfield ha hb).2 m hm
  refine ⟨rfl, ha, hb, hm, ⟨_, List.mem_singleton_self _, by decide +kernel⟩, ?_, ?_, read, read', hleft, hright,
    hread, hread', hheld⟩
  · exact ⟨⟨.int 1, true, .int 2, true⟩, by simp [b], by decide +kernel⟩
  · rintro ⟨i, hi, hv⟩
    obtain rfl := List.mem_singleton.1 hi
    revert hv
    decide +kernel

end IntervalList

end ScanBounds

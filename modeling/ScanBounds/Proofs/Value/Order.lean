import Mathlib.Order.Antisymmetrization
import Mathlib.Tactic.Lemma
import ScanBounds.Proofs.Value.Number
import ScanBounds.Value.Order

/-!
# The order of values is total

The comparison of values is a total preorder: it compares by bracket first, and inside a bracket it is a
lexicographic comparison of components that are totally ordered themselves.  Both laws are proved in that
shape.  Antisymmetry up to equality is `compare_swap`; transitivity is `compare_composes`, which says what
two comparisons in a row make together, so that the components of a lexicographic comparison can be
composed one by one (`Composes.then`).

Equal values need not be the same (`1` and `1.0`), so the order is a preorder.  `Value.Class` is the linear
order of what the comparison can tell apart; the theory of intervals is stated there.
-/

namespace ScanBounds

/-! ## Comparisons in a row -/

/-- What two comparisons in a row that do not go down make together. -/
def Composes (o₁ o₂ o : Ordering) : Prop := o₁ ≠ .gt → o₂ ≠ .gt → o = o₁.then o₂

lemma Composes.of_transOrd {α : Type} [Ord α] [Std.TransOrd α] (a b c : α) :
    Composes (compare a b) (compare b c) (compare a c) := by
  intro hab hbc
  cases h₁ : compare a b <;> cases h₂ : compare b c <;> try contradiction
  · exact Std.TransCmp.lt_trans h₁ h₂
  · exact Std.TransCmp.lt_of_lt_of_eq h₁ h₂
  · exact Std.TransCmp.lt_of_eq_of_lt h₁ h₂
  · exact Std.TransCmp.eq_trans h₁ h₂

/-- A later component only counts where the earlier ones are equal. -/
lemma Composes.then {a b c a' b' c' : Ordering} (h : Composes a b c)
    (h' : a = .eq → b = .eq → Composes a' b' c') :
    Composes (a.then a') (b.then b') (c.then c') := by
  intro hab hbc
  cases a <;> cases b <;> simp [Composes] at h h' hab hbc ⊢
  · simp [h]
  · simp [h]
  · cases a' <;> simp [h] at hab ⊢
  · rw [h, h' hab hbc]
    rfl

lemma Composes.isLE_trans {a b c : Ordering} (h : Composes a b c) (ha : a.isLE) (hb : b.isLE) :
    c.isLE := by
  cases a <;> cases b <;> simp_all [Composes]

/-! ## Quantities and numbers -/

namespace Quantity

/-- The units that a finite quantity counts; zero stands in for the others. -/
def units : Quantity → Int
  | finite n => n
  | _ => 0

lemma compare_eq_then (a b : Quantity) :
    compare a b = (compare a.rank b.rank).then (compare a.units b.units) := by
  cases a <;> cases b <;> rfl

instance : Std.TransOrd Quantity where
  eq_swap {a b} := (compare_swap b a).symm
  isLE_trans {a b c} hab hbc := by
    simp only [compare_eq_then] at hab hbc ⊢
    have ranks := Composes.of_transOrd a.rank b.rank c.rank
    exact (ranks.then fun _ _ => .of_transOrd a.units b.units c.units).isLE_trans hab hbc

end Quantity

instance : Std.TransOrd Number where
  eq_swap {m n} := by
    rw [Number.compare_eq, Number.compare_eq n]
    exact Std.OrientedOrd.eq_swap
  isLE_trans {l m n} hlm hmn := by
    rw [Number.compare_eq] at hlm hmn ⊢
    exact Std.TransOrd.isLE_trans hlm hmn

namespace Value

/-! ## Brackets -/

@[simp] lemma rank_minKey : rank minKey = -1 := rfl
@[simp] lemma rank_undefined : rank undefined = 0 := rfl
@[simp] lemma rank_null : rank null = 5 := rfl
@[simp] lemma rank_number (n : Number) : (number n).rank = 10 := by cases n <;> rfl
@[simp] lemma rank_symbol (s : String) : (symbol s).rank = 15 := rfl
@[simp] lemma rank_string (s : String) : (string s).rank = 15 := rfl
@[simp] lemma rank_object (xs : List (String × Value)) : (object xs).rank = 20 := rfl
@[simp] lemma rank_array (xs : List Value) : (array xs).rank = 25 := rfl
@[simp] lemma rank_binData (s : UInt8) (bs : List UInt8) : (binData s bs).rank = 30 := rfl
@[simp] lemma rank_objectId (x : BitVec 96) : (objectId x).rank = 35 := rfl
@[simp] lemma rank_bool (b : Bool) : (bool b).rank = 40 := rfl
@[simp] lemma rank_date (x : Int64) : (date x).rank = 45 := rfl
@[simp] lemma rank_timestamp (x : UInt64) : (timestamp x).rank = 47 := rfl
@[simp] lemma rank_regex (p f : String) : (regex p f).rank = 50 := rfl
@[simp] lemma rank_code (s : String) : (code s).rank = 60 := rfl
@[simp] lemma rank_codeWithScope (s : String) (xs : List (String × Value)) :
    (codeWithScope s xs).rank = 65 := rfl
@[simp] lemma rank_maxKey : rank maxKey = 127 := rfl

/-- One constructor for each pair of shapes that sort in one bracket. -/
inductive SameBracket : Value → Value → Prop where
  | minKey : SameBracket .minKey .minKey
  | undefined : SameBracket .undefined .undefined
  | null : SameBracket .null .null
  | number (m n : Number) : SameBracket (.number m) (.number n)
  | symbol (s t : String) : SameBracket (.symbol s) (.symbol t)
  | symbolString (s t : String) : SameBracket (.symbol s) (.string t)
  | stringSymbol (s t : String) : SameBracket (.string s) (.symbol t)
  | string (s t : String) : SameBracket (.string s) (.string t)
  | object (xs ys : List (String × Value)) : SameBracket (.object xs) (.object ys)
  | array (xs ys : List Value) : SameBracket (.array xs) (.array ys)
  | binData (s t : UInt8) (bs cs : List UInt8) : SameBracket (.binData s bs) (.binData t cs)
  | objectId (x y : BitVec 96) : SameBracket (.objectId x) (.objectId y)
  | bool (b c : Bool) : SameBracket (.bool b) (.bool c)
  | date (x y : Int64) : SameBracket (.date x) (.date y)
  | timestamp (x y : UInt64) : SameBracket (.timestamp x) (.timestamp y)
  | regex (p f q g : String) : SameBracket (.regex p f) (.regex q g)
  | code (s t : String) : SameBracket (.code s) (.code t)
  | codeWithScope (s t : String) (xs ys : List (String × Value)) :
      SameBracket (.codeWithScope s xs) (.codeWithScope t ys)
  | maxKey : SameBracket .maxKey .maxKey

lemma sameBracket_of_rank_eq {v w : Value} (h : v.rank = w.rank) : SameBracket v w := by
  cases v <;> cases w <;> first | constructor | (exfalso; simp at h)

lemma compare_of_rank_ne {v w : Value} (h : v.rank ≠ w.rank) :
    v.compare w = Ord.compare v.rank w.rank := by
  unfold Value.compare
  split <;> first | rfl | simp at h

lemma compare_eq_rank_then (v w : Value) :
    v.compare w = (compare v.rank w.rank).then (v.compare w) := by
  by_cases hr : v.rank = w.rank
  · rw [hr, Std.compare_self]
    rfl
  · rw [compare_of_rank_ne hr]
    cases compare v.rank w.rank <;> rfl

/-! ## Induction -/

/-- The values directly inside a value. -/
def children : Value → List Value
  | object fields | codeWithScope _ fields => fields.map Prod.snd
  | array items => items
  | _ => []

lemma sizeOf_lt_of_mem_fields {v : Value} {fields : List (String × Value)}
    (h : v ∈ fields.map Prod.snd) : sizeOf v < sizeOf fields := by
  obtain ⟨⟨name, w⟩, hmem, rfl⟩ := List.mem_map.1 h
  have := List.sizeOf_lt_of_mem hmem
  simp only [Prod.mk.sizeOf_spec] at this
  show sizeOf w < sizeOf fields
  omega

lemma sizeOf_lt_of_mem_children {v w : Value} (h : w ∈ v.children) : sizeOf w < sizeOf v := by
  cases v <;> simp only [children, List.not_mem_nil] at h
  case object fields =>
    have := sizeOf_lt_of_mem_fields h
    simp only [object.sizeOf_spec]
    omega
  case array items =>
    have := List.sizeOf_lt_of_mem h
    simp only [array.sizeOf_spec]
    omega
  case codeWithScope source fields =>
    have := sizeOf_lt_of_mem_fields h
    simp only [codeWithScope.sizeOf_spec]
    omega

/-- What holds of a value once it holds of the values directly inside it holds of every value. -/
@[elab_as_elim]
theorem induction_children {motive : Value → Prop}
    (step : ∀ v, (∀ w ∈ v.children, motive w) → motive v) (v : Value) : motive v :=
  step v fun w hw =>
    have := sizeOf_lt_of_mem_children hw
    induction_children step w
termination_by sizeOf v

/-! ## Comparing the other way round -/

lemma compareItems_swap {vs : List Value}
    (h : ∀ v ∈ vs, ∀ w, v.compare w = (w.compare v).swap) (ws : List Value) :
    compareItems vs ws = (compareItems ws vs).swap := by
  induction vs generalizing ws with
  | nil => cases ws <;> rfl
  | cons v vs ih =>
    cases ws with
    | nil => rfl
    | cons w ws =>
      simp only [compareItems, Ordering.swap_then]
      rw [h v (by simp) w, ih (fun v hv => h v (by simp [hv])) ws]

lemma compareFields_swap {xs : List (String × Value)}
    (h : ∀ v ∈ xs.map Prod.snd, ∀ w, v.compare w = (w.compare v).swap)
    (ys : List (String × Value)) : compareFields xs ys = (compareFields ys xs).swap := by
  induction xs generalizing ys with
  | nil => cases ys <;> rfl
  | cons x xs ih =>
    cases ys with
    | nil => rfl
    | cons y ys =>
      obtain ⟨a, v⟩ := x
      obtain ⟨b, w⟩ := y
      simp only [compareFields, Ordering.swap_then]
      rw [h v (by simp) w,
        ih (fun v hv => h v (by simp only [List.map_cons, List.mem_cons, hv, or_true])) ys,
        Std.OrientedOrd.eq_swap (a := v.rank), Std.OrientedOrd.eq_swap (a := a)]

/-- Comparing the other way round gives the opposite answer. -/
theorem compare_swap (v w : Value) : v.compare w = (w.compare v).swap := by
  induction v using induction_children generalizing w with
  | step v ih =>
    by_cases hr : v.rank = w.rank
    · cases sameBracket_of_rank_eq hr <;> simp only [Value.compare, Ordering.swap_then]
      case object xs ys => exact compareFields_swap ih ys
      case array xs ys => exact compareItems_swap ih ys
      case codeWithScope s t xs ys =>
        rw [Std.OrientedOrd.eq_swap (a := s), compareFields_swap ih ys]
      case binData s t bs cs =>
        rw [Std.OrientedOrd.eq_swap (a := bs.length), Std.OrientedOrd.eq_swap (a := s),
          Std.OrientedOrd.eq_swap (a := bs)]
      case regex p f q g =>
        rw [Std.OrientedOrd.eq_swap (a := p), Std.OrientedOrd.eq_swap (a := f)]
      -- the other brackets have one component
      all_goals exact Std.OrientedOrd.eq_swap
    · rw [compare_of_rank_ne hr, compare_of_rank_ne (Ne.symm hr)]
      exact Std.OrientedOrd.eq_swap

/-! ## Comparing in a row -/

lemma compareItems_composes {us : List Value}
    (h : ∀ u ∈ us, ∀ v w, Composes (u.compare v) (v.compare w) (u.compare w))
    (vs ws : List Value) :
    Composes (compareItems us vs) (compareItems vs ws) (compareItems us ws) := by
  induction us generalizing vs ws with
  | nil => cases vs <;> cases ws <;> simp [Composes, compareItems]
  | cons u us ih =>
    rcases vs with - | ⟨v, vs⟩ <;> rcases ws with - | ⟨w, ws⟩
    · simp [Composes, compareItems]
    · simp [Composes, compareItems]
    · simp [Composes, compareItems]
    · exact (h u (by simp) v w).then fun _ _ => ih (fun u hu => h u (by simp [hu])) vs ws

lemma compareFields_composes {xs : List (String × Value)}
    (h : ∀ u ∈ xs.map Prod.snd, ∀ v w, Composes (u.compare v) (v.compare w) (u.compare w))
    (ys zs : List (String × Value)) :
    Composes (compareFields xs ys) (compareFields ys zs) (compareFields xs zs) := by
  induction xs generalizing ys zs with
  | nil => cases ys <;> cases zs <;> simp [Composes, compareFields]
  | cons x xs ih =>
    rcases ys with - | ⟨y, ys⟩ <;> rcases zs with - | ⟨z, zs⟩
    · simp [Composes, compareFields]
    · simp [Composes, compareFields]
    · simp [Composes, compareFields]
    · refine (Composes.of_transOrd x.2.rank y.2.rank z.2.rank).then fun _ _ => ?_
      refine (Composes.of_transOrd x.1 y.1 z.1).then fun _ _ => ?_
      refine (h x.2 (by simp) y.2 z.2).then fun _ _ => ?_
      exact ih (fun u hu => h u (by simp only [List.map_cons, List.mem_cons, hu, or_true])) ys zs

theorem compare_composes (u v w : Value) :
    Composes (u.compare v) (v.compare w) (u.compare w) := by
  induction u using induction_children generalizing v w with
  | step u ih =>
    rw [compare_eq_rank_then u v, compare_eq_rank_then v w, compare_eq_rank_then u w]
    refine (Composes.of_transOrd u.rank v.rank w.rank).then fun huv hvw => ?_
    have huv := sameBracket_of_rank_eq (Std.LawfulEqOrd.eq_of_compare huv)
    have hvw := sameBracket_of_rank_eq (Std.LawfulEqOrd.eq_of_compare hvw)
    cases huv <;> cases hvw <;> simp only [Value.compare]
    case object.object xs ys zs => exact compareFields_composes ih ys zs
    case array.array xs ys zs => exact compareItems_composes ih ys zs
    case codeWithScope.codeWithScope s t xs ys r zs =>
      exact (Composes.of_transOrd s t r).then fun _ _ => compareFields_composes ih ys zs
    case binData.binData s t bs cs r ds =>
      refine (Composes.of_transOrd bs.length cs.length ds.length).then fun _ _ => ?_
      exact (Composes.of_transOrd s t r).then fun _ _ => Composes.of_transOrd bs cs ds
    case regex.regex p f q g p' f' =>
      exact (Composes.of_transOrd p q p').then fun _ _ => Composes.of_transOrd f g f'
    all_goals exact Composes.of_transOrd _ _ _

instance : Std.TransOrd Value where
  eq_swap := compare_swap _ _
  isLE_trans {u v w} := (compare_composes u v w).isLE_trans

/-! ## The linear order of what the comparison tells apart -/

lemma le_iff_isLE {v w : Value} : v ≤ w ↔ (compare v w).isLE :=
  Ordering.isLE_iff_ne_gt.symm

lemma lt_iff_compare {v w : Value} : v < w ↔ compare v w = .lt := Iff.rfl

lemma beq_iff_compare {v w : Value} : (v == w) = true ↔ compare v w = .eq := by
  show (compare v w == .eq) = true ↔ _
  rw [beq_iff_eq]

instance : Preorder Value where
  le_refl v := le_iff_isLE.2 Std.ReflOrd.isLE_rfl
  le_trans u v w := by
    simp only [le_iff_isLE]
    exact Std.TransOrd.isLE_trans
  lt_iff_le_not_ge v w := by
    rw [le_iff_isLE, le_iff_isLE, lt_iff_compare, Std.OrientedOrd.eq_swap (a := w)]
    cases compare v w <;> simp

instance : Std.Total (α := Value) (· ≤ ·) where
  total v w := by
    rw [le_iff_isLE, le_iff_isLE, Std.OrientedOrd.eq_swap (a := w)]
    cases compare v w <;> simp

/-- Values up to equality. -/
abbrev Class := Antisymmetrization Value (· ≤ ·)

def toClass (v : Value) : Class := toAntisymmetrization (· ≤ ·) v

@[simp] lemma toClass_le {v w : Value} : v.toClass ≤ w.toClass ↔ v ≤ w := Iff.rfl

@[simp] lemma toClass_lt {v w : Value} : v.toClass < w.toClass ↔ v < w :=
  toAntisymmetrization_lt_toAntisymmetrization_iff

lemma le_iff_not_lt {v w : Value} : v ≤ w ↔ ¬w < v := by
  rw [← toClass_le, ← toClass_lt, not_lt]

lemma toClass_eq {v w : Value} : v.toClass = w.toClass ↔ (v == w) = true := by
  rw [le_antisymm_iff, toClass_le, toClass_le, le_iff_isLE, le_iff_isLE, beq_iff_compare,
    Std.OrientedOrd.eq_swap (a := w)]
  cases compare v w <;> simp

lemma compare_eq_lt_iff {v w : Value} : v.compare w = .lt ↔ v.toClass < w.toClass :=
  toClass_lt.symm

lemma compare_eq_eq_iff {v w : Value} : v.compare w = .eq ↔ v.toClass = w.toClass := by
  rw [toClass_eq, beq_iff_compare]
  rfl

lemma compare_eq_gt_iff {v w : Value} : v.compare w = .gt ↔ w.toClass < v.toClass := by
  rw [compare_swap, ← compare_eq_lt_iff]
  cases w.compare v <;> simp

lemma lt_of_rank_lt {v w : Value} (h : v.rank < w.rank) : v < w := by
  rw [lt_iff_compare]
  exact (compare_of_rank_ne h.ne).trans (Std.compare_eq_lt.2 h)

lemma rank_le_of_le {v w : Value} (h : v ≤ w) : v.rank ≤ w.rank :=
  not_lt.1 fun hlt => (lt_of_rank_lt hlt).not_ge h

lemma rank_eq_of_beq {v w : Value} (h : (v == w) = true) : v.rank = w.rank := by
  have h := toClass_eq.2 h
  exact le_antisymm (rank_le_of_le (toClass_le.1 h.le)) (rank_le_of_le (toClass_le.1 h.ge))

end Value

end ScanBounds

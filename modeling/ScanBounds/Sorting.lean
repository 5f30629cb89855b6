/-!
# Stable sorting

Values, intervals and log fields are sorted by merging sorted halves.  Elements that the order does not
tell apart keep their places among each other, and which of several equal values survives a later merge
depends on that.  All functions recurse on structure, so that sorting known elements computes in proofs.
Main statements: sorting permutes (`sort_perm`), by a total order the outcome ascends (`pairwise_sort`),
and a list that ascends already stays as it is (`sort_eq_self`).
-/

namespace ScanBounds.Sorting

variable {α : Type}

/-- Puts `x` in front of the first element that it is not above, and merges what follows there. -/
def mergeAt (le : α → α → Bool) (x : α) (rest : List α → List α) : List α → List α
  | [] => x :: rest []
  | y :: ys => if le x y then x :: rest (y :: ys) else y :: mergeAt le x rest ys

/-- Merges two sorted lists; of elements not told apart, those of the first list come first. -/
def merge (le : α → α → Bool) : List α → List α → List α
  | [], ys => ys
  | x :: xs, ys => mergeAt le x (merge le xs) ys

/-- Sorts a list that can be halved no more than `n` times. -/
def sortHalves (le : α → α → Bool) : Nat → List α → List α
  | 0, l => l
  | _ + 1, [] => []
  | _ + 1, [x] => [x]
  | n + 1, x :: y :: rest =>
    let l := x :: y :: rest
    let half := (l.length + 1) / 2
    merge le (sortHalves le n (l.take half)) (sortHalves le n (l.drop half))

def sort (le : α → α → Bool) (l : List α) : List α := sortHalves le l.length l

variable {le : α → α → Bool}

theorem merge_eq (xs ys : List α) : merge le xs ys = xs.merge ys le := by
  induction xs generalizing ys with
  | nil => simp [merge]
  | cons x xs ih =>
    induction ys with
    | nil => simp [merge, mergeAt, ih]
    | cons y ys ihy =>
      simp only [merge] at ihy
      rw [merge, mergeAt, List.cons_merge_cons]
      split
      · rw [ih]
      · rw [ihy]

theorem sortHalves_perm (n : Nat) (l : List α) : (sortHalves le n l).Perm l := by
  fun_induction sortHalves le n l with
  | case1 => exact List.Perm.refl _
  | case2 => exact List.Perm.refl _
  | case3 => exact List.Perm.refl _
  | case4 n x y rest l half front back =>
    have halves := front.append back
    rw [List.take_append_drop] at halves
    rw [merge_eq]
    exact (List.merge_perm_append le).trans halves

theorem sort_perm (l : List α) : (sort le l).Perm l := sortHalves_perm l.length l

@[simp]
theorem mem_sort {x : α} {l : List α} : x ∈ sort le l ↔ x ∈ l := (sort_perm l).mem_iff

/-- Halving a list of `n` elements `n` times leaves nothing unsorted. -/
theorem pairwise_sortHalves (total : ∀ x y, le x y = false → le y x = true)
    (trans : ∀ x y z, le x y = true → le y z = true → le x z = true) {n : Nat} {l : List α}
    (h : l.length ≤ n) : (sortHalves le n l).Pairwise fun x y => le x y = true := by
  have either (x y : α) : (le x y || le y x) = true := by
    cases hxy : le x y with
    | true => rfl
    | false => exact total x y hxy
  fun_induction sortHalves le n l with
  | case1 l =>
    rw [List.eq_nil_of_length_eq_zero (Nat.le_zero.1 h)]
    exact List.Pairwise.nil
  | case2 => exact List.Pairwise.nil
  | case3 => exact List.pairwise_singleton _ _
  | case4 n x y rest l half front back =>
    have size : l.length = rest.length + 2 := rfl
    have middle : half = (l.length + 1) / 2 := rfl
    have bound : l.length ≤ n + 1 := h
    rw [merge_eq]
    refine List.pairwise_merge trans either _ _ (front ?_) (back ?_)
    · rw [List.length_take]
      omega
    · rw [List.length_drop]
      omega

/-- A list sorted by a total order ascends. -/
theorem pairwise_sort (total : ∀ x y, le x y = false → le y x = true)
    (trans : ∀ x y z, le x y = true → le y z = true → le x z = true) (l : List α) :
    (sort le l).Pairwise fun x y => le x y = true :=
  pairwise_sortHalves total trans (Nat.le_refl _)

theorem sortHalves_eq_self {n : Nat} {l : List α} (h : l.Pairwise fun x y => le x y = true) :
    sortHalves le n l = l := by
  fun_induction sortHalves le n l with
  | case1 => rfl
  | case2 => rfl
  | case3 => rfl
  | case4 n x y rest l half front back =>
    have cut : l.take half ++ l.drop half = l := List.take_append_drop half l
    have ordered : (l.take half ++ l.drop half).Pairwise fun x y => le x y = true := by
      rw [cut]
      exact h
    obtain ⟨hfront, hback, hcross⟩ := List.pairwise_append.1 ordered
    rw [front hfront, back hback, merge_eq, List.merge_of_le fun x y hx hy => hcross x hx y hy, cut]

/-- Nothing moves in a list that ascends. -/
theorem sort_eq_self {l : List α} (h : l.Pairwise fun x y => le x y = true) : sort le l = l :=
  sortHalves_eq_self h

end ScanBounds.Sorting

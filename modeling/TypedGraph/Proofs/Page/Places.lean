import Mathlib.Data.List.Basic

/-!
# Proofs/Page/Places — the places of rows in pages

The rows before a place make pages of so many rows, from their end on, of which the first may have
fewer rows.  Each row has a place in its page (`placeInPage`).  All rows have one of the first
places exactly where the last page has no other (`forall_placeInPage_lt_iff`).
-/

namespace TypedGraph

/-! ## Items at places -/

variable {α : Type} {P Q : Nat → Bool} {xs : List α} {n : Nat}

/-- The items of a list at some places, which are counted from a number on. -/
def atPlaces (P : Nat → Bool) (xs : List α) (n : Nat) : List α :=
  ((xs.zipIdx n).filter fun x => P x.2).map Prod.fst

theorem atPlaces_append (P : Nat → Bool) (xs ys : List α) (n : Nat) :
    atPlaces P (xs ++ ys) n = atPlaces P xs n ++ atPlaces P ys (n + xs.length) := by
  rw [atPlaces, List.zipIdx_append, List.filter_append, List.map_append]
  rfl

theorem atPlaces_congr (h : ∀ i, n ≤ i → i < n + xs.length → P i = Q i) :
    atPlaces P xs n = atPlaces Q xs n := by
  refine congrArg (List.map Prod.fst) (List.filter_congr fun x hx => ?_)
  obtain ⟨hlow, hhigh, -⟩ := List.mem_zipIdx hx
  exact h x.2 hlow hhigh

/-- All items are kept exactly where all places are. -/
theorem atPlaces_eq_self_iff :
    atPlaces P xs n = xs ↔ ∀ i, n ≤ i → i < n + xs.length → P i = true := by
  constructor
  · intro h i hlow hhigh
    have hall : ∀ x ∈ xs.zipIdx n, P x.2 = true := by
      rw [← List.length_filter_eq_length_iff, List.length_zipIdx]
      simpa only [atPlaces, List.length_map] using congrArg List.length h
    have hmem : (xs[i - n], i) ∈ xs.zipIdx n := by
      refine List.mk_mem_zipIdx_iff_le_and_getElem?_sub.2 ⟨hlow, ?_⟩
      exact List.getElem?_eq_getElem (by omega)
    exact hall _ hmem
  · intro h
    have hall : (xs.zipIdx n).filter (fun x => P x.2) = xs.zipIdx n := by
      refine List.filter_eq_self.2 fun x hx => ?_
      obtain ⟨hlow, hhigh, -⟩ := List.mem_zipIdx hx
      exact h x.2 hlow hhigh
    rw [atPlaces, hall, List.zipIdx_map_fst]

/-- The items at the first places. -/
theorem atPlaces_first {size : Nat} :
    atPlaces (fun i => decide (i - n < size)) xs n = xs.take size := by
  have hfirst : atPlaces (fun i => decide (i - n < size)) (xs.take size) n = xs.take size := by
    refine atPlaces_eq_self_iff.2 fun i hlow hhigh => decide_eq_true ?_
    rw [List.length_take] at hhigh
    omega
  have hrest : atPlaces (fun i => decide (i - n < size)) (xs.drop size)
      (n + (xs.take size).length) = [] := by
    refine List.map_eq_nil_iff.2 (List.filter_eq_nil_iff.2 fun x hx => ?_)
    obtain ⟨hlow, hhigh, -⟩ := List.mem_zipIdx hx
    rw [List.length_take, List.length_drop] at hhigh
    rw [List.length_take] at hlow
    simp only [decide_eq_true_iff]
    omega
  have hsplit :=
    atPlaces_append (fun i => decide (i - n < size)) (xs.take size) (xs.drop size) n
  rw [List.take_append_drop, hfirst, hrest, List.append_nil] at hsplit
  exact hsplit

/-! ## Places in pages -/

namespace Paging

variable {k stop i : Nat}

/-- **The place of a row in its page**, where the rows before a place make pages of `k` rows from
their end on.  The first of these pages may have fewer rows. -/
def placeInPage (k stop i : Nat) : Nat := min i (k - 1 - (stop - 1 - i) % k)

/-- The pages before the last. -/
theorem placeInPage_sub (h : i < stop - k) : placeInPage k (stop - k) i = placeInPage k stop i := by
  have hdistance : stop - 1 - i = stop - k - 1 - i + k := by omega
  rw [placeInPage, placeInPage, hdistance, Nat.add_mod_right]

/-- The last page. -/
theorem placeInPage_of_le (hlow : stop - k ≤ i) (hhigh : i < stop) :
    placeInPage k stop i = i - (stop - k) := by
  rw [placeInPage, Nat.mod_eq_of_lt (by omega)]
  omega

theorem placeInPage_lt (hk : 0 < k) (h : i < stop) : placeInPage k stop i < min k stop := by
  unfold placeInPage
  omega

/-- The last row of a page is at the last place. -/
theorem forall_placeInPage_lt_iff {size : Nat} (hk : 0 < k) :
    (∀ i < stop, placeInPage k stop i < size) ↔ min k stop ≤ size := by
  constructor
  · intro h
    cases stop with
    | zero => exact Nat.le_trans (Nat.min_le_right k 0) (Nat.zero_le size)
    | succ last =>
      have hlast := h last (Nat.lt_succ_self last)
      rw [placeInPage_of_le (by omega) (Nat.lt_succ_self last)] at hlast
      omega
  · intro h i hi
    exact Nat.lt_of_lt_of_le (placeInPage_lt hk hi) h

end Paging

end TypedGraph

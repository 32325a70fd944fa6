/-!
# Order/Stable — a stable sort

Items are taken one by one, and each goes behind all sorted ones that it does not come before.
So equal items keep their order (`filter_stableSort`), nothing is lost or made
(`stableSort_perm`), and the result ascends wherever the comparison is a preorder of the items
(`pairwise_stableSort`).  A comparison that is none is asked only for pairs that the insertion
meets, from the end of the sorted items on.
-/

namespace TypedGraph

universe u v

variable {α : Type u} {β : Type v}

/-- Insert an item into items that are sorted downwards: it passes those that it comes before, up to
the first one that it does not. -/
def insertDown (compare : α → α → Ordering) (x : α) : List α → List α
  | [] => [x]
  | y :: ys => if compare x y = .lt then y :: insertDown compare x ys else x :: y :: ys

/-- **The stable sort** by a comparison. -/
def stableSort (compare : α → α → Ordering) (items : List α) : List α :=
  (items.foldl (fun sorted x => insertDown compare x sorted) []).reverse

variable {compare : α → α → Ordering}

/-! ## The items -/

theorem insertDown_perm (x : α) : ∀ ys : List α, (insertDown compare x ys).Perm (x :: ys)
  | [] => .refl _
  | y :: ys => by
    rw [insertDown]
    split
    · exact ((insertDown_perm x ys).cons y).trans (.swap x y ys)
    · exact .refl _

theorem foldl_insertDown_perm (compare : α → α → Ordering) : ∀ xs acc : List α,
    (xs.foldl (fun sorted x => insertDown compare x sorted) acc).Perm (xs ++ acc)
  | [], _ => .refl _
  | x :: xs, acc =>
    (foldl_insertDown_perm compare xs _).trans
      (((insertDown_perm x acc).append_left xs).trans List.perm_middle)

/-- **Sorting permutes.** -/
theorem stableSort_perm (xs : List α) : (stableSort compare xs).Perm xs :=
  (List.reverse_perm _).trans (by simpa using foldl_insertDown_perm compare xs [])

@[simp] theorem length_stableSort (xs : List α) : (stableSort compare xs).length = xs.length :=
  (stableSort_perm xs).length_eq

@[simp] theorem mem_stableSort {x : α} {xs : List α} : x ∈ stableSort compare xs ↔ x ∈ xs :=
  (stableSort_perm xs).mem_iff

/-! ## The order of equal items -/

theorem filter_insertDown {p : α → Bool} {x : α} : ∀ {ys : List α},
    (∀ y ∈ ys, p x → p y → compare x y ≠ .lt) →
      (insertDown compare x ys).filter p = (x :: ys).filter p
  | [], _ => rfl
  | y :: ys, h => by
    rw [insertDown]
    split
    · next hlt =>
      have ih := filter_insertDown fun z hz => h z (List.mem_cons_of_mem y hz)
      have hy := h y (List.mem_cons_self)
      cases hpx : p x <;> cases hpy : p y <;> simp_all
    · rfl

theorem filter_foldl_insertDown {p : α → Bool} : ∀ {xs acc : List α},
    (∀ x ∈ xs, ∀ y ∈ xs ++ acc, p x → p y → compare x y ≠ .lt) →
      (xs.foldl (fun sorted x => insertDown compare x sorted) acc).filter p =
        xs.reverse.filter p ++ acc.filter p
  | [], _, _ => by simp
  | x :: xs, acc, h => by
    have hx : ∀ y ∈ acc, p x → p y → compare x y ≠ .lt := fun y hy =>
      h x (by simp) y (by simp [hy])
    rw [List.foldl_cons, filter_foldl_insertDown, filter_insertDown hx]
    · cases hpx : p x <;> simp [hpx]
    · intro z hz y hy
      refine h z (by simp [hz]) y ?_
      rcases List.mem_append.1 hy with hy | hy
      · simp [hy]
      · rcases List.mem_cons.1 ((insertDown_perm x acc).mem_iff.1 hy) with rfl | hy <;> simp [*]

/-- **Sorting is stable**: items none of which comes before another keep their order. -/
theorem filter_stableSort {p : α → Bool} {xs : List α}
    (h : ∀ x ∈ xs, ∀ y ∈ xs, p x → p y → compare x y ≠ .lt) :
    (stableSort compare xs).filter p = xs.filter p := by
  rw [stableSort, List.filter_reverse, filter_foldl_insertDown (by simpa using h)]
  simp [List.filter_reverse]

/-! ## The order of the result -/

theorem pairwise_insertDown {P : α → Prop} {x : α}
    (swap : ∀ a b, P a → P b → compare b a = (compare a b).swap)
    (trans : ∀ a b c, P a → P b → P c →
      compare a b ≠ .gt → compare b c ≠ .gt → compare a c ≠ .gt) (hx : P x) :
    ∀ {ys : List α}, (∀ y ∈ ys, P y) → ys.Pairwise (fun a b => compare b a ≠ .gt) →
      (insertDown compare x ys).Pairwise (fun a b => compare b a ≠ .gt)
  | [], _, _ => by simp [insertDown]
  | y :: ys, hP, h => by
    have hy := hP y List.mem_cons_self
    have hys : ∀ z ∈ ys, P z := fun z hz => hP z (List.mem_cons_of_mem y hz)
    obtain ⟨hhead, htail⟩ := List.pairwise_cons.1 h
    rw [insertDown]
    split
    · next hlt =>
      refine List.pairwise_cons.2 ⟨fun z hz => ?_, pairwise_insertDown swap trans hx hys htail⟩
      rcases List.mem_cons.1 ((insertDown_perm x ys).mem_iff.1 hz) with rfl | hz
      · simp [hlt]
      · exact hhead z hz
    · next hlt =>
      have hyx : compare y x ≠ .gt := by
        have hs := swap x y hx hy
        clear swap trans
        cases hc : compare x y <;> simp_all
      refine List.pairwise_cons.2 ⟨fun z hz => ?_, h⟩
      rcases List.mem_cons.1 hz with rfl | hz
      · exact hyx
      · exact trans z y x (hys z hz) hy hx (hhead z hz) hyx

theorem pairwise_foldl_insertDown {P : α → Prop}
    (swap : ∀ a b, P a → P b → compare b a = (compare a b).swap)
    (trans : ∀ a b c, P a → P b → P c →
      compare a b ≠ .gt → compare b c ≠ .gt → compare a c ≠ .gt) :
    ∀ xs acc : List α, (∀ x ∈ xs, P x) → (∀ y ∈ acc, P y) →
      acc.Pairwise (fun a b => compare b a ≠ .gt) →
      (xs.foldl (fun sorted x => insertDown compare x sorted) acc).Pairwise
        (fun a b => compare b a ≠ .gt)
  | [], _, _, _, h => h
  | x :: xs, acc, hxs, hacc, h => by
    refine pairwise_foldl_insertDown swap trans xs _
      (fun z hz => hxs z (List.mem_cons_of_mem x hz)) (fun y hy => ?_)
      (pairwise_insertDown swap trans (hxs x List.mem_cons_self) hacc h)
    rcases List.mem_cons.1 ((insertDown_perm x acc).mem_iff.1 hy) with rfl | hy
    · exact hxs _ List.mem_cons_self
    · exact hacc y hy

/-- **The result ascends** where the comparison is a preorder of the items. -/
theorem pairwise_stableSort {xs : List α}
    (swap : ∀ a ∈ xs, ∀ b ∈ xs, compare b a = (compare a b).swap)
    (trans : ∀ a ∈ xs, ∀ b ∈ xs, ∀ c ∈ xs,
      compare a b ≠ .gt → compare b c ≠ .gt → compare a c ≠ .gt) :
    (stableSort compare xs).Pairwise (fun a b => compare a b ≠ .gt) :=
  List.pairwise_reverse.2 <|
    pairwise_foldl_insertDown (P := (· ∈ xs)) (fun a b ha hb => swap a ha b hb)
      (fun a b c ha hb hc => trans a ha b hb c hc) xs [] (fun _ h => h) (by simp) .nil

/-! ## Sorting images -/

theorem map_insertDown {other : β → β → Ordering} (f : α → β)
    (h : ∀ a b, other (f a) (f b) = compare a b) (x : α) :
    ∀ ys : List α, (insertDown compare x ys).map f = insertDown other (f x) (ys.map f)
  | [] => rfl
  | y :: ys => by
    simp only [insertDown, List.map_cons, h]
    split <;> simp [map_insertDown f h x ys]

/-- Sorting commutes with a map that keeps comparisons. -/
theorem map_stableSort {other : β → β → Ordering} (f : α → β)
    (h : ∀ a b, other (f a) (f b) = compare a b) (xs : List α) :
    (stableSort compare xs).map f = stableSort other (xs.map f) := by
  have step : ∀ (xs acc : List α),
      (xs.foldl (fun sorted x => insertDown compare x sorted) acc).map f =
        (xs.map f).foldl (fun sorted x => insertDown other x sorted) (acc.map f) := by
    intro xs
    induction xs with
    | nil => exact fun _ => rfl
    | cons x xs ih => exact fun acc => by simp [ih, map_insertDown f h]
  simp [stableSort, step]

end TypedGraph

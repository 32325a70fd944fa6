import Mathlib.Data.List.Pairwise
import TypedGraph.Order.Stable

/-!
# Proofs/Order/Preorder — sorted lists of a preorder

A comparison need not be an order of everything that it compares.  Where it is a **preorder of a set
of items** (`PreorderOn`), the items that it calls equal are **peers**, and a list of such items is
pinned down by two facts: it ascends, and it has the peers of each item in a certain order
(`eq_of_ascending`).  The stable sort of a list is the one that keeps the peers as they were
(`peers_stableSort`), so that whatever ascends and keeps them is the sort: sorting the parts
of a list and merging them sorts the list (`stableSort_append`).
-/

namespace TypedGraph

universe u v

variable {α : Type u} {β : Type v}

/-- **A comparison is a preorder of a set of items**: turning it around turns its outcome around,
and not to come after is transitive. -/
structure PreorderOn (compare : α → α → Ordering) (P : α → Prop) : Prop where
  swap : ∀ {a b}, P a → P b → compare b a = (compare a b).swap
  trans : ∀ {a b c}, P a → P b → P c → compare a b ≠ .gt → compare b c ≠ .gt → compare a c ≠ .gt

namespace PreorderOn

variable {compare first second : α → α → Ordering} {P Q : α → Prop} {a b c : α}

theorem mono (h : PreorderOn compare P) (hQ : ∀ a, Q a → P a) : PreorderOn compare Q where
  swap ha hb := h.swap (hQ _ ha) (hQ _ hb)
  trans ha hb hc := h.trans (hQ _ ha) (hQ _ hb) (hQ _ hc)

/-- Comparing images. -/
theorem comap (h : PreorderOn compare P) (f : β → α) :
    PreorderOn (fun a b => compare (f a) (f b)) fun a => P (f a) where
  swap ha hb := h.swap ha hb
  trans ha hb hc := h.trans ha hb hc

theorem refl (h : PreorderOn compare P) (ha : P a) : compare a a = .eq := by
  have hswap := h.swap ha ha
  cases hc : compare a a <;> simp_all

theorem ne_gt_iff (h : PreorderOn compare P) (ha : P a) (hb : P b) :
    compare b a ≠ .gt ↔ compare a b ≠ .lt := by
  rw [h.swap ha hb]
  cases compare a b <;> decide

/-- The other direction. -/
theorem reverse (h : PreorderOn compare P) : PreorderOn (fun a b => (compare a b).swap) P where
  swap ha hb := congrArg Ordering.swap (h.swap ha hb)
  trans {a b c} ha hb hc hab hbc := by
    rw [← h.swap ha hb] at hab
    rw [← h.swap hb hc] at hbc
    rw [← h.swap ha hc]
    exact h.trans hc hb ha hbc hab

/-- **Equal items compare alike.** -/
theorem congr_left (h : PreorderOn compare P) (ha : P a) (hb : P b) (hc : P c)
    (heq : compare a b = .eq) : compare a c = compare b c := by
  have hba : compare b a = .eq := by rw [h.swap ha hb, heq]; rfl
  have hle : compare a c ≠ .gt ↔ compare b c ≠ .gt :=
    ⟨h.trans hb ha hc (by simp [hba]), h.trans ha hb hc (by simp [heq])⟩
  have hge : compare c a ≠ .gt ↔ compare c b ≠ .gt :=
    ⟨fun hca => h.trans hc ha hb hca (by simp [heq]),
      fun hcb => h.trans hc hb ha hcb (by simp [hba])⟩
  rw [h.ne_gt_iff ha hc, h.ne_gt_iff hb hc] at hge
  revert hle hge
  cases compare a c <;> cases compare b c <;> decide

theorem congr_right (h : PreorderOn compare P) (ha : P a) (hb : P b) (hc : P c)
    (heq : compare b c = .eq) : compare a b = compare a c := by
  rw [h.swap hb ha, h.swap hc ha, h.congr_left hb hc ha heq]

/-- What comes before something comes before all that does not come before that. -/
theorem lt_of_lt_of_ne_gt (h : PreorderOn compare P) (ha : P a) (hb : P b) (hc : P c)
    (hab : compare a b = .lt) (hbc : compare b c ≠ .gt) : compare a c = .lt := by
  have hac := h.trans ha hb hc (by simp [hab]) hbc
  cases heq : compare a c with
  | lt => rfl
  | gt => exact absurd heq hac
  | eq =>
    rw [h.swap hc hb, ← h.congr_left ha hc hb heq, hab] at hbc
    exact absurd rfl hbc

/-- **Along a chain the first difference decides.** -/
theorem chain (h : PreorderOn compare P) (ha : P a) (hb : P b) (hc : P c)
    (hab : compare a b ≠ .gt) (hbc : compare b c ≠ .gt) :
    compare a c = (compare a b).then (compare b c) := by
  cases hcmp : compare a b with
  | gt => exact absurd hcmp hab
  | lt => exact h.lt_of_lt_of_ne_gt ha hb hc hcmp hbc
  | eq => exact h.congr_left ha hb hc hcmp

/-- **One comparison after the other**, the second one deciding between equal items. -/
theorem andThen (h : PreorderOn first P) (h' : PreorderOn second P) :
    PreorderOn (fun a b => (first a b).then (second a b)) P where
  swap ha hb := by
    rw [Ordering.swap_then, h.swap ha hb, h'.swap ha hb]
  trans {a b c} ha hb hc hab hbc := by
    cases h₁ : first a b with
    | gt => simp [h₁] at hab
    | lt =>
      have hbc' : first b c ≠ .gt := fun hgt => hbc (by simp [hgt])
      simp [h.lt_of_lt_of_ne_gt ha hb hc h₁ hbc']
    | eq =>
      rw [h₁, Ordering.eq_then] at hab
      rw [h.congr_left ha hb hc h₁]
      cases h₂ : first b c with
      | lt => simp
      | gt => simp [h₂] at hbc
      | eq =>
        rw [h₂, Ordering.eq_then] at hbc
        rw [Ordering.eq_then]
        exact h'.trans ha hb hc hab hbc

/-- No comparison at all. -/
theorem const (P : α → Prop) : PreorderOn (fun _ _ => .eq) P where
  swap _ _ := rfl
  trans _ _ _ hab _ := hab

end PreorderOn

/-- A lawful order is a preorder of everything. -/
theorem preorderOn_ord (α : Type) [Ord α] [Std.TransOrd α] :
    PreorderOn (Ord.compare : α → α → Ordering) fun _ => True where
  swap _ _ := Std.OrientedOrd.eq_swap
  trans _ _ _ hab hbc :=
    Ordering.isLE_iff_ne_gt.1 <| Std.TransOrd.isLE_trans (Ordering.isLE_iff_ne_gt.2 hab)
      (Ordering.isLE_iff_ne_gt.2 hbc)

/-! ## Ascending lists -/

/-- No item comes after a later one. -/
def Ascending (compare : α → α → Ordering) (xs : List α) : Prop :=
  xs.Pairwise fun a b => compare a b ≠ .gt

/-- The items of a list that compare as equal to an item. -/
def peers (compare : α → α → Ordering) (a : α) (xs : List α) : List α :=
  xs.filter (compare a · == .eq)

variable {compare : α → α → Ordering} {P : α → Prop}

theorem peers_cons (a x : α) (xs : List α) : peers compare a (x :: xs) =
    (if compare a x = .eq then [x] else []) ++ peers compare a xs := by
  by_cases h : compare a x = .eq <;> simp [peers, h]

theorem peers_append (a : α) (xs ys : List α) :
    peers compare a (xs ++ ys) = peers compare a xs ++ peers compare a ys :=
  List.filter_append _ _

/-- The head of an ascending list comes after no item that has its peers there. -/
theorem ne_gt_of_peers_eq (h : PreorderOn compare P) {u v : α} {us vs : List α} (hv : P v)
    (hus : ∀ w ∈ us, compare u w ≠ .gt)
    (hpeers : peers compare v (u :: us) = peers compare v (v :: vs)) : compare u v ≠ .gt := by
  have hmem : v ∈ peers compare v (u :: us) := by
    rw [hpeers]
    simp [peers, h.refl hv]
  rcases List.mem_cons.1 (List.mem_filter.1 hmem).1 with rfl | hmem
  · simp [h.refl hv]
  · exact hus v hmem

/-- An ascending list has no peers of an item that comes before its head. -/
theorem peers_eq_nil (h : PreorderOn compare P) {a y x : α} {xs : List α} (ha : P a) (hy : P y)
    (hx : ∀ z ∈ x :: xs, P z) (hxs : Ascending compare (x :: xs)) (hgt : compare x y = .gt)
    (hay : compare a y = .eq) : peers compare a (x :: xs) = [] := by
  have hPx := hx x List.mem_cons_self
  refine List.filter_eq_nil_iff.2 fun z hz haz => ?_
  rw [beq_iff_eq, h.congr_left ha hy (hx z hz) hay] at haz
  have hxz : compare x z ≠ .gt := by
    rcases List.mem_cons.1 hz with rfl | hmem
    · simp [h.refl hPx]
    · exact List.rel_of_pairwise_cons hxs hmem
  rw [← h.congr_right hPx hy (hx z hz) haz] at hxz
  exact hxz hgt

/-- **An ascending list is pinned down by the order of its peers.** -/
theorem eq_of_ascending (h : PreorderOn compare P) : ∀ {xs ys : List α},
    (∀ x ∈ xs, P x) → (∀ y ∈ ys, P y) → Ascending compare xs → Ascending compare ys →
      (∀ a, P a → peers compare a xs = peers compare a ys) → xs = ys
  | [], [], _, _, _, _, _ => rfl
  | [], y :: ys, _, hy, _, _, hpeers => by
    have hself := hpeers y (hy y List.mem_cons_self)
    simp [peers, h.refl (hy y List.mem_cons_self)] at hself
  | x :: xs, [], hx, _, _, _, hpeers => by
    have hself := hpeers x (hx x List.mem_cons_self)
    simp [peers, h.refl (hx x List.mem_cons_self)] at hself
  | x :: xs, y :: ys, hx, hy, hxs, hys, hpeers => by
    obtain ⟨hPx, hx'⟩ := List.forall_mem_cons.1 hx
    obtain ⟨hPy, hy'⟩ := List.forall_mem_cons.1 hy
    obtain ⟨hxhead, hxtail⟩ := List.pairwise_cons.1 hxs
    obtain ⟨hyhead, hytail⟩ := List.pairwise_cons.1 hys
    have hxy : compare x y ≠ .gt := ne_gt_of_peers_eq h hPy hxhead (hpeers y hPy)
    have hyx : compare y x ≠ .gt := ne_gt_of_peers_eq h hPx hyhead (hpeers x hPx).symm
    rw [h.ne_gt_iff hPx hPy] at hyx
    have heq : compare x y = .eq := by
      cases hc : compare x y <;> simp_all
    have hhead := hpeers x hPx
    simp only [peers, List.filter_cons, h.refl hPx, heq, beq_self_eq_true, if_true] at hhead
    obtain ⟨rfl, -⟩ := List.cons.inj hhead
    refine congrArg _ (eq_of_ascending h hx' hy' hxtail hytail fun a ha => ?_)
    have hall := hpeers a ha
    rw [peers_cons, peers_cons] at hall
    exact List.append_cancel_left hall

/-! ## Sorting -/

theorem ascending_stableSort (h : PreorderOn compare P) {xs : List α} (hxs : ∀ x ∈ xs, P x) :
    Ascending compare (stableSort compare xs) :=
  pairwise_stableSort (fun a ha b hb => h.swap (hxs a ha) (hxs b hb))
    fun a ha b hb c hc => h.trans (hxs a ha) (hxs b hb) (hxs c hc)

/-- **Sorting keeps peers as they were.** -/
theorem peers_stableSort (h : PreorderOn compare P) {xs : List α} (hxs : ∀ x ∈ xs, P x) {a : α}
    (ha : P a) : peers compare a (stableSort compare xs) = peers compare a xs := by
  refine filter_stableSort fun x hx y hy hax hay => ?_
  rw [beq_iff_eq] at hax hay
  rw [← h.congr_left ha (hxs x hx) (hxs y hy) hax, hay]
  decide

/-- Sorting by a comparison that never finds an item before another one changes nothing. -/
theorem stableSort_eq_self {xs : List α} (h : ∀ x ∈ xs, ∀ y ∈ xs, compare x y ≠ .lt) :
    stableSort compare xs = xs := by
  have hkept : ∀ ys : List α, ys.filter (fun _ => true) = ys := fun ys =>
    List.filter_eq_self.2 fun _ _ => rfl
  rw [← hkept (stableSort compare xs), filter_stableSort fun x hx y hy _ _ => h x hx y hy, hkept]

/-- **Items all of which differ are sorted in one way only**, whatever order they come in. -/
theorem stableSort_eq_of_perm {xs ys : List α} (h : PreorderOn compare P) (hxs : ∀ x ∈ xs, P x)
    (hperm : xs.Perm ys) (hdistinct : xs.Pairwise fun a b => compare a b ≠ .eq) :
    stableSort compare xs = stableSort compare ys := by
  have hys : ∀ y ∈ ys, P y := fun y hy => hxs y (hperm.mem_iff.2 hy)
  have hsame : (stableSort compare xs).Perm (stableSort compare ys) :=
    (stableSort_perm xs).trans (hperm.trans (stableSort_perm ys).symm)
  refine hsame.eq_of_pairwise ?_ (ascending_stableSort h hxs) (ascending_stableSort h hys)
  intro a b ha hb hab hba
  rw [mem_stableSort] at ha hb
  have hPa := hxs a ha
  have hPb := hys b hb
  rw [h.ne_gt_iff hPa hPb] at hba
  have heq : compare a b = .eq := by
    cases hc : compare a b <;> simp_all
  have hboth : xs.Pairwise fun a b => compare a b ≠ .eq ∧ compare b a ≠ .eq :=
    hdistinct.imp_of_mem fun {u v} hu hv huv => by
      refine ⟨huv, ?_⟩
      rw [h.swap (hxs u hu) (hxs v hv)]
      cases hc : compare u v <;> simp_all
  have : Std.Symm fun a b => compare a b ≠ .eq ∧ compare b a ≠ .eq := ⟨fun _ _ => And.symm⟩
  by_contra hne
  exact (hboth.forall ha (hperm.mem_iff.2 hb) hne).1 heq

/-! ## Merging -/

/-- Merge two lists; of equal heads the one of the first list goes first. -/
def mergeBy (compare : α → α → Ordering) (xs ys : List α) : List α :=
  xs.merge ys fun x y => compare x y != .gt

@[simp] theorem nil_mergeBy (ys : List α) : mergeBy compare [] ys = ys := List.nil_merge _

@[simp] theorem mergeBy_nil (xs : List α) : mergeBy compare xs [] = xs := List.merge_right _

theorem cons_mergeBy_cons (x y : α) (xs ys : List α) : mergeBy compare (x :: xs) (y :: ys) =
    if compare x y = .gt then y :: mergeBy compare (x :: xs) ys
    else x :: mergeBy compare xs (y :: ys) := by
  unfold mergeBy
  by_cases h : compare x y = .gt <;> simp [h]

theorem mem_mergeBy {a : α} {xs ys : List α} : a ∈ mergeBy compare xs ys ↔ a ∈ xs ∨ a ∈ ys :=
  List.mem_merge

@[simp] theorem length_mergeBy (xs ys : List α) :
    (mergeBy compare xs ys).length = xs.length + ys.length := List.length_merge _ _ _

/-- What comes after none of two lists comes after none of their items. -/
theorem ne_gt_mergeBy {a : α} {xs ys : List α} (hxs : ∀ z ∈ xs, compare a z ≠ .gt)
    (hys : ∀ z ∈ ys, compare a z ≠ .gt) : ∀ z ∈ mergeBy compare xs ys, compare a z ≠ .gt :=
  fun z hz => (mem_mergeBy.1 hz).elim (hxs z) (hys z)

/-- **Merging ascending lists** gives an ascending list. -/
theorem ascending_mergeBy (h : PreorderOn compare P) : ∀ {xs ys : List α}, (∀ x ∈ xs, P x) →
    (∀ y ∈ ys, P y) → Ascending compare xs → Ascending compare ys →
      Ascending compare (mergeBy compare xs ys)
  | [], ys, _, _, _, hys => by rwa [nil_mergeBy]
  | x :: xs, [], _, _, hxs, _ => by rwa [mergeBy_nil]
  | x :: xs, y :: ys, hx, hy, hxs, hys => by
    obtain ⟨hPx, hx'⟩ := List.forall_mem_cons.1 hx
    obtain ⟨hPy, hy'⟩ := List.forall_mem_cons.1 hy
    obtain ⟨hxhead, hxtail⟩ := List.pairwise_cons.1 hxs
    obtain ⟨hyhead, hytail⟩ := List.pairwise_cons.1 hys
    rw [cons_mergeBy_cons]
    split
    · next hgt =>
      have hyx : compare y x ≠ .gt := by rw [h.swap hPx hPy, hgt]; decide
      have hyxs : ∀ z ∈ x :: xs, compare y z ≠ .gt := List.forall_mem_cons.2
        ⟨hyx, fun z hz => h.trans hPy hPx (hx' z hz) hyx (hxhead z hz)⟩
      exact List.pairwise_cons.2
        ⟨ne_gt_mergeBy hyxs hyhead, ascending_mergeBy h hx hy' hxs hytail⟩
    · next hxy =>
      have hxys : ∀ z ∈ y :: ys, compare x z ≠ .gt := List.forall_mem_cons.2
        ⟨hxy, fun z hz => h.trans hPx hPy (hy' z hz) hxy (hyhead z hz)⟩
      exact List.pairwise_cons.2
        ⟨ne_gt_mergeBy hxhead hxys, ascending_mergeBy h hx' hy hxtail hys⟩

/-- **Merging keeps peers**: those of the first list go before those of the second. -/
theorem peers_mergeBy (h : PreorderOn compare P) {a : α} (ha : P a) : ∀ {xs ys : List α},
    (∀ x ∈ xs, P x) → (∀ y ∈ ys, P y) → Ascending compare xs →
      peers compare a (mergeBy compare xs ys) = peers compare a xs ++ peers compare a ys
  | [], ys, _, _, _ => by rw [nil_mergeBy]; rfl
  | x :: xs, [], _, _, _ => by rw [mergeBy_nil]; exact (List.append_nil _).symm
  | x :: xs, y :: ys, hx, hy, hxs => by
    rw [cons_mergeBy_cons]
    split
    · next hgt =>
      obtain ⟨hPy, hy'⟩ := List.forall_mem_cons.1 hy
      rw [peers_cons, peers_mergeBy h ha hx hy' hxs, peers_cons a y]
      split
      · next hay =>
        rw [peers_eq_nil h ha hPy hx hxs hgt hay]
        rfl
      · rfl
    · rw [peers_cons, peers_cons, List.append_assoc,
        peers_mergeBy h ha (List.forall_mem_cons.1 hx).2 hy (List.pairwise_cons.1 hxs).2]

/-- **Sorting a list is sorting its parts and merging them.** -/
theorem stableSort_append (h : PreorderOn compare P) {xs ys : List α} (hxs : ∀ x ∈ xs, P x)
    (hys : ∀ y ∈ ys, P y) : stableSort compare (xs ++ ys) =
      mergeBy compare (stableSort compare xs) (stableSort compare ys) := by
  have hall : ∀ z ∈ xs ++ ys, P z := fun z hz => (List.mem_append.1 hz).elim (hxs z) (hys z)
  have hxs' : ∀ x ∈ stableSort compare xs, P x := fun x hx => hxs x (mem_stableSort.1 hx)
  have hys' : ∀ y ∈ stableSort compare ys, P y := fun y hy => hys y (mem_stableSort.1 hy)
  have hsorted := ascending_stableSort h hxs
  refine eq_of_ascending h (fun z hz => hall z (mem_stableSort.1 hz))
    (fun z hz => (mem_mergeBy.1 hz).elim (hxs' z) (hys' z)) (ascending_stableSort h hall)
    (ascending_mergeBy h hxs' hys' hsorted (ascending_stableSort h hys)) fun a ha => ?_
  rw [peers_stableSort h hall ha, peers_append, peers_mergeBy h ha hxs' hys' hsorted,
    peers_stableSort h hxs ha, peers_stableSort h hys ha]

/-! ## The ends of a merged list -/

/-- **The first items of a merged list** are found among the first items of the first list, and the
second one. -/
theorem take_mergeBy : ∀ {n m : Nat}, n ≤ m → ∀ xs ys : List α,
    (mergeBy compare (xs.take m) ys).take n = (mergeBy compare xs ys).take n
  | 0, _, _, _, _ => rfl
  | _ + 1, 0, h, _, _ => absurd h (Nat.not_succ_le_zero _)
  | _ + 1, _ + 1, _, [], _ => rfl
  | n + 1, m + 1, h, x :: xs, [] => by
    rw [mergeBy_nil, mergeBy_nil, List.take_take, Nat.min_eq_left h]
  | n + 1, m + 1, h, x :: xs, y :: ys => by
    rw [List.take_succ_cons, cons_mergeBy_cons, cons_mergeBy_cons]
    split
    · rw [List.take_succ_cons, List.take_succ_cons, ← take_mergeBy (Nat.le_of_succ_le h) (x :: xs),
        List.take_succ_cons]
    · rw [List.take_succ_cons, List.take_succ_cons, take_mergeBy (Nat.le_of_succ_le_succ h)]

/-- Merging is over with a start of the first list before it is over with the rest: what follows
then is the rest merged with a rest of the second list, as it would follow without the start. -/
theorem exists_mergeBy_append (h : PreorderOn compare P) : ∀ {xs zs ys : List α},
    (∀ x ∈ xs ++ zs, P x) → (∀ y ∈ ys, P y) → Ascending compare (xs ++ zs) →
      ∃ before before' rest : List α,
        mergeBy compare (xs ++ zs) ys = before ++ mergeBy compare zs rest ∧
          mergeBy compare zs ys = before' ++ mergeBy compare zs rest
  | [], zs, ys, _, _, _ => ⟨[], [], ys, rfl, rfl⟩
  | x :: xs, zs, [], _, _, _ => ⟨x :: xs, [], [], by simp, by simp⟩
  | x :: xs, zs, y :: ys, hx, hy, hxs => by
    obtain ⟨hPx, hx'⟩ := List.forall_mem_cons.1 hx
    obtain ⟨hPy, hy'⟩ := List.forall_mem_cons.1 hy
    rw [List.cons_append] at hxs ⊢
    obtain ⟨hhead, htail⟩ := List.pairwise_cons.1 hxs
    rw [cons_mergeBy_cons]
    split
    · next hgt =>
      obtain ⟨before, before', rest, hmerge, hmerge'⟩ :
          ∃ before before' rest : List α,
            mergeBy compare (x :: xs ++ zs) ys = before ++ mergeBy compare zs rest ∧
              mergeBy compare zs ys = before' ++ mergeBy compare zs rest :=
        exists_mergeBy_append h hx hy' hxs
      refine ⟨y :: before, y :: before', rest, congrArg _ hmerge, ?_⟩
      rw [List.cons_append, ← hmerge']
      -- `y` comes before the whole rest as well
      cases zs with
      | nil => rw [nil_mergeBy, nil_mergeBy]
      | cons z zs =>
        have hz : z ∈ xs ++ z :: zs := by simp
        have hyx : compare y x = .lt := by rw [h.swap hPx hPy, hgt]; rfl
        have hyz := h.lt_of_lt_of_ne_gt hPy hPx (hx' z hz) hyx (hhead z hz)
        have hzy : compare z y = .gt := by rw [h.swap hPy (hx' z hz), hyz]; rfl
        rw [cons_mergeBy_cons, if_pos hzy]
    · obtain ⟨before, before', rest, hmerge, hmerge'⟩ := exists_mergeBy_append h hx' hy htail
      exact ⟨x :: before, before', rest, congrArg _ hmerge, hmerge'⟩

/-- The last items of a list, as many as there are at most. -/
def lastItems (n : Nat) (xs : List α) : List α := xs.drop (xs.length - n)

theorem lastItems_append {n : Nat} {ys : List α} (h : n ≤ ys.length) (xs : List α) :
    lastItems n (xs ++ ys) = lastItems n ys := by
  rw [lastItems, lastItems, List.length_append, List.drop_append, List.drop_eq_nil_of_le (by omega),
    List.nil_append]
  congr 1
  omega

/-- **The last items of merged ascending lists** are found among the last items of the first list,
and the second one. -/
theorem lastItems_mergeBy (h : PreorderOn compare P) (n : Nat) {xs ys : List α}
    (hxs : ∀ x ∈ xs, P x) (hys : ∀ y ∈ ys, P y) (hascending : Ascending compare xs) :
    lastItems n (mergeBy compare (lastItems n xs) ys) = lastItems n (mergeBy compare xs ys) := by
  rcases Nat.lt_or_ge n xs.length with hn | hn
  · have hsplit : xs = xs.take (xs.length - n) ++ lastItems n xs :=
      (List.take_append_drop _ _).symm
    have hlength : (lastItems n xs).length = n := by
      rw [lastItems, List.length_drop]
      omega
    rw [hsplit] at hxs hascending
    obtain ⟨before, before', rest, hmerge, hmerge'⟩ :=
      exists_mergeBy_append h hxs hys hascending
    have hle : n ≤ (mergeBy compare (lastItems n xs) rest).length := by
      rw [length_mergeBy]
      omega
    rw [hmerge', lastItems_append hle, ← lastItems_append hle before, ← hmerge, ← hsplit]
  · have hall : lastItems n xs = xs := by
      rw [lastItems, Nat.sub_eq_zero_of_le hn, List.drop_zero]
    rw [hall]

end TypedGraph

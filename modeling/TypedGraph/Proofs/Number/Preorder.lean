import TypedGraph.Proofs.Number.Binary64
import TypedGraph.Proofs.Order.Preorder
import TypedGraph.Proofs.Value.Equality

/-!
# Proofs/Number/Preorder — where comparison of numbers is a preorder

Two signed 64-bit integers are compared exactly, and any other two numbers as doubles.  Rounding
keeps order, so that the two ways do not contradict each other (`key_le_of_compare_ne_gt`), but it
makes different integers equal: a double between them is then equal to both, and equality is not
transitive.  That is all that can go wrong.  Comparison is a preorder of those sets of numbers that
are `Apart`, and of no others (`preorderOn_iff_apart`).
-/

namespace TypedGraph

namespace Number

variable {N : Number → Prop} {m n : Number}

/-- **The numbers of a set are apart**: none but a signed 64-bit integer equals two different signed
64-bit integers. -/
def Apart (N : Number → Prop) : Prop :=
  ∀ ⦃m n x : Number⦄, N m → N n → N x → m.toI64?.isSome → n.toI64?.isSome → x.toI64? = none →
    m.compare x = .eq → n.compare x = .eq → m = n

/-! ## Comparing as doubles -/

theorem eq_int_of_toI64? {i : Int} (h : m.toI64? = some i) : m = .int i := by
  cases m with
  | float => cases h
  | int j =>
    rw [toI64?] at h
    split at h
    · cases h
      rfl
    · cases h

/-- A number that is no signed 64-bit integer is compared as a double. -/
theorem compare_of_toI64?_eq_none (h : m.toI64? = none ∨ n.toI64? = none) :
    m.compare n = m.toBinary64.compare n.toBinary64 := by
  rw [compare]
  split
  · next hm hn => simp [hm, hn] at h
  · rfl

/-- **Exact comparison and comparison as doubles agree**: a number that does not come after another
one does not as a double. -/
theorem key_le_of_compare_ne_gt (h : m.compare n ≠ .gt) :
    m.toBinary64.key ≤ n.toBinary64.key := by
  rw [compare] at h
  split at h
  · next i j hi hj =>
    rw [eq_int_of_toI64? hi, eq_int_of_toI64? hj]
    exact Binary64.key_ofInt_mono (Int.not_lt.1 fun hlt => h (Int.compare_eq_gt.2 hlt))
  · exact Int.not_lt.1 fun hlt => h (Int.compare_eq_gt.2 hlt)

/-! ## Sets of numbers -/

theorem compare_trans (h : Apart N) {a b c : Number} (ha : N a) (hb : N b) (hc : N c)
    (hab : a.compare b ≠ .gt) (hbc : b.compare c ≠ .gt) : a.compare c ≠ .gt := by
  have hkab := key_le_of_compare_ne_gt hab
  have hkbc := key_le_of_compare_ne_gt hbc
  have hdoubles : a.toI64? = none ∨ c.toI64? = none → a.compare c ≠ .gt := by
    intro hnone
    rw [compare_of_toI64?_eq_none hnone]
    exact fun hgt => Int.not_lt.2 (Int.le_trans hkab hkbc) (Int.compare_eq_gt.1 hgt)
  cases hi : a.toI64? with
  | none => exact hdoubles (.inl hi)
  | some i => cases hk : c.toI64? with
    | none => exact hdoubles (.inr hk)
    | some k => cases hj : b.toI64? with
      | some j =>
        rw [compare, hi, hj] at hab
        rw [compare, hj, hk] at hbc
        rw [compare, hi, hk]
        exact (preorderOn_ord Int).trans trivial trivial trivial hab hbc
      | none =>
        -- the integers enclose a double, and the other way round they become equal to it
        intro hgt
        have hkca : c.toBinary64.key ≤ a.toBinary64.key := by
          refine key_le_of_compare_ne_gt ?_
          rw [compare_swap a c, hgt]
          decide
        have hequal : a = c := by
          refine h ha hc hb (by simp [hi]) (by simp [hk]) hj ?_ ?_
          · rw [compare_of_toI64?_eq_none (.inr hj)]
            exact Int.compare_eq_eq.2 (by omega)
          · rw [compare_of_toI64?_eq_none (.inr hj)]
            exact Int.compare_eq_eq.2 (by omega)
        have hself : a.compare c = .eq := by
          rw [← hequal, compare, hi]
          exact Int.compare_eq_eq.2 rfl
        cases hgt.symm.trans hself

/-- **Comparison is a preorder of a set of numbers exactly where they are apart.** -/
theorem preorderOn_iff_apart : PreorderOn compare N ↔ Apart N := by
  constructor
  · intro h m n x hm hn hx hmInt hnInt _ hmx hnx
    refine Value.Number.eq_of_compare_eq hmInt hnInt ?_
    rw [h.congr_left hm hx hn hmx, compare_swap n x, hnx]
    rfl
  · intro h
    exact ⟨fun _ _ => compare_swap _ _, fun ha hb hc => compare_trans h ha hb hc⟩

/-- Signed 64-bit integers are apart. -/
theorem apart_of_toI64? (h : ∀ n, N n → n.toI64?.isSome) : Apart N := by
  intro m n x _ _ hx _ _ hnone
  have hsome := h x hx
  rw [hnone] at hsome
  cases hsome

/-- An integer that a double holds exactly, or no signed 64-bit integer at all. -/
def Moderate (n : Number) : Prop := ∀ i, n.toI64? = some i → i.natAbs ≤ 2 ^ 53

/-- **Numbers are apart whose integers go up to `2 ^ 53`**, whatever the other numbers are. -/
theorem apart_moderate : Apart Moderate := by
  intro m n x hm hn _ hmInt hnInt hnone hmx hnx
  obtain ⟨i, hi⟩ := Option.isSome_iff_exists.1 hmInt
  obtain ⟨j, hj⟩ := Option.isSome_iff_exists.1 hnInt
  rw [compare_of_toI64?_eq_none (.inr hnone)] at hmx hnx
  have hkeys : m.toBinary64.key = n.toBinary64.key :=
    (Int.compare_eq_eq.1 hmx).trans (Int.compare_eq_eq.1 hnx).symm
  rw [eq_int_of_toI64? hi, eq_int_of_toI64? hj] at hkeys ⊢
  exact congrArg _ (Binary64.eq_of_key_ofInt_eq (hm i hi) (hn j hj) hkeys)

end Number

end TypedGraph

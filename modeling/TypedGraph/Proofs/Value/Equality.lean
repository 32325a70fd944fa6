import TypedGraph.Value.Order

/-!
# Proofs/Value/Equality — where equality of values is an equivalence

Comparison is antisymmetric on all values (`compare_swap`), so that equality is symmetric
everywhere.  It is transitive only on some sets of values: beyond `2 ^ 53` two different integers
may both equal the double between them.  A set on which it is transitive is `EqualTransitive`; the
values all of whose numbers are signed 64-bit integers are one, equal ones being identical there
(`eq_of_compare_eq`).
-/

namespace TypedGraph

/-! ## Comparing in the other direction -/

theorem Binary64.compare_swap (x y : Binary64) : y.compare x = (x.compare y).swap := by
  rw [Binary64.compare, Binary64.compare]
  exact Std.OrientedOrd.eq_swap

theorem Number.compare_swap (a b : Number) : b.compare a = (a.compare b).swap := by
  rw [Number.compare, Number.compare]
  cases a.toI64? with
  | none => cases b.toI64? <;> exact Binary64.compare_swap _ _
  | some m => cases b.toI64? with
    | none => exact Binary64.compare_swap _ _
    | some n => exact Std.OrientedOrd.eq_swap

namespace Value

mutual

/-- **Comparison is antisymmetric.** -/
theorem compare_swap : ∀ a b : Value, compare b a = (compare a b).swap
  | .null, b => by cases b <;> rfl
  | .bool x, b => by
    cases b with
    | bool y => cases x <;> cases y <;> rfl
    | _ => rfl
  | .num m, b => by
    cases b with
    | num n => exact Number.compare_swap m n
    | _ => rfl
  | .str s, b => by
    cases b with
    | str t => exact Std.OrientedOrd.eq_swap
    | _ => rfl
  | .arr xs, b => by
    cases b with
    | arr ys => exact compareItems_swap xs ys
    | _ => rfl
  | .obj xs, b => by
    cases b with
    | obj ys => exact compareEntries_swap xs ys
    | _ => rfl

theorem compareItems_swap : ∀ xs ys : List Value, compareItems ys xs = (compareItems xs ys).swap
  | [], [] => rfl
  | [], _ :: _ => rfl
  | _ :: _, [] => rfl
  | x :: xs, y :: ys => by
    rw [compareItems, compareItems, compare_swap x y, compareItems_swap xs ys, Ordering.swap_then]

theorem compareEntries_swap :
    ∀ xs ys : Record Value, compareEntries ys xs = (compareEntries xs ys).swap
  | [], [] => rfl
  | [], _ :: _ => rfl
  | _ :: _, [] => rfl
  | (k, x) :: xs, (l, y) :: ys => by
    rw [compareEntries, compareEntries, compare_swap x y, compareEntries_swap xs ys,
      Ordering.swap_then, Ordering.swap_then, ← Std.OrientedOrd.eq_swap]

end

theorem equal_comm (a b : Value) : equal a b = equal b a := by
  rw [equal, equal, compare_swap a b]
  cases compare a b <;> rfl

/-- Every value equals itself. -/
@[simp] theorem equal_self (v : Value) : equal v v = true := by
  have hswap := compare_swap v v
  rw [equal, beq_iff_eq]
  cases h : compare v v <;> simp_all

/-! ## Equality with null and with strings -/

@[simp] theorem equal_null_right (v : Value) : equal v .null = v.isNull := by
  cases v <;> rfl

@[simp] theorem equal_str_str (s t : String) : equal (.str s) (.str t) = (s == t) := by
  rw [Bool.eq_iff_iff, beq_iff_eq, ← Std.LawfulEqOrd.compare_eq_iff_eq (a := s) (b := t)]
  exact beq_iff_eq

theorem optionalEquals_null (v : Option Value) : optionalEquals v .null = (present? v).isNone := by
  cases v with
  | none => rfl
  | some x => cases x <;> rfl

/-! ## Sets of values on which equality is transitive -/

/-- Equality is transitive among the values of a set. -/
def EqualTransitive (S : Value → Prop) : Prop :=
  ∀ ⦃a b c : Value⦄, S a → S b → S c → equal a b → equal b c → equal a c

/-- What equals null is null, so that null does not disturb transitivity. -/
theorem EqualTransitive.withNull {S : Value → Prop} (h : EqualTransitive S) :
    EqualTransitive fun v => v = .null ∨ S v := by
  have hnull : ∀ v : Value, equal v .null → v = .null := by
    intro v hv
    rw [equal_null_right] at hv
    cases v with
    | null => rfl
    | _ => exact nomatch hv
  intro a b c ha hb hc hab hbc
  rcases hb with rfl | hb
  · rw [hnull a hab]
    exact hbc
  · rcases ha with rfl | ha
    · rw [hnull b (equal_comm .null b ▸ hab)] at hbc
      exact hbc
    · rcases hc with rfl | hc
      · rw [hnull b hbc] at hab
        exact hab
      · exact h ha hb hc hab hbc

/-- **What lies in a value**: the value itself and what lies in its items or entries. -/
inductive Within : Value → Value → Prop where
  | self (v : Value) : Within v v
  | item {v x : Value} {xs : List Value} : x ∈ xs → Within v x → Within v (.arr xs)
  | entry {v x : Value} {name : String} {es : Record Value} :
      (name, x) ∈ es → Within v x → Within v (.obj es)

mutual

/-- Whether all numbers of a value are signed 64-bit integers. -/
def isExact : Value → Bool
  | .num n => n.toI64?.isSome
  | .arr xs => itemsExact xs
  | .obj es => entriesExact es
  | _ => true
termination_by structural v => v

/-- Whether all numbers of some items are signed 64-bit integers. -/
def itemsExact : List Value → Bool
  | [] => true
  | x :: xs => isExact x && itemsExact xs
termination_by structural xs => xs

/-- Whether all numbers of some entries are signed 64-bit integers. -/
def entriesExact : Record Value → Bool
  | [] => true
  | (_, x) :: es => isExact x && entriesExact es
termination_by structural es => es

end

theorem itemsExact_iff : ∀ xs : List Value, itemsExact xs ↔ ∀ x ∈ xs, isExact x
  | [] => by simp [itemsExact]
  | x :: xs => by simp [itemsExact, itemsExact_iff xs]

theorem entriesExact_iff : ∀ es : Record Value, entriesExact es ↔ ∀ e ∈ es, isExact e.2
  | [] => by simp [entriesExact]
  | (_, x) :: es => by simp [entriesExact, entriesExact_iff es]

theorem isExact_of_within {v d : Value} (h : Within v d) (hd : d.isExact) : v.isExact := by
  induction h with
  | self => exact hd
  | item hx _ ih => exact ih ((itemsExact_iff _).1 hd _ hx)
  | entry hx _ ih => exact ih ((entriesExact_iff _).1 hd _ hx)

theorem Number.eq_of_compare_eq {m n : Number} (hm : m.toI64?.isSome) (hn : n.toI64?.isSome)
    (h : m.compare n = .eq) : m = n := by
  cases m with
  | float => simp [Number.toI64?] at hm
  | int i => cases n with
    | float => simp [Number.toI64?] at hn
    | int j =>
      simp only [Number.toI64?, Option.isSome_ite] at hm hn
      simp only [Number.compare, Number.toI64?, if_pos hm, if_pos hn] at h
      exact congrArg _ (Std.LawfulEqOrd.eq_of_compare h)

mutual

/-- **Equal exact values are identical.** -/
theorem eq_of_compare_eq :
    ∀ {a b : Value}, a.isExact → b.isExact → compare a b = .eq → a = b
  | .null, b, _, _, h => by
    cases b with
    | null => rfl
    | _ => exact nomatch h
  | .bool x, b, _, _, h => by
    cases b with
    | bool y => exact congrArg _ (Std.LawfulEqOrd.eq_of_compare h)
    | _ => exact nomatch h
  | .num m, b, ha, hb, h => by
    cases b with
    | num n => exact congrArg _ (Number.eq_of_compare_eq ha hb h)
    | _ => exact nomatch h
  | .str s, b, _, _, h => by
    cases b with
    | str t => exact congrArg _ (Std.LawfulEqOrd.eq_of_compare h)
    | _ => exact nomatch h
  | .arr xs, b, ha, hb, h => by
    cases b with
    | arr ys => exact congrArg _ (eq_of_compareItems_eq ha hb h)
    | _ => exact nomatch h
  | .obj xs, b, ha, hb, h => by
    cases b with
    | obj ys => exact congrArg _ (eq_of_compareEntries_eq ha hb h)
    | _ => exact nomatch h

theorem eq_of_compareItems_eq :
    ∀ {xs ys : List Value}, itemsExact xs → itemsExact ys → compareItems xs ys = .eq → xs = ys
  | [], [], _, _, _ => rfl
  | [], _ :: _, _, _, h => absurd h (by simp [compareItems])
  | _ :: _, [], _, _, h => absurd h (by simp [compareItems])
  | x :: xs, y :: ys, hx, hy, h => by
    simp only [itemsExact, Bool.and_eq_true] at hx hy
    rw [compareItems, Ordering.then_eq_eq] at h
    rw [eq_of_compare_eq hx.1 hy.1 h.1, eq_of_compareItems_eq hx.2 hy.2 h.2]

theorem eq_of_compareEntries_eq :
    ∀ {xs ys : Record Value}, entriesExact xs → entriesExact ys →
      compareEntries xs ys = .eq → xs = ys
  | [], [], _, _, _ => rfl
  | [], _ :: _, _, _, h => absurd h (by simp [compareEntries])
  | _ :: _, [], _, _, h => absurd h (by simp [compareEntries])
  | (k, x) :: xs, (l, y) :: ys, hx, hy, h => by
    simp only [entriesExact, Bool.and_eq_true] at hx hy
    rw [compareEntries, Ordering.then_eq_eq, Ordering.then_eq_eq] at h
    rw [Std.LawfulEqOrd.eq_of_compare h.1.1, eq_of_compare_eq hx.1 hy.1 h.1.2,
      eq_of_compareEntries_eq hx.2 hy.2 h.2]

end

/-- **Equality is transitive among exact values.** -/
theorem equalTransitive_of_exact {S : Value → Prop} (h : ∀ v, S v → v.isExact) :
    EqualTransitive S := by
  intro a b c ha hb hc hab hbc
  have : a = b := eq_of_compare_eq (h a ha) (h b hb) (beq_iff_eq.1 hab)
  exact this ▸ hbc

end Value

end TypedGraph

import TypedGraph.Order.Clause
import TypedGraph.Proofs.Number.Preorder

/-!
# Proofs/Value/Preorder — where comparison of values is a preorder

Comparison is antisymmetric on all values, and whether it is transitive as well is a question of the
numbers that lie in them: values of different kinds are told apart by their kinds, and two lists or
objects by the first difference between them (`compare_chain`).  Comparison is a preorder of the
values over those sets of numbers that are apart, and of no others (`compare_laws`).  The signed
64-bit integers are such a set (`preorderOn_of_exact`).
-/

namespace TypedGraph

/-- **Three outcomes of a chain**: where neither step goes down, the whole goes as the first step
that goes up. -/
def Chains (first second whole : Ordering) : Prop :=
  first ≠ .gt → second ≠ .gt → whole = first.then second

/-- Of two comparisons one after the other, the first difference decides along a chain as well. -/
theorem Chains.andThen {o₁ o₂ o₃ p₁ p₂ p₃ : Ordering} (h : Chains o₁ o₂ o₃)
    (h' : Chains p₁ p₂ p₃) : Chains (o₁.then p₁) (o₂.then p₂) (o₃.then p₃) := by
  intro hfirst hsecond
  have ho : o₃ = o₁.then o₂ := by
    refine h ?_ ?_
    · rintro rfl
      exact hfirst rfl
    · rintro rfl
      exact hsecond rfl
  cases o₁ with
  | gt => exact absurd rfl hfirst
  | lt => rw [ho]; rfl
  | eq => cases o₂ with
    | gt => exact absurd rfl hsecond
    | lt =>
      rw [ho]
      cases p₁ with
      | gt => exact absurd rfl hfirst
      | lt => rfl
      | eq => rfl
    | eq =>
      rw [ho]
      exact h' hfirst hsecond

namespace Value

variable {N : Number → Prop}

/-- **The numbers of a value** are among those of a set. -/
def NumbersIn (N : Number → Prop) (v : Value) : Prop := ∀ n, Within (.num n) v → N n

theorem NumbersIn.num {n : Number} (h : NumbersIn N (.num n)) : N n := h n (.self _)

theorem NumbersIn.item {xs : List Value} (h : NumbersIn N (.arr xs)) {x : Value} (hx : x ∈ xs) :
    NumbersIn N x :=
  fun n hn => h n (.item hx hn)

theorem NumbersIn.entry {es : Record Value} (h : NumbersIn N (.obj es)) {name : String} {x : Value}
    (hx : (name, x) ∈ es) : NumbersIn N x :=
  fun n hn => h n (.entry hx hn)

theorem numbersIn_num {n : Number} (hn : N n) : NumbersIn N (.num n) := by
  rintro m (_ | _)
  exact hn

theorem numbersIn_of_isExact {v : Value} (h : v.isExact) :
    NumbersIn (fun n => n.toI64?.isSome) v :=
  fun _ hn => isExact_of_within hn h

/-! ## Kinds -/

theorem compare_of_kindRank_ne {a b : Value} (h : a.kindRank ≠ b.kindRank) :
    compare a b = Ord.compare a.kindRank b.kindRank := by
  unfold compare
  split
  case h_6 => rfl
  all_goals exact absurd rfl h

theorem compare_of_kindRank_lt {a b : Value} (h : a.kindRank < b.kindRank) :
    compare a b = .lt := by
  rw [compare_of_kindRank_ne (Nat.ne_of_lt h), Nat.compare_eq_lt.2 h]

theorem kindRank_le_of_compare_ne_gt {a b : Value} (h : compare a b ≠ .gt) :
    a.kindRank ≤ b.kindRank := by
  by_contra hlt
  rw [compare_of_kindRank_ne (by omega)] at h
  exact h (Nat.compare_eq_gt.2 (by omega))

/-- Values of two kinds are told apart by their kinds. -/
theorem chains_of_kindRank {a b c : Value} (h : a.kindRank = b.kindRank →
      b.kindRank = c.kindRank → Chains (compare a b) (compare b c) (compare a c)) :
    Chains (compare a b) (compare b c) (compare a c) := by
  intro hab hbc
  have hle := kindRank_le_of_compare_ne_gt hab
  have hle' := kindRank_le_of_compare_ne_gt hbc
  rcases Nat.lt_or_eq_of_le hle with hlt | heq
  · rw [compare_of_kindRank_lt hlt, compare_of_kindRank_lt (Nat.lt_of_lt_of_le hlt hle')]
    rfl
  · rcases Nat.lt_or_eq_of_le hle' with hlt' | heq'
    · rw [compare_of_kindRank_lt hlt', compare_of_kindRank_lt (Nat.lt_of_le_of_lt hle hlt')]
      cases hcmp : compare a b with
      | gt => exact absurd hcmp hab
      | lt => rfl
      | eq => rfl
    · exact h heq heq' hab hbc

/-! ## Values over a set of numbers -/

mutual

/-- **Along a chain of values the first difference decides.** -/
theorem compare_chain (hN : PreorderOn Number.compare N) :
    ∀ {a b c : Value}, NumbersIn N a → NumbersIn N b → NumbersIn N c →
    Chains (compare a b) (compare b c) (compare a c)
  | .null, b, c, _, _, _ => by
    refine chains_of_kindRank fun h h' => ?_
    cases c with
    | null => cases b with
      | null => exact fun _ _ => rfl
      | _ => cases h
    | _ =>
      cases b <;> cases h
      cases h'
  | .bool x, b, c, _, _, _ => by
    refine chains_of_kindRank fun h h' => ?_
    cases b with
    | bool y => cases c with
      | bool z => exact (preorderOn_ord Bool).chain trivial trivial trivial
      | _ => cases h'
    | _ => cases h
  | .num m, b, c, ha, hb, hc => by
    refine chains_of_kindRank fun h h' => ?_
    cases b with
    | num n => cases c with
      | num k => exact hN.chain ha.num hb.num hc.num
      | _ => cases h'
    | _ => cases h
  | .str s, b, c, _, _, _ => by
    refine chains_of_kindRank fun h h' => ?_
    cases b with
    | str t => cases c with
      | str u => exact (preorderOn_ord String).chain trivial trivial trivial
      | _ => cases h'
    | _ => cases h
  | .arr xs, b, c, ha, hb, hc => by
    refine chains_of_kindRank fun h h' => ?_
    cases b with
    | arr ys => cases c with
      | arr zs => exact compareItems_chain hN (fun _ => ha.item) (fun _ => hb.item) fun _ => hc.item
      | _ => cases h'
    | _ => cases h
  | .obj xs, b, c, ha, hb, hc => by
    refine chains_of_kindRank fun h h' => ?_
    cases b with
    | obj ys => cases c with
      | obj zs =>
        exact compareEntries_chain hN (fun _ => ha.entry) (fun _ => hb.entry) fun _ => hc.entry
      | _ => cases h'
    | _ => cases h

theorem compareItems_chain (hN : PreorderOn Number.compare N) :
    ∀ {xs ys zs : List Value}, (∀ x ∈ xs, NumbersIn N x) →
    (∀ y ∈ ys, NumbersIn N y) → (∀ z ∈ zs, NumbersIn N z) →
      Chains (compareItems xs ys) (compareItems ys zs) (compareItems xs zs)
  | [], [], [], _, _, _ => fun _ _ => rfl
  | [], [], _ :: _, _, _, _ => fun _ _ => rfl
  | [], _ :: _, [], _, _, _ => fun _ h => absurd rfl h
  | [], _ :: _, _ :: _, _, _, _ => fun _ _ => rfl
  | _ :: _, [], _, _, _, _ => fun h _ => absurd rfl h
  | _ :: _, _ :: _, [], _, _, _ => fun _ h => absurd rfl h
  | x :: xs, y :: ys, z :: zs, hx, hy, hz => by
    rw [List.forall_mem_cons] at hx hy hz
    rw [compareItems, compareItems, compareItems]
    exact (compare_chain hN hx.1 hy.1 hz.1).andThen (compareItems_chain hN hx.2 hy.2 hz.2)

theorem compareEntries_chain (hN : PreorderOn Number.compare N) :
    ∀ {xs ys zs : Record Value},
    (∀ name {x}, (name, x) ∈ xs → NumbersIn N x) → (∀ name {y}, (name, y) ∈ ys → NumbersIn N y) →
    (∀ name {z}, (name, z) ∈ zs → NumbersIn N z) →
      Chains (compareEntries xs ys) (compareEntries ys zs) (compareEntries xs zs)
  | [], [], [], _, _, _ => fun _ _ => rfl
  | [], [], _ :: _, _, _, _ => fun _ _ => rfl
  | [], _ :: _, [], _, _, _ => fun _ h => absurd rfl h
  | [], _ :: _, _ :: _, _, _, _ => fun _ _ => rfl
  | _ :: _, [], _, _, _, _ => fun h _ => absurd rfl h
  | _ :: _, _ :: _, [], _, _, _ => fun _ h => absurd rfl h
  | (k, x) :: xs, (l, y) :: ys, (m, z) :: zs, hx, hy, hz => by
    have hnames : Chains (Ord.compare k l) (Ord.compare l m) (Ord.compare k m) :=
      (preorderOn_ord String).chain trivial trivial trivial
    have hvalues := compare_chain hN (hx k List.mem_cons_self) (hy l List.mem_cons_self)
      (hz m List.mem_cons_self)
    have hrest := compareEntries_chain hN (fun name _ h => hx name (List.mem_cons_of_mem _ h))
      (fun name _ h => hy name (List.mem_cons_of_mem _ h))
      (fun name _ h => hz name (List.mem_cons_of_mem _ h))
    rw [compareEntries, compareEntries, compareEntries]
    exact (hnames.andThen hvalues).andThen hrest

end

/-- **A preorder of numbers is one of the values over them.** -/
theorem preorderOn_numbersIn (hN : PreorderOn Number.compare N) :
    PreorderOn compare (NumbersIn N) where
  swap _ _ := compare_swap _ _
  trans ha hb hc hab hbc := by
    rw [compare_chain hN ha hb hc hab hbc]
    revert hab hbc
    cases compare _ _ <;> cases compare _ _ <;> decide

/-- **Comparison is a preorder of exact values.** -/
theorem preorderOn_of_exact {S : Value → Prop} (h : ∀ v, S v → v.isExact) :
    PreorderOn compare S :=
  (preorderOn_numbersIn (Number.preorderOn_iff_apart.2 (Number.apart_of_toI64? fun _ => id))).mono
    fun v hv => numbersIn_of_isExact (h v hv)

theorem equalTransitive_of_preorderOn {S : Value → Prop} (h : PreorderOn compare S) :
    EqualTransitive S := by
  intro a b c ha hb hc hab hbc
  rw [equal, beq_iff_eq] at hab hbc ⊢
  exact (h.congr_left ha hb hc hab).trans hbc

/-- Integers that equal a number between them equal each other only where they are the same. -/
theorem apart_of_equalTransitive (h : EqualTransitive (NumbersIn N)) : Number.Apart N := by
  intro m n x hm hn hx hmInt hnInt _ hmx hnx
  have hxn : x.compare n = .eq := by
    rw [Number.compare_swap n x, hnx]
    rfl
  have hmn := h (numbersIn_num hm) (numbersIn_num hx) (numbersIn_num hn) (beq_iff_eq.2 hmx)
    (beq_iff_eq.2 hxn)
  exact Number.eq_of_compare_eq hmInt hnInt (beq_iff_eq.1 hmn)

/-- **The laws of comparison.**  A value equals itself, and comparing the other way round turns the
outcome around; over a set of numbers comparison of values is transitive, and so is equality,
exactly where the numbers are apart. -/
theorem compare_laws (N : Number → Prop) :
    (∀ a, compare a a = .eq) ∧ (∀ a b, compare b a = (compare a b).swap) ∧
      (Number.Apart N ↔ ∀ a b c, NumbersIn N a → NumbersIn N b → NumbersIn N c →
        compare a b ≠ .gt → compare b c ≠ .gt → compare a c ≠ .gt) ∧
      (Number.Apart N ↔ EqualTransitive (NumbersIn N)) := by
  have hself : ∀ a, compare a a = .eq := by
    intro a
    have hswap := compare_swap a a
    cases hcmp : compare a a <;> simp_all
  have hpre : Number.Apart N → PreorderOn compare (NumbersIn N) := fun h =>
    preorderOn_numbersIn (Number.preorderOn_iff_apart.2 h)
  refine ⟨hself, compare_swap, ⟨fun h _ _ _ => (hpre h).trans, fun h => ?_⟩,
    fun h => equalTransitive_of_preorderOn (hpre h), apart_of_equalTransitive⟩
  exact apart_of_equalTransitive (equalTransitive_of_preorderOn
    ⟨fun _ _ => compare_swap _ _, fun ha hb hc => h _ _ _ ha hb hc⟩)

/-- The laws on the integers up to `2 ^ 53` beside all doubles, and not beyond: the two integers on
either side of a double equal it, and not each other. -/
theorem compare_laws_moderate :
    (∀ a b c, NumbersIn Number.Moderate a → NumbersIn Number.Moderate b →
      NumbersIn Number.Moderate c → compare a b ≠ .gt → compare b c ≠ .gt → compare a c ≠ .gt) ∧
    EqualTransitive (NumbersIn Number.Moderate) :=
  have hlaws := compare_laws Number.Moderate
  ⟨hlaws.2.2.1.1 Number.apart_moderate, hlaws.2.2.2.1 Number.apart_moderate⟩

/-- The integers `2 ^ 53` and `2 ^ 53 + 1` are the same double. -/
theorem compare_neighbours :
    let large : Value := .int 9007199254740993
    let double : Value := .num (.float (.ofInt 9007199254740992))
    let small : Value := .int 9007199254740992
    compare large double = .eq ∧ compare double small = .eq ∧ compare large small = .gt := by
  decide +kernel

end Value

namespace Direction

variable {α : Type} {compare : α → α → Ordering} {P : α → Prop}

theorem preorderOn_apply (d : Direction) (h : PreorderOn compare P) :
    PreorderOn (fun a b => d.apply (compare a b)) P := by
  cases d with
  | ascending => exact h
  | descending => exact h.reverse

end Direction

end TypedGraph

import Mathlib.Algebra.BigOperators.Group.List.Basic
import Mathlib.Algebra.Ring.Int.Defs
import TypedGraph.Aggregate.Request
import TypedGraph.Proofs.Number.Binary64
import TypedGraph.Proofs.Value.Equality

/-!
# Proofs/Aggregate/Reduce — a group and a function reduce the same values alike

The store reduces the values of a group in its own way: its sum of integers is unbounded, it asks
the comparison of two values the other way round, its greatest value is the last of several, and its
average is counted from the other zero.  None of this is seen where the numbers are signed 64-bit
integers and the partial sums are so as well (`getD_apply`).
-/

namespace TypedGraph

namespace Binary64

/-! ## The two zeros -/

theorem negative_ofInt (i : Int) : (ofInt i).negative = decide (i < 0) := by
  unfold ofInt ofRatio?
  dsimp only
  split <;> rfl

/-- One is a large number of units. -/
theorem exists_le_one_eq : ∃ e, 53 ≤ e ∧ one = Nat.pow 2 e := by
  have h : ∀ k, 53 ≤ k → ∃ e, 53 ≤ e ∧ Nat.pow 2 k = Nat.pow 2 e := fun k hk => ⟨k, hk, rfl⟩
  unfold one
  exact h 1074 (by decide)

/-- No integer but zero has the magnitude of zero. -/
theorem leadingBit_le_magnitude {i : Int} (h : i ≠ 0) : leadingBit ≤ (ofInt i).magnitude := by
  obtain ⟨e, he, hone⟩ := exists_le_one_eq
  have hpos : 0 < i.natAbs := Int.natAbs_pos.2 h
  have hnum : 2 ^ e ≤ i.natAbs * one := by
    rw [hone, Nat.pow_eq]
    exact Nat.le_mul_of_pos_left _ hpos
  have hnearest : leadingBit ≤ nearest (i.natAbs * one) 1 := by
    refine Nat.le_trans ?_ (le_nearest hnum)
    exact Nat.le_mul_of_pos_left _ (by omega)
  unfold ofInt ofRatio?
  generalize i.natAbs * one = num at hnearest
  dsimp only
  split
  · exact hnearest
  · change leadingBit ≤ limit - 1
    decide

theorem signedUnits_ne_zero {x : Binary64} (h : leadingBit ≤ x.magnitude) : x.signedUnits ≠ 0 := by
  have hsignificand : 0 < x.significand := by
    rw [significand, if_neg (Nat.not_lt.2 h)]
    exact Nat.add_pos_left (by decide) _
  have hunits : 0 < x.units := Nat.mul_pos hsignificand (Nat.two_pow_pos _)
  unfold signedUnits
  split <;> omega

/-- **Neither zero changes an integer**, and to zero itself both add up to the same. -/
theorem add?_ofInt (i : Int) : zero.add? (ofInt i) = negativeZero.add? (ofInt i) := by
  have hzero : zero.signedUnits = 0 := rfl
  have hnegative : negativeZero.signedUnits = 0 := rfl
  have hsign : (if (ofInt i).signedUnits = 0 then zero.negative && (ofInt i).negative
      else decide ((ofInt i).signedUnits < 0)) =
        if (ofInt i).signedUnits = 0 then negativeZero.negative && (ofInt i).negative
        else decide ((ofInt i).signedUnits < 0) := by
    split
    · next h =>
      have hi : i = 0 := by
        by_contra hne
        exact signedUnits_ne_zero (leadingBit_le_magnitude hne) h
      rw [negative_ofInt, hi]
      rfl
    · rfl
  unfold add?
  rw [hzero, hnegative, Int.zero_add]
  dsimp only
  rw [hsign]

end Binary64

namespace Aggregate

variable {vs : List Value}

/-- The integers among some values. -/
def integers (vs : List Value) : List Int := (numbers vs).filterMap Number.toI64?

/-- **Every partial sum of the integers** among some values is a signed 64-bit one. -/
def SumsFit (vs : List Value) : Prop :=
  ∀ k, Number.minI64 ≤ ((integers vs).take k).sum ∧ ((integers vs).take k).sum ≤ Number.maxI64

/-! ## Numbers of exact values -/

theorem toI64?_of_exact (h : ∀ v ∈ vs, v.isExact) {n : Number} (hn : n ∈ numbers vs) :
    n.toI64?.isSome := by
  obtain ⟨v, hv, hnumber⟩ := List.mem_filterMap.1 hn
  have hexact := h v hv
  cases v with
  | num m => exact Option.some.inj hnumber ▸ hexact
  | _ => cases hnumber

theorem mapM_toI64? : ∀ {ns : List Number}, (∀ n ∈ ns, n.toI64?.isSome) →
    ns.mapM Number.toI64? = some (ns.filterMap Number.toI64?)
  | [], _ => rfl
  | n :: ns, h => by
    obtain ⟨i, hi⟩ := Option.isSome_iff_exists.1 (h n List.mem_cons_self)
    rw [List.mapM_cons, hi, mapM_toI64? fun m hm => h m (List.mem_cons_of_mem _ hm),
      List.filterMap_cons_some hi]
    rfl

/-! ## Sums -/

theorem groupSum_of_exact (h : ∀ v ∈ vs, v.isExact) :
    Reducer.groupSum vs = .int (integers vs).sum := by
  have hints := mapM_toI64? fun n => toI64?_of_exact h (n := n)
  unfold Reducer.groupSum
  dsimp only
  rw [hints]
  dsimp only
  rw [← List.sum_eq_foldl]
  rfl

/-- **A checked sum** is the sum where no partial sum is out of range. -/
theorem foldlM_checked : ∀ {ns : List Number} {start : Int}, (∀ n ∈ ns, n.toI64?.isSome) →
    (∀ k, Number.minI64 ≤ start + ((ns.filterMap Number.toI64?).take k).sum ∧
      start + ((ns.filterMap Number.toI64?).take k).sum ≤ Number.maxI64) →
    (ns.foldlM (fun sum n => n.toI64?.bind fun i => Number.checkedI64 (sum + i)) start :
      Option Int) = some (start + (ns.filterMap Number.toI64?).sum)
  | [], start, _, _ => congrArg some (Int.add_zero start).symm
  | n :: ns, start, hints, hfit => by
    obtain ⟨i, hi⟩ := Option.isSome_iff_exists.1 (hints n List.mem_cons_self)
    rw [List.filterMap_cons_some hi] at hfit ⊢
    have hstep : Number.checkedI64 (start + i) = some (start + i) := if_pos (by simpa using hfit 1)
    have hrest : ∀ k, Number.minI64 ≤ start + i + ((ns.filterMap Number.toI64?).take k).sum ∧
        start + i + ((ns.filterMap Number.toI64?).take k).sum ≤ Number.maxI64 := by
      intro k
      have := hfit (k + 1)
      rwa [List.take_succ_cons, List.sum_cons, ← Int.add_assoc] at this
    rw [List.foldlM_cons, hi, Option.bind_some, hstep, List.sum_cons, ← Int.add_assoc]
    exact foldlM_checked (fun m hm => hints m (List.mem_cons_of_mem _ hm)) hrest

theorem sum_of_exact (h : ∀ v ∈ vs, v.isExact) (hfit : SumsFit vs) :
    sum vs = .int (integers vs).sum := by
  have hsum : exactSum? (numbers vs) = some (0 + (integers vs).sum) :=
    foldlM_checked (fun n => toI64?_of_exact h) fun k => by
      rw [Int.zero_add]
      exact hfit k
  rw [sum, hsum, Int.zero_add]

/-! ## Least and greatest values -/

/-- **The least value of a group** is the first of the least ones, like any other. -/
theorem firstLeast?_eq (vs : List Value) : Reducer.firstLeast? vs = least? vs := by
  have hstep : ∀ m x : Value, (if Value.compare m x == .gt then x else m) =
      if Value.compare x m == .lt then x else m := by
    intro m x
    rw [Value.compare_swap m x]
    cases Value.compare m x <;> rfl
  cases vs with
  | nil => rfl
  | cons v vs => simp only [Reducer.firstLeast?, least?, hstep]

/-- **Of exact values the first and the last of the greatest are one.** -/
theorem lastGreatest?_of_exact (h : ∀ v ∈ vs, v.isExact) :
    Reducer.lastGreatest? vs = greatest? vs := by
  have hstep : ∀ {m x : Value}, m.isExact → x.isExact →
      (if Value.compare m x == .gt then m else x) = if Value.compare x m == .gt then x else m := by
    intro m x hm hx
    rw [Value.compare_swap m x]
    cases hcompare : Value.compare m x with
    | eq => exact (Value.eq_of_compare_eq hm hx hcompare).symm
    | lt | gt => rfl
  have hfold : ∀ (xs : List Value) {m : Value}, m.isExact → (∀ x ∈ xs, x.isExact) →
      xs.foldl (fun m x => if Value.compare m x == .gt then m else x) m =
        xs.foldl (fun m x => if Value.compare x m == .gt then x else m) m := by
    intro xs
    induction xs with
    | nil => exact fun _ _ => rfl
    | cons x xs ih =>
      intro m hm hxs
      have hx := hxs x List.mem_cons_self
      rw [List.foldl_cons, List.foldl_cons, hstep hm hx]
      refine ih ?_ fun y hy => hxs y (List.mem_cons_of_mem _ hy)
      split
      · exact hx
      · exact hm
  cases vs with
  | nil => rfl
  | cons v vs =>
    exact congrArg some (hfold vs (h v List.mem_cons_self) fun x hx =>
      h x (List.mem_cons_of_mem _ hx))

/-! ## Averages -/

/-- **An average of integers** is the same from either zero. -/
theorem average_of_exact (h : ∀ v ∈ vs, v.isExact) :
    average .negativeZero vs = average .zero vs := by
  have hsum : ∀ n ∈ (numbers vs).head?, ∀ ns, floatSum? .negativeZero (n :: ns) =
      floatSum? .zero (n :: ns) := by
    intro n hn ns
    have hn := toI64?_of_exact h (List.mem_of_head? hn)
    cases n with
    | float => cases hn
    | int i =>
      have hcons : ∀ start, floatSum? start (.int i :: ns) =
          (start.add? (.ofInt i)).bind fun sum => floatSum? sum ns := fun _ => List.foldlM_cons
      rw [hcons, hcons, Binary64.add?_ofInt]
  unfold average
  dsimp only
  cases hns : numbers vs with
  | nil => exact (if_pos rfl).trans (if_pos rfl).symm
  | cons n ns => rw [hsum n (by rw [hns]; exact rfl) ns]

/-! ## Functions -/

/-- What is null is read as the default that is null. -/
theorem getD_null (w : Value) : (Value.present? (some w)).getD .null = w := by
  cases w <;> rfl

/-- **A reducer reduces exact values** as the function does, where its sums fit. -/
theorem getD_apply {f : AggregateFunction} (hf : f ≠ .count) (h : ∀ v ∈ vs, v.isExact)
    (hsum : f = .sum → SumsFit vs) :
    (Value.present? (some (f.reducer.apply vs))).getD f.emptyValue = f.apply vs := by
  cases f with
  | count => exact absurd rfl hf
  | sum =>
    have hgroup : AggregateFunction.sum.reducer.apply vs = .int (integers vs).sum :=
      groupSum_of_exact h
    rw [hgroup, AggregateFunction.apply, sum_of_exact h (hsum rfl)]
    rfl
  | min =>
    refine (getD_null _).trans ?_
    exact congrArg Value.orNull (firstLeast?_eq vs)
  | max =>
    refine (getD_null _).trans ?_
    exact congrArg Value.orNull (lastGreatest?_of_exact h)
  | average => exact (getD_null _).trans (average_of_exact h)

/-- **A count** is the sum of a one for each value that counts and of a zero for each other. -/
theorem groupSum_indicators (bs : List Bool) :
    Reducer.groupSum (bs.map fun b => .int (if b then 1 else 0)) = .nat (bs.filter id).length := by
  have hexact : ∀ v ∈ bs.map fun b => Value.int (if b then 1 else 0), v.isExact := by
    intro v hv
    obtain ⟨b, -, rfl⟩ := List.mem_map.1 hv
    cases b <;> rfl
  have hsum : ∀ bs : List Bool, (integers (bs.map fun b => .int (if b then 1 else 0))).sum =
      (bs.filter id).length := by
    intro bs
    induction bs with
    | nil => rfl
    | cons b bs ih =>
      have hcons : integers ((b :: bs).map fun b => .int (if b then 1 else 0)) =
          (if b then 1 else 0) :: integers (bs.map fun b => .int (if b then 1 else 0)) := by
        cases b <;> rfl
      rw [hcons, List.sum_cons, ih]
      cases b <;> simp [Int.add_comm]
  rw [groupSum_of_exact hexact, hsum]
  rfl

end Aggregate

end TypedGraph

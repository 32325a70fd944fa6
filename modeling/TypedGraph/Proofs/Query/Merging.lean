import TypedGraph.Proofs.Query.Agreement
import TypedGraph.Proofs.Value.Preorder

/-!
# Proofs/Query/Merging — where merging conditions keeps their meaning

Conditions on a plain element come as maps of operators, and an element has to meet all of them.
Merged, they are one map.  The element meets it exactly where it meets the maps it was made of, as
long as equality is transitive among the operands and the element (`meets_elementCondition`): an
operand that equals another one stands for it.

There is no other way.  Two equalities to operands that equal each other leave the first of them, so
that merging is exact on those sets of values only on which equality is transitive
(`equalTransitive_of_exactOn`).
-/

namespace TypedGraph

namespace Clause

open Query

variable {search : String → String → Bool} {S : Value → Prop}

/-! ## Meeting a condition -/

/-- **Whether an element meets a condition**: a list of this element has one that does. -/
def meets (search : String → String → Bool) (condition : Record Value) (v : Value) : Bool :=
  operatorHolds search .elemMatch (.obj condition) (some (.arr [v]))

theorem meets_eq (condition : Record Value) (v : Value) :
    meets search condition v = holdsOfElement search condition v := by
  rw [meets, operatorHolds_elemMatch]
  exact Bool.or_false _

/-- An element meets a map of operators where all of them hold of it. -/
theorem meets_of_asked {es : Record Value} (h : ∀ e ∈ es, Asked S e) (v : Value) :
    meets search es v = operatorsHold search es (some v) := by
  rw [meets_eq, holdsOfElement]
  by_cases hne : es = []
  · -- nothing is asked by a map without operators, and no more by an empty query
    subst hne
    rfl
  · rw [if_pos (isOperatorMap_of_asked hne h)]

/-- An element meets one operator where it holds of it. -/
theorem meets_single (o : QueryOperator) (x v : Value) :
    meets search [(o.name, x)] v = operatorHolds search o x (some v) := by
  rw [meets_eq, holdsOfElement, if_pos (QueryOperator.isOperatorMap_single o x),
    operatorsHold_single]

theorem meets_eq_operator (x v : Value) :
    meets search [(QueryOperator.eq.name, x)] v = Value.equal v x := by
  rw [meets_single, operatorHolds]
  rfl

theorem meets_ne_operator (x v : Value) :
    meets search [(QueryOperator.ne.name, x)] v = !Value.equal v x := by
  rw [meets_single, operatorHolds]
  rfl

theorem meets_isIn (xs : List Value) (v : Value) :
    meets search [(QueryOperator.isIn.name, .arr xs)] v = accepts xs v := by
  rw [meets_single, operatorHolds]
  rfl

theorem meets_notIn (xs : List Value) (v : Value) :
    meets search [(QueryOperator.notIn.name, .arr xs)] v = !accepts xs v := by
  rw [meets_single, operatorHolds]
  rfl

theorem operatorsHold_flatten (v : Option Value) (asked : List (Record Value)) :
    operatorsHold search asked.flatten v = asked.all (operatorsHold search · v) := by
  induction asked with
  | nil => rfl
  | cons es asked ih => rw [List.flatten_cons, operatorsHold_append, ih, List.all_cons]

/-- Maps of operators on an element are what its conditions ask. -/
theorem mapM_onElement_field (asked : List (Record Value)) :
    (asked.map (Clause.field "")).mapM onElement = .ok asked := by
  induction asked with
  | nil => rfl
  | cons es asked ih => exact mapM_cons_eq_ok.2 ⟨es, asked, rfl, ih, rfl⟩

/-! ## Merged conditions -/

/-- **Merging is exact on a set of values**: where conditions that compare with its values are
merged into one, its values meet that one exactly where they meet each of them. -/
def ExactOn (search : String → String → Bool) (S : Value → Prop) : Prop :=
  ∀ (asked : List (Record Value)) (condition : Record Value) (v : Value),
    (∀ es ∈ asked, ∀ e ∈ es, Asked S e) → S v →
      elementCondition .scalar (asked.map (.field "")) = .ok condition →
        meets search condition v = asked.all (meets search · v)

/-- **Merged conditions are met where all of them are**, if equality is transitive among what they
compare. -/
theorem meets_elementCondition (hS : Value.EqualTransitive S) : ExactOn search S := by
  intro asked condition v hasked hv hok
  have hcs : ∀ c ∈ asked.map (Clause.field ""), ∀ es, c.onElement = .ok es →
      ∀ e ∈ es, Asked S e := by
    intro c hc es hes
    obtain ⟨given, hgiven, rfl⟩ := List.mem_map.1 hc
    cases hes
    exact hasked _ hgiven
  obtain ⟨found, hfound, hmerged, -, hholds⟩ :=
    foldlM_addClause_spec search hS hv merged_nil hcs hok
  obtain rfl : asked = found := Except.ok.inj ((mapM_onElement_field asked).symm.trans hfound)
  rw [meets_of_asked hmerged.asked, hholds, operatorsHold, Bool.true_and, operatorsHold_flatten,
    Bool.eq_iff_iff, List.all_eq_true, List.all_eq_true]
  exact forall₂_congr fun es hes => by rw [meets_of_asked (hasked es hes)]

/-- Of two equalities to operands that equal each other, the first one stays. -/
theorem elementCondition_equalities {x y : Value} (h : Value.equal x y = true) :
    elementCondition .scalar ([[(QueryOperator.eq.name, x)], [(QueryOperator.eq.name, y)]].map
      (.field "")) = .ok [(QueryOperator.isIn.name, .arr [x])] := by
  have hfirst : intersection [x] [y] = [x] := by simp [intersection, Value.among, h]
  rw [← hfirst]
  rfl

/-- Of two inequalities to operands that equal each other, the first one stays. -/
theorem elementCondition_inequalities {x y : Value} (h : Value.equal y x = true) :
    elementCondition .scalar ([[(QueryOperator.ne.name, x)], [(QueryOperator.ne.name, y)]].map
      (.field "")) = .ok [(QueryOperator.notIn.name, .arr [x])] := by
  have hfirst : unite [x] [y] = [x] := by simp [unite, Value.among, h]
  rw [← hfirst]
  rfl

/-- **Merging is exact only where equality is transitive.** -/
theorem equalTransitive_of_exactOn (h : ExactOn search S) : Value.EqualTransitive S := by
  intro a b c ha hb hc hab hbc
  have hasked : ∀ x, S x → ∀ e ∈ [(QueryOperator.eq.name, x)], Asked S e := fun x hx =>
    List.forall_mem_singleton.2 ⟨.eq, rfl, hx⟩
  have hmeets := h _ _ a (List.forall_mem_cons.2 ⟨hasked b hb, List.forall_mem_singleton.2
    (hasked c hc)⟩) ha (elementCondition_equalities hbc)
  -- what meets the first equality meets the merged one, and so the second equality
  have hfirst : accepts [b] a = true := by simpa [accepts] using hab
  rw [meets_isIn, hfirst, List.all_cons, List.all_cons, List.all_nil, Bool.and_true,
    meets_eq_operator, meets_eq_operator, hab, Bool.true_and] at hmeets
  exact hmeets.symm

/-- **Where merging is exact.**  Conditions on an element that are merged into one keep their
meaning on those sets of values on which equality is transitive, and on no others: among the values
over a set of numbers exactly where no number that is no signed 64-bit integer equals two different
signed 64-bit integers. -/
theorem exactOn_iff (search : String → String → Bool) :
    (∀ S, ExactOn search S ↔ Value.EqualTransitive S) ∧
      ∀ N, ExactOn search (Value.NumbersIn N) ↔ Number.Apart N := by
  have hexact : ∀ S, ExactOn search S ↔ Value.EqualTransitive S := fun S =>
    ⟨equalTransitive_of_exactOn, meets_elementCondition⟩
  refine ⟨hexact, fun N => (hexact _).trans ⟨Value.apart_of_equalTransitive, fun hN => ?_⟩⟩
  exact Value.equalTransitive_of_preorderOn
    (Value.preorderOn_numbersIn (Number.preorderOn_iff_apart.2 hN))

/-- Merging is exact on the integers up to `2 ^ 53` beside all doubles. -/
theorem exactOn_iff_moderate :
    Number.Apart Number.Moderate ∧
      ExactOn Pattern.search (Value.NumbersIn Number.Moderate) :=
  ⟨Number.apart_moderate,
    ((exactOn_iff Pattern.search).2 Number.Moderate).2 Number.apart_moderate⟩

/-- **Between two integers that are the same double** merging is not exact: the integer `2 ^ 53 + 1`
equals the double `2 ^ 53`, and not the integer.  It meets the merged equality, of which the double
is left, and the merged inequality, of which the integer is left. -/
theorem merging_neighbours :
    let large : Value := .int 9007199254740993
    let double : Value := .num (.float (.ofInt 9007199254740992))
    let small : Value := .int 9007199254740992
    (elementCondition .scalar ([[("$eq", double)], [("$eq", small)]].map (.field "")) =
        .ok [("$in", .arr [double])] ∧
      meets Pattern.search [("$in", .arr [double])] large = true ∧
      meets Pattern.search [("$eq", small)] large = false) ∧
    (elementCondition .scalar ([[("$ne", small)], [("$ne", double)]].map (.field "")) =
        .ok [("$nin", .arr [small])] ∧
      meets Pattern.search [("$nin", .arr [small])] large = true ∧
      meets Pattern.search [("$ne", double)] large = false) ∧
    ¬ExactOn Pattern.search fun _ => True := by
  intro large double small
  have hdouble : Value.equal double small = true := by decide +kernel
  have hlarge : Value.equal large double = true := by decide +kernel
  have hsmall : Value.equal large small = false := by decide +kernel
  refine ⟨⟨elementCondition_equalities hdouble, ?_, ?_⟩,
    ⟨elementCondition_inequalities hdouble, ?_, ?_⟩, fun h => ?_⟩
  · exact (meets_isIn [double] large).trans (by simpa [accepts] using hlarge)
  · exact (meets_eq_operator small large).trans hsmall
  · exact (meets_notIn [small] large).trans (by simpa [accepts] using hsmall)
  · exact (meets_ne_operator double large).trans (by rw [hlarge, Bool.not_true])
  · have hequal := equalTransitive_of_exactOn h trivial trivial trivial hlarge hdouble
    exact Bool.false_ne_true (hsmall.symm.trans hequal)

end Clause

end TypedGraph

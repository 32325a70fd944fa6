import TypedGraph.Proofs.Expression.Evaluate
import TypedGraph.Proofs.Outcome

/-!
# Proofs/Expression/Agreement — the expression of a filter says what its predicate says

Inside an accumulator the conditions of a filter are written as expressions.  On a document nested
under the prefix each expression is true or false, and all those of a condition are true exactly
where the condition holds of the document (`conveys_expressions`).  An expression has no patterns;
a pattern is compared as a plain string, and so it is on the other side.

The variable of a quantifier is named after the depth of its nesting.  Paths on an element start at
that variable (`Starts.element`), which an inner quantifier does not write to.

A prefix whose first name begins with a dollar sign is not in the reach of an expression: its
references would be read as references to variables.
-/

namespace TypedGraph

namespace Expression

variable {d v : Value} {scope : Scope} {initial : List String} {root : PathRoot}
  {kind : ElementKind} {p : FieldPath}

/-! ## Several expressions -/

/-- **The expressions are true or false**, and all of them are true where `b` is. -/
def Conveys (d : Value) (scope : Scope) (es : List Value) (b : Bool) : Prop :=
  ∃ bs : List Bool, evaluateAll d es scope = bs.map (fun b => some (.bool b)) ∧ bs.all id = b

theorem conveys_nil : Conveys d scope [] true := ⟨[], rfl, rfl⟩

theorem conveys_singleton {e : Value} {b : Bool} (h : evaluate d e scope = some (.bool b)) :
    Conveys d scope [e] b := by
  refine ⟨[b], ?_, Bool.and_true b⟩
  rw [evaluateAll, evaluateAll, h]
  rfl

theorem evaluateAll_append (es fs : List Value) :
    evaluateAll d (es ++ fs) scope = evaluateAll d es scope ++ evaluateAll d fs scope := by
  induction es with
  | nil => rfl
  | cons e es ih => rw [List.cons_append, evaluateAll, evaluateAll, ih, List.cons_append]

theorem Conveys.append {es fs : List Value} {b c : Bool} (hes : Conveys d scope es b)
    (hfs : Conveys d scope fs c) : Conveys d scope (es ++ fs) (b && c) := by
  obtain ⟨bs, hbs, rfl⟩ := hes
  obtain ⟨cs, hcs, rfl⟩ := hfs
  refine ⟨bs ++ cs, ?_, List.all_append⟩
  rw [evaluateAll_append, hbs, hcs, List.map_append]

theorem conveys_pair {e f : Value} {b c : Bool} (he : evaluate d e scope = some (.bool b))
    (hf : evaluate d f scope = some (.bool c)) : Conveys d scope [e, f] (b && c) :=
  (conveys_singleton he).append (conveys_singleton hf)

theorem eq_singleton_of_map {α β : Type} {f : α → β} {y : β} {xs : List α}
    (h : [y] = xs.map f) : ∃ x, xs = [x] := by
  have hlength : xs.length = 1 := by
    rw [← List.length_map f, ← h]
    rfl
  exact List.length_eq_one_iff.1 hlength

/-- **A conjunction** is true where all its expressions are. -/
theorem Conveys.conjunction {es : List Value} {b : Bool} (h : Conveys d scope es b) :
    evaluate d (conjunction es) scope = some (.bool b) := by
  obtain ⟨bs, hbs, rfl⟩ := h
  have htruthy : (bs.map fun b => some (Value.bool b)).all truthy = bs.all id := by
    rw [List.all_map]
    rfl
  match es, hbs with
  | [], hbs =>
    rw [List.map_eq_nil_iff.1 hbs.symm]
    rfl
  | [e], hbs =>
    obtain ⟨b, rfl⟩ := eq_singleton_of_map hbs
    rw [List.all_cons, List.all_nil, Bool.and_true]
    exact (List.cons.inj hbs).1
  | e :: f :: es, hbs =>
    rw [Expression.conjunction, evaluate_call rfl, hbs, ← htruthy]
    · rfl
    all_goals nofun

/-- **A disjunction** is true where one of its expressions is. -/
theorem evaluate_disjunction {es : List Value} {bs : List Bool}
    (h : evaluateAll d es scope = bs.map fun b => some (.bool b)) :
    evaluate d (disjunction es) scope = some (.bool (bs.any id)) := by
  have htruthy : (bs.map fun b => some (Value.bool b)).any truthy = bs.any id := by
    rw [List.any_map]
    rfl
  match es, h with
  | [], h =>
    rw [List.map_eq_nil_iff.1 h.symm]
    rfl
  | [e], h =>
    obtain ⟨b, rfl⟩ := eq_singleton_of_map h
    rw [List.any_cons, List.any_nil, Bool.or_false]
    exact (List.cons.inj h).1
  | e :: f :: es, h =>
    rw [disjunction, evaluate_call rfl, h, ← htruthy]
    · rfl
    all_goals nofun

theorem evaluate_negation {e : Value} {b : Bool} (h : evaluate d e scope = some (.bool b)) :
    evaluate d (negation e) scope = some (.bool !b) := by
  rw [negation, evaluate_call rfl, evaluateAll, evaluateAll, h]
  rfl

theorem evaluateAll_map {α : Type} {e : α → Value} {f : α → Bool} : ∀ {xs : List α},
    (∀ x ∈ xs, evaluate d (e x) scope = some (.bool (f x))) →
      evaluateAll d (xs.map e) scope = (xs.map f).map fun b => some (.bool b)
  | [], _ => rfl
  | x :: xs, h => by
    rw [List.map_cons, evaluateAll, h x List.mem_cons_self,
      evaluateAll_map fun y hy => h y (List.mem_cons_of_mem _ hy)]
    rfl

end Expression

namespace Condition

open Expression

variable {d v : Value} {scope : Scope} {initial : List String} {q : FieldPath}
  {w : Option Value}

/-! ## The expressions of a condition -/

theorem conveys_present (href : evaluate d (pathReference q) scope = w) (expected : Bool) :
    Conveys d scope [call (if expected then .ne else .eq) [valueOrNull q, .null]]
      ((Value.present? w).isSome == expected) := by
  have hnull := Value.optionalEquals_null w
  refine conveys_singleton ?_
  rw [evaluate_binary (by cases expected <;> rfl), evaluate_valueOrNull href, evaluate_null]
  cases expected with
  | false =>
    rw [beq_false, Option.not_isSome, ← hnull]
    rfl
  | true =>
    rw [beq_true, ← Option.not_isNone, ← hnull]
    rfl

theorem conveys_isList (href : evaluate d (pathReference q) scope = w) (expected : Bool) :
    Conveys d scope [if expected then Expression.isList q else negation (Expression.isList q)]
      (w.any Value.isArray == expected) := by
  have hlist := evaluate_isList href
  cases expected with
  | false =>
    rw [beq_false]
    exact conveys_singleton (evaluate_negation hlist)
  | true =>
    rw [beq_true]
    exact conveys_singleton hlist

theorem conveys_differs (href : evaluate d (pathReference q) scope = w) (operand : Value) :
    Conveys d scope [if operand.isArray then negation (Expression.equals q operand)
      else call .ne [valueOrNull q, quoted operand]] (!equalsOperand w operand) := by
  cases operand with
  | arr xs => exact conveys_singleton (evaluate_negation (evaluate_equals href (.arr xs)))
  | _ => exact conveys_singleton (evaluate_ne_quoted href _)

theorem conveys_compares (href : evaluate d (pathReference q) scope = w) (comparison : Comparison)
    {operand : Value} (horderable : operand.isOrderable) :
    Conveys d scope [Expression.conjunction [classGuard q operand,
      call (.compare comparison) [pathReference q, quoted operand]]]
      (Value.comparesTo w comparison operand) := by
  have hpair := conveys_pair (evaluate_classGuard href horderable)
    (evaluate_compares href comparison operand)
  have hmeaning : Value.comparesTo w comparison operand =
      (w.any (Value.sameClass · operand) &&
        comparison.holds (Value.compare (Value.orNull w) operand)) := by
    rcases w with _ | (_ | _ | _ | _ | _ | _)
    case some.null => cases operand <;> rfl
    all_goals rfl
  rw [hmeaning]
  exact conveys_singleton hpair.conjunction

/-- A text matches as a pattern where it is the same. -/
def sameText (pattern s : String) : Bool := pattern == s

theorem holdsWith_matching (p : FieldPath) (pattern : String) (v : Value) :
    holdsWith sameText (.matching p pattern) v =
      equalsOperand (p.valueIn? v) (.str pattern) := by
  rw [holdsWith]
  rcases p.valueIn? v with _ | (_ | _ | _ | s | _ | _)
  case some.str => exact BEq.comm.trans (Value.equal_str_str s pattern).symm
  all_goals rfl

theorem conveys_suffixExpressions (href : evaluate d (pathReference q) scope = w)
    (hw : ∀ s, w = some (.str s) → (s.utf8ByteSize : Int) ≤ Number.maxI64)
    {suffixes : List String} (hne : ∀ s ∈ suffixes, s ≠ "") (negated : Bool) :
    Conveys d scope (suffixExpressions q suffixes negated)
      (if negated then suffixes.all fun s => !hasEnding (identifierText w) s
        else suffixes.any (hasEnding (identifierText w))) := by
  unfold suffixExpressions
  cases negated with
  | true =>
    refine ⟨_, evaluateAll_map fun s hs => evaluate_tail_ne href (hne s hs) hw, ?_⟩
    rw [List.all_map]
    rfl
  | false =>
    have hall := evaluateAll_map fun s hs => evaluate_tail_eq href (hne s hs) hw
    refine conveys_singleton ((evaluate_disjunction hall).trans ?_)
    rw [List.any_map]
    rfl

theorem holdsWith_length (search : String → String → Bool) (p : FieldPath) (n : Nat) (v : Value) :
    holdsWith search (.length p n) v = ((p.valueIn? v).any Value.isArray &&
      (Value.itemsOf (p.valueIn? v)).length == n) := by
  rw [holdsWith]
  rcases p.valueIn? v with _ | (_ | _ | _ | _ | _ | _) <;> rfl

theorem conveys_length (href : evaluate d (pathReference q) scope = w)
    (hw : (Value.itemsOf w).length < 2 ^ 61) (n : Nat) :
    Conveys d scope [Expression.conjunction [Expression.isList q, call .eq [sizeOf q, .nat n]]]
      (w.any Value.isArray && (Value.itemsOf w).length == n) := by
  have hpair := conveys_pair (evaluate_isList href)
    (evaluate_eq_nat (evaluate_sizeOf href) hw n)
  exact conveys_singleton hpair.conjunction

theorem holdsWith_isEmpty (search : String → String → Bool) (p : FieldPath) (expected : Bool)
    (v : Value) : holdsWith search (.isEmpty p expected) v = ((p.valueIn? v).any Value.isArray &&
      (if expected then (Value.itemsOf (p.valueIn? v)).length == 0
        else decide (0 < (Value.itemsOf (p.valueIn? v)).length))) := by
  rw [holdsWith]
  rcases p.valueIn? v with _ | (_ | _ | _ | _ | (_ | _) | _) <;> cases expected <;> rfl

theorem conveys_isEmpty (href : evaluate d (pathReference q) scope = w)
    (hw : (Value.itemsOf w).length < 2 ^ 61) (expected : Bool) :
    Conveys d scope [Expression.conjunction [Expression.isList q,
        call (if expected then .eq else .compare .gt) [sizeOf q, .nat 0]]]
      (w.any Value.isArray && (if expected then (Value.itemsOf w).length == 0
        else decide (0 < (Value.itemsOf w).length))) := by
  have hlist := evaluate_isList href
  have hsize := evaluate_sizeOf href
  refine conveys_singleton ?_
  cases expected with
  | true => exact (conveys_pair hlist (evaluate_eq_nat hsize hw 0)).conjunction
  | false => exact (conveys_pair hlist (evaluate_gt_zero hsize hw)).conjunction

theorem length_filter_pos (xs : List Value) (f : Value → Bool) :
    decide (0 < (xs.filter f).length) = xs.any f := by
  rw [Bool.eq_iff_iff, decide_eq_true_eq, List.length_filter_pos_iff, List.any_eq_true]

theorem length_filter_eq_zero (xs : List Value) (f : Value → Bool) :
    ((xs.filter f).length == 0) = !xs.any f := by
  rw [← length_filter_pos]
  cases (xs.filter f).length <;> rfl

/-- **A quantifier** compares a number of elements with zero. -/
theorem conveys_elements (href : evaluate d (pathReference q) scope = w)
    (hw : (Value.itemsOf w).length < 2 ^ 61) {condition : Value} {f : Value → Bool}
    (hcondition : ∀ x ∈ Value.itemsOf w,
      evaluate d condition (Record.put scope (elementName q.quantifierDepth) x) =
        some (.bool (f x))) (quantifier : Quantifier) :
    Conveys d scope [match quantifier with
      | .any => call (.compare .gt) [countElements q condition, .nat 0]
      | .all => call .eq [countElements q (negation condition), .nat 0]
      | .none => call .eq [countElements q condition, .nat 0]]
      (quantifier.holds (Value.itemsOf w) f) := by
  have hbound : ∀ g : Value → Bool, ((Value.itemsOf w).filter g).length < 2 ^ 61 := fun g =>
    Nat.lt_of_le_of_lt (List.length_filter_le g _) hw
  have hcount := evaluate_countElements href hcondition
  refine conveys_singleton ?_
  cases quantifier with
  | any =>
    refine (evaluate_gt_zero hcount (hbound f)).trans ?_
    rw [Quantifier.holds, ← length_filter_pos]
  | all =>
    have hnegated := evaluate_countElements href fun x hx => evaluate_negation (hcondition x hx)
    refine (evaluate_eq_nat hnegated (hbound _) 0).trans ?_
    rw [Quantifier.holds, length_filter_eq_zero, List.not_any_eq_all_not]
    simp only [Bool.not_not]
  | none =>
    refine (evaluate_eq_nat hcount (hbound f) 0).trans ?_
    rw [Quantifier.holds, length_filter_eq_zero]

/-! ## The meaning of a condition and of its expressions -/

theorem length_itemsOf_lt {v : Value} (hv : v.Storable) (p : FieldPath) :
    (Value.itemsOf (p.valueIn? v)).length < 2 ^ 61 := by
  cases h : p.valueIn? v with
  | none => exact Nat.two_pow_pos 61
  | some w => cases w with
    | arr xs => exact hv.items xs (Value.within_of_lookup? (.self _) h)
    | _ => exact Nat.two_pow_pos 61

theorem storable_of_mem_itemsOf {v x : Value} (hv : v.Storable) {p : FieldPath}
    (hx : x ∈ Value.itemsOf (p.valueIn? v)) : x.Storable where
  items xs h := hv.items xs (Value.within_of_mem_itemsOf hx h)
  bytes s h := hv.bytes s (Value.within_of_mem_itemsOf hx h)

mutual

/-- **The expressions of a condition** are all true of a document under the prefix where the
condition holds of the document. -/
theorem conveys_expressions : ∀ (c : Condition) (scope : Scope) (initial : List String)
    (root : PathRoot) (kind : ElementKind) (v : Value) (es : List Value),
      (∀ n ∈ initial, PathName n) → Starts d scope initial v root kind → c.Fits root kind →
      v.Storable → (c.under initial).expressions = .ok es →
        Conveys d scope es (c.holdsWith sameText v)
  | .present p expected, _, _, _, _, _, _, hinitial, hstart, hp, _, hok => by
    cases hok
    exact conveys_present (evaluate_pathReference hinitial hstart hp) expected
  | .isList p expected, _, _, _, _, _, _, hinitial, hstart, hp, _, hok => by
    cases hok
    exact conveys_isList (evaluate_pathReference hinitial hstart hp.1) expected
  | .equals p operand, _, _, _, _, _, _, hinitial, hstart, hp, _, hok => by
    cases hok
    have href := evaluate_pathReference hinitial hstart hp
    exact conveys_singleton (evaluate_equals href operand)
  | .differs p operand, _, _, _, _, _, _, hinitial, hstart, hp, _, hok => by
    cases hok
    exact conveys_differs (evaluate_pathReference hinitial hstart hp) operand
  | .compares p comparison operand, _, _, _, _, _, _, hinitial, hstart, hp, _, hok => by
    cases hok
    have href := evaluate_pathReference hinitial hstart hp.1
    exact conveys_compares href comparison hp.2
  | .matching p pattern, _, _, _, _, _, _, hinitial, hstart, hp, _, hok => by
    cases hok
    rw [holdsWith_matching]
    have href := evaluate_pathReference hinitial hstart hp
    exact conveys_singleton (evaluate_equals href (.str pattern))
  | .endsWith p suffixes negated, _, _, _, _, v, _, hinitial, hstart, hp, hv, hok => by
    cases hok
    have href := evaluate_pathReference hinitial hstart hp.1
    have hid : ∀ s, p.valueIn? v = some (.str s) → (s.utf8ByteSize : Int) ≤ Number.maxI64 :=
      fun s h => hv.bytes s (Value.within_of_lookup? (.self _) h)
    exact conveys_suffixExpressions href hid hp.2.2 negated
  | .length p n, _, _, _, _, _, _, hinitial, hstart, hp, hv, hok => by
    cases hok
    rw [holdsWith_length]
    have href := evaluate_pathReference hinitial hstart hp.1
    exact conveys_length href (length_itemsOf_lt hv p) n
  | .isEmpty p expected, _, _, _, _, _, _, hinitial, hstart, hp, hv, hok => by
    cases hok
    rw [holdsWith_isEmpty]
    have href := evaluate_pathReference hinitial hstart hp.1
    exact conveys_isEmpty href (length_itemsOf_lt hv p) expected
  | .elements p quantifier kind conditions, scope, _, _, _, v, _, hinitial, hstart, hp, hv,
      hok => by
    obtain ⟨inner, hinner, hok⟩ := bind_eq_ok.1 hok
    cases hok
    have href := evaluate_pathReference hinitial hstart hp.1
    rw [← map_under_nil conditions] at hinner
    refine conveys_elements href (length_itemsOf_lt hv p) (fun x hx => ?_) quantifier
    have hscope := Record.get?_put_self scope (elementName p.quantifierDepth) x
    have hconveys := conveys_allExpressions_of_storable conditions _ [] _ kind x inner
      (List.forall_mem_nil _) (.element rfl hscope) hp.2.2 (storable_of_mem_itemsOf hv hx) hinner
    exact hconveys.conjunction
  | .fault _, _, _, _, _, _, _, _, _, _, _, hok => nomatch hok

/-- **The expressions of several conditions** are all true where the conditions hold. -/
theorem conveys_allExpressions_of_storable : ∀ (cs : List Condition) (scope : Scope)
    (initial : List String) (root : PathRoot) (kind : ElementKind) (v : Value) (es : List Value),
      (∀ n ∈ initial, PathName n) → Starts d scope initial v root kind → AllFit root kind cs →
      v.Storable → allExpressions (cs.map (under initial)) = .ok es →
        Conveys d scope es (allHoldWith sameText cs v)
  | [], _, _, _, _, _, _, _, _, _, _, hok => by
    cases hok
    exact conveys_nil
  | c :: cs, scope, initial, root, kind, v, _, hinitial, hstart, hfit, hv, hok => by
    obtain ⟨first, hfirst, hok⟩ := bind_eq_ok.1 hok
    obtain ⟨rest, hrest, hok⟩ := bind_eq_ok.1 hok
    cases hok
    have hc := conveys_expressions c scope initial root kind v first hinitial hstart hfit.1 hv
      hfirst
    have hcs := conveys_allExpressions_of_storable cs scope initial root kind v rest hinitial
      hstart hfit.2 hv hrest
    exact hc.append hcs

end

/-- The expressions of several conditions on a document that a machine can hold. -/
theorem conveys_allExpressions (cs : List Condition) (scope : Scope) (initial : List String)
    (root : PathRoot) (kind : ElementKind) (v : Value) (es : List Value)
    (hinitial : ∀ n ∈ initial, PathName n) (hstart : Starts d scope initial v root kind)
    (hfit : AllFit root kind cs) (hv : v.Bounded)
    (hok : allExpressions (cs.map (under initial)) = .ok es) :
    Conveys d scope es (allHoldWith sameText cs v) :=
  conveys_allExpressions_of_storable cs scope initial root kind v es hinitial hstart hfit
    hv.storable hok

end Condition

/-! ## The expression of a filter -/

namespace Filter

variable {ctx : Context} {t : TypeInfo} {s : String} {filter d e : Value}

/-- **The expression of a filter agrees with its predicate.**  On a document nested under a prefix
that does not begin with a dollar sign it is true exactly where the conditions of the filter hold of
the document, a pattern counting as the string that it is. -/
theorem holds_expression_eq (hctx : ctx.WellNamed) (ht : t.WellNamed) (hd : d.Bounded)
    (hhead : ∀ n, (dottedNames s).head? = some n → isDollarName n = false)
    (hexpression : expression ctx t (.ofDotted s) filter = .ok e) :
    Expression.holds e (Value.nest (dottedNames s) d) =
      Condition.allHoldWith Condition.sameText (read ctx t .document filter) d := by
  have hinitial : ∀ n ∈ dottedNames s, PathName n := fun n hn => pathName_of_mem_dottedNames hn
  obtain ⟨es, hes, rfl⟩ := map_eq_ok.1 hexpression
  rw [read_ofDotted] at hes
  have hconveys := Condition.conveys_allExpressions _ [] _ _ _ d es hinitial
    (.document rfl hhead) (allFit_read hctx ht filter) hd hes
  rw [Expression.holds, hconveys.conjunction]
  rfl

/-- The elements of a list and the identifier are tested. -/
theorem holds_expression_sample :
    let user := (Schema.sample.types.head (List.cons_ne_nil _ _)).2
    let filter : Value := .obj [("tags", .single "some" (.single "eq" (.str "x"))),
      ("id", .single "exists" (.bool true))]
    let d : Value := .obj [("id", .str "a"), ("tags", .strings ["x"])]
    ∃ e, expression .sample user (.ofDotted "node") filter = .ok e ∧
      Expression.holds e (Value.nest (dottedNames "node") d) =
        Condition.allHoldWith Condition.sameText (read .sample user .document filter) d ∧
      Condition.allHoldWith Condition.sameText (read .sample user .document filter) d = true := by
  intro user filter d
  have hd : d.Bounded := by
    refine Value.bounded_obj (List.forall_mem_cons.2 ⟨Value.bounded_str (by decide), ?_⟩)
    refine List.forall_mem_singleton.2 (Value.bounded_arr (by decide) ?_)
    exact List.forall_mem_singleton.2 (Value.bounded_str (by decide))
  have hhead : ∀ n, (dottedNames "node").head? = some n → isDollarName n = false := by
    intro n hn
    cases hn
    rfl
  have hexpression : expression .sample user (.ofDotted "node") filter = .ok _ := rfl
  exact ⟨_, hexpression,
    holds_expression_eq Context.sample_wellNamed (by decide) hd hhead hexpression, rfl⟩

/-- **A prefix that begins with a dollar sign** makes a reference to a variable of a reference to a
path, so that the expression finds nothing where the predicate accepts the document. -/
theorem expression_dollar_prefix :
    let user := (Schema.sample.types.head (List.cons_ne_nil _ _)).2
    let filter : Value := .single "name" (.single "exists" (.bool true))
    let d : Value := .single "name" (.str "a")
    ∃ e, expression .sample user (.ofDotted "$n") filter = .ok e ∧
      Condition.allHoldWith Condition.sameText (read .sample user .document filter) d = true ∧
      Expression.holds e (Value.nest (dottedNames "$n") d) = false :=
  ⟨_, rfl, rfl, rfl⟩

end Filter

end TypedGraph

import TypedGraph.Proofs.Filter.Acceptance
import TypedGraph.Update.Compiler

/-!
# Proofs/Update/ElementFilter — a filter on elements, in memory and in the store

A filter on the elements of a list is made into a predicate and into a condition of the store.  The
predicate on objects reads the filter at a document and the condition at an element; but what a
filter means does not depend on where it starts (`allHoldWith_read_eq`), nor does what is wrong with
it.  So both fail with the same error (`parallel_elementFilter`), and the condition holds of the
elements that the predicate accepts (`holdsOfElement_elementFilter`).
-/

namespace TypedGraph

/-! ## Where a filter starts -/

namespace Condition

variable {search : String → String → Bool} {d : Value}

theorem holdsWith_placed_congr {p q : FieldPath} (h : p.segments = q.segments) (c : Condition) :
    (c.placed p).holdsWith search d = (c.placed q).holdsWith search d := by
  have hvalue : p.valueIn? d = q.valueIn? d := congrArg d.lookup? h
  cases c with
  | fault e => rfl
  | _ => rw [placed, placed, holdsWith, holdsWith, hvalue]

theorem allHoldWith_congr {cs cs' : List Condition}
    (h : List.Forall₂ (fun c c' => c.holdsWith search d = c'.holdsWith search d) cs cs') :
    allHoldWith search cs d = allHoldWith search cs' d := by
  induction h with
  | nil => rfl
  | cons hc _ ih => rw [allHoldWith, allHoldWith, hc, ih]

end Condition

namespace Filter

open Condition (allHoldWith allHoldWith_congr holdsWith_placed_congr)

variable {search : String → String → Bool} {ctx : Context}

theorem allHoldWith_readScalar_eq (p q : FieldPath) (h : p.segments = q.segments)
    (filter d : Value) :
    allHoldWith search (readScalar p filter) d = allHoldWith search (readScalar q filter) d := by
  rw [readScalar_placed p, readScalar_placed q]
  refine allHoldWith_congr ?_
  rw [List.forall₂_map_left_iff, List.forall₂_map_right_iff, List.forall₂_same]
  exact fun c _ => holdsWith_placed_congr h c

/-- **What a filter means does not depend on where it starts.** -/
theorem allHoldWith_read_eq (t : TypeInfo) (p q : FieldPath) (h : p.segments = q.segments)
    (filter d : Value) :
    allHoldWith search (read ctx t p filter) d = allHoldWith search (read ctx t q filter) d := by
  have hextend : ∀ chain, (p.extend chain).segments = (q.extend chain).segments := fun chain =>
    congrArg (· ++ chain) h
  have hvalue : ∀ chain, (p.extend chain).valueIn? d = (q.extend chain).valueIn? d := fun chain =>
    congrArg d.lookup? (hextend chain)
  refine allHoldWith_congr ((allRead_read ctx.names_true (fun _ _ => trivial) filter p q).imp
    fun c c' hreads => ?_)
  cases hreads with
  | value => exact holdsWith_placed_congr (hextend _) _
  | @type chain t _ names negated =>
    have hchild : ∀ name, ((p.extend chain).child name).segments =
        ((q.extend chain).child name).segments := fun name => congrArg (· ++ [name]) (hextend chain)
    unfold typeCondition
    split
    · exact holdsWith_placed_congr (hchild _) (.endsWith p _ _)
    · split
      · exact holdsWith_placed_congr (hchild _) (.differs p _)
      · exact holdsWith_placed_congr (hchild _) (.equals p _)
  | values =>
    -- the elements of a quantifier start anew, and their starts differ in their depth only
    rw [Condition.holdsWith, Condition.holdsWith, hvalue]
    exact congrArg _ (funext fun x => allHoldWith_readScalar_eq (.element p.quantifierDepth)
      (.element q.quantifierDepth) rfl _ x)
  | objects _ _ _ _ hv =>
    rw [Condition.holdsWith, Condition.holdsWith, hvalue]
    exact congrArg _ (funext fun x => allHoldWith_read_eq _ (.element p.quantifierDepth)
      (.element q.quantifierDepth) rfl _ x)
  | fault => rfl
  | _ => rw [Condition.holdsWith, Condition.holdsWith, hvalue]
termination_by sizeOf filter
decreasing_by exact hv.sizeOf_lt

end Filter

/-! ## The conditions on an element -/

open Condition (allClauses verdictOf checkAll_eq_verdictOf)

variable {ctx : Context} {field : FieldInfo} {filter : Value}

/-- The conditions that a filter on the elements of a list field asks of an element. -/
def elementConditions (ctx : Context) (field : FieldInfo) (filter : Value) :
    Except Error (List Condition) :=
  match field.elementKind with
  | .object => (ctx.schema.type field.typeName).map fun t =>
    Filter.read ctx t (.element 0) filter
  | .scalar => .ok (Filter.readScalar (.element 0) filter)

theorem elementFilter_eq : Update.elementFilter ctx field filter =
    elementConditions ctx field filter >>= fun conditions =>
      allClauses conditions >>= Clause.elementCondition field.elementKind := by
  unfold Update.elementFilter elementConditions
  cases field.elementKind <;> rfl

/-- **The predicate of a filter on elements** is that of the conditions that it asks of them. -/
theorem elementPredicate_eq_ok {accepts : Value → Bool}
    (h : elementPredicate ctx field filter = .ok accepts) :
    ∃ conditions, elementConditions ctx field filter = .ok conditions ∧
      accepts = Condition.allHold ctx.patterns conditions := by
  unfold elementPredicate at h
  unfold elementConditions
  cases hkind : field.elementKind with
  | object =>
    rw [hkind] at h
    obtain ⟨t, ht, h⟩ := bind_eq_ok.1 h
    obtain ⟨-, -, rfl⟩ := map_eq_ok.1 h
    exact ⟨_, map_eq_ok.2 ⟨t, ht, rfl⟩,
      funext fun d => Filter.allHoldWith_read_eq t .document (.element 0) rfl filter d⟩
  | scalar =>
    rw [hkind] at h
    obtain ⟨-, -, rfl⟩ := map_eq_ok.1 h
    exact ⟨_, rfl, rfl⟩

/-- **The conditions on an element have the form of conditions.** -/
theorem allFit_elementConditions (hctx : ctx.WellNamed) {conditions : List Condition}
    (h : elementConditions ctx field filter = .ok conditions) :
    Condition.AllFit (.element 0) field.elementKind conditions := by
  unfold elementConditions at h
  split at h
  · next hkind =>
    obtain ⟨t, ht, rfl⟩ := map_eq_ok.1 h
    rw [hkind]
    exact Filter.allFit_read_start hctx (hctx.type ht) rfl filter
  · next hkind =>
    cases h
    rw [hkind]
    exact Filter.allFit_readScalar (FieldPath.fits_element 0) filter

/-! ## The condition and the predicate -/

theorem parallel_objectElement (hctx : ctx.Names (· ≠ "")) (t : TypeInfo)
    (ht : ∀ f ∈ t.fields, f.name ≠ "") (hnames : filter.hasDistinctNames)
    (hpatterns : Filter.PatternsAccepted ctx.patterns filter) :
    Parallel (fun _ _ => True)
      (allClauses (Filter.read ctx t (.element 0) filter) >>= Clause.elementCondition .object)
      (Filter.predicate ctx t filter) := by
  rw [Filter.predicate_eq_verdict t (.element 0) hpatterns]
  refine Parallel.map_right (R := fun _ _ => True) ?_ fun _ _ _ => trivial
  refine (Filter.parallel_allClauses_read hctx t ht _ filter hnames).bind_left
    fun clauses _ _ hclauses => ?_
  obtain ⟨queries, hqueries⟩ := exists_mapM_eq_ok hclauses
  exact ⟨_, map_eq_ok.2 ⟨queries, hqueries, rfl⟩, trivial⟩

theorem parallel_scalarElement (hnames : filter.hasDistinctNames)
    (hpatterns : Filter.PatternsAccepted ctx.patterns filter) :
    Parallel (fun _ _ => True)
      (allClauses (Filter.readScalar (.element 0) filter) >>= Clause.elementCondition .scalar)
      (Filter.scalarPredicate ctx filter) := by
  have hasks : ∀ c ∈ Filter.readScalar (.element 0) filter, Filter.Asks (.element 0) filter c :=
    fun c hc => Filter.asks_of_mem_readScalar hc
  have haccepted : Condition.AllAccepted ctx.patterns (Filter.readScalar (.element 0) filter) :=
    (Condition.allAccepted_iff _).2 fun c hc => (hasks c hc).accepted hpatterns
  rw [Filter.scalarPredicate, Filter.predicateOf, checkAll_eq_verdictOf haccepted]
  refine Parallel.map_right (R := fun _ _ => True) ?_ fun _ _ _ => trivial
  refine (Filter.parallel_onElement rfl hasks).bind_left fun clauses _ _ hclauses => ?_
  obtain ⟨asked, hasked, hoperators, hlones⟩ := hclauses
  have hnodup := Filter.nodup_readScalar (.element 0) hnames
  obtain ⟨condition, h⟩ := Clause.exists_elementOperators hasked hoperators (hlones ▸ hnodup)
  exact ⟨condition, h, trivial⟩

/-- **A condition is made of a filter on elements where a predicate is**, and else both fail with
the same error. -/
theorem parallel_elementFilter (hctx : ctx.Names (· ≠ "")) (hnames : filter.hasDistinctNames)
    (hpatterns : Filter.PatternsAccepted ctx.patterns filter) :
    Parallel (fun _ _ => True) (Update.elementFilter ctx field filter)
      (elementPredicate ctx field filter) := by
  rw [elementFilter_eq]
  unfold elementConditions elementPredicate
  cases field.elementKind with
  | object =>
    dsimp only
    cases ht : ctx.schema.type field.typeName with
    | error e => exact .error e
    | ok t => exact parallel_objectElement hctx t (hctx.type ht) hnames hpatterns
  | scalar => exact parallel_scalarElement hnames hpatterns

/-- What a filter on elements compares values to, and what lies in an element. -/
def ComparedIn (ctx : Context) (field : FieldInfo) (filter x v : Value) : Prop :=
  (∃ conditions, elementConditions ctx field filter = .ok conditions ∧
    v ∈ Condition.allComparands conditions) ∨ v.Within x

/-- Among values all of whose numbers are integers there is no question of transitivity. -/
theorem equalTransitive_comparedIn {conditions : List Condition} {x : Value}
    (hconditions : elementConditions ctx field filter = .ok conditions)
    (hcomparands : (Condition.allComparands conditions).all Value.isExact = true)
    (hx : x.isExact = true) : Value.EqualTransitive (ComparedIn ctx field filter x) := by
  refine Value.equalTransitive_of_exact ?_
  rintro v (⟨conditions', hconditions', hv⟩ | hv)
  · obtain rfl : conditions = conditions' :=
      Except.ok.inj (hconditions.symm.trans hconditions')
    exact List.all_eq_true.1 hcomparands v hv
  · exact Value.isExact_of_within hv hx

/-- **The condition of a filter on elements holds of what its predicate accepts.** -/
theorem holdsOfElement_elementFilter (hsearch : SuffixSearch ctx.patterns.search)
    (hctx : ctx.WellNamed) {x : Value}
    (hequal : Value.EqualTransitive (ComparedIn ctx field filter x)) {condition : Record Value}
    (hcondition : Update.elementFilter ctx field filter = .ok condition) {accepts : Value → Bool}
    (haccepts : elementPredicate ctx field filter = .ok accepts) :
    Clause.holdsOfElement ctx.patterns.search condition x = accepts x := by
  obtain ⟨conditions, hconditions, rfl⟩ := elementPredicate_eq_ok haccepts
  rw [elementFilter_eq, hconditions] at hcondition
  replace hcondition : allClauses conditions >>= Clause.elementCondition field.elementKind =
    .ok condition := hcondition
  obtain ⟨clauses, hclauses, hcondition⟩ := bind_eq_ok.1 hcondition
  have hfit := allFit_elementConditions hctx hconditions
  have hcomparands : ∀ v ∈ Condition.allComparands conditions,
      v = .null ∨ ComparedIn ctx field filter x v := fun v hv =>
    .inr (.inl ⟨conditions, hconditions, hv⟩)
  have hwithin : ∀ v, Value.Within v x → v = .null ∨ ComparedIn ctx field filter x v :=
    fun v hv => .inr (.inr hv)
  rw [← Condition.map_under_nil conditions] at hclauses
  have hmeaning : clauses.all (Clause.holdsOn ctx.patterns.search · x) =
      Condition.allHold ctx.patterns conditions x :=
    Condition.holdsOn_allClauses hsearch hequal.withNull (.inl rfl) conditions [] _ _ x
      clauses (List.forall_mem_nil _) hfit hcomparands hwithin hclauses
  by_cases hne : clauses = []
  · -- where nothing is asked there is no map of operators to merge, only the query without entries
    subst hne
    have hempty : condition = [] := by
      cases hkind : field.elementKind <;> rw [hkind] at hcondition <;> cases hcondition <;> rfl
    rw [← hmeaning, hempty]
    rfl
  · have hfits := Condition.fits_allClauses (.inl rfl) hfit hcomparands hclauses
    rw [← hmeaning]
    exact Clause.elementCondition_spec hequal.withNull (hwithin x (.self x)) hfits hne hcondition

end TypedGraph

import TypedGraph.Proofs.Aggregate.Labels
import TypedGraph.Proofs.Aggregate.Reduce
import TypedGraph.Proofs.Expression.Parallel

/-!
# Proofs/Aggregate/Agreement — the group stage and the aggregates in memory agree

Aggregates are computed by the store in one group, or in memory over edges that are at hand.  Where
the filters have no patterns and the numbers are signed 64-bit integers whose partial sums fit, the
two fail with the same error or have the same results in the same order
(`parallel_groupStage_ofEdges`).

An accumulator reduces the values that the request reduces in memory: an edge that fails the filter
contributes a null, which a group passes over (`parallel_accumulator_contributions`).  A count is
the exception, which sums a one or a zero for every edge.  Of several requests with one label both
sides keep the last, in the place of the first.
-/

namespace TypedGraph

namespace Group

/-- The values that an accumulator reduces over documents. -/
def reduced (docs : List Value) : Value → List Value
  | .obj ((_, e) :: _) => docs.filterMap fun d => Value.present? (Expression.evaluate d e [])
  | _ => []

/-- **An accumulator applies its reducer** to the values of its expression. -/
theorem accumulate_single (docs : List Value) (reducer : Reducer) (operand : Value) :
    accumulate docs (.single reducer.name operand) =
      reducer.apply (reduced docs (.single reducer.name operand)) := by
  cases reducer <;> rfl

end Group

namespace AggregateRequest

open Expression (evaluate call pathReference valueOrNull Conveys)

variable {ctx : Context} {t : TypeInfo} {a : AggregateRequest} {edges : List Value} {e : Value}

/-! ## What contributes in memory -/

/-- The node of an edge. -/
def nodeOf (config : Config) (e : Value) : Value :=
  Value.orNull (e.lookup? (dottedNames config.nodePath))

/-- What a request accepts nodes by. -/
def selector (ctx : Context) (t : TypeInfo) (a : AggregateRequest) :
    Except Error (Value → Bool) :=
  match a.filter with
  | some f => Filter.predicate ctx t f
  | none => .ok fun _ => true

/-- The values at the path of a request in the edges with a node that is accepted. -/
def contributed (config : Config) (a : AggregateRequest) (accepts : Value → Bool)
    (edges : List Value) : List Value :=
  (edges.filter fun e => accepts (nodeOf config e)).filterMap fun e =>
    Value.present? ((a.path config).valueIn? e)

theorem contributions_eq (ctx : Context) (t : TypeInfo) (a : AggregateRequest)
    (edges : List Value) : a.contributions ctx t edges =
      a.validate t >>= fun _ => (a.selector ctx t).map fun accepts =>
        a.contributed ctx.config accepts edges := by
  unfold contributions selector
  cases a.validate t with
  | error e => rfl
  | ok =>
    cases a.filter with
    | none => rfl
    | some f =>
      dsimp only [bind, Except.bind]
      cases Filter.predicate ctx t f <;> rfl

/-- What contributes to a request of exact edges is exact. -/
theorem isExact_of_mem_contributed {config : Config} {accepts : Value → Bool}
    (h : ∀ e ∈ edges, e.isExact) {v : Value} (hv : v ∈ a.contributed config accepts edges) :
    v.isExact := by
  obtain ⟨e, he, hfound⟩ := List.mem_filterMap.1 hv
  obtain ⟨hfound, -⟩ := Option.filter_eq_some_iff.1 hfound
  exact Value.isExact_of_within (Value.within_of_lookup? (.self v) hfound)
    (h e (List.mem_filter.1 he).1)

/-! ## What an accumulator reduces -/

/-- **An expression tells of an edge** what a test says; where there is none, the test holds. -/
def Tells (e : Value) (condition : Option Value) (b : Bool) : Prop :=
  match condition with
  | some c => evaluate e c [] = some (.bool b)
  | none => b = true

theorem evaluate_cond (d c yes no : Value) :
    evaluate d (call .cond [c, yes, no]) [] =
      if Expression.truthy (evaluate d c []) then evaluate d yes [] else evaluate d no [] := rfl

/-- The operand of a count is one for an edge that is accepted and has the field. -/
theorem evaluate_operand_count {config : Config} {condition : Option Value} {b : Bool}
    {w : Option Value} (hcount : a.function = .count) (htells : Tells e condition b)
    (href : evaluate e (pathReference (a.path config)) [] = w) :
    evaluate e (a.operand config condition) [] =
      some (.int (if b && (Value.present? w).isSome then 1 else 0)) := by
  have hpresent : Conveys e [] [call .ne [valueOrNull (a.path config), .null]]
      ((Value.present? w).isSome == true) := Condition.conveys_present href true
  rw [beq_true] at hpresent
  have hboth : Conveys e [] (condition.toList ++ [call .ne [valueOrNull (a.path config), .null]])
      (b && (Value.present? w).isSome) := by
    cases condition with
    | none =>
      obtain rfl : b = true := htells
      exact hpresent
    | some c => exact (Expression.conveys_singleton htells).append hpresent
  rw [operand, evaluate_cond, hboth.conjunction]
  · cases b && (Value.present? w).isSome <;> rfl
  · exact hcount

/-- The operand of any other function has a value for an edge that is accepted and has the field. -/
theorem present?_evaluate_operand {config : Config} {condition : Option Value} {b : Bool}
    {w : Option Value} (hcount : a.function ≠ .count) (htells : Tells e condition b)
    (href : evaluate e (pathReference (a.path config)) [] = w) :
    Value.present? (evaluate e (a.operand config condition) []) =
      if b then Value.present? w else none := by
  cases condition with
  | none =>
    obtain rfl : b = true := htells
    have hoperand : a.operand config none = pathReference (a.path config) := by
      unfold operand
      cases hfunction : a.function with
      | count => exact absurd hfunction hcount
      | _ => rfl
    rw [hoperand, href]
    rfl
  | some c =>
    have hoperand : a.operand config (some c) =
        call .cond [c, pathReference (a.path config), .null] := by
      unfold operand
      cases hfunction : a.function with
      | count => exact absurd hfunction hcount
      | _ => rfl
    have htells : evaluate e c [] = some (.bool b) := htells
    rw [hoperand, evaluate_cond, htells, href]
    cases b <;> rfl

section Reduced

variable {config : Config} {condition : Option Value} {accepts : Value → Bool}
  (htells : ∀ e ∈ edges, Tells e condition (accepts (nodeOf config e)))
  (hpath : ∀ e, evaluate e (pathReference (a.path config)) [] = (a.path config).valueIn? e)

include htells hpath

/-- **Of any other function** the values that contribute are reduced. -/
theorem reduced_operand (hcount : a.function ≠ .count) (name : String) :
    Group.reduced edges (.single name (a.operand config condition)) =
      a.contributed config accepts edges := by
  have hreduced : Group.reduced edges (.single name (a.operand config condition)) =
      edges.filterMap fun e =>
        Value.present? (evaluate e (a.operand config condition) []) := rfl
  rw [hreduced, contributed, List.filterMap_filter]
  exact List.filterMap_congr fun e he =>
    present?_evaluate_operand hcount (htells e he) (hpath e)

/-- **Of a count** the sum is the number of values that contribute. -/
theorem groupSum_reduced (hcount : a.function = .count) (name : String) :
    Reducer.groupSum (Group.reduced edges (.single name (a.operand config condition))) =
      .nat (a.contributed config accepts edges).length := by
  have hones : Group.reduced edges (.single name (a.operand config condition)) =
      (edges.map fun e => accepts (nodeOf config e) &&
        (Value.present? ((a.path config).valueIn? e)).isSome).map fun b =>
          .int (if b then 1 else 0) := by
    rw [List.map_map, ← List.filterMap_eq_map]
    refine List.filterMap_congr fun e he => ?_
    rw [evaluate_operand_count hcount (htells e he) (hpath e)]
    rfl
  rw [hones, Aggregate.groupSum_indicators, ← List.countP_eq_length_filter, List.countP_map,
    contributed, List.length_filterMap_eq_countP, List.countP_filter]
  refine congrArg Value.nat (List.countP_congr fun e _ => ?_)
  simp [and_comm]

/-- **Over edges with exact numbers** whose sums fit, an accumulator has the value of its
request. -/
theorem valueOver_operand (hedges : ∀ e ∈ edges, e.isExact)
    (hsums : a.function = .sum → Aggregate.SumsFit (a.contributed config accepts edges)) :
    Aggregate.valueOver a edges (.single a.function.reducer.name (a.operand config condition)) =
      a.function.apply (a.contributed config accepts edges) := by
  rw [Aggregate.valueOver, Group.accumulate_single]
  by_cases hcount : a.function = .count
  · have hreducer : a.function.reducer.apply = Reducer.groupSum := by rw [hcount]; rfl
    have hresult : ∀ vs, a.function.apply vs = .nat vs.length := by
      rw [hcount]
      exact fun _ => rfl
    rw [hreducer, groupSum_reduced htells hpath hcount, hresult]
    rfl
  · rw [reduced_operand htells hpath hcount]
    exact Aggregate.getD_apply hcount (fun v => isExact_of_mem_contributed hedges) hsums

end Reduced

/-! ## The two sides of a request -/

/-- **What a request has to be like** for the two sides to agree: its label is not the identifier of
a group, its path does not begin with a dollar sign, its filter has no patterns, and the partial
sums of what it adds up fit. -/
structure Comparable (ctx : Context) (t : TypeInfo) (edges : List Value)
    (a : AggregateRequest) : Prop where
  label : a.label ≠ "_id"
  undollared : ∀ n, (a.path ctx.config).segments.head? = some n → isDollarName n = false
  patternFree : ∀ f, a.filter = some f →
    Condition.AllPatternFree (Filter.read ctx t .document f)
  sums : a.function = .sum → ∀ vs, a.contributions ctx t edges = .ok vs → Aggregate.SumsFit vs

/-- The fields of the node of an edge are found under the path of the node. -/
theorem starts_nodeOf {config : Config} (hhead : ∀ n,
    (dottedNames config.nodePath).head? = some n → isDollarName n = false) (e : Value) :
    Expression.Starts e [] (dottedNames config.nodePath) (nodeOf config e) .document .object := by
  refine .fields (fun path hne => ?_) hhead
  rw [Value.lookup?_append, nodeOf]
  cases e.lookup? (dottedNames config.nodePath) with
  | some v => rfl
  | none =>
    cases path with
    | nil => exact absurd rfl hne
    | cons => rfl

theorem storable_nodeOf {config : Config} (he : e.Storable) : (nodeOf config e).Storable := by
  rw [nodeOf]
  cases h : e.lookup? (dottedNames config.nodePath) with
  | some v => exact he.of_lookup? h
  | none => exact ⟨nofun, nofun⟩

theorem pathName_of_mem_path {config : Config} {n : String}
    (hn : n ∈ (a.path config).segments) : PathName n := by
  unfold path at hn
  split at hn
  · exact (List.mem_append.1 hn).elim pathName_of_mem_dottedNames pathName_of_mem_dottedNames
  · exact pathName_of_mem_dottedNames hn

theorem root_path (config : Config) : (a.path config).root = .document := by
  unfold path
  split <;> rfl

/-- The reference of a request has the value at its path. -/
theorem evaluate_path {config : Config}
    (h : ∀ n, (a.path config).segments.head? = some n → isDollarName n = false) (e : Value) :
    evaluate e (pathReference (a.path config)) [] = (a.path config).valueIn? e := by
  have hpath : a.path config = ⟨.document, (a.path config).segments⟩ := by
    rw [← root_path (a := a) config]
  rw [hpath]
  exact Expression.evaluate_pathReference_document (fun n hn => pathName_of_mem_path hn) h

variable (hctx : ctx.WellNamed) (ht : t.WellNamed)
  (hhead : ∀ n, (dottedNames ctx.config.nodePath).head? = some n → isDollarName n = false)
  (hedges : ∀ e ∈ edges, e.isExact ∧ e.Storable)

include hctx ht hhead hedges

/-- **The condition of a request tells** what its filter accepts. -/
theorem parallel_condition_selector (hfree : ∀ f, a.filter = some f →
    Condition.AllPatternFree (Filter.read ctx t .document f)) :
    Parallel (fun condition accepts => ∀ e ∈ edges,
        Tells e condition (accepts (nodeOf ctx.config e)))
      (a.condition ctx t) (a.selector ctx t) := by
  unfold condition selector
  cases hfilter : a.filter with
  | none => exact .ok fun _ _ => rfl
  | some f =>
    have hparallel := Filter.parallel_expression_predicate (s := ctx.config.nodePath) hctx ht
      (hfree f hfilter)
    exact hparallel.map_left fun c accepts h e he =>
      h e _ (storable_nodeOf (hedges e he).2) (starts_nodeOf hhead e)

/-- **An accumulator reduces what the request reduces in memory**, to the same value; a count counts
the same edges. -/
theorem parallel_accumulator_contributions (h : a.Comparable ctx t edges) :
    Parallel (fun accumulator vs =>
        Aggregate.valueOver a edges accumulator = a.function.apply vs ∧
          (a.function ≠ .count → Group.reduced edges accumulator = vs))
      (a.accumulator ctx t) (a.contributions ctx t edges) := by
  rw [accumulator_eq, contributions_eq]
  refine (Parallel.refl _).bind fun _ _ hvalid _ _ => ?_
  have hparallel := parallel_condition_selector hctx ht hhead hedges h.patternFree
  have hpath := evaluate_path h.undollared
  have hrelated : Parallel (fun condition accepts =>
      Aggregate.valueOver a edges
          (.single a.function.reducer.name (a.operand ctx.config condition)) =
        a.function.apply (a.contributed ctx.config accepts edges) ∧
      (a.function ≠ .count → Group.reduced edges
          (.single a.function.reducer.name (a.operand ctx.config condition)) =
        a.contributed ctx.config accepts edges)) (a.condition ctx t) (a.selector ctx t) := by
    refine hparallel.refine fun condition accepts _ hselector htells => ⟨?_, fun hcount => ?_⟩
    · refine valueOver_operand htells hpath (fun e he => (hedges e he).1) fun hsum => ?_
      refine h.sums hsum _ ?_
      rw [contributions_eq, hvalid, hselector]
      rfl
    · exact reduced_operand htells hpath hcount _
  exact hrelated.map fun _ _ h => h

end AggregateRequest

/-! ## The two sides of all requests -/

namespace Aggregate

open AggregateRequest (exists_isLast Comparable parallel_accumulator_contributions)

variable {ctx : Context} {t : TypeInfo} {requests : List AggregateRequest} {edges : List Value}

/-- Results that fail alike one by one fail alike together. -/
theorem parallel_collect {f g : AggregateRequest → Except Error Value}
    (h : ∀ a ∈ requests, Parallel (fun _ _ => True) (f a) (g a)) (start start' : Record Value) :
    Parallel (fun _ _ => True) (collect requests f start) (collect requests g start') := by
  have hlabelled : Parallel (List.Forall₂ fun _ _ => True) (labelled f requests)
      (labelled g requests) :=
    Parallel.mapM fun a ha => (h a ha).map fun _ _ _ => trivial
  rw [collect_eq, collect_eq]
  exact hlabelled.map fun _ _ _ => trivial

/-- What both sides compute has the same names in the same order. -/
theorem names_ofRows {results : Record Value} (h : ofEdges ctx t requests edges = .ok results)
    (rows : List (Record Value)) :
    Record.names (ofRows requests rows) = Record.names results := by
  rw [ofEdges, collect_eq] at h
  obtain ⟨entries, hentries, rfl⟩ := map_eq_ok.1 h
  refine Record.names_putAll_congr ?_ rfl
  rw [names_labelled hentries, Record.names, List.map_map]
  rfl

/-- **The group stage and the aggregates in memory agree.**  Over edges whose numbers are signed
64-bit integers, and for requests with filters without patterns and sums that fit, the two fail with
the same error, or the results read out of the rows of the group are those computed in memory, in
the same order; and what any accumulator but a count reduces, an average too, are the values that
contribute in memory. -/
theorem parallel_groupStage_ofEdges (hctx : ctx.WellNamed) (ht : t.WellNamed)
    (hhead : ∀ n, (dottedNames ctx.config.nodePath).head? = some n → isDollarName n = false)
    (hedges : ∀ e ∈ edges, e.isExact ∧ e.Storable)
    (h : ∀ a ∈ requests, a.Comparable ctx t edges) :
    Parallel (fun stage results => ofRows requests (Group.rows stage edges) = results)
        (groupStage ctx t requests) (ofEdges ctx t requests edges) ∧
      ∀ a ∈ requests, a.function ≠ .count →
        Parallel (fun accumulator vs => Group.reduced edges accumulator = vs)
          (a.accumulator ctx t) (a.contributions ctx t edges) := by
  have hboth := fun a ha => parallel_accumulator_contributions hctx ht hhead hedges (h a ha)
  refine ⟨?_, fun a ha hcount => (hboth a ha).refine fun _ _ _ _ hvalues => hvalues.2 hcount⟩
  have hcollect : Parallel (fun _ _ => True) (groupStage ctx t requests)
      (ofEdges ctx t requests edges) :=
    (parallel_collect (fun a ha => (hboth a ha).map_right fun _ _ _ => trivial) _ _).map_left
      fun _ _ _ => trivial
  refine hcollect.refine fun stage results hstage hresults _ => ?_
  have hnames := names_ofRows hresults (Group.rows stage edges)
  refine Record.ext_of_names hnames (nodup_ofRows _) fun name hname => ?_
  obtain ⟨b, hb, rfl⟩ := mem_names_ofRows hname
  -- Both sides hold what the last request of the label gives.
  obtain ⟨a, hlast, hlabel⟩ := exists_isLast hb
  obtain ⟨accumulator, haccumulator, hvalue⟩ :=
    ofRow_rows hstage hlast (h a hlast.mem).label edges
  obtain ⟨v, hv, hfound⟩ := get?_collect hresults hlast
  obtain ⟨vs, hvs, rfl⟩ := map_eq_ok.1 hv
  have hrelated := hboth a hlast.mem
  rw [haccumulator, hvs] at hrelated
  rw [← hlabel, get?_ofRows hlast, hfound, hvalue, hrelated.related.1]

/-- Of three edges one has a node that is old enough and one has no age; two requests have one
label. -/
theorem aggregates_of_three_edges :
    let user := (Schema.sample.types.head (List.cons_ne_nil _ _)).2
    let edge := fun (age : Value) (weight : Int) =>
      Value.obj [("node", .single "age" age), ("weight", .int weight)]
    let edges := [edge (.int 30) 2, edge .null 5, edge (.str "x") 1]
    let adult : Value := .single "age" (.single "gt" (.int 18))
    let requests : List AggregateRequest := [⟨"a", .count, .node "age", some adult⟩,
      ⟨"b", .sum, .edge "weight", none⟩, ⟨"a", .max, .node "age", none⟩]
    ∃ stage results, groupStage .sample user requests = .ok stage ∧
      ofEdges .sample user requests edges = .ok results ∧
      ofRows requests (Group.rows stage edges) = results ∧
      Record.get? results "b" = some (.int 8) := by
  intro user edge edges adult requests
  have hhead : ∀ n, (dottedNames "node").head? = some n → isDollarName n = false := by
    rintro n ⟨⟩
    rfl
  have hedge : ∀ age weight, age.Bounded → (edge age weight).Bounded := fun age weight hage =>
    Value.bounded_obj (List.forall_mem_cons.2 ⟨Value.bounded_obj (List.forall_mem_singleton.2 hage),
      List.forall_mem_singleton.2 ⟨nofun, nofun⟩⟩)
  have hedges : ∀ e ∈ edges, e.isExact ∧ e.Storable := by
    refine List.forall_mem_cons.2 ⟨⟨rfl, (hedge (.int 30) 2 ⟨nofun, nofun⟩).storable⟩, ?_⟩
    refine List.forall_mem_cons.2 ⟨⟨rfl, (hedge .null 5 ⟨nofun, nofun⟩).storable⟩, ?_⟩
    exact List.forall_mem_singleton.2
      ⟨rfl, (hedge (.str "x") 1 (Value.bounded_str (by decide))).storable⟩
  have hcomparable : ∀ a ∈ requests, a.Comparable .sample user edges := by
    refine List.forall_mem_cons.2 ⟨⟨by decide, ?_, ?_, nofun⟩, ?_⟩
    · rintro n ⟨⟩
      rfl
    · rintro f ⟨⟩
      exact ⟨trivial, trivial⟩
    refine List.forall_mem_cons.2 ⟨⟨by decide, ?_, nofun, ?_⟩, ?_⟩
    · rintro n ⟨⟩
      rfl
    · rintro - vs ⟨⟩
      have hweights : ∀ k, Number.minI64 ≤ (([2, 5, 1] : List Int).take k).sum ∧
          (([2, 5, 1] : List Int).take k).sum ≤ Number.maxI64 := by
        rintro (_ | _ | _ | k)
        case succ.succ.succ =>
          rw [List.take_of_length_le (by simp)]
          decide
        all_goals decide
      exact hweights
    refine List.forall_mem_singleton.2 ⟨by decide, ?_, nofun, nofun⟩
    rintro n ⟨⟩
    rfl
  have hagree := (parallel_groupStage_ofEdges Context.sample_wellNamed (by decide) hhead hedges
    hcomparable).1
  obtain ⟨stage, hstage⟩ : ∃ stage, groupStage .sample user requests = .ok stage := ⟨_, rfl⟩
  obtain ⟨results, hresults, hsum⟩ : ∃ results, ofEdges .sample user requests edges = .ok results ∧
      Record.get? results "b" = some (.int 8) := ⟨_, rfl, rfl⟩
  rw [hstage, hresults] at hagree
  exact ⟨stage, results, hstage, hresults, hagree.related, hsum⟩

end Aggregate

end TypedGraph

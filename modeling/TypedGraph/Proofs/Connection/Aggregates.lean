import TypedGraph.Proofs.Aggregate.Labels
import TypedGraph.Proofs.Connection.Agreement

/-!
# Proofs/Connection/Aggregates — aggregates and the rest of an answer

The aggregates of a request are written into its answer under their labels, beside the edges and the
page info.  As long as no label is the name of one of those, the edges and the page info are what
they are without aggregates, and each label holds the result of its last request over all edges that
satisfy the filter (`Keeps`): over a list (`resolveList_keeps`), and over a collection, where the
identifier of a group is one more name that no label may be (`resolve_keeps`).

Labels are not held off from those names: a request labelled so is accepted, and displaces the edges
or is displaced by the identifier (`labels_displace`).
-/

namespace TypedGraph

namespace Connection

variable {request : ConnectionRequest}

/-- A request without its aggregates. -/
def withoutAggregates (request : ConnectionRequest) : ConnectionRequest :=
  { request with aggregates := [] }

/-- **No label is the name of a part of the answer.** -/
def LabelsFree (requests : List AggregateRequest) : Prop :=
  ∀ a ∈ requests, a.label ≠ "edges" ∧ a.label ≠ "pageInfo"

instance (requests : List AggregateRequest) : Decidable (LabelsFree requests) :=
  inferInstanceAs (Decidable (∀ a ∈ requests, a.label ≠ "edges" ∧ a.label ≠ "pageInfo"))

/-- **Aggregates displace nothing**: an answer has the edges and the page info of the one without
aggregates, and each label holds the value of its last request. -/
structure Keeps (answer plain : Value) (requests : List AggregateRequest)
    (value : AggregateRequest → Value → Prop) : Prop where
  edges : answer.get? "edges" = plain.get? "edges"
  pageInfo : answer.get? "pageInfo" = plain.get? "pageInfo"
  labels : ∀ a, a.IsLast requests → ∃ v, value a v ∧ answer.get? a.label = some v

/-- **An answer with results of labels that are free** keeps its edges and its page info. -/
theorem keeps_payload {requests : List AggregateRequest} (hfree : LabelsFree requests)
    {results : Record Value} (hnodup : (Record.names results).Nodup)
    (hnames : ∀ name ∈ Record.names results, ∃ a ∈ requests, a.label = name)
    {value : AggregateRequest → Value → Prop}
    (hlast : ∀ a, a.IsLast requests → ∃ v, value a v ∧ Record.get? results a.label = some v)
    (edges : List Value) (info : PageInfo) :
    Keeps (payload edges info results) (payload edges info []) requests value := by
  have hedges : "edges" ∉ Record.names results := fun hmem => by
    obtain ⟨a, ha, hlabel⟩ := hnames _ hmem
    exact (hfree a ha).1 hlabel
  have hinfo : "pageInfo" ∉ Record.names results := fun hmem => by
    obtain ⟨a, ha, hlabel⟩ := hnames _ hmem
    exact (hfree a ha).2 hlabel
  refine ⟨get?_payload_of_not_mem _ _ hedges, get?_payload_of_not_mem _ _ hinfo, fun a ha => ?_⟩
  obtain ⟨v, hv, hfound⟩ := hlast a ha
  exact ⟨v, hv, Record.get?_putAll hnodup _ hfound⟩

/-! ## Over a list -/

section Lists

variable {ctx : Context} {permissions : Permissions} {element : ListElement}
  {named : NamedExpressions} {items : List Value} {answer : Value}

/-- The value of a request over the edges of items. -/
def ValueOverItems (ctx : Context) (element : ListElement) (selected : List Value)
    (a : AggregateRequest) (v : Value) : Prop :=
  ∃ t, element = .object t ∧ ∃ vs,
    a.contributions ctx t (selected.map fun item => .obj (edge ctx.config item)) = .ok vs ∧
      v = a.function.apply vs

/-- The results over the edges of items, each of the last request of its label. -/
theorem listAggregates_eq_ok {selected : List Value} {requests : List AggregateRequest}
    {results : Record Value}
    (h : listAggregates ctx element requests (selected.map (edge ctx.config)) = .ok results) :
    (Record.names results).Nodup ∧
      (∀ name ∈ Record.names results, ∃ a ∈ requests, a.label = name) ∧
      ∀ a, a.IsLast requests →
        ∃ v, ValueOverItems ctx element selected a v ∧ Record.get? results a.label = some v := by
  unfold listAggregates at h
  split at h
  · next hempty =>
    cases h
    rw [List.isEmpty_iff.1 hempty]
    exact ⟨List.nodup_nil, nofun, fun a ha => nomatch ha.mem⟩
  · cases element with
    | scalar => cases h
    | object t =>
      dsimp only at h
      rw [Aggregate.ofEdges, List.map_map] at h
      refine ⟨Aggregate.nodup_collect h List.nodup_nil, fun name hname => ?_, fun a ha => ?_⟩
      · exact (Aggregate.mem_names_collect h hname).resolve_left List.not_mem_nil
      · obtain ⟨v, hv, hfound⟩ := Aggregate.get?_collect h ha
        obtain ⟨vs, hvs, rfl⟩ := map_eq_ok.1 hv
        exact ⟨_, ⟨t, rfl, vs, hvs, rfl⟩, hfound⟩

/-- **Over a list** aggregates with free labels displace nothing. -/
theorem resolveList_keeps (hfree : LabelsFree request.aggregates)
    (h : resolveList ctx permissions element named items request = .ok answer) :
    ∃ plain selected,
      resolveList ctx permissions element named items (withoutAggregates request) = .ok plain ∧
        selection ctx permissions element named items request = .ok selected ∧
        Keeps answer plain request.aggregates (ValueOverItems ctx element selected) := by
  rw [resolveList_eq_bind] at h
  obtain ⟨selected, hselected, h⟩ := bind_eq_ok.1 h
  obtain ⟨results, hresults, rfl⟩ := map_eq_ok.1 h
  have hplain : resolveList ctx permissions element named items (withoutAggregates request) =
      .ok (answerFor ctx.config request.paging selected []) :=
    resolveList_eq_bind.trans (bind_eq_ok.2 ⟨selected, hselected, rfl⟩)
  obtain ⟨hnodup, hnames, hlast⟩ := listAggregates_eq_ok hresults
  exact ⟨_, selected, hplain, hselected, keeps_payload hfree hnodup hnames hlast _ _⟩

end Lists

/-! ## Over a collection -/

namespace Resolver

variable {patterns : PatternEngine} {r : Resolver} {source : ConnectionSource} {t : TypeInfo}
  {stages : Pipeline} {own : String} {rows kept : List Value} {answer : Value}

/-- The value of a request over rows, as a group reduces them. -/
def ValueOverRows (ctx : Context) (t : TypeInfo) (kept : List Value) (a : AggregateRequest)
    (v : Value) : Prop :=
  ∃ accumulator, a.accumulator ctx t = .ok accumulator ∧ v = Aggregate.valueOver a kept accumulator

theorem store_count (collection : String) :
    (count collection stages (.memory patterns own rows)).store = .memory patterns own rows := rfl

theorem store_page (collection : String) (sort : Option (Record Value)) (w : Window) :
    (page collection stages sort w (.memory patterns own rows)).store =
      .memory patterns own rows := by
  unfold page
  split <;> rfl

/-- What is asked of the rows that stages make of those of a collection. -/
theorem ask_eq_ok {collection : String} {more : Pipeline} {rows' : List (Record Value)}
    (h : (Asked.ask (.memory patterns own rows) collection (stages ++ more)).result = .ok rows') :
    ∃ kept, stages.foldlM (Pipeline.runStage patterns) rows = .ok kept ∧
      Pipeline.run patterns kept more = .ok rows' := by
  have hanswer : (Store.answer patterns own rows collection (stages ++ more)).mapError Error.store =
      .ok rows' := h
  rw [Store.answer] at hanswer
  split at hanswer
  · cases hrun : Pipeline.run patterns rows (stages ++ more) with
    | error e => rw [hrun] at hanswer; cases hanswer
    | ok last =>
      rw [hrun] at hanswer
      cases hanswer
      rw [Pipeline.run, List.foldlM_append] at hrun
      obtain ⟨made, hmade, rfl⟩ := map_eq_ok.1 hrun
      obtain ⟨kept, hkept, hmore⟩ := bind_eq_ok.1 hmade
      exact ⟨kept, hkept, map_eq_ok.2 ⟨made, hmore, rfl⟩⟩
  · cases hanswer

/-- The results over the rows of a collection, each of the last request of its label. -/
theorem aggregates_eq_ok {collection : String} {requests : List AggregateRequest}
    {results : Record Value} (hid : ∀ a ∈ requests, a.label ≠ "_id")
    (hkept : stages.foldlM (Pipeline.runStage patterns) rows = .ok kept)
    (h : (r.aggregates t collection stages requests (.memory patterns own rows)).result =
      .ok results) :
    (Record.names results).Nodup ∧
      (∀ name ∈ Record.names results, ∃ a ∈ requests, a.label = name) ∧
      ∀ a, a.IsLast requests →
        ∃ v, ValueOverRows r.context t kept a v ∧ Record.get? results a.label = some v := by
  unfold aggregates at h
  split at h
  · next hempty =>
    cases h
    rw [List.isEmpty_iff.1 hempty]
    exact ⟨List.nodup_nil, nofun, fun a ha => nomatch ha.mem⟩
  · split at h
    · cases h
    · next stage hstage =>
      obtain ⟨answers, hanswers, rfl⟩ := map_eq_ok.1 h
      obtain ⟨kept', hkept', hanswers⟩ := ask_eq_ok hanswers
      obtain rfl : kept = kept' := Except.ok.inj (hkept.symm.trans hkept')
      have hgroup : Pipeline.run patterns kept [stage] = .ok (Group.rows stage kept) := by
        obtain ⟨group, -, rfl⟩ := map_eq_ok.1 hstage
        rw [← filterMap_asObject? (Group.rows [("$group", Value.obj group)] kept)]
        rfl
      obtain rfl : Group.rows stage kept = answers := Except.ok.inj (hgroup.symm.trans hanswers)
      refine ⟨Aggregate.nodup_ofRows _, fun name => Aggregate.mem_names_ofRows, fun a ha => ?_⟩
      obtain ⟨accumulator, haccumulator, hvalue⟩ :=
        Aggregate.ofRow_rows hstage ha (hid a ha.mem) kept
      exact ⟨_, ⟨accumulator, haccumulator, rfl⟩,
        hvalue ▸ Aggregate.get?_ofRows ha (Group.rows stage kept)⟩

/-- **What is fetched** from a collection keeps its edges and its page info. -/
theorem fetch_keeps {collection : String} {sort : Option (Record Value)}
    (hfree : LabelsFree request.aggregates) (hid : ∀ a ∈ request.aggregates, a.label ≠ "_id")
    (h : (r.fetch t collection stages sort request (.memory patterns own rows)).result =
      .ok answer) :
    ∃ plain kept,
      (r.fetch t collection stages sort (withoutAggregates request)
        (.memory patterns own rows)).result = .ok plain ∧
        stages.foldlM (Pipeline.runStage patterns) rows = .ok kept ∧
        Keeps answer plain request.aggregates (ValueOverRows r.context t kept) := by
  obtain ⟨length, hlength, h⟩ := Asked.andThen_eq_ok.1 h
  obtain ⟨page, hpage, h⟩ := Asked.andThen_eq_ok.1 h
  obtain ⟨results, hresults, rfl⟩ := map_eq_ok.1 h
  rw [store_count, store_page] at hresults
  obtain ⟨counts, hcounts, -⟩ := map_eq_ok.1 hlength
  obtain ⟨kept, hkept, -⟩ := ask_eq_ok hcounts
  obtain ⟨hnodup, hnames, hlast⟩ := aggregates_eq_ok hid hkept hresults
  refine ⟨_, kept, ?_, hkept, keeps_payload hfree hnodup hnames hlast _ _⟩
  exact Asked.andThen_eq_ok.2 ⟨length, hlength, Asked.andThen_eq_ok.2 ⟨page, hpage, rfl⟩⟩

/-- **Over a collection** aggregates with free labels displace nothing, as long as none is labelled
like the identifier of a group. -/
theorem resolve_keeps (hfree : LabelsFree request.aggregates)
    (hid : ∀ a ∈ request.aggregates, a.label ≠ "_id")
    (h : (r.resolve source request (.memory patterns own rows)).result = .ok answer) :
    ∃ plain t filter stages kept,
      (r.resolve source (withoutAggregates request) (.memory patterns own rows)).result =
        .ok plain ∧
        r.context.schema.type source.nodeType = .ok t ∧
        request.effectiveFilter source.named = .ok filter ∧
        r.filterStages source t filter = .ok stages ∧
        stages.foldlM (Pipeline.runStage patterns) rows = .ok kept ∧
        Keeps answer plain request.aggregates (ValueOverRows r.context t kept) := by
  rw [result_resolve] at h
  obtain ⟨⟨t, stages, sort⟩, hprepare, hfetch⟩ := bind_eq_ok.1 h
  have hplain : r.prepare source (withoutAggregates request) = .ok (t, stages, sort) := hprepare
  obtain ⟨t', ht, hprepare⟩ := bind_eq_ok.1 hprepare
  obtain ⟨filter, hfilter, hprepare⟩ := bind_eq_ok.1 hprepare
  obtain ⟨order, -, hprepare⟩ := bind_eq_ok.1 hprepare
  obtain ⟨stages', hstages, hprepare⟩ := bind_eq_ok.1 hprepare
  obtain ⟨sort', -, hprepare⟩ := bind_eq_ok.1 hprepare
  cases hprepare
  obtain ⟨plain, kept, hfetched, hkept, hkeeps⟩ := fetch_keeps hfree hid hfetch
  refine ⟨plain, t, filter, stages, kept, ?_, ht, hfilter, hstages, hkept, hkeeps⟩
  rw [result_resolve, hplain]
  exact hfetched

end Resolver

/-! ## Both ways of resolving -/

/-- **Aggregates displace nothing**, neither over a list nor over a collection: where no label is
the name of a part of the answer, nor over a collection that of the identifier of a group, the edges
and the page info are those without aggregates, and each label holds the value of its last request
over all edges that satisfy the filter. -/
theorem aggregates_displace_nothing (hfree : LabelsFree request.aggregates) :
    (∀ ctx permissions element named items answer,
      resolveList ctx permissions element named items request = .ok answer →
        ∃ plain selected,
          resolveList ctx permissions element named items (withoutAggregates request) =
              .ok plain ∧
            selection ctx permissions element named items request = .ok selected ∧
            Keeps answer plain request.aggregates (ValueOverItems ctx element selected)) ∧
      ∀ (r : Resolver) (patterns : PatternEngine) (source : ConnectionSource) (own : String)
        (rows : List Value) (answer : Value), (∀ a ∈ request.aggregates, a.label ≠ "_id") →
        (r.resolve source request (.memory patterns own rows)).result = .ok answer →
          ∃ plain t filter stages kept,
            (r.resolve source (withoutAggregates request) (.memory patterns own rows)).result =
                .ok plain ∧
              r.context.schema.type source.nodeType = .ok t ∧
              request.effectiveFilter source.named = .ok filter ∧
              r.filterStages source t filter = .ok stages ∧
              stages.foldlM (Pipeline.runStage patterns) rows = .ok kept ∧
              Keeps answer plain request.aggregates (Resolver.ValueOverRows r.context t kept) :=
  ⟨fun _ _ _ _ _ _ h => resolveList_keeps hfree h,
    fun _ _ _ _ _ _ hid h => Resolver.resolve_keeps hfree hid h⟩

/-- Of two requests with one label the last one has it, and the edges stay. -/
theorem aggregates_of_one_label :
    let user := (Schema.sample.types.head (List.cons_ne_nil _ _)).2
    let items := [Value.obj [("age", .int 2)], .obj [("age", .int 5)]]
    let source : ConnectionSource := ⟨"edges", [], "User", ⟨[], []⟩⟩
    let r : Resolver := ⟨.sample, fun _ => .unrestricted⟩
    let request : ConnectionRequest := ⟨none, none, none, none, .none,
      [⟨"a", .count, .node "age", none⟩, ⟨"a", .max, .node "age", none⟩]⟩
    LabelsFree request.aggregates ∧
      (∃ answer plain,
        resolveList .sample r.permissions (.object user) ⟨[], []⟩ items request = .ok answer ∧
          resolveList .sample r.permissions (.object user) ⟨[], []⟩ items
            (withoutAggregates request) = .ok plain ∧
          answer.get? "edges" = plain.get? "edges" ∧ answer.get? "a" = some (.int 5)) ∧
      ∃ answer plain,
        (r.resolve source request (.memory Pattern.engine "edges" (r.rowsOf items))).result =
          .ok answer ∧
          (r.resolve source (withoutAggregates request)
            (.memory Pattern.engine "edges" (r.rowsOf items))).result = .ok plain ∧
          answer.get? "edges" = plain.get? "edges" := by
  intro user items source r request
  have hfree : LabelsFree request.aggregates := by decide
  obtain ⟨hlist, hstore⟩ := aggregates_displace_nothing hfree
  refine ⟨hfree, ?_, ?_⟩
  · obtain ⟨answer, hanswer, ha⟩ : ∃ answer,
        resolveList .sample r.permissions (.object user) ⟨[], []⟩ items request = .ok answer ∧
          answer.get? "a" = some (.int 5) := ⟨_, rfl, rfl⟩
    obtain ⟨plain, _, hplain, -, hkeeps⟩ := hlist _ _ _ _ _ _ hanswer
    exact ⟨answer, plain, hanswer, hplain, hkeeps.edges, ha⟩
  · obtain ⟨answer, hanswer⟩ : ∃ answer,
        (r.resolve source request (.memory Pattern.engine "edges" (r.rowsOf items))).result =
          .ok answer :=
      ⟨_, rfl⟩
    obtain ⟨plain, _, _, _, _, hplain, -, -, -, -, hkeeps⟩ :=
      hstore r _ source _ _ answer (by decide) hanswer
    exact ⟨answer, plain, hanswer, hplain, hkeeps.edges⟩

/-- **Labels that displace, or are displaced.**  A count labelled `edges` is accepted and takes the
place of the edges; one labelled `_id` is accepted as well, and is nothing in a row of a group whose
identifier has that name, although there is a name to count. -/
theorem labels_displace :
    let user := (Schema.sample.types.head (List.cons_ne_nil _ _)).2
    let item := Value.obj [("name", .str "a")]
    let source : ConnectionSource := ⟨"edges", [], "User", ⟨[], []⟩⟩
    let r : Resolver := ⟨.sample, fun _ => .unrestricted⟩
    let request := fun a => ConnectionRequest.mk none none none none .none [a]
    (∃ a answer, AggregateRequest.make "edges" .count (some "name") none none = .ok a ∧
      resolveList .sample r.permissions (.object user) ⟨[], []⟩ [item] (request a) =
        .ok answer ∧ answer.get? "edges" = some (.int 1)) ∧
    ∃ a answer, AggregateRequest.make "_id" .count (some "name") none none = .ok a ∧
      (r.resolve source (request a) (.memory Pattern.engine "edges" (r.rowsOf [item]))).result =
        .ok answer ∧
      answer.get? "_id" = some (.int 0) ∧
      a.contributions .sample user (r.rowsOf [item]) = .ok [.str "a"] :=
  ⟨⟨_, _, rfl, rfl, rfl⟩, _, _, rfl, rfl, rfl, rfl⟩

end Connection

end TypedGraph

import TypedGraph.Proofs.Connection.Collection
import TypedGraph.Proofs.Permission.Parallel

/-!
# Proofs/Connection/Agreement — a collection and a list of the same objects answer alike

The objects of a list, each stored as the row that is its edge, make a collection.  A request
without aggregates has the same answer over either, or fails with the same error
(`resolve_eq_resolveList`): what is filtered, sorted, counted and cut by the pipelines of a store is
filtered, sorted and cut in memory.

The two compile a request step by step in the same order, so that they are kept side by side as
parallel computations: the stages of the edges keep the rows of the items that the predicates keep
(`parallel_filterStages`), and the sort document compares rows as the clauses compare items, since
no such row has anything but a node for a tiebreaker to read (`parallel_prepare`).
-/

namespace TypedGraph

namespace Connection

/-! ## The rows of items -/

/-- The row of an item is the item under the name of the node. -/
theorem edge_eq_nest {config : Config} (hname : PathName config.nodePath) (item : Value) :
    .obj (edge config item) = Value.nest (dottedNames config.nodePath) item := by
  rw [hname.dottedNames_eq]
  rfl

/-- Nothing lies beside the node in the row of an item. -/
theorem dotted?_edge {config : Config} {key : String} (hkey : PathName key)
    (hne : key ≠ config.nodePath) (item : Value) :
    (Value.obj (edge config item)).dotted? key = none := by
  have hget : (Value.obj (edge config item)).get? key = none := if_neg hne.symm
  rw [Value.dotted?, hkey.dottedNames_eq, Value.lookup?, hget]
  rfl

namespace Resolver

variable {r : Resolver} {t : TypeInfo} {items kept : List Value}

/-- The rows of items. -/
def rowsOf (r : Resolver) (items : List Value) : List Value :=
  items.map fun item => .obj (edge r.context.config item)

/-! ## A list of objects -/

/-- The items of a list of objects that may be seen and satisfy a filter. -/
def keptItems (r : Resolver) (t : TypeInfo) (filter : Option Value) (items : List Value) :
    Except Error (List Value) := do
  let visible ← Permission.predicate r.context r.permissions t
  let predicate ← onSome filter (Filter.predicate r.context t)
  return keep predicate (keep visible items)

theorem keep_eq_filter (predicate : Option (Value → Bool)) (items : List Value) :
    keep predicate items = items.filter fun d => predicate.all (· d) := by
  cases predicate with
  | none => exact (List.filter_eq_self.2 fun _ _ => rfl).symm
  | some p => rfl

/-- Items are selected by sorting those that are kept. -/
theorem selectItems_object (filter order : Option Value) :
    selectItems r.context r.permissions (.object t) filter order items =
      r.keptItems t filter items >>= fun kept =>
        (r.orderClauses t order).map fun clauses => Order.sortObjects clauses kept := by
  unfold selectItems keptItems
  dsimp only
  cases Permission.predicate r.context r.permissions t with
  | error e => rfl
  | ok visible =>
    dsimp only [bind, Except.bind]
    cases onSome filter (Filter.predicate r.context t) with
    | error e => rfl
    | ok predicate =>
      cases order with
      | none =>
        have hself : ∀ kept, Order.sortObjects [] kept = kept := fun kept =>
          stableSort_eq_self fun _ _ _ _ => by rw [Order.compareObjects]; decide
        exact congrArg Except.ok (hself _).symm
      | some o =>
        dsimp only [onSome, orderClauses]
        cases Order.read r.context t o <;> rfl

/-! ## Filtering -/

variable {patterns : PatternEngine} {source : ConnectionSource} {request : ConnectionRequest}

/-- Queries keep the rows of the items that a test accepts where they hold of no other rows. -/
theorem foldlM_matchStage?_rowsOf (hname : PathName r.context.config.nodePath)
    {queries : List (Record Value)} {p : Value → Bool}
    (h : ∀ d ∈ items, Permission.holdUnder patterns r.context.config.nodePath d queries = p d) :
    (Filter.matchStage? queries).toList.foldlM (Pipeline.runStage patterns) (r.rowsOf items) =
      .ok (r.rowsOf (items.filter p)) := by
  rw [Pipeline.foldlM_matchStage?, rowsOf, List.filter_map]
  refine congrArg (fun kept => Except.ok (r.rowsOf kept)) (List.filter_congr fun d hd => ?_)
  rw [Function.comp, edge_eq_nest hname]
  exact h d hd

/-- The queries of a permission and of a filter keep the rows of the items that their predicates
keep. -/
theorem foldlM_matchStage?_keep (hname : PathName r.context.config.nodePath)
    {visible : Option (Record Value)} {queries : List (Record Value)}
    {accepts predicate : Option (Value → Bool)}
    (hvisible : ∀ d ∈ items, (visible.all fun q =>
      Query.holds patterns (.obj q) (Value.nest (dottedNames r.context.config.nodePath) d)) =
        accepts.all (· d))
    (hqueries : ∀ d ∈ items, Permission.holdUnder patterns r.context.config.nodePath d queries =
      predicate.all (· d)) :
    (Filter.matchStage? (visible.toList ++ queries)).toList.foldlM (Pipeline.runStage patterns)
        (r.rowsOf items) = .ok (r.rowsOf (keep predicate (keep accepts items))) := by
  rw [keep_eq_filter, keep_eq_filter, List.filter_filter]
  refine foldlM_matchStage?_rowsOf hname fun d hd => ?_
  have hboth : Permission.holdUnder patterns r.context.config.nodePath d
      (visible.toList ++ queries) =
        (Permission.holdUnder patterns r.context.config.nodePath d visible.toList &&
          Permission.holdUnder patterns r.context.config.nodePath d queries) := List.all_append
  have hone : Permission.holdUnder patterns r.context.config.nodePath d visible.toList =
      accepts.all (· d) := by
    rw [← hvisible d hd]
    cases visible with
    | none => rfl
    | some q => exact Bool.and_true _
  rw [hboth, hone, hqueries d hd, Bool.and_comm]

/-- **The stages of the edges keep the rows of the items that the predicates keep.** -/
theorem parallel_filterStages (hsearch : SuffixSearch r.context.patterns.search)
    (hname : PathName r.context.config.nodePath) (hinitial : source.initialStages = [])
    (hctx : r.context.WellNamed) (ht : t.WellNamed)
    (hpermissions : Permission.AllClear r.context r.permissions t items) {filter : Option Value}
    (hfilter : ∀ f ∈ filter, Filter.Clear r.context t items f) :
    Parallel (fun stages kept =>
        stages.foldlM (Pipeline.runStage r.context.patterns) (r.rowsOf items) =
            .ok (r.rowsOf kept) ∧
          kept.length ≤ items.length)
      (r.filterStages source t filter) (r.keptItems t filter items) := by
  have hpermission := Permission.parallel_query_predicate
    (s := r.context.config.nodePath) hsearch hctx ht hpermissions
  refine hpermission.bind fun visible accepts _ _ hvisible => ?_
  have hlength : ∀ predicate, (keep predicate (keep accepts items)).length ≤ items.length :=
    fun _ => Nat.le_trans (length_keep_le _ _) (length_keep_le _ _)
  rw [hinitial]
  cases filter with
  | none => exact .ok ⟨foldlM_matchStage?_keep hname hvisible fun _ _ => rfl, hlength none⟩
  | some f =>
    have hasked : Parallel (fun queries predicate => ∀ d ∈ items,
          Permission.holdUnder r.context.patterns r.context.config.nodePath d queries =
            predicate.all (· d))
        (Filter.query r.context t r.nodePrefix f)
        ((Filter.predicate r.context t f).map some) :=
      (Filter.parallel_query_predicate hsearch hctx ht (hfilter f rfl)).map_right fun _ _ h => h
    exact hasked.bind fun _ _ _ _ hqueries =>
      .ok ⟨foldlM_matchStage?_keep hname hvisible hqueries, hlength _⟩

/-! ## Sorting -/

/-- **Rows are sorted as their items are**, since no tiebreaker is found in them. -/
theorem stableSort_rowsOf (hname : PathName r.context.config.nodePath)
    (htiebreaker : ∀ key ∈ r.context.config.sortTiebreaker,
      PathName key ∧ key ≠ r.context.config.nodePath)
    {clauses : List OrderClause} (hclauses : Order.Named PlainName clauses) (kept : List Value) :
    stableSort (Pipeline.compareRows (r.sortDocument clauses)) (r.rowsOf kept) =
      r.rowsOf (Order.sortObjects clauses kept) := by
  have hcompare : ∀ a b : Value, Pipeline.compareRows (r.sortDocument clauses)
      (.obj (edge r.context.config a)) (.obj (edge r.context.config b)) =
        Order.compareObjects clauses a b := by
    intro a b
    have hnone : ∀ (item : Value) (key : String), r.context.config.sortTiebreaker = some key →
        (Value.nest (dottedNames r.context.config.nodePath) item).dotted? key = none := by
      intro item key hkey
      rw [← edge_eq_nest hname]
      exact dotted?_edge (htiebreaker key hkey).1 (htiebreaker key hkey).2 item
    rw [edge_eq_nest hname, edge_eq_nest hname]
    exact Pipeline.compareRows_sortDocument (fun n hn => pathName_of_mem_dottedNames hn)
      (fun c hc n hn => (hclauses c hc n hn).toPathName)
      fun key hkey => ⟨hnone a key hkey, hnone b key hkey⟩
  exact (map_stableSort _ hcompare kept).symm

theorem plain_orderClauses (hctx : r.context.WellNamed) (ht : t.WellNamed) {order : Option Value}
    {clauses : List OrderClause} (h : r.orderClauses t order = .ok clauses) :
    Order.Named PlainName clauses := by
  cases order with
  | none =>
    cases h
    exact List.forall_mem_nil _
  | some o => exact Order.named_read hctx.idField hctx.types ht h

/-! ## Requests -/

/-- **A request over a source** is prepared, and then fetched. -/
theorem result_resolve (store : Store) : (r.resolve source request store).result =
    r.prepare source request >>= fun (t, stages, sort) =>
      (r.fetch t source.collection stages sort request store).result := by
  unfold resolve
  cases r.prepare source request <;> rfl

section Requests

variable (hsearch : SuffixSearch r.context.patterns.search)
  (hname : PathName r.context.config.nodePath)
  (htiebreaker : ∀ key ∈ r.context.config.sortTiebreaker,
    PathName key ∧ key ≠ r.context.config.nodePath)
  (hinitial : source.initialStages = []) (haggregates : request.aggregates = [])
  (hfits : request.paging.Fits r.context.config.maxRows)
  (hlength : (items.length : Int) ≤ Number.maxU64) (hctx : r.context.WellNamed)
  (ht : r.context.schema.type source.nodeType = .ok t)
  (hpermissions : Permission.AllClear r.context r.permissions t items)
  (hfilter : ∀ f, request.effectiveFilter source.named = .ok (some f) →
    Filter.Clear r.context t items f)

include hsearch hname htiebreaker hinitial haggregates hfits hlength hctx ht hpermissions hfilter

/-- **A request is prepared where items are selected**, and what is fetched then are those items. -/
theorem parallel_prepare :
    Parallel (fun (t, stages, sort) selected =>
        (r.fetch t source.collection stages sort request
          (.memory r.context.patterns source.collection (r.rowsOf items))).result =
            .ok (answer r.context.config request.paging
              (selected.map (edge r.context.config))))
      (r.prepare source request)
      (selection r.context r.permissions (.object t) source.named items request) := by
  have hprepare : r.prepare source request = (do
      let filter ← request.effectiveFilter source.named
      let order ← request.effectiveOrder source.named
      let stages ← r.filterStages source t filter
      let sort ← r.sortStage t order
      return (t, stages, sort)) := by
    rw [prepare, ht]
    rfl
  rw [hprepare]
  refine (Parallel.refl _).bind fun filter _ hchosen _ hsame => ?_
  subst hsame
  refine (Parallel.refl _).bind fun order _ _ _ hsame => ?_
  subst hsame
  have hfilter : ∀ f ∈ filter, Filter.Clear r.context t items f := fun f hf =>
    hfilter f (hchosen.trans (congrArg Except.ok hf))
  rw [selectItems_object]
  refine (parallel_filterStages hsearch hname hinitial hctx (hctx.type ht) hpermissions
    hfilter).bind fun stages kept _ _ hkept => ?_
  rw [sortStage_eq]
  cases hclauses : r.orderClauses t order with
  | error e => exact .error e
  | ok clauses =>
    refine .ok ?_
    have hsorted := stableSort_rowsOf hname htiebreaker
      (plain_orderClauses hctx (hctx.type ht) hclauses) kept
    have hrows : (r.rowsOf kept).length = kept.length := List.length_map _
    refine result_fetch t source.collection haggregates hfits hkept.1 (by omega) _ ?_
    rw [hsorted, rowsOf, List.map_map]
    rfl

/-- **A collection and a list answer alike.**  Over the rows of the objects of a list, in their
order, a request without aggregates has the answer that it has over the list, the same edges with
the same cursors and the same page info, or fails with the same error: for objects, and for members
of an interface or a union, whatever the permissions are, and with whatever library both search for
patterns. -/
theorem resolve_eq_resolveList :
    (r.resolve source request
        (.memory r.context.patterns source.collection (r.rowsOf items))).result =
      resolveList r.context r.permissions (.object t) source.named items request := by
  rw [result_resolve, resolveList_eq haggregates]
  exact (parallel_prepare hsearch hname htiebreaker hinitial haggregates hfits hlength hctx ht
    hpermissions hfilter).bind_eq_map fun _ _ h => h

end Requests

/-- Of four users one is hidden by a pattern and one is too young; the first page by name has one of
the others. -/
theorem resolve_eldest_users :
    let named : Value := .single "name" (.single "matches" (.str "[abd]"))
    let user := (Schema.sample.types.head (List.cons_ne_nil _ _)).2
    let r : Resolver := ⟨.sample, fun _ => .filtered named⟩
    let source : ConnectionSource := ⟨"edges", [], "User", ⟨[], []⟩⟩
    let request : ConnectionRequest := ⟨some (.single "age" (.single "gt" (.int 1))), none,
      some (.single "name" (.str "DESCENDING")), none, ⟨some 1, none, none, none⟩, []⟩
    let item := fun (name : String) (age : Int) =>
      Value.obj [("name", .str name), ("age", .int age)]
    let items := [item "a" 2, item "b" 3, item "c" 4, item "d" 1]
    (r.resolve source request (.memory Pattern.engine "edges" (r.rowsOf items))).result =
        resolveList .sample (fun _ => .filtered named) (.object user) ⟨[], []⟩ items request ∧
      ∃ answer,
        (r.resolve source request (.memory Pattern.engine "edges" (r.rowsOf items))).result =
        .ok answer := by
  intro named user r source request item items
  have hnode : PlainName "node" := by decide
  have htie : PlainName "_id" := by decide
  have hexact : ∀ d ∈ items, d.isExact = true := List.all_eq_true.1 rfl
  have hpattern : Pattern.engine.accepts "[abd]" := by decide
  have hpermissions : Permission.AllClear .sample r.permissions user items := by
    intro other hother f own hf hown
    obtain rfl : other = "User" := List.mem_singleton.1 hother
    cases hf
    cases hown
    exact ⟨rfl, ⟨hpattern, trivial⟩, fun d hd => Filter.equalTransitive_compared rfl (hexact d hd)⟩
  refine ⟨resolve_eq_resolveList Pattern.suffixSearch_engine hnode.toPathName ?_ rfl rfl
    ⟨?_, nofun⟩ (by decide) Context.sample_wellNamed rfl hpermissions ?_, ?_⟩
  · rintro key ⟨⟩
    exact ⟨htie.toPathName, (by decide : "_id" ≠ "node")⟩
  · rintro n ⟨⟩
    decide
  · rintro f ⟨⟩
    exact ⟨rfl, ⟨trivial, trivial⟩, fun d hd => Filter.equalTransitive_compared rfl (hexact d hd)⟩
  · dsimp only [r, source, request, items, item, named]
    exact ⟨_, rfl⟩

end Resolver

end Connection

end TypedGraph

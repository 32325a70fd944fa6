import TypedGraph.Proofs.Aggregate.Agreement
import TypedGraph.Proofs.Connection.Aggregates
import TypedGraph.Proofs.Connection.Walk

/-!
# Proofs/Connection/NodePath — a list under another node path

The node path is used in two ways.  The edge of an item holds the item under it as a name, and
aggregates look for the node of an edge along it as a dotted text.  For a path name the two lead to
the same place (`lookup?_edge`); a node under any other name is out of reach of every path
(`lookup?_edge_eq_none`), so that no field of it contributes to an aggregate.

Which items are selected does not depend on the node path, nor does the page info or the error of a
request that fails.  The aggregates are the same under all path names, and the nodes under all names
but that of the cursor, which is written over them (`answersAlike_iff`).
-/

namespace TypedGraph

/-- **A context with another node path.** -/
def Context.withNodePath (ctx : Context) (name : String) : Context :=
  { ctx with config := { ctx.config with nodePath := name } }

/-! ## What is selected -/

section Selection

variable (ctx : Context) (name : String)

/-- A filter is read as one on nodes, wherever those lie. -/
theorem Filter.read_withNodePath : Filter.read (ctx.withNodePath name) = Filter.read ctx := by
  -- a recursion unfolds at constructors only, and here it is the same function on both sides
  delta Filter.read Filter.readObject
  rfl

theorem Order.read_withNodePath : Order.read (ctx.withNodePath name) = Order.read ctx := by
  delta Order.read Order.readEntries
  rfl

theorem Filter.predicate_withNodePath :
    Filter.predicate (ctx.withNodePath name) = Filter.predicate ctx := by
  unfold predicate
  rw [Filter.read_withNodePath]
  rfl

theorem Filter.scalarPredicate_withNodePath :
    Filter.scalarPredicate (ctx.withNodePath name) = Filter.scalarPredicate ctx := rfl

theorem Permission.predicate_withNodePath :
    Permission.predicate (ctx.withNodePath name) = Permission.predicate ctx := by
  unfold Permission.predicate
  rw [Filter.predicate_withNodePath]
  rfl

/-- **The same items are selected** under any node path. -/
theorem Connection.selection_withNodePath :
    Connection.selection (ctx.withNodePath name) = Connection.selection ctx := by
  unfold selection selectItems
  rw [Permission.predicate_withNodePath, Filter.predicate_withNodePath,
    Filter.scalarPredicate_withNodePath, Order.read_withNodePath]

theorem AggregateRequest.selector_withNodePath :
    AggregateRequest.selector (ctx.withNodePath name) = AggregateRequest.selector ctx := by
  unfold selector
  rw [Filter.predicate_withNodePath]

end Selection

/-! ## Paths into an edge -/

namespace Connection

variable {config : Config}

/-- **Along a path name** an edge leads to its node, and on to what lies in it. -/
theorem lookup?_edge (hname : PathName config.nodePath) (item : Value) (path : List String) :
    (Value.obj (edge config item)).lookup? (dottedNames config.nodePath ++ path) =
      item.lookup? path := by
  rw [edge_eq_nest hname, Value.lookup?_append, Value.lookup?_nest]
  rfl

/-- **No path leads to a node** whose name is no path name. -/
theorem lookup?_edge_eq_none (hname : ¬PathName config.nodePath) {path : List String}
    (hpath : ∀ n ∈ path, PathName n) (hne : path ≠ []) (item : Value) :
    (Value.obj (edge config item)).lookup? path = none := by
  obtain ⟨n, rest, rfl⟩ := List.exists_cons_of_ne_nil hne
  have hn : config.nodePath ≠ n := fun h => hname (h ▸ hpath n List.mem_cons_self)
  have hget : (Value.obj (edge config item)).get? n = none := if_neg hn
  rw [Value.lookup?, hget]
  rfl

end Connection

/-! ## Aggregates over the edges of items -/

namespace AggregateRequest

open Connection (edge lookup?_edge lookup?_edge_eq_none)

variable {ctx : Context} {t : TypeInfo} {a : AggregateRequest} {config : Config} {field : String}

/-- **A request reduces a field of the node.** -/
def ReducesNode (a : AggregateRequest) : Prop := ∃ path, a.field = .node path

/-- **Under a path name** a request reduces what its field holds in the nodes. -/
theorem contributed_edges (hname : PathName config.nodePath) (hfield : a.field = .node field)
    (accepts : Value → Bool) (items : List Value) :
    a.contributed config accepts (items.map fun item => .obj (edge config item)) =
      (items.filter accepts).filterMap fun item => Value.present? (item.dotted? field) := by
  have hnode : ∀ item, nodeOf config (.obj (edge config item)) = item := by
    intro item
    have hfound := lookup?_edge hname item []
    rw [List.append_nil] at hfound
    rw [nodeOf, hfound]
    rfl
  have hvalue : ∀ item, (a.path config).valueIn? (.obj (edge config item)) =
      item.dotted? field := by
    intro item
    rw [path, hfield]
    exact lookup?_edge hname item (dottedNames field)
  simp [contributed, List.filter_map, List.filterMap_map, Function.comp_def, hnode, hvalue]

/-- **Under any other name** no field of a node contributes. -/
theorem contributed_eq_nil (hname : ¬PathName config.nodePath) (hfield : a.field = .node field)
    (hne : dottedNames field ≠ []) (accepts : Value → Bool) (items : List Value) :
    a.contributed config accepts (items.map fun item => .obj (edge config item)) = [] := by
  have hsegments : (a.path config).segments ≠ [] := by
    rw [path, hfield]
    exact List.append_ne_nil_of_right_ne_nil _ hne
  have hvalue : ∀ item, (a.path config).valueIn? (.obj (edge config item)) = none :=
    lookup?_edge_eq_none hname (fun _ => pathName_of_mem_path) hsegments
  simp [contributed, List.filter_map, List.filterMap_map, Function.comp_def, hvalue,
    Value.present?]

theorem contributions_withNodePath {p q : String} (hp : PathName p) (hq : PathName q)
    (ha : a.ReducesNode) (items : List Value) :
    a.contributions (ctx.withNodePath p) t
        (items.map fun item => .obj (edge (ctx.withNodePath p).config item)) =
      a.contributions (ctx.withNodePath q) t
        (items.map fun item => .obj (edge (ctx.withNodePath q).config item)) := by
  obtain ⟨field, hfield⟩ := ha
  have hp : PathName (ctx.withNodePath p).config.nodePath := hp
  have hq : PathName (ctx.withNodePath q).config.nodePath := hq
  simp only [contributions_eq, selector_withNodePath, contributed_edges hp hfield,
    contributed_edges hq hfield]

end AggregateRequest

namespace Connection

variable {ctx : Context} {permissions : Permissions} {element : ListElement} {t : TypeInfo}
  {named : NamedExpressions} {items selected : List Value} {request : ConnectionRequest}
  {requests : List AggregateRequest} {p q : String}

/-- **Under path names the results are the same.** -/
theorem listAggregates_withNodePath (hp : PathName p) (hq : PathName q)
    (hnodes : ∀ a ∈ requests, a.ReducesNode) (selected : List Value) :
    listAggregates (ctx.withNodePath p) (.object t) requests
        (selected.map (edge (ctx.withNodePath p).config)) =
      listAggregates (ctx.withNodePath q) (.object t) requests
        (selected.map (edge (ctx.withNodePath q).config)) := by
  unfold listAggregates Aggregate.ofEdges
  simp only [List.map_map, Function.comp_def, Aggregate.collect_eq, Aggregate.labelled]
  rw [mapM_congr fun a ha => by
    rw [AggregateRequest.contributions_withNodePath hp hq (hnodes a ha)]]

/-- Under any node paths they fail alike. -/
theorem parallel_listAggregates (ctx : Context) (t : TypeInfo) (requests : List AggregateRequest)
    (p q : String) (selected : List Value) :
    Parallel (fun _ _ => True)
      (listAggregates (ctx.withNodePath p) (.object t) requests
        (selected.map (edge (ctx.withNodePath p).config)))
      (listAggregates (ctx.withNodePath q) (.object t) requests
        (selected.map (edge (ctx.withNodePath q).config))) := by
  unfold listAggregates
  split
  · exact .ok trivial
  · refine Aggregate.parallel_collect (fun a _ => Parallel.map ?_ fun _ _ h => h) [] []
    rw [AggregateRequest.contributions_eq, AggregateRequest.contributions_eq,
      AggregateRequest.selector_withNodePath, AggregateRequest.selector_withNodePath]
    refine (Parallel.refl _).bind fun _ _ _ _ _ => ?_
    exact (Parallel.refl _).map fun _ _ _ => trivial

/-! ## Answers for the same items -/

/-- **Under two node paths** a request fails alike, or is answered for the same items. -/
theorem parallel_resolveList {R : Value → Value → Prop} (h : ∀ selected results results',
      listAggregates (ctx.withNodePath p) (.object t) request.aggregates
        (selected.map (edge (ctx.withNodePath p).config)) = .ok results →
      listAggregates (ctx.withNodePath q) (.object t) request.aggregates
        (selected.map (edge (ctx.withNodePath q).config)) = .ok results' →
      R (answerFor (ctx.withNodePath p).config request.paging selected results)
        (answerFor (ctx.withNodePath q).config request.paging selected results')) :
    Parallel R (resolveList (ctx.withNodePath p) permissions (.object t) named items request)
      (resolveList (ctx.withNodePath q) permissions (.object t) named items request) := by
  rw [resolveList_eq_bind, resolveList_eq_bind, selection_withNodePath, selection_withNodePath]
  refine (Parallel.refl _).bind ?_
  rintro selected _ - - rfl
  have hparallel := parallel_listAggregates ctx t request.aggregates p q selected
  exact (hparallel.refine fun _ _ hp hq _ => h selected _ _ hp hq).map fun _ _ h => h

/-! ## What is the same in two answers -/

/-- **The same page info**, unless a label displaces it. -/
def SamePageInfo (request : ConnectionRequest) (x y : Value) : Prop :=
  (∀ a ∈ request.aggregates, a.label ≠ "pageInfo") → x.get? "pageInfo" = y.get? "pageInfo"

/-- **The same aggregates.** -/
def SameAggregates (request : ConnectionRequest) (x y : Value) : Prop :=
  ∀ a ∈ request.aggregates, x.get? a.label = y.get? a.label

/-- **The same nodes**, as the edges on either side are read, unless a label displaces the edges. -/
def SameNodes (read read' : Value → Value) (request : ConnectionRequest) (x y : Value) : Prop :=
  (∀ a ∈ request.aggregates, a.label ≠ "edges") → (edgesOf x).map read = (edgesOf y).map read'

/-- The node of an edge under a name. -/
def nodeUnder (name : String) (edge : Value) : Value := Value.orNull (edge.get? name)

/-- The node of an edge along a dotted text. -/
def nodeAlong (path : String) (edge : Value) : Value := Value.orNull (edge.dotted? path)

/-- **Two node paths answer alike**, as far as a relation between answers goes: a request that
reduces nothing but fields of nodes fails with the same error under both, or has related answers. -/
def AnswersAlike (p q : String) (R : ConnectionRequest → Value → Value → Prop) : Prop :=
  ∀ (ctx : Context) (permissions : Permissions) (t : TypeInfo) (named : NamedExpressions)
    (items : List Value) (request : ConnectionRequest),
    (∀ a ∈ request.aggregates, a.ReducesNode) →
      Parallel (R request)
        (resolveList (ctx.withNodePath p) permissions (.object t) named items request)
        (resolveList (ctx.withNodePath q) permissions (.object t) named items request)

section Reading

variable {edges : List Value} {info : PageInfo} {results : Record Value}
  {config : Config} {paging : Paging}

theorem edgesOf_payload_of_not_mem (h : "edges" ∉ Record.names results) :
    edgesOf (payload edges info results) = edges := by
  rw [edgesOf, get?_payload_of_not_mem edges info h]
  rfl

/-- No result lies under a name that is no label. -/
theorem not_mem_names {name : String}
    (h : listAggregates ctx element requests (selected.map (edge ctx.config)) = .ok results)
    (hname : ∀ a ∈ requests, a.label ≠ name) : name ∉ Record.names results := by
  intro hmem
  obtain ⟨a, ha, hlabel⟩ := (listAggregates_eq_ok h).2.1 name hmem
  exact hname a ha hlabel

/-- Whatever the edges are, a label holds its result. -/
theorem get?_payload_label {a : AggregateRequest} (ha : a ∈ requests)
    (h : listAggregates ctx element requests (selected.map (edge ctx.config)) = .ok results) :
    (payload edges info results).get? a.label = Record.get? results a.label := by
  obtain ⟨hnodup, -, hlast⟩ := listAggregates_eq_ok h
  obtain ⟨b, hb, hlabel⟩ := AggregateRequest.exists_isLast ha
  obtain ⟨v, -, hv⟩ := hlast b hb
  rw [← hlabel, hv]
  exact Record.get?_putAll hnodup _ hv

/-- The nodes of a page are those of the selected items. -/
theorem map_nodeUnder_pageEdges (hname : config.nodePath ≠ "cursor") :
    (pageEdges config paging selected).map (nodeUnder config.nodePath) =
      (paging.window selected.length config.maxRows).slice selected :=
  map_nodeOf_withCursors hname _ _

/-- A path name leads along one name. -/
theorem nodeAlong_eq_nodeUnder {name : String} (hname : PathName name) :
    nodeAlong name = nodeUnder name := by
  funext e
  rw [nodeAlong, nodeUnder, Value.dotted?, hname.dottedNames_eq, Value.lookup?]
  cases e.get? name <;> rfl

end Reading

/-! ## Node paths that answer alike -/

/-- **Any node paths answer with the same page info**, and fail alike. -/
theorem answersAlike_pageInfo (p q : String) : AnswersAlike p q SamePageInfo := by
  intro ctx permissions t named items request _
  refine parallel_resolveList fun selected results results' hp hq hfree => ?_
  rw [answerFor, answerFor, get?_payload_of_not_mem _ _ (not_mem_names hp hfree),
    get?_payload_of_not_mem _ _ (not_mem_names hq hfree)]
  rfl

/-- **Path names answer with the same aggregates.** -/
theorem answersAlike_aggregates (hp : PathName p) (hq : PathName q) :
    AnswersAlike p q SameAggregates := by
  intro ctx permissions t named items request hnodes
  refine parallel_resolveList fun selected results results' hresults hresults' a ha => ?_
  rw [answerFor, answerFor, get?_payload_label ha hresults, get?_payload_label ha hresults']
  rw [listAggregates_withNodePath hp hq hnodes selected, hresults'] at hresults
  rw [Except.ok.inj hresults]

/-- **Names of their own answer with the same nodes.** -/
theorem answersAlike_nodeUnder (hp : p ≠ "cursor") (hq : q ≠ "cursor") :
    AnswersAlike p q (SameNodes (nodeUnder p) (nodeUnder q)) := by
  intro ctx permissions t named items request _
  refine parallel_resolveList fun selected results results' hresults hresults' hfree => ?_
  rw [answerFor, answerFor, edgesOf_payload_of_not_mem (not_mem_names hresults hfree),
    edgesOf_payload_of_not_mem (not_mem_names hresults' hfree)]
  have hp : (ctx.withNodePath p).config.nodePath ≠ "cursor" := hp
  have hq : (ctx.withNodePath q).config.nodePath ≠ "cursor" := hq
  exact (map_nodeUnder_pageEdges hp).trans (map_nodeUnder_pageEdges hq).symm

/-! ## Node paths that do not -/

/-- A count of the names of nodes. -/
def namesCount : ConnectionRequest :=
  ⟨none, none, none, none, .none, [⟨"n", .count, .node "name", none⟩]⟩

/-- **One user with a name is counted** under a path name, and under no other one. -/
theorem exists_namesCount (name : String) :
    let user := (Schema.sample.types.head (List.cons_ne_nil _ _)).2
    ∃ answer, resolveList (Context.sample.withNodePath name) Permission.all (.object user)
        ⟨[], []⟩ [.single "name" (.str "a")] namesCount = .ok answer ∧
      (answer.get? "n" = some (.nat 1) ↔ PathName name) := by
  intro user
  let config := (Context.sample.withNodePath name).config
  let contributed := AggregateRequest.contributed config ⟨"n", .count, .node "name", none⟩
    (fun _ => true) ([.single "name" (.str "a")].map fun item => Value.obj (edge config item))
  refine ⟨answerFor config .none [.single "name" (.str "a")] [("n", .nat contributed.length)],
    rfl, ?_⟩
  have hget : (answerFor config .none [.single "name" (.str "a")]
      [("n", .nat contributed.length)]).get? "n" = some (.nat contributed.length) := rfl
  rw [hget]
  by_cases hname : PathName config.nodePath
  · have hone : contributed = [.str "a"] :=
      (AggregateRequest.contributed_edges hname rfl _ _).trans rfl
    rw [hone]
    exact iff_of_true rfl hname
  · have hnone : contributed = [] :=
      AggregateRequest.contributed_eq_nil hname rfl (by decide) _ _
    rw [hnone]
    exact iff_of_false nofun hname

/-- What answers with the same aggregates as a path name is one. -/
theorem pathName_of_answersAlike (hq : PathName q) (h : AnswersAlike p q SameAggregates) :
    PathName p := by
  let user := (Schema.sample.types.head (List.cons_ne_nil _ _)).2
  obtain ⟨x, hx, hcount⟩ := exists_namesCount p
  obtain ⟨y, hy, hcount'⟩ := exists_namesCount q
  have hsame := h .sample Permission.all user ⟨[], []⟩ [.single "name" (.str "a")] namesCount
    (List.forall_mem_singleton.2 ⟨"name", rfl⟩)
  rw [hx, hy] at hsame
  have hequal := hsame.related _ (List.mem_singleton.2 rfl)
  exact hcount.1 (hequal.trans (hcount'.2 hq))

/-- The edge of a flag, with its cursor. -/
def flagEdge (name : String) : Value :=
  .obj (Record.put [(name, .bool true)] "cursor" (.str (Cursor.ofOffset 0)))

/-- Where nodes are read alike, so is a flag. -/
theorem read_flagEdge {read read' : Value → Value}
    (h : AnswersAlike p q (SameNodes read read')) : read (flagEdge p) = read' (flagEdge q) := by
  let user := (Schema.sample.types.head (List.cons_ne_nil _ _)).2
  have hsame := h .sample Permission.all user ⟨[], []⟩ [.bool true]
    ⟨none, none, none, none, .none, []⟩ (List.forall_mem_nil _)
  have hnodes : [read (flagEdge p)] = [read' (flagEdge q)] :=
    hsame.related (List.forall_mem_nil _)
  exact (List.cons.inj hnodes).1

theorem nodeUnder_flagEdge {name : String} (hname : name ≠ "cursor") :
    nodeUnder name (flagEdge name) = .bool true := by
  rw [nodeUnder, flagEdge, Value.get?, Record.get?_put_of_ne hname, Record.get?, if_pos rfl]
  rfl

/-- Beside its flag an edge holds a cursor only. -/
theorem get?_flagEdge {name other : String} (hne : name ≠ other) :
    (flagEdge name).get? other =
      if other = "cursor" then some (.str (Cursor.ofOffset 0)) else none := by
  rw [flagEdge, Value.get?]
  split
  · next h => rw [h, Record.get?_put_self]
  · next h =>
    rw [Record.get?_put_of_ne h]
    exact if_neg hne

/-- Along anything but a path name lies the edge itself, its cursor, or nothing. -/
theorem nodeAlong_flagEdge_ne {name : String} (hname : ¬PathName name) :
    nodeAlong name (flagEdge name) ≠ .bool true := by
  rw [nodeAlong, Value.dotted?]
  cases hnames : dottedNames name with
  | nil => simp [Value.lookup?, Value.orNull, flagEdge]
  | cons n rest =>
    have hmem : n ∈ dottedNames name := hnames ▸ List.mem_cons_self
    have hne : name ≠ n := fun h => hname (h ▸ pathName_of_mem_dottedNames hmem)
    rw [Value.lookup?, get?_flagEdge hne]
    cases rest <;> split <;> simp [Value.lookup?, Value.orNull, Value.get?]

/-- **A list answers alike under two node paths** as far as both lead to the node.  Let one of them
be a path name other than that of the cursor.  Whatever the other one is, a request that reduces
fields of nodes fails with the same error under both, or has the same page info.  Its aggregates are
the same exactly where the other one is a path name too; the nodes that are read back under the name
are the same exactly where that is not the name of the cursor, and the nodes that are read back
along the path exactly where it is both. -/
theorem answersAlike_iff (hq : PathName q) (hcursor : q ≠ "cursor") (p : String) :
    AnswersAlike p q SamePageInfo ∧
      (AnswersAlike p q SameAggregates ↔ PathName p) ∧
      (AnswersAlike p q (SameNodes (nodeUnder p) (nodeUnder q)) ↔ p ≠ "cursor") ∧
      (AnswersAlike p q (SameNodes (nodeAlong p) (nodeAlong q)) ↔
        PathName p ∧ p ≠ "cursor") := by
  have hlost : nodeUnder "cursor" (flagEdge "cursor") ≠ .bool true := nofun
  refine ⟨answersAlike_pageInfo p q,
    ⟨pathName_of_answersAlike hq, fun hp => answersAlike_aggregates hp hq⟩,
    ⟨?_, fun hp => answersAlike_nodeUnder hp hcursor⟩, fun h => ?_, ?_⟩
  · rintro h rfl
    exact hlost ((read_flagEdge h).trans (nodeUnder_flagEdge hcursor))
  · have hread := read_flagEdge h
    rw [nodeAlong_eq_nodeUnder hq, nodeUnder_flagEdge hcursor] at hread
    have hp : PathName p := by
      by_contra hp
      exact nodeAlong_flagEdge_ne hp hread
    refine ⟨hp, ?_⟩
    rintro rfl
    rw [nodeAlong_eq_nodeUnder hp] at hread
    exact hlost hread
  · rintro ⟨hp, hname⟩
    rw [nodeAlong_eq_nodeUnder hp, nodeAlong_eq_nodeUnder hq]
    exact answersAlike_nodeUnder hname hcursor

/-- The first of two users and the greater of their ages, under two names. -/
theorem answersAlike_two_users :
    let user := (Schema.sample.types.head (List.cons_ne_nil _ _)).2
    let items := [Value.single "age" (.int 2), .single "age" (.int 5)]
    let request : ConnectionRequest :=
      ⟨none, none, none, none, ⟨some 1, none, none, none⟩, [⟨"m", .max, .node "age", none⟩]⟩
    let ask := fun name => resolveList (Context.sample.withNodePath name) Permission.all
      (.object user) ⟨[], []⟩ items request
    PathName "node" ∧ "node" ≠ "cursor" ∧ ∃ x y, ask "user" = .ok x ∧ ask "node" = .ok y ∧
      x.get? "pageInfo" = y.get? "pageInfo" ∧ x.get? "m" = y.get? "m" ∧
      (edgesOf x).map (nodeAlong "user") = (edgesOf y).map (nodeAlong "node") ∧
      y.get? "m" = some (.int 5) := by
  intro user items request ask
  have hnode : PathName "node" := ⟨by decide, by decide⟩
  have huser : PathName "user" := ⟨by decide, by decide⟩
  have hnodes : ∀ a ∈ request.aggregates, a.ReducesNode :=
    List.forall_mem_singleton.2 ⟨"age", rfl⟩
  have hlabel : ∀ a ∈ request.aggregates, a.label ≠ "pageInfo" ∧ a.label ≠ "edges" := by decide
  obtain ⟨hinfo, haggregates, -, halong⟩ := answersAlike_iff hnode (by decide) "user"
  obtain ⟨x, hx⟩ : ∃ x, ask "user" = .ok x := ⟨_, rfl⟩
  obtain ⟨y, hy, hm⟩ : ∃ y, ask "node" = .ok y ∧ y.get? "m" = some (.int 5) := ⟨_, rfl, rfl⟩
  have hboth : ∀ {R}, AnswersAlike "user" "node" R → R request x y := fun h => by
    have hparallel : Parallel _ (ask "user") (ask "node") :=
      h .sample Permission.all user ⟨[], []⟩ items request hnodes
    rw [hx, hy] at hparallel
    exact hparallel.related
  exact ⟨hnode, by decide, x, y, hx, hy, hboth hinfo fun a ha => (hlabel a ha).1,
    hboth (haggregates.2 huser) _ (List.mem_singleton.2 rfl),
    hboth (halong.2 ⟨huser, by decide⟩) fun a ha => (hlabel a ha).2, hm⟩

/-- **A node path that is no path name, and the one of the cursor.**  One user with a name is
counted under `node`, and not where the node path has a point or is empty; and where it is the name
of the cursor, the cursor is read back for the user. -/
theorem node_paths_told_apart :
    let user := (Schema.sample.types.head (List.cons_ne_nil _ _)).2
    let item := Value.single "name" (.str "a")
    let ask := fun name => resolveList (Context.sample.withNodePath name) Permission.all
      (.object user) ⟨[], []⟩ [item] namesCount
    ∃ node dotted empty cursor, ask "node" = .ok node ∧ ask "edge.node" = .ok dotted ∧
      ask "" = .ok empty ∧ ask "cursor" = .ok cursor ∧
      node.get? "n" = some (.int 1) ∧ (edgesOf node).map (nodeUnder "node") = [item] ∧
      dotted.get? "n" = some (.int 0) ∧ empty.get? "n" = some (.int 0) ∧
      (edgesOf cursor).map (nodeUnder "cursor") = [.str (Cursor.ofOffset 0)] :=
  ⟨_, _, _, _, rfl, rfl, rfl, rfl, rfl, rfl, rfl, rfl, rfl⟩

end Connection

end TypedGraph

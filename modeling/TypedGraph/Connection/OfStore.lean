import TypedGraph.Connection.Request
import TypedGraph.Order.Sort
import TypedGraph.Permission
import TypedGraph.Store.Basic

/-!
# Connection/OfStore — a connection over a collection

The edges of a connection are the rows of a collection, after some initial stages, of which the
viewer may see the node and which satisfy the filter.  Resolving a request asks the store three
things in turn: how many edges there are, which of them the page holds, and what the aggregates
are.  A page of no rows and a request without aggregates ask nothing.

Each step says which queries the store received, in their order.
-/

namespace TypedGraph

/-- A query that a store received. -/
structure StoreCall where
  collection : String
  stages : Pipeline

/-- Where the edges of a connection come from. -/
structure ConnectionSource where
  collection : String
  /-- The stages that make edges of the rows of the collection. -/
  initialStages : Pipeline
  nodeType : String
  named : NamedExpressions

/-- A computation that asks a store: its result, the queries it made, and the store after them. -/
structure Asked (α : Type) where
  result : Except Error α
  calls : List StoreCall
  store : Store

namespace Asked

/-- A result that asks nothing. -/
def pure {α : Type} (store : Store) (result : Except Error α) : Asked α := ⟨result, [], store⟩

/-- Ask a store one thing. -/
def ask (store : Store) (collection : String) (stages : Pipeline) : Asked (List (Record Value)) :=
  let (answer, after) := store.ask collection stages
  ⟨answer.mapError .store, [⟨collection, stages⟩], after⟩

/-- Go on from a result that is none of an error. -/
def andThen {α β : Type} (a : Asked α) (f : α → Store → Asked β) : Asked β :=
  match a.result with
  | .error e => ⟨.error e, a.calls, a.store⟩
  | .ok x =>
    let b := f x a.store
    ⟨b.result, a.calls ++ b.calls, b.store⟩

/-- Change a result. -/
def map {α β : Type} (f : α → β) (a : Asked α) : Asked β := ⟨a.result.map f, a.calls, a.store⟩

end Asked

namespace Connection

/-- What a resolver works with. -/
structure Resolver where
  context : Context
  permissions : Permissions

namespace Resolver

/-- The path of the node in an edge. -/
def nodePrefix (r : Resolver) : FieldPath := .ofDotted r.context.config.nodePath

/-- The stages that make the edges: the initial ones, and one that keeps what may be seen and what
satisfies the filter. -/
def filterStages (r : Resolver) (source : ConnectionSource) (t : TypeInfo)
    (filter : Option Value) : Except Error Pipeline := do
  let visible ← Permission.query r.context r.permissions t r.nodePrefix
  let asked ← match filter with
    | some f => Filter.query r.context t r.nodePrefix f
    | none => .ok []
  return source.initialStages ++ (Filter.matchStage? (visible.toList ++ asked)).toList

/-- The stage that orders the edges; none where neither the request nor the configuration orders
them. -/
def sortStage (r : Resolver) (t : TypeInfo) (order : Option Value) :
    Except Error (Option (Record Value)) := do
  let clauses ← match order with
    | some o => Order.read r.context t o
    | none => .ok []
  let document := Order.sortDocument r.context.config clauses r.nodePrefix.segments
  return if document.isEmpty then none else some [("$sort", .obj document)]

/-- The stage that counts rows. -/
def countStage : Record Value :=
  [("$group", .obj [("_id", .null), ("count", .single Reducer.sum.name (.int 1))])]

/-- The count in the rows of the count stage; no row counts nothing. -/
def countOf (rows : List (Record Value)) : Nat :=
  ((rows.head?.bind fun row => Record.get? row "count").bind Value.asU64?).getD 0

/-- The stages of a page. -/
def pageStages (stages : Pipeline) (sort : Option (Record Value)) (w : Window) : Pipeline :=
  stages ++ sort.toList ++ (if 0 < w.skip then [[("$skip", .nat w.skip)]] else []) ++
    (w.limit.map fun n => [("$limit", Value.nat n)]).toList

/-- How many edges there are. -/
def count (collection : String) (stages : Pipeline) (store : Store) : Asked Nat :=
  (Asked.ask store collection (stages ++ [countStage])).map countOf

/-- The rows of a page. -/
def page (collection : String) (stages : Pipeline) (sort : Option (Record Value)) (w : Window)
    (store : Store) : Asked (List (Record Value)) :=
  if w.limit = some 0 then .pure store (.ok [])
  else .ask store collection (pageStages stages sort w)

/-- The results of aggregates. -/
def aggregates (r : Resolver) (t : TypeInfo) (collection : String) (stages : Pipeline)
    (requests : List AggregateRequest) (store : Store) : Asked (Record Value) :=
  if requests.isEmpty then .pure store (.ok [])
  else match Aggregate.groupStage r.context t requests with
    | .error e => .pure store (.error e)
    | .ok stage =>
      (Asked.ask store collection (stages ++ [stage])).map (Aggregate.ofRows requests)

/-- Ask the store for the edges between stages and sort, and for the aggregates. -/
def fetch (r : Resolver) (t : TypeInfo) (collection : String) (stages : Pipeline)
    (sort : Option (Record Value)) (request : ConnectionRequest) (store : Store) : Asked Value :=
  (count collection stages store).andThen fun length store =>
    let window := request.paging.window length r.context.config.maxRows
    (page collection stages sort window store).andThen fun rows store =>
      (r.aggregates t collection stages request.aggregates store).map fun results =>
        payload (withCursors rows window.skip)
          (request.paging.pageInfo window rows.length length) results

/-- What a request compiles to: the node type, the stages of the edges and the stage that orders
them. -/
def prepare (r : Resolver) (source : ConnectionSource) (request : ConnectionRequest) :
    Except Error (TypeInfo × Pipeline × Option (Record Value)) := do
  let t ← r.context.schema.type source.nodeType
  let filter ← request.effectiveFilter source.named
  let order ← request.effectiveOrder source.named
  let stages ← r.filterStages source t filter
  let sort ← r.sortStage t order
  return (t, stages, sort)

/-- **Resolve a request** over a source. -/
def resolve (r : Resolver) (source : ConnectionSource) (request : ConnectionRequest)
    (store : Store) : Asked Value :=
  match r.prepare source request with
  | .error e => .pure store (.error e)
  | .ok (t, stages, sort) => r.fetch t source.collection stages sort request store

end Resolver

end Connection

end TypedGraph

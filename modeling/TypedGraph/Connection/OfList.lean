import TypedGraph.Connection.Request
import TypedGraph.Order.Sort
import TypedGraph.Permission

/-!
# Connection/OfList — a connection over a list at hand

The items of a list are filtered, ordered and paged in memory, with the same cursors and the same
page info as a connection over a collection.  A list of objects shows what the viewer may see; a
list of plain values takes a filter on plain values and a direction, and has no aggregates.
-/

namespace TypedGraph

namespace Connection

/-- What the items of a list are. -/
inductive ListElement where
  | scalar
  | object (type : TypeInfo)

/-- The items that satisfy a predicate, where there is one. -/
def keep (predicate : Option (Value → Bool)) (items : List Value) : List Value :=
  match predicate with
  | some p => items.filter p
  | none => items

/-- Apply `f` to an expression, where there is one. -/
def onSome {α : Type} (v : Option Value) (f : Value → Except Error α) :
    Except Error (Option α) :=
  match v with
  | some v => (f v).map some
  | none => .ok none

/-- **The items of a connection** in their order: those that may be seen and satisfy the filter. -/
def selectItems (ctx : Context) (permissions : Permissions) (element : ListElement)
    (filter order : Option Value) (items : List Value) : Except Error (List Value) :=
  match element with
  | .scalar => do
    let predicate ← onSome filter (Filter.scalarPredicate ctx)
    let direction ← onSome order Direction.ofValue
    let kept := keep predicate items
    return match direction with
      | some d => Order.sortScalars d kept
      | none => kept
  | .object t => do
    let visible ← Permission.predicate ctx permissions t
    let predicate ← onSome filter (Filter.predicate ctx t)
    let clauses ← onSome order (Order.read ctx t)
    let kept := keep predicate (keep visible items)
    return match clauses with
      | some cs => Order.sortObjects cs kept
      | none => kept

/-- The edge of an item. -/
def edge (config : Config) (item : Value) : Record Value := [(config.nodePath, item)]

/-- The aggregates over the edges of a list. -/
def listAggregates (ctx : Context) (element : ListElement) (requests : List AggregateRequest)
    (edges : List (Record Value)) : Except Error (Record Value) :=
  if requests.isEmpty then .ok []
  else match element with
    | .object t => Aggregate.ofEdges ctx t requests (edges.map .obj)
    | .scalar => .error (.schema .scalarAggregates)

/-- **Resolve a request** over a list of items. -/
def resolveList (ctx : Context) (permissions : Permissions) (element : ListElement)
    (named : NamedExpressions) (items : List Value) (request : ConnectionRequest) :
    Except Error Value := do
  let filter ← request.effectiveFilter named
  let order ← request.effectiveOrder named
  let selected ← selectItems ctx permissions element filter order items
  let edges := selected.map (edge ctx.config)
  let results ← listAggregates ctx element request.aggregates edges
  let window := request.paging.window edges.length ctx.config.maxRows
  let rows := window.slice edges
  return payload (withCursors rows window.skip)
    (request.paging.pageInfo window rows.length edges.length) results

end Connection

end TypedGraph

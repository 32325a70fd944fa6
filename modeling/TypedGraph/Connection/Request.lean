import TypedGraph.Aggregate.Request
import TypedGraph.Page.Window

/-!
# Connection/Request — the arguments of a connection

A request filters, orders, pages and aggregates the edges of a connection.  The filter and the
order are given as expressions, or by the names of expressions that belong to the connection, but
not in both ways.
-/

namespace TypedGraph

/-- The filters and orders that a connection offers by name. -/
structure NamedExpressions where
  filters : Record Value
  orders : Record Value

/-- What is asked of a connection. -/
structure ConnectionRequest where
  filter : Option Value
  filterBy : Option String
  order : Option Value
  orderBy : Option String
  paging : Paging
  aggregates : List AggregateRequest

namespace ConnectionRequest

/-- An argument that has to be a string where it is given. -/
def stringArgument (args : Record Value) (key : String) : Except Error (Option String) :=
  match Value.present? (Record.get? args key) with
  | none => .ok none
  | some (.str s) => .ok (some s)
  | some v => .error (.argument (.stringExpected key v))

/-- An argument that has to be a signed 64-bit integer where it is given. -/
def integerArgument (args : Record Value) (key : String) : Except Error (Option Int) :=
  match Value.present? (Record.get? args key) with
  | none => .ok none
  | some v => match v.asI64? with
    | some n => .ok (some n)
    | none => .error (.argument (.integerExpected key v))

/-- **Read the arguments of a request**; it has no aggregates yet. -/
def ofArguments (args : Record Value) : Except Error ConnectionRequest := do
  let filterBy ← stringArgument args "filterBy"
  let orderBy ← stringArgument args "orderBy"
  let first ← integerArgument args "first"
  let last ← integerArgument args "last"
  let after ← stringArgument args "after"
  let before ← stringArgument args "before"
  let paging ← Paging.make first last after before
  return {
    filter := Value.present? (Record.get? args "filter")
    filterBy
    order := Value.present? (Record.get? args "order")
    orderBy
    paging
    aggregates := [] }

/-- An expression that is given, or chosen by name, or neither. -/
def choose (key byKey : String) (given : Option Value) (name : Option String)
    (named : Record Value) : Except Error (Option Value) :=
  match given, name with
  | some _, some _ => .error (.argument (.onlyOneOf key byKey))
  | some v, none => .ok (some v)
  | none, some name => match Record.get? named name with
    | some v => .ok (some v)
    | none => .error (.argument (.unknownName byKey name))
  | none, none => .ok none

/-- The filter in effect. -/
def effectiveFilter (r : ConnectionRequest) (named : NamedExpressions) :
    Except Error (Option Value) :=
  choose "filter" "filterBy" r.filter r.filterBy named.filters

/-- The order in effect. -/
def effectiveOrder (r : ConnectionRequest) (named : NamedExpressions) :
    Except Error (Option Value) :=
  choose "order" "orderBy" r.order r.orderBy named.orders

end ConnectionRequest

/-! ## The answer -/

namespace Connection

/-- The rows of a page as edges, each with its cursor. -/
def withCursors (rows : List (Record Value)) (skip : Nat) : List Value :=
  rows.zipIdx.map fun (row, i) => .obj (Record.put row "cursor" (.str (Cursor.ofOffset (skip + i))))

/-- **The answer to a request**: the edges of the page, the page info, and the aggregates. -/
def payload (edges : List Value) (info : PageInfo) (aggregates : Record Value) : Value :=
  .obj (Record.putAll [("edges", .arr edges), ("pageInfo", info.toValue)] aggregates)

end Connection

end TypedGraph

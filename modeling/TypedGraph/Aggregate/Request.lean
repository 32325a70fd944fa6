import TypedGraph.Filter.Expression
import TypedGraph.Filter.Predicate
import TypedGraph.Aggregate.Values
import TypedGraph.Store.Group

/-!
# Aggregate/Request — aggregates over the edges of a connection

An aggregate reduces a field of the node or of the edge over all edges, or over those whose node
satisfies a filter.  Several aggregates are computed together: in the store by one group stage
(`Aggregate.groupStage`), whose row is then read (`Aggregate.ofRows`), or in memory over edges that
are at hand (`Aggregate.ofEdges`).
-/

namespace TypedGraph

inductive AggregateFunction where
  | count
  | sum
  | min
  | max
  | average
deriving DecidableEq

namespace AggregateFunction

/-- The name of a function. -/
def name : AggregateFunction → String
  | .count => "Count"
  | .sum => "Sum"
  | .min => "Min"
  | .max => "Max"
  | .average => "Average"

/-- The function of a key. -/
def ofKey : String → Except Error AggregateFunction
  | "count" => .ok .count
  | "sum" => .ok .sum
  | "min" => .ok .min
  | "max" => .ok .max
  | "average" => .ok .average
  | key => .error (.schema (.unknownFunction key))

/-- The reducer of a group that computes a function. -/
def reducer : AggregateFunction → Reducer
  | .count | .sum => .sum
  | .min => .min
  | .max => .max
  | .average => .avg

/-- The result where no edge contributes. -/
def emptyValue : AggregateFunction → Value
  | .count | .sum => .int 0
  | .min | .max | .average => .null

/-- The result over the values that contribute. -/
def apply : AggregateFunction → List Value → Value
  | .count, vs => .nat vs.length
  | .sum, vs => Aggregate.sum vs
  | .min, vs => Value.orNull (Aggregate.least? vs)
  | .max, vs => Value.orNull (Aggregate.greatest? vs)
  | .average, vs => Aggregate.average .zero vs

end AggregateFunction

/-- The field that an aggregate reduces, as a dotted path. -/
inductive AggregateField where
  | node (path : String)
  | edge (path : String)

/-- An aggregate, and the name of its result. -/
structure AggregateRequest where
  label : String
  function : AggregateFunction
  field : AggregateField
  /-- A filter on the node of an edge. -/
  filter : Option Value

namespace AggregateRequest

/-- Whether a text is a name: a letter or underscore, then letters, digits and underscores. -/
def isName (s : String) : Bool :=
  match s.toList with
  | [] => false
  | c :: cs => (c.isAlpha || c = '_') && cs.all fun d => d.isAlphanum || d = '_'

/-- **The request of an aggregate**: its label has to be a name, and it has to reduce either a
field of the node or one of the edge. -/
def make (label : String) (function : AggregateFunction) (nodeField edgeField : Option String)
    (filter : Option Value) : Except Error AggregateRequest :=
  if isName label then
    match nodeField, edgeField with
    | some path, none => .ok ⟨label, function, .node path, Value.present? filter⟩
    | none, some path => .ok ⟨label, function, .edge path, Value.present? filter⟩
    | _, _ => .error (.argument (.ambiguousAggregate label))
  else .error (.argument (.invalidAlias label))

/-- The path of the field in an edge. -/
def path (config : Config) (r : AggregateRequest) : FieldPath :=
  match r.field with
  | .node path => (FieldPath.ofDotted config.nodePath).childDotted path
  | .edge path => FieldPath.ofDotted path

/-- A field of the node has to be declared, as far as its first name goes. -/
def validate (t : TypeInfo) (r : AggregateRequest) : Except Error Unit :=
  match r.field with
  | .node path => (t.field ((splitNames '.' path).headD "")).map fun _ => ()
  | .edge _ => .ok ()

/-- The accumulator of a request in a group.  A count adds one for each edge that has the field,
and the other functions pass over the null of an edge that fails the filter. -/
def accumulator (ctx : Context) (t : TypeInfo) (r : AggregateRequest) : Except Error Value := do
  r.validate t
  let path := r.path ctx.config
  let condition ← match r.filter with
    | some f => (Filter.expression ctx t (FieldPath.ofDotted ctx.config.nodePath) f).map some
    | none => .ok none
  let reference := Expression.pathReference path
  let operand := match r.function, condition with
    | .count, _ =>
      let present := Expression.call .ne [Expression.valueOrNull path, .null]
      Expression.call .cond [Expression.conjunction (condition.toList ++ [present]), .int 1, .int 0]
    | _, some condition => Expression.call .cond [condition, reference, .null]
    | _, none => reference
  return .single r.function.reducer.name operand

/-- The values of the field in the edges whose node satisfies the filter. -/
def contributions (ctx : Context) (t : TypeInfo) (r : AggregateRequest) (edges : List Value) :
    Except Error (List Value) := do
  r.validate t
  let selected ← match r.filter with
    | some f => Filter.predicate ctx t f
    | none => .ok fun _ => true
  let nodePath := dottedNames ctx.config.nodePath
  let path := r.path ctx.config
  return (edges.filter fun e => selected (Value.orNull (e.lookup? nodePath))).filterMap fun e =>
    Value.present? (path.valueIn? e)

end AggregateRequest

namespace Aggregate

/-- Write the results of requests under their labels, one after the other. -/
def collect (requests : List AggregateRequest)
    (result : AggregateRequest → Except Error Value) (start : Record Value) :
    Except Error (Record Value) :=
  requests.foldlM (fun acc r => (result r).map fun v => Record.put acc r.label v) start

/-- **The group stage** of requests on nodes of a type. -/
def groupStage (ctx : Context) (t : TypeInfo) (requests : List AggregateRequest) :
    Except Error (Record Value) :=
  (collect requests (·.accumulator ctx t) [("_id", .null)]).map fun group =>
    [("$group", .obj group)]

/-- The result of a request in the row of a group. -/
def ofRow (row : Record Value) (r : AggregateRequest) : Value :=
  (Value.present? (Record.get? row r.label)).getD r.function.emptyValue

/-- **The results of requests in the rows** of their group stage. -/
def ofRows (requests : List AggregateRequest) (rows : List (Record Value)) : Record Value :=
  Record.ofList (requests.map fun r => (r.label, ofRow (rows.headD []) r))

/-- **The results of requests over edges** at hand. -/
def ofEdges (ctx : Context) (t : TypeInfo) (requests : List AggregateRequest)
    (edges : List Value) : Except Error (Record Value) :=
  collect requests (fun r => (r.contributions ctx t edges).map r.function.apply) []

end Aggregate

end TypedGraph

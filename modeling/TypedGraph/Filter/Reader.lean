import TypedGraph.Config
import TypedGraph.Schema.Basic
import TypedGraph.Filter.Condition
import TypedGraph.Pattern.Engine

/-!
# Filter/Reader — reading a filter expression

A filter on an object is an object itself.  Its names are fields of the type, or one of three
words: `exists`, `id` for the identifier of a node, and `type` for the members of an abstract type.
The filter on a field depends on what the field holds: operators on a plain value, the filter of
the embedded type, or operators and quantifiers on a list.  A null asks nothing, at any place.

The reader goes through the expression in its order and is structural in it.
-/

namespace TypedGraph

/-- What a request is compiled against. -/
structure Context where
  schema : Schema
  config : Config
  suffix : TypeSuffix
  /-- The library that accepts patterns and searches for them. -/
  patterns : PatternEngine

namespace Filter

/-- A condition that is at fault. -/
def schemaFault (f : SchemaFault) : List Condition := [.fault (.schema f)]

/-- A condition that is at fault. -/
def argumentFault (f : ArgumentFault) : List Condition := [.fault (.argument f)]

/-- The conditions of a boolean operand. -/
def onBool (key : String) (v : Value) (f : Bool → List Condition) : List Condition :=
  match v with
  | .bool b => f b
  | _ => argumentFault (.booleanExpected key)

/-! ## Filters on a plain value -/

/-- An operator on a plain value. -/
def readScalarOperator (path : FieldPath) (key : String) (v : Value) : List Condition :=
  match key with
  | "exists" => onBool key v fun b => [.present path b]
  | "eq" => [.equals path v]
  | "ne" => [.differs path v]
  | "matches" => match v with
    | .str pattern => [.matching path pattern]
    | _ => argumentFault .patternNotString
  | _ => match Comparison.ofKey key with
    | .error _ => schemaFault (.invalidOperation "scalar filter" key)
    | .ok comparison => match v with
      | .num _ | .str _ | .bool _ => [.compares path comparison v]
      | _ => argumentFault (.operandNotScalar key v)

/-- The operators of a filter on a plain value. -/
def readScalarEntries (path : FieldPath) (es : Record Value) : List Condition :=
  es.flatMap fun (key, v) => if v.isNull then [] else readScalarOperator path key v

/-- A filter on the plain value at a path. -/
def readScalar (path : FieldPath) : Value → List Condition
  | .null => []
  | .obj es => readScalarEntries path es
  | _ => schemaFault (.objectExpected "scalar filter")

/-! ## Filters on the type of an object -/

/-- The first of some values that names no possible type. -/
def strange? (t : TypeInfo) (vs : List Value) : Option Value :=
  vs.find? fun
    | .str name => !t.possibleTypes.contains name
    | _ => true

/-- An operator on the type of the object at a path.  Nodes are told by their identifiers, other
objects by the field that names their type. -/
def readTypeOperator (ctx : Context) (t : TypeInfo) (path : FieldPath) (key : String) (v : Value) :
    List Condition :=
  let operands := v.toItems
  match strange? t operands with
  | some other => schemaFault (.notPossible other t.name)
  | none =>
    let names := operands.filterMap Value.asString?
    let read := fun (negated : Bool) =>
      if t.isNode then
        [Condition.endsWith (path.child ctx.config.idField) (names.map ctx.suffix) negated]
      else
        let typePath := path.child ctx.config.typeField
        let operand := Value.strings names
        [if negated then .differs typePath operand else .equals typePath operand]
    match key with
    | "eq" => read false
    | "ne" => read true
    | _ => schemaFault (.invalidOperation "type filter" key)

/-- A filter on the type of the object at a path. -/
def readType (ctx : Context) (t : TypeInfo) (path : FieldPath) (v : Value) : List Condition :=
  if t.isAbstract then
    match v with
    | .null => []
    | .obj es =>
      es.flatMap fun (key, v) => if v.isNull then [] else readTypeOperator ctx t path key v
    | _ => schemaFault (.objectExpected "type filter")
  else schemaFault (.typeOfConcrete t.name)

/-! ## Filters on objects and lists -/

/-- The quantifier of a key. -/
def quantifier? : String → Option Quantifier
  | "some" => some .any
  | "every" => some .all
  | "none" => some .none
  | _ => none

/-- The conditions of a type that has to exist. -/
def onType (ctx : Context) (name : String) (f : TypeInfo → List Condition) : List Condition :=
  match ctx.schema.type name with
  | .ok t => f t
  | .error e => [.fault e]

mutual

/-- **A filter on the object at a path.**  An embedded object may be missing, so that `exists` asks
something of it; a node or an element of a list is always there. -/
def readObject (ctx : Context) (embedded : Bool) (t : TypeInfo) (path : FieldPath) :
    Value → List Condition
  | .null => []
  | .obj es => readObjectEntries ctx embedded t path es
  | _ => schemaFault (.objectExpected (t.name ++ " filter"))
termination_by structural v => v

/-- The entries of a filter on an object. -/
def readObjectEntries (ctx : Context) (embedded : Bool) (t : TypeInfo) (path : FieldPath) :
    Record Value → List Condition
  | [] => []
  | (key, v) :: rest =>
    (if v.isNull then []
    else if key = "exists" then onBool key v fun b => if embedded then [.present path b] else []
    else if key = "id" then
      if t.isNode then readScalar (path.child ctx.config.idField) v
      else schemaFault (.idOfNonNode "filter" t.name)
    else if key = "type" then readType ctx t path v
    else if !t.kind.hasFields then schemaFault (.noFields t.name "filterable" key)
    else match t.field key with
      | .error e => [.fault e]
      | .ok field =>
        let path := path.child key
        match field.category with
        | .scalar | .numeric | .node => readScalar path v
        | .object => onType ctx field.typeName fun nested => readObject ctx true nested path v
        | .scalarList | .nodeList | .objectList => readList ctx field path v
        | .connection => schemaFault (.connectionField field.name "filterable")) ++
      readObjectEntries ctx embedded t path rest
termination_by structural es => es

/-- A filter on the list at a path. -/
def readList (ctx : Context) (field : FieldInfo) (path : FieldPath) : Value → List Condition
  | .null => []
  | .obj es => readListEntries ctx field path es
  | _ => schemaFault (.objectExpected "list filter")
termination_by structural v => v

/-- The operators and quantifiers of a filter on a list. -/
def readListEntries (ctx : Context) (field : FieldInfo) (path : FieldPath) :
    Record Value → List Condition
  | [] => []
  | (key, v) :: rest =>
    (if v.isNull then []
    else match quantifier? key with
      | some quantifier =>
        let start := FieldPath.element path.quantifierDepth
        match field.category with
        | .objectList => onType ctx field.typeName fun t =>
          [.elements path quantifier .object (readObject ctx false t start v)]
        | _ => [.elements path quantifier .scalar (readScalar start v)]
      | none => match key with
        | "exists" => onBool key v fun b => [.isList path b]
        | "length" => match v.asU64? with
          | some n => [.length path n]
          | none => argumentFault .lengthExpected
        | "empty" => onBool key v fun b => [.isEmpty path b]
        | _ => schemaFault (.invalidOperation "list filter" key)) ++
      readListEntries ctx field path rest
termination_by structural es => es

end

/-- The conditions of a filter on a node or on an element of a list. -/
def read (ctx : Context) (t : TypeInfo) (path : FieldPath) (filter : Value) : List Condition :=
  readObject ctx false t path filter

end Filter

end TypedGraph

import TypedGraph.Schema.Category
import TypedGraph.Value.Text

/-!
# Error — what can go wrong

An **argument fault** is one that whoever sends a request can make, a **schema fault** one that the
schema rules out: an expression that does not fit the type it is read against.  Each cause is a
constructor, and `Error.message` is the wording of all of them.
-/

namespace TypedGraph

/-- A fault of the arguments of a request. -/
inductive ArgumentFault where
  | booleanExpected (key : String)
  | operandNotScalar (key : String) (got : Value)
  | patternNotString
  | invalidPattern
  | lengthExpected
  | numberExpected (key : String) (got : Value)
  | cannotDivideBy (n : Number)
  | divisionByZero
  | positionExpected
  | onlyOneOf (key other : String)
  | invalidSort (got : Value) (field : String)
  | countExpected (key : String)
  | invalidAlias (label : String)
  | ambiguousAggregate (label : String)
  | notPositive (key : String) (got : Int)
  | stringExpected (key : String) (got : Value)
  | integerExpected (key : String) (got : Value)
  | unknownName (key name : String)

/-- An expression that does not fit the schema. -/
inductive SchemaFault where
  | objectExpected (what : String)
  | idOfNonNode (purpose type : String)
  | noFields (type purpose field : String)
  | noUpdatableFields (type : String)
  | typeOfConcrete (type : String)
  | notPossible (got : Value) (type : String)
  | invalidOperation (what key : String)
  | invalidComparison (key : String)
  | connectionField (field purpose : String)
  | elementOutsideList
  | conflictingElement (operator : String)
  | fieldOfScalarElement
  | invalidDirection (name : String)
  | directionExpected (got : Value)
  | nestedOrderExpected (field : String)
  | notOrderable (field : String) (category : FieldCategory)
  | orderEntryExpected (got : Value)
  | orderExpected (got : Value)
  | notList (field : String)
  | unknownFunction (name : String)
  | memberNotObject (type member : String)
  | scalarAggregates

/-- A configuration or a schema that cannot be read. -/
inductive FormatFault where
  /-- A part of the wrong form. -/
  | malformed
  /-- A field that is declared to hold two things. -/
  | capabilityConflict (field : String)

/-- What can go wrong in reading, compiling and answering a request. -/
inductive Error where
  | argument (fault : ArgumentFault)
  | schema (fault : SchemaFault)
  | fieldNotFound (field type : String)
  | typeNotFound (type : String)
  /-- The store could not answer. -/
  | store (text : String)
  | format (fault : FormatFault)

/-- The wording of an argument fault. -/
def ArgumentFault.message : ArgumentFault → String
  | booleanExpected key => s!"`{key}` expects a boolean"
  | operandNotScalar key got => s!"`{key}` expects a scalar operand, got {got.render}"
  | patternNotString => "`matches` expects a string"
  | invalidPattern => "Invalid `matches` pattern"
  | lengthExpected => "`length` expects a non-negative integer"
  | numberExpected key got => s!"`{key}` expects a number, got {got.render}"
  | cannotDivideBy n => s!"Cannot divide by {n.render}"
  | divisionByZero => "`div` by zero"
  | positionExpected => "`at` expects an integer"
  | onlyOneOf key other => s!"Only one of `{key}` and `{other}` may be given"
  | invalidSort got field => s!"Invalid sort {got.render} for list {field}"
  | countExpected key =>
    s!"`{key}` expects a non-negative integer no larger than {toString Number.maxI64}"
  | invalidAlias label => s!"Invalid aggregate alias {label}"
  | ambiguousAggregate label =>
    s!"Aggregate {label} requires exactly one of a node field or an edge field"
  | notPositive key got => s!"`{key}` must be greater than 0, got {toString got}"
  | stringExpected key got => s!"`{key}` expects a string, got {got.render}"
  | integerExpected key got => s!"`{key}` expects an integer, got {got.render}"
  | unknownName key name => s!"Unknown {key} {name}"

/-- The wording of a schema fault. -/
def SchemaFault.message : SchemaFault → String
  | objectExpected what => s!"Expected an object for {what}"
  | idOfNonNode purpose type => s!"`id` {purpose} on {type} which is not a node type"
  | noFields type purpose field => s!"{type} has no {purpose} fields, found {field}"
  | noUpdatableFields type => s!"{type} has no updatable fields"
  | typeOfConcrete type => s!"`type` filter on {type} which is neither a union nor an interface"
  | notPossible got type => s!"{got.render} is not a possible type of {type}"
  | invalidOperation what key => s!"Invalid {what} operation {key}"
  | invalidComparison key => s!"Invalid comparison operation {key}"
  | connectionField field purpose => s!"Connection field {field} is not {purpose}"
  | elementOutsideList => "Element condition used outside of a list quantifier"
  | conflictingElement operator => s!"Conflicting element filter operations on {operator}"
  | fieldOfScalarElement => "Scalar element filter produced a field condition"
  | invalidDirection name => s!"Invalid order direction {name}"
  | directionExpected got => s!"Expected an order direction, got {got.render}"
  | nestedOrderExpected field => s!"Expected a nested order for {field}"
  | notOrderable field category => s!"Field {field} of category {category.name} is not orderable"
  | orderEntryExpected got => s!"Expected an order entry, got {got.render}"
  | orderExpected got => s!"Expected an order expression, got {got.render}"
  | notList field => s!"Field {field} is not a list"
  | unknownFunction name => s!"Unknown aggregate function {name}"
  | memberNotObject type member =>
    s!"{type} lists {member} as a possible type but it is not an object type"
  | scalarAggregates => "Aggregates over a scalar list"

/-- The wording of an error.  What is wrong with a text that cannot be read is told only where a
field is declared to hold two things. -/
def Error.message? : Error → Option String
  | argument fault => some s!"Argument error: {fault.message}"
  | schema fault => some s!"Schema error: {fault.message}"
  | fieldNotFound field type => some s!"Field not found: {field} on type {type}"
  | typeNotFound type => some s!"Type not found: {type}"
  | store text => some s!"Store error: {text}"
  | format (.capabilityConflict field) =>
    some s!"Invalid JSON: Field {field} declares more than one capability flag"
  | format .malformed => none

end TypedGraph

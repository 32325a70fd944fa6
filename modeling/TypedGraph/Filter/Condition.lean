import TypedGraph.Error
import TypedGraph.FieldPath
import TypedGraph.Value.Order

/-!
# Filter/Condition — what a filter asks of a document

A filter expression is read as a list of **conditions**, all of which have to hold.  Each condition
is about the value at one path.  A list quantifier holds conditions on the elements of a list,
whose paths start at the element.

An expression that does not fit its type is read as well: the condition `fault` stands where the
fault is, among the conditions that come before it, so that whoever goes through the conditions in
their order meets it in its turn.
-/

namespace TypedGraph

/-- The comparison of a key. -/
def Comparison.ofKey : String → Except SchemaFault Comparison
  | "gt" => .ok .gt
  | "gte" => .ok .gte
  | "lt" => .ok .lt
  | "lte" => .ok .lte
  | key => .error (.invalidComparison key)

/-- How many elements of a list have to satisfy something. -/
inductive Quantifier where
  | any
  | all
  | none
deriving DecidableEq

/-- Whether the elements of a list are single values or objects with fields. -/
inductive ElementKind where
  | scalar
  | object
deriving DecidableEq

/-- A condition on the value at a path. -/
inductive Condition where
  /-- There is a value that is not null, or, where not expected, there is none. -/
  | present (path : FieldPath) (expected : Bool)
  /-- The value is a list, or, where not expected, it is not. -/
  | isList (path : FieldPath) (expected : Bool)
  /-- The value equals the operand, or one of its items where the operand is a list. -/
  | equals (path : FieldPath) (operand : Value)
  /-- The value equals neither the operand nor, where that is a list, one of its items. -/
  | differs (path : FieldPath) (operand : Value)
  /-- The value is of the operand's class and compares to it as asked. -/
  | compares (path : FieldPath) (comparison : Comparison) (operand : Value)
  /-- The value is a string that holds a match of a pattern. -/
  | matching (path : FieldPath) (pattern : String)
  /-- The identifier ends with one of the suffixes, or, where negated, with none of them. -/
  | endsWith (path : FieldPath) (suffixes : List String) (negated : Bool)
  /-- The value is a list with so many items. -/
  | length (path : FieldPath) (n : Nat)
  /-- The value is a list without items, or, where not expected, a list with items. -/
  | isEmpty (path : FieldPath) (expected : Bool)
  /-- The elements of the list satisfy conditions of their own as the quantifier says. -/
  | elements (path : FieldPath) (quantifier : Quantifier) (kind : ElementKind)
      (inner : List Condition)
  /-- The expression is at fault here. -/
  | fault (error : Error)

end TypedGraph

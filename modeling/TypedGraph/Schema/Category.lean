/-!
# Schema/Category — what a field holds

Each field of a type belongs to one category, which decides how it is filtered, ordered and
updated.
-/

namespace TypedGraph

/-- What a field holds. -/
inductive FieldCategory where
  /-- A plain value. -/
  | scalar
  /-- A number, which updates can add to and scale. -/
  | numeric
  /-- The identifier of one node. -/
  | node
  /-- An embedded object. -/
  | object
  | scalarList
  | nodeList
  | objectList
  /-- A connection, which is filtered, ordered and updated through its own type only. -/
  | connection
deriving DecidableEq

namespace FieldCategory

/-- The name of a category. -/
def name : FieldCategory → String
  | .scalar => "Scalar"
  | .numeric => "Numeric"
  | .node => "Node"
  | .object => "Object"
  | .scalarList => "ScalarList"
  | .nodeList => "NodeList"
  | .objectList => "ObjectList"
  | .connection => "Connection"

/-- Whether a field of the category holds a list in the document. -/
def isList : FieldCategory → Bool
  | .scalarList | .nodeList | .objectList => true
  | _ => false

end FieldCategory

end TypedGraph

import TypedGraph.Error
import TypedGraph.Text.Base64
import TypedGraph.Text.Utf8

/-!
# Schema — types, their fields and their members

A schema names the **types** of the documents.  A type is an object, an interface, a union or an
enum; unions and interfaces are **abstract** and list the object types that an instance may have.
A node type is one whose instances carry a global identifier.

Every identifier of a node ends with the **suffix** of its type, by which the members of an
abstract node type are told apart.
-/

namespace TypedGraph

inductive TypeKind where
  | object
  | interface
  | union
  | enum
deriving DecidableEq

namespace TypeKind

/-- The name of a kind. -/
def name : TypeKind → String
  | .object => "Object"
  | .interface => "Interface"
  | .union => "Union"
  | .enum => "Enum"

/-- Whether instances are instances of one of several types. -/
def isAbstract : TypeKind → Bool
  | .interface | .union => true
  | _ => false

/-- Whether a type of the kind declares fields of its own. -/
def hasFields : TypeKind → Bool
  | .object | .interface => true
  | _ => false

end TypeKind

/-- A field of a type. -/
structure FieldInfo where
  name : String
  /-- The type of what the field holds. -/
  typeName : String
  category : FieldCategory

/-- A type of a schema. -/
structure TypeInfo where
  name : String
  kind : TypeKind
  fields : List FieldInfo
  /-- The object types that an instance of an abstract type may have. -/
  possibleTypes : List String
  /-- Whether every instance is a node. -/
  isNode : Bool

namespace TypeInfo

def isAbstract (t : TypeInfo) : Bool := t.kind.isAbstract

/-- The field of a name. -/
def field? (t : TypeInfo) (name : String) : Option FieldInfo := t.fields.find? (·.name = name)

/-- The field of a name, which has to exist. -/
def field (t : TypeInfo) (name : String) : Except Error FieldInfo :=
  match t.field? name with
  | some f => .ok f
  | none => .error (.fieldNotFound name t.name)

end TypeInfo

/-- The types of a schema by name. -/
structure Schema where
  types : Record TypeInfo

namespace Schema

/-- The type of a name, which has to exist. -/
def type (s : Schema) (name : String) : Except Error TypeInfo :=
  match Record.get? s.types name with
  | some t => .ok t
  | none => .error (.typeNotFound name)

end Schema

/-! ## Suffixes -/

/-- The suffix of a type by its name. -/
abbrev TypeSuffix := String → String

/-- **The standard suffix**: a point and the letters of the type's name.  No letter is a point, so
that no suffix ends with another one. -/
def TypeSuffix.standard : TypeSuffix := fun name =>
  "." ++ String.ofList (Base64.encode .urlSafe (Utf8.encode name))

end TypedGraph

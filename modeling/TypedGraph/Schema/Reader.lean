import TypedGraph.Config
import TypedGraph.Schema.Basic

/-!
# Schema/Reader — loading a schema

A schema is described by an object that names its types.  The description of a type and of a field
is an object, or a list of its parts in their order; names that mean nothing are passed over.

Loading first reads all descriptions, in their order, and then checks that every possible type of
an abstract type is an object type of the schema.  An abstract type is a node type where it says
so, and otherwise where it has members and all of them are node types.
-/

namespace TypedGraph

/-! ## Fields -/

/-- The description of a field: what its parts have said so far. -/
structure FieldDraft where
  name : String
  typeName : String
  /-- The categories that the field declares. -/
  categories : List FieldCategory

namespace FieldDraft

def start : FieldDraft := ⟨"", "", []⟩

/-- The categories by the names of their flags. -/
def flags : List (String × FieldCategory) :=
  [("isScalar", .scalar), ("isNumeric", .numeric), ("isNode", .node), ("isObject", .object),
    ("isScalarList", .scalarList), ("isNodeList", .nodeList), ("isObjectList", .objectList)]

/-- Set the part of a name. -/
def set (d : FieldDraft) (name : String) (v : Value) : Except Error FieldDraft :=
  if name = "name" then do return { d with name := ← v.readString }
  else if name = "targetTypeName" then do return { d with typeName := ← v.readString }
  else match Record.get? flags name with
    | none => .ok d
    | some category => do
      let raised ← v.readBool
      return if raised then { d with categories := category :: d.categories } else d

/-- The names of the parts, in their order. -/
def parts : List String := "name" :: "targetTypeName" :: flags.map Prod.fst

/-- The field of a draft: a connection where no category is declared. -/
def finish (d : FieldDraft) : Except Error FieldInfo :=
  match d.categories with
  | [] => .ok ⟨d.name, d.typeName, .connection⟩
  | [category] => .ok ⟨d.name, d.typeName, category⟩
  | _ => .error (.format (.capabilityConflict d.name))

end FieldDraft

/-- Read the description of a field. -/
def FieldInfo.ofValue (v : Value) : Except Error FieldInfo := do
  let parts ← match v with
    | .obj es => .ok es
    | .arr xs =>
      if xs.length ≤ FieldDraft.parts.length then .ok (FieldDraft.parts.zip xs)
      else .error (.format .malformed)
    | _ => .error (.format .malformed)
  let draft ← parts.foldlM (fun d (name, v) => d.set name v) FieldDraft.start
  draft.finish

/-! ## Types -/

/-- The kind of a name. -/
def TypeKind.ofName : String → Except Error TypeKind
  | "object" => .ok .object
  | "interface" => .ok .interface
  | "union" => .ok .union
  | "enum" => .ok .enum
  | _ => .error (.format .malformed)

/-- Read a kind: its name, or the name with nothing. -/
def TypeKind.ofValue : Value → Except Error TypeKind
  | .str s => ofName s
  | .obj [(s, .null)] => ofName s
  | _ => .error (.format .malformed)

/-- The description of a type: what its parts have said so far. -/
structure TypeDraft where
  kind : Option TypeKind
  fields : List FieldInfo
  memberTypeNames : List String
  implementerTypeNames : List String
  implementsNode : Bool
  everyMemberImplementsNode : Option Bool

namespace TypeDraft

def start : TypeDraft := ⟨none, [], [], [], false, none⟩

/-- Set the part of a name. -/
def set (d : TypeDraft) (name : String) (v : Value) : Except Error TypeDraft :=
  match name with
  | "kind" => do return { d with kind := some (← TypeKind.ofValue v) }
  | "fields" => do return { d with fields := ← v.readList FieldInfo.ofValue }
  | "memberTypeNames" => do return { d with memberTypeNames := ← v.readList Value.readString }
  | "implementerTypeNames" => do
    return { d with implementerTypeNames := ← v.readList Value.readString }
  | "implementsNode" => do return { d with implementsNode := ← v.readBool }
  | "everyMemberImplementsNode" => do
    return { d with everyMemberImplementsNode := ← v.readOptional Value.readBool }
  | _ => .ok d

/-- The names of the parts, in their order. -/
def parts : List String :=
  ["kind", "fields", "memberTypeNames", "implementerTypeNames", "implementsNode",
    "everyMemberImplementsNode"]

/-- Read the description of a type; a list has to give all parts. -/
def ofValue (v : Value) : Except Error (TypeKind × TypeDraft) := do
  let given ← match v with
    | .obj es => .ok es
    | .arr xs =>
      if xs.length = parts.length then .ok (parts.zip xs) else .error (.format .malformed)
    | _ => .error (.format .malformed)
  let draft ← given.foldlM (fun d (name, v) => d.set name v) start
  match draft.kind with
  | some kind => return (kind, draft)
  | none => .error (.format .malformed)

/-- The types that an instance may have. -/
def possibleTypes (kind : TypeKind) (d : TypeDraft) : List String :=
  match kind with
  | .union => d.memberTypeNames
  | .interface => d.implementerTypeNames
  | _ => []

end TypeDraft

namespace Schema

/-- Whether a name is that of an object type, and if so whether the type is a node type. -/
def objectIsNode? (drafts : Record (TypeKind × TypeDraft)) (name : String) : Option Bool :=
  match Record.get? drafts name with
  | some (.object, d) => some d.implementsNode
  | _ => none

/-- Whether instances of a described type are nodes. -/
def draftIsNode (drafts : Record (TypeKind × TypeDraft)) (kind : TypeKind) (d : TypeDraft) : Bool :=
  match kind with
  | .object => d.implementsNode
  | .enum => false
  | .union | .interface =>
    let members := d.possibleTypes kind
    d.everyMemberImplementsNode.getD
      (!members.isEmpty && members.all fun m => (objectIsNode? drafts m).getD false)

/-- The type of a description: its members have to be object types. -/
def finishType (drafts : Record (TypeKind × TypeDraft)) (name : String) (kind : TypeKind)
    (d : TypeDraft) : Except Error TypeInfo := do
  let members := d.possibleTypes kind
  match members.find? fun m => (objectIsNode? drafts m).isNone with
  | some m => .error (.schema (.memberNotObject name m))
  | none => return {
      name, kind
      fields := if kind.hasFields then d.fields else []
      possibleTypes := members
      isNode := draftIsNode drafts kind d }

/-- **Load a schema.** -/
def ofValue (v : Value) : Except Error Schema := do
  match v with
  | .obj es =>
    let drafts ← es.mapM fun (name, v) => do return (name, ← TypeDraft.ofValue v)
    let types ← drafts.mapM fun (name, kind, d) => do return (name, ← finishType drafts name kind d)
    return ⟨types⟩
  | _ => .error (.format .malformed)

end Schema

end TypedGraph

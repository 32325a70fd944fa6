import TypedGraph.Error

/-!
# Config — where nodes and their marks lie in a document

The configuration says under which name an edge holds its node, which fields hold the identifier
and the type of a node, what breaks ties of an order, and how many rows a page may have at most.
It is read from an object, or from a list of its parts in their order; what is not given keeps its
default.
-/

namespace TypedGraph

/-- Where nodes and their marks lie, and how pages are bounded. -/
structure Config where
  /-- The name under which an edge holds its node. -/
  nodePath : String
  /-- The field that holds the identifier of a node. -/
  idField : String
  /-- The field that holds the type of a member of a union or interface that is no node type. -/
  typeField : String
  /-- The path that every sort document ends with. -/
  sortTiebreaker : Option String
  /-- How many rows a page may have. -/
  maxRows : Option Nat

namespace Config

/-- The configuration where nothing is given. -/
def standard : Config := ⟨"node", "id", "_type", some "_id", none⟩

instance : Inhabited Config := ⟨standard⟩

end Config

/-! ## Reading the parts of a description -/

namespace Value

/-- A part that has to be a string. -/
def readString : Value → Except Error String
  | .str s => .ok s
  | _ => .error (.format .malformed)

/-- A part that has to be a boolean. -/
def readBool : Value → Except Error Bool
  | .bool b => .ok b
  | _ => .error (.format .malformed)

/-- A part that has to be an unsigned 64-bit integer. -/
def readU64 (v : Value) : Except Error Nat :=
  match v.asU64? with
  | some n => .ok n
  | none => .error (.format .malformed)

/-- A part that may be null. -/
def readOptional {α : Type} (read : Value → Except Error α) : Value → Except Error (Option α)
  | .null => .ok none
  | v => (read v).map some

/-- A part that has to be a list. -/
def readList {α : Type} (read : Value → Except Error α) : Value → Except Error (List α)
  | .arr xs => xs.mapM read
  | _ => .error (.format .malformed)

end Value

namespace Config

/-- Set the part of a name; other names are passed over. -/
def set (c : Config) (name : String) (v : Value) : Except Error Config :=
  match name with
  | "nodePath" => do return { c with nodePath := ← v.readString }
  | "idField" => do return { c with idField := ← v.readString }
  | "typeField" => do return { c with typeField := ← v.readString }
  | "sortTiebreaker" => do return { c with sortTiebreaker := ← v.readOptional Value.readString }
  | "maxRows" => do return { c with maxRows := ← v.readOptional Value.readU64 }
  | _ => .ok c

/-- The names of the parts, in their order. -/
def parts : List String := ["nodePath", "idField", "typeField", "sortTiebreaker", "maxRows"]

/-- **Read a configuration.** -/
def ofValue : Value → Except Error Config
  | .obj es => es.foldlM (fun c (name, v) => c.set name v) standard
  | .arr xs =>
    if xs.length ≤ parts.length then
      (parts.zip xs).foldlM (fun c (name, v) => c.set name v) standard
    else .error (.format .malformed)
  | _ => .error (.format .malformed)

end Config

end TypedGraph

import TypedGraph.Filter.Reader

/-!
# Order/Clause — reading an order expression

An order expression is a list of objects that name fields with a direction, an object standing for
the list of itself.  The entries are read as a list of **clauses**, the first one deciding first.
An embedded object is ordered by its own fields, and `id` stands for the identifier of a node.
-/

namespace TypedGraph

inductive Direction where
  | ascending
  | descending
deriving DecidableEq

namespace Direction

/-- The name of a direction. -/
def name : Direction → String
  | .ascending => "Ascending"
  | .descending => "Descending"

/-- One upwards, minus one downwards. -/
def sign : Direction → Int
  | .ascending => 1
  | .descending => -1

/-- Turn an outcome around where the direction is downwards. -/
def apply : Direction → Ordering → Ordering
  | .ascending, o => o
  | .descending, o => o.swap

/-- Read a direction. -/
def ofValue : Value → Except Error Direction
  | .str "ASCENDING" => .ok .ascending
  | .str "DESCENDING" => .ok .descending
  | .str s => .error (.schema (.invalidDirection s))
  | v => .error (.schema (.directionExpected v))

end Direction

/-- A path within the ordered objects, and the direction in which it is ordered. -/
structure OrderClause where
  path : List String
  direction : Direction
deriving DecidableEq

namespace Order

/-- The clause of a path with a direction. -/
def directed (path : List String) (v : Value) : Except Error (List OrderClause) :=
  (Direction.ofValue v).map fun direction => [⟨path, direction⟩]

/-- The clauses of one entry of an order; `nested` reads an embedded object of a type at a path. -/
def entryClauses (ctx : Context) (t : TypeInfo) (parent : List String) (key : String) (v : Value)
    (nested : TypeInfo → List String → Except Error (List OrderClause)) :
    Except Error (List OrderClause) :=
  if key = "id" then
    if t.isNode then directed (parent ++ [ctx.config.idField]) v
    else .error (.schema (.idOfNonNode "order" t.name))
  else if !t.kind.hasFields then .error (.schema (.noFields t.name "orderable" key))
  else do
    let field ← t.field key
    let path := parent ++ [key]
    match field.category with
    | .scalar | .numeric | .node => directed path v
    | .object => do nested (← ctx.schema.type field.typeName) path
    | category => .error (.schema (.notOrderable key category))

mutual

/-- The clauses of one entry of an order. -/
def readEntry (ctx : Context) (t : TypeInfo) (parent : List String) (key : String) :
    Value → Except Error (List OrderClause)
  | .obj es => entryClauses ctx t parent key (.obj es) fun t path => readEntries ctx t path es
  | v => entryClauses ctx t parent key v fun _ _ => .error (.schema (.nestedOrderExpected key))
termination_by structural v => v

/-- The clauses of the entries of an order. -/
def readEntries (ctx : Context) (t : TypeInfo) (parent : List String) :
    Record Value → Except Error (List OrderClause)
  | [] => .ok []
  | (key, v) :: rest => do
    let first ← readEntry ctx t parent key v
    let others ← readEntries ctx t parent rest
    return first ++ others
termination_by structural es => es

end

/-- The entries of the objects of an order expression. -/
def objects : Value → Except Error (List (Record Value))
  | .null => .ok []
  | .obj es => .ok [es]
  | .arr xs => (xs.filter (!·.isNull)).mapM fun
    | .obj es => .ok es
    | v => .error (.schema (.orderEntryExpected v))
  | v => .error (.schema (.orderExpected v))

/-- **The clauses of an order expression** on objects of a type. -/
def read (ctx : Context) (t : TypeInfo) (order : Value) : Except Error (List OrderClause) := do
  let entries ← objects order
  let clauses ← entries.mapM (readEntries ctx t [])
  return clauses.flatten

end Order

end TypedGraph

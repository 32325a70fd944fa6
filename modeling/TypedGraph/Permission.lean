import TypedGraph.Filter.Predicate
import TypedGraph.Filter.Query

/-!
# Permission — what a viewer may see of a type

Each object type is denied, unrestricted, or restricted to the instances that satisfy a filter.
The viewer of a connection sees a node where the node's own type lets it be seen: each possible
type that is not denied makes a **branch**, which an abstract type guards by the type of the node.

The branches are written as a query (`Permission.query`) or decided in memory
(`Permission.predicate`); either is none where nothing is restricted.
-/

namespace TypedGraph

/-- What may be seen of the instances of an object type. -/
inductive Permission where
  | denied
  | unrestricted
  | filtered (filter : Value)

/-- The permissions of object types by their names. -/
abbrev Permissions := String → Permission

namespace Permission

/-- Nothing is restricted. -/
def all : Permissions := fun _ => .unrestricted

def isUnrestricted : Permission → Bool
  | .unrestricted => true
  | _ => false

/-- The object types that an instance of a type may have. -/
def members (t : TypeInfo) : List String := if t.isAbstract then t.possibleTypes else [t.name]

/-- Whether every member of a type is unrestricted. -/
def isOpen (permissions : Permissions) (t : TypeInfo) : Bool :=
  (members t).all fun m => (permissions m).isUnrestricted

/-- The filter that tells a member of an abstract type. -/
def guard (member : String) : Value := .single "type" (.single "eq" (.strings [member]))

/-- The members that are not denied, each with the filter that restricts it. -/
def admitted (permissions : Permissions) (t : TypeInfo) : List (String × Option Value) :=
  (members t).filterMap fun m => match permissions m with
    | .denied => none
    | .unrestricted => some (m, none)
    | .filtered f => some (m, some f)

/-- What `compile` makes of the filter of a member and of its guard, in this order. -/
def branch {α : Type} (ctx : Context) (t : TypeInfo)
    (compile : TypeInfo → Value → Except Error α) (member : String × Option Value) :
    Except Error (Option α × Option α) := do
  let filter ← match member.2 with
    | some f => ctx.schema.type member.1 >>= fun own => (compile own f).map some
    | none => .ok none
  let guard ← if t.isAbstract then (compile t (guard member.1)).map some else .ok none
  return (guard, filter)

/-- The query of branches: of none, one that no document satisfies. -/
def anyBranch : List (Record Value) → Record Value
  | [] => [(Connective.nor.name, .arr [.obj []])]
  | [query] => query
  | queries => [(Connective.or.name, .arr (queries.map .obj))]

/-- **The query of what may be seen** of nodes of a type at a path. -/
def query (ctx : Context) (permissions : Permissions) (t : TypeInfo) (path : FieldPath) :
    Except Error (Option (Record Value)) :=
  if isOpen permissions t then .ok none
  else do
    let branches ← (admitted permissions t).mapM
      (branch ctx t fun t f => Filter.query ctx t path f)
    return some (anyBranch (branches.map fun (guard, filter) =>
      Clause.conjunction (guard.getD [] ++ filter.getD [])))

/-- **The predicate of what may be seen** of nodes of a type. -/
def predicate (ctx : Context) (permissions : Permissions) (t : TypeInfo) :
    Except Error (Option (Value → Bool)) :=
  if isOpen permissions t then .ok none
  else do
    let branches ← (admitted permissions t).mapM (branch ctx t (Filter.predicate ctx))
    return some fun node => branches.any fun (guard, filter) =>
      guard.all (· node) && filter.all (· node)

end Permission

end TypedGraph

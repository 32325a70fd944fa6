import TypedGraph.Order.Stable
import TypedGraph.Query.Evaluator
import TypedGraph.Store.Group

/-!
# Store — answering pipelines

A **pipeline** is a list of stages, each of which turns the rows of the stage before into its own:
it keeps what matches a query, sorts, skips, limits or groups them.  Of a stage only the first
entry counts.  What comes out in the end are the rows that are objects.

A **store** answers one pipeline after the other.  It holds the rows of one collection, which may
shrink after the first answer, or a script of answers to give in turn.
-/

namespace TypedGraph

/-- The stages of a query to a store. -/
abbrev Pipeline := List (Record Value)

namespace Pipeline

/-- Comparison of two rows by one entry of a sort document. -/
def compareByEntry (key : String) (direction a b : Value) : Ordering :=
  let o := Value.compareOptional (a.dotted? key) (b.dotted? key)
  if direction.asI64? = some (-1) then o.swap else o

/-- Comparison of two rows by a sort document, the first difference deciding. -/
def compareRows : Record Value → Value → Value → Ordering
  | [], _, _ => .eq
  | (key, direction) :: rest, a, b =>
    (compareByEntry key direction a b).then (compareRows rest a b)

/-- The rows in the order of a sort document. -/
def sortRows (keys : Record Value) (rows : List Value) : List Value :=
  stableSort (compareRows keys) rows

/-- The rows of a stage. -/
def runStage (patterns : PatternEngine) (rows : List Value) :
    Record Value → Except String (List Value)
  | [] => .error "empty stage"
  | stage@((name, operand) :: _) =>
    match name with
    | "$match" => .ok (rows.filter (Query.holds patterns operand))
    | "$sort" => .ok (sortRows (operand.asObject?.getD []) rows)
    | "$skip" => .ok (rows.drop (operand.asU64?.getD 0))
    | "$limit" => .ok (rows.take (operand.asU64?.getD 0))
    | "$group" => .ok ((Group.rows stage rows).map .obj)
    | _ => .error ("unsupported stage " ++ name)

/-- **The rows that a pipeline makes** of the rows of a collection. -/
def run (patterns : PatternEngine) (rows : List Value) (stages : Pipeline) :
    Except String (List (Record Value)) :=
  (stages.foldlM (runStage patterns) rows).map fun result => result.filterMap Value.asObject?

end Pipeline

/-- What answers pipelines; the rows of a collection are matched by a library of patterns. -/
inductive Store where
  /-- The rows of one collection. -/
  | memory (patterns : PatternEngine) (collection : String) (rows : List Value)
  /-- Rows of which only so many are kept after the first answer. -/
  | shrinking (patterns : PatternEngine) (collection : String) (rows : List Value) (keep : Nat)
  /-- Answers to give in turn, whatever is asked. -/
  | scripted (answers : List (Except String (List (Record Value))))

namespace Store

/-- What the rows of a collection answer. -/
def answer (patterns : PatternEngine) (own : String) (rows : List Value) (collection : String)
    (stages : Pipeline) : Except String (List (Record Value)) :=
  if collection = own then Pipeline.run patterns rows stages
  else .error ("unknown collection " ++ collection)

/-- **Ask a store**: its answer, and the store after it. -/
def ask (s : Store) (collection : String) (stages : Pipeline) :
    Except String (List (Record Value)) × Store :=
  match s with
  | memory patterns own rows => (answer patterns own rows collection stages, s)
  | shrinking patterns own rows keep =>
    (answer patterns own rows collection stages, memory patterns own (rows.take keep))
  | scripted [] => (.error "no response left", s)
  | scripted (a :: rest) => (a, scripted rest)

end Store

end TypedGraph

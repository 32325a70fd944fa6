import TypedGraph.Order.Clause
import TypedGraph.Order.Stable
import TypedGraph.Value.Order

/-!
# Order/Sort — ordering in memory and in the store

Objects are compared clause by clause, the first difference deciding; the sort is stable.  The same
clauses make the sort document of a pipeline: a path that comes twice counts where it comes first,
and the configured tiebreaker ends the document unless it is ordered on already.
-/

namespace TypedGraph

namespace Order

/-- Comparison of two objects by a clause. -/
def compareBy (c : OrderClause) (a b : Value) : Ordering :=
  c.direction.apply (Value.compareOptional (a.lookup? c.path) (b.lookup? c.path))

/-- **Comparison of two objects** clause by clause. -/
def compareObjects : List OrderClause → Value → Value → Ordering
  | [], _, _ => .eq
  | c :: cs, a, b => (compareBy c a b).then (compareObjects cs a b)

/-- Objects in the order of clauses. -/
def sortObjects (clauses : List OrderClause) (items : List Value) : List Value :=
  stableSort (compareObjects clauses) items

/-- Plain values in a direction; nulls come first in either. -/
def sortScalars (direction : Direction) (items : List Value) : List Value :=
  items.filter Value.isNull ++
    stableSort (fun a b => direction.apply (Value.compare a b)) (items.filter (!·.isNull))

/-- The entry of a path, unless the path has one. -/
def putNew (document : Record Value) (path : String) (direction : Direction) : Record Value :=
  if Record.has document path then document else document ++ [(path, .int direction.sign)]

/-- The sort document of clauses on objects at a path. -/
def clausesDocument (clauses : List OrderClause) (root : List String) : Record Value :=
  clauses.foldl
    (fun doc c => putNew doc (".".intercalate (root ++ c.path)) c.direction) []

/-- **The sort document** of clauses, with the tiebreaker at its end. -/
def sortDocument (config : Config) (clauses : List OrderClause) (root : List String) :
    Record Value :=
  let document := clausesDocument clauses root
  match config.sortTiebreaker with
  | some path => putNew document path .ascending
  | none => document

end Order

end TypedGraph

import TypedGraph.Aggregate.Values
import TypedGraph.Expression.Evaluator

/-!
# Store/Group — one row out of all documents

A group gathers all documents in one row, and none of them in no row.  Each name of the group but
the identifier has an **accumulator**, which reduces the values of an expression on the documents;
what is missing or null does not count.
-/

namespace TypedGraph

/-- How a group reduces values. -/
inductive Reducer where
  | sum
  | min
  | max
  | avg
deriving DecidableEq

namespace Reducer

def name : Reducer → String
  | .sum => "$sum"
  | .min => "$min"
  | .max => "$max"
  | .avg => "$avg"

def ofName? : String → Option Reducer
  | "$sum" => some .sum
  | "$min" => some .min
  | "$max" => some .max
  | "$avg" => some .avg
  | _ => none

@[simp] theorem ofName?_name (r : Reducer) : ofName? r.name = some r := by cases r <;> rfl

/-- The sum of a group: of integers it is one, and of other numbers it is counted from the neutral
element of addition.  Integers are added without bounds; what becomes of a sum that overflows the
signed 64-bit ones is left out. -/
def groupSum (vs : List Value) : Value :=
  let ns := Aggregate.numbers vs
  match ns.mapM Number.toI64? with
  | some is => .int (is.foldl (· + ·) 0)
  | none => .ofBinary64? (Aggregate.floatSum? .negativeZero ns)

/-- The first of the least values: the one so far goes on unless it comes after the next. -/
def firstLeast? : List Value → Option Value
  | [] => none
  | v :: vs => some (vs.foldl (fun m x => if Value.compare m x == .gt then x else m) v)

/-- The last of the greatest values: the one so far goes on only if it comes after the next. -/
def lastGreatest? : List Value → Option Value
  | [] => none
  | v :: vs => some (vs.foldl (fun m x => if Value.compare m x == .gt then m else x) v)

/-- **Reduce values** that are there and not null. -/
def apply : Reducer → List Value → Value
  | .sum, vs => groupSum vs
  | .min, vs => Value.orNull (firstLeast? vs)
  | .max, vs => Value.orNull (lastGreatest? vs)
  | .avg, vs => Aggregate.average .negativeZero vs

end Reducer

namespace Group

/-- The value of an accumulator on documents; null where it is none. -/
def accumulate (docs : List Value) (accumulator : Value) : Value :=
  match accumulator with
  | .obj ((name, e) :: _) => match Reducer.ofName? name with
    | some reducer =>
      reducer.apply (docs.filterMap fun d => Value.present? (Expression.evaluate d e []))
    | none => .null
  | _ => .null

/-- The row of a group over documents. -/
def row (docs : List Value) (group : Record Value) : Record Value :=
  group.map fun (name, accumulator) =>
    (name, if name = "_id" then .null else accumulate docs accumulator)

/-- **The rows of a group stage** over documents. -/
def rows (stage : Record Value) (docs : List Value) : List (Record Value) :=
  match docs, Record.get? stage "$group" with
  | [], _ => []
  | _, some (.obj group) => [row docs group]
  | _, _ => []

end Group

end TypedGraph

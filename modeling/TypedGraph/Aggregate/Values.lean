import TypedGraph.Value.Order

/-!
# Aggregate/Values — reducing a list of values to one

The sum of numbers is an integer as long as every number and every partial sum is a signed 64-bit
one, and a double otherwise.  A double result that is not finite is null.  The least and the
greatest value are taken in the order of values, over values of all kinds.
-/

namespace TypedGraph

namespace Aggregate

/-- The numbers among some values. -/
def numbers (vs : List Value) : List Number := vs.filterMap Value.asNumber?

/-- The sum of numbers as doubles, added from the first on to one of the two zeros.  Which of them
shows where all the numbers are negative zeros. -/
def floatSum? (start : Binary64) (ns : List Number) : Option Binary64 :=
  ns.foldlM (fun sum n => sum.add? n.toBinary64) start

/-- The sum of numbers as signed 64-bit integers. -/
def exactSum? (ns : List Number) : Option Int :=
  ns.foldlM (fun sum n => n.toI64?.bind fun i => Number.checkedI64 (sum + i)) 0

/-- **The sum of the numbers** among some values. -/
def sum (vs : List Value) : Value :=
  match exactSum? (numbers vs) with
  | some n => .int n
  | none => .ofBinary64? (floatSum? .zero (numbers vs))

/-- **The average of the numbers** among some values, null where there is none. -/
def average (start : Binary64) (vs : List Value) : Value :=
  let ns := numbers vs
  if ns.isEmpty then .null
  else .ofBinary64? ((floatSum? start ns).bind fun total => total.div? (.ofInt ns.length))

/-- The first of the least values. -/
def least? : List Value → Option Value
  | [] => none
  | v :: vs => some (vs.foldl (fun m x => if Value.compare x m == .lt then x else m) v)

/-- The first of the greatest values. -/
def greatest? : List Value → Option Value
  | [] => none
  | v :: vs => some (vs.foldl (fun m x => if Value.compare x m == .gt then x else m) v)

end Aggregate

end TypedGraph

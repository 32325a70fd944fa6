import TypedGraph.Value.Basic

/-!
# Value/Order — comparing values

Values of different kinds are ranked: null, numbers, strings, objects, lists, booleans.  Within a
kind numbers compare by value, strings by code points, lists item by item and objects entry by
entry in the order of their entries; of two that agree as far as both go, the shorter comes first.
What is missing compares like null.
-/

namespace TypedGraph

/-- A comparison by order. -/
inductive Comparison where
  | gt
  | gte
  | lt
  | lte
deriving DecidableEq

/-- Whether an outcome satisfies a comparison. -/
def Comparison.holds : Comparison → Ordering → Bool
  | .gt, o => o == .gt
  | .gte, o => o != .lt
  | .lt, o => o == .lt
  | .lte, o => o != .gt

namespace Value

/-- The place of a value's kind in the order of kinds. -/
def kindRank : Value → Nat
  | .null => 1
  | .num _ => 2
  | .str _ => 3
  | .obj _ => 4
  | .arr _ => 5
  | .bool _ => 8

mutual

/-- **Comparison of values.** -/
def compare : Value → Value → Ordering
  | .num a, .num b => a.compare b
  | .str a, .str b => Ord.compare a b
  | .bool a, .bool b => Ord.compare a b
  | .arr xs, .arr ys => compareItems xs ys
  | .obj xs, .obj ys => compareEntries xs ys
  | a, b => Ord.compare a.kindRank b.kindRank
termination_by structural a => a

/-- Comparison item by item. -/
def compareItems : List Value → List Value → Ordering
  | [], [] => .eq
  | [], _ :: _ => .lt
  | _ :: _, [] => .gt
  | x :: xs, y :: ys => (compare x y).then (compareItems xs ys)
termination_by structural xs => xs

/-- Comparison entry by entry, the name before the value. -/
def compareEntries : Record Value → Record Value → Ordering
  | [], [] => .eq
  | [], _ :: _ => .lt
  | _ :: _, [] => .gt
  | (k, x) :: xs, (l, y) :: ys =>
    ((Ord.compare k l).then (compare x y)).then (compareEntries xs ys)
termination_by structural xs => xs

end

/-- Comparison of values that may be missing. -/
def compareOptional (a b : Option Value) : Ordering := compare (orNull a) (orNull b)

/-- **Equality of values**: `1` equals `1.0`. -/
def equal (a b : Value) : Bool := compare a b == .eq

/-- Whether a value that may be missing equals a literal. -/
def optionalEquals (v : Option Value) (literal : Value) : Bool := equal (orNull v) literal

/-- Whether an order comparison of the two is meaningful: two numbers, two strings or two
booleans. -/
def sameClass : Value → Value → Bool
  | .num _, .num _ => true
  | .str _, .str _ => true
  | .bool _, .bool _ => true
  | _, _ => false

/-- Whether a value is there, of an operand's class, and compares to it as asked. -/
def comparesTo (v : Option Value) (c : Comparison) (operand : Value) : Bool :=
  match present? v with
  | some x => sameClass x operand && c.holds (compare x operand)
  | none => false

/-- Whether the list holds a value equal to `x`. -/
def among (x : Value) (xs : List Value) : Bool := xs.any (equal x)

end Value

end TypedGraph

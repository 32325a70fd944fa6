import TypedGraph.Number.Binary64

/-!
# Number/Basic — integers and doubles side by side

A **number** keeps the way it was written: `1` is an integer and `1.0` is a double, and the two
are printed differently although they compare as equal.  Two signed 64-bit integers are compared
exactly; any other pair is compared after both are rounded to doubles.
-/

namespace TypedGraph

/-- A number as it was written: an integer, or a literal with a fraction or an exponent. -/
inductive Number where
  | int (n : Int)
  | float (x : Binary64)
deriving DecidableEq

namespace Number

instance : Inhabited Number := ⟨.int 0⟩

/-- The largest signed and unsigned 64-bit integers, and the least signed one. -/
def maxI64 : Int := 0x7FFFFFFFFFFFFFFF
def minI64 : Int := -0x8000000000000000
def maxU64 : Int := 0xFFFFFFFFFFFFFFFF

/-- The number as a signed 64-bit integer; a double is none, whatever its value. -/
def toI64? : Number → Option Int
  | .int n => if minI64 ≤ n ∧ n ≤ maxI64 then some n else none
  | .float _ => none

/-- The number as an unsigned 64-bit integer. -/
def toU64? : Number → Option Nat
  | .int n => if 0 ≤ n ∧ n ≤ maxU64 then some n.toNat else none
  | .float _ => none

/-- The nearest double. -/
def toBinary64 : Number → Binary64
  | .int n => .ofInt n
  | .float x => x

/-- **Comparison of numbers**: exact between signed 64-bit integers, by the nearest doubles
otherwise. -/
def compare (a b : Number) : Ordering :=
  match a.toI64?, b.toI64? with
  | some m, some n => Ord.compare m n
  | _, _ => a.toBinary64.compare b.toBinary64

/-- The integer result of a checked 64-bit operation. -/
def checkedI64 (n : Int) : Option Int := if minI64 ≤ n ∧ n ≤ maxI64 then some n else none

/-- The number with its sign turned: an integer where the result fits, a double otherwise. -/
def negate (n : Number) : Number :=
  match n.toI64?.bind fun i => checkedI64 (-i) with
  | some i => .int i
  | none => .float n.toBinary64.neg

/-- One divided by the number, as a double; none for a zero, and where the result is not
finite. -/
def reciprocal? (n : Number) : Option Binary64 := (Binary64.ofInt 1).div? n.toBinary64

def isZero (n : Number) : Bool := n.toBinary64.isZero

end Number

end TypedGraph

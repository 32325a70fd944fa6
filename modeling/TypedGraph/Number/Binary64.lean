/-!
# Number/Binary64 — finite double-precision numbers, in exact arithmetic

A **binary64** is a sign and a magnitude, the magnitude being the 63 low bits of its standard
encoding.  Every finite double is a whole multiple of `2 ^ (-1074)`, and `units` is that multiple,
so that each operation is exact integer arithmetic followed by one rounding (`nearest`): to the
nearest double, a tie to the even magnitude.

Larger magnitudes have more units, so that comparing two doubles is comparing two integers (`key`);
the two zeros share the key `0`.  There are no infinities and no not-a-number: an operation whose
result leaves the finite range gives `none`.
-/

namespace TypedGraph

/-- A finite double: its sign, and the exponent and fraction bits read as one number. -/
structure Binary64 where
  /-- Whether the sign bit is set; a zero may carry it. -/
  negative : Bool
  /-- The exponent and fraction bits of the standard encoding. -/
  magnitude : Nat
  finite : magnitude < 0x7FF0000000000000 := by decide
deriving DecidableEq

namespace Binary64

/-- The first magnitude that is not finite. -/
def limit : Nat := 0x7FF0000000000000

def zero : Binary64 := ⟨false, 0, by decide⟩

/-- The zero with a sign, the neutral element of addition: it leaves even the other zero as it
is. -/
def negativeZero : Binary64 := ⟨true, 0, by decide⟩

instance : Inhabited Binary64 := ⟨zero⟩

/-- The largest finite double. -/
def largest : Binary64 := ⟨false, limit - 1, by decide⟩

/-- The first magnitude of each binade after the subnormal one is a multiple of this, the bit that a
normal significand has above its fraction. -/
def leadingBit : Nat := 0x10000000000000

/-! ## The number that a magnitude stands for -/

/-- The integer significand: 53 bits for a normal number, fewer for a subnormal one. -/
def significand (x : Binary64) : Nat :=
  if x.magnitude < leadingBit then x.magnitude else leadingBit + x.magnitude % leadingBit

/-- The power of two by which the significand is scaled, counted from `2 ^ (-1074)`. -/
def scale (x : Binary64) : Nat := x.magnitude / leadingBit - 1

/-- The absolute value, as a multiple of `2 ^ (-1074)`. -/
def units (x : Binary64) : Nat := x.significand * Nat.pow 2 x.scale

/-- The value, as a multiple of `2 ^ (-1074)`. -/
def signedUnits (x : Binary64) : Int := if x.negative then -(x.units : Int) else x.units

/-- The order key: the magnitude with the sign, so that both zeros have the key `0`. -/
def key (x : Binary64) : Int := if x.negative then -(x.magnitude : Int) else x.magnitude

/-- Comparison of the values. -/
def compare (x y : Binary64) : Ordering := Ord.compare x.key y.key

def isZero (x : Binary64) : Bool := x.magnitude == 0

/-! ## Rounding -/

/-- The quotient rounded to the nearest integer, a half to the even one. -/
def roundHalfEven (num den : Nat) : Nat :=
  let q := num / den
  let twice := 2 * (num % den)
  if twice > den ∨ (twice = den ∧ q % 2 = 1) then q + 1 else q

/-- **The nearest magnitude** to `num / den` units.  With `s` bits to drop from the whole part,
the rounded significand `m` stands for the magnitude `s * 2 ^ 52 + m`: a subnormal, a normal number
and a carry into the next binade alike. -/
def nearest (num den : Nat) : Nat :=
  let drop := (num / den).log2 - 52
  drop * leadingBit + roundHalfEven num (den * Nat.pow 2 drop)

/-- The double nearest to a ratio of units; none where it would not be finite. -/
def ofRatio? (negative : Bool) (num den : Nat) : Option Binary64 :=
  let m := nearest num den
  if h : m < 0x7FF0000000000000 then some ⟨negative, m, h⟩ else none

/-- How many units make one. -/
def one : Nat := Nat.pow 2 1074

/-- The double nearest to an integer; an integer beyond the finite range goes to its end. -/
def ofInt (n : Int) : Binary64 :=
  (ofRatio? (decide (n < 0)) (n.natAbs * one) 1).getD { largest with negative := decide (n < 0) }

/-! ## Arithmetic -/

def neg (x : Binary64) : Binary64 := { x with negative := !x.negative }

/-- The sum.  A sum that is exactly zero is negative only where both terms are. -/
def add? (x y : Binary64) : Option Binary64 :=
  let sum := x.signedUnits + y.signedUnits
  let negative := if sum = 0 then x.negative && y.negative else decide (sum < 0)
  ofRatio? negative sum.natAbs 1

def sub? (x y : Binary64) : Option Binary64 := x.add? y.neg

def mul? (x y : Binary64) : Option Binary64 :=
  ofRatio? (x.negative != y.negative) (x.units * y.units) one

/-- The quotient; none where the divisor is zero. -/
def div? (x y : Binary64) : Option Binary64 :=
  if y.isZero then none else ofRatio? (x.negative != y.negative) (x.units * one) y.units

end Binary64

end TypedGraph

import TypedGraph.Number.Basic

/-!
# Number/Text — writing and reading numbers

A double is written with the **fewest digits that read back**: on the coarsest power of ten one of
whose multiples rounds to the double, the nearest such multiple is taken (`Binary64.shortest`).
Numbers between `10 ^ (-5)` and `10 ^ 16` are written positionally, always with a fraction, all
others in scientific notation (`FloatLayout`).

A literal is read as an integer where it has neither fraction nor exponent and fits 64 bits, and
as a double otherwise.
-/

namespace TypedGraph

/-! ## The fewest digits that read back -/

namespace Binary64

/-- The least and the greatest real that round to a magnitude, in quarters of a unit: half a gap to
either side, the gap below a power of two being half as wide. -/
def roundingInterval (x : Binary64) : Nat × Nat :=
  let gap := Nat.pow 2 x.scale
  let below := if x.significand = leadingBit ∧ 0 < x.scale then gap else 2 * gap
  (4 * x.units - below, 4 * x.units + 2 * gap)

/-- Whether the ends of the interval round to the number as well: ties go to the even one. -/
def roundsAtEnds (x : Binary64) : Bool := x.significand % 2 == 0

/-- The grid of multiples of `10 ^ p`: the step is this ratio of quarter units. -/
def gridStep (p : Int) : Nat × Nat :=
  if 0 ≤ p then (Nat.pow 10 p.toNat * (4 * one), 1) else (4 * one, Nat.pow 10 (-p).toNat)

/-- The multiple of `10 ^ p` that is nearest to the number among those that read back: one of the
two neighbours of the number on that grid, a tie going to the even multiple. -/
def onGrid? (x : Binary64) (p : Int) : Option Nat :=
  let (num, den) := gridStep p
  let (lo, hi) := x.roundingInterval
  let value := 4 * x.units * den
  let readsBack := fun c : Nat =>
    if x.roundsAtEnds then decide (lo * den ≤ c * num ∧ c * num ≤ hi * den)
    else decide (lo * den < c * num ∧ c * num < hi * den)
  let below := value / num
  match readsBack below, readsBack (below + 1) with
  | true, false => some below
  | false, true => some (below + 1)
  | false, false => none
  | true, true =>
    let middle := (2 * below + 1) * num
    if 2 * value < middle ∨ (2 * value = middle ∧ below % 2 = 0) then some below
    else some (below + 1)

/-- Drop the trailing zeros of a count of `10 ^ p`, at most `fuel` of them. -/
def dropZeros : Nat → Nat → Int → Nat × Int
  | 0, c, p => (c, p)
  | fuel + 1, c, p => if c % 10 = 0 then dropZeros fuel (c / 10) (p + 1) else (c, p)

/-- **The shortest decimal** `c * 10 ^ p` that reads back as the absolute value, found on the
coarsest grid that has one; `c` does not end in a zero. -/
def shortest (x : Binary64) : Nat × Int :=
  let grids := (List.range 633).map fun (i : Nat) => (308 : Int) - i
  match grids.findSome? fun p => (x.onGrid? p).map fun c => (c, p) with
  | some (c, p) => dropZeros 20 c p
  | none => (0, 0)

end Binary64

/-! ## The layout of a double -/

/-- Where positional notation ends and how the rest is marked. -/
structure FloatLayout where
  /-- The least decimal exponent that is written positionally. -/
  leastPositional : Int
  /-- The first decimal exponent that is not. -/
  pastPositional : Int
  /-- The fraction of a whole number. -/
  wholeFraction : String
  /-- The mark of the exponent. -/
  mark : String
  /-- The sign of an exponent that is not negative. -/
  plus : String

/-- Doubles are positional from `0.00001` to below `1e+16`, and always show a fraction there. -/
def FloatLayout.standard : FloatLayout := ⟨-5, 16, ".0", "e", "+"⟩

namespace Binary64

/-- A run of zeros. -/
def zeros (n : Nat) : String := String.ofList (List.replicate n '0')

/-- Write the decimal `c * 10 ^ p`. -/
def renderDecimal (layout : FloatLayout) (c : Nat) (p : Int) : String :=
  let digits := Nat.toDigits 10 c
  let exponent := (digits.length : Int) - 1 + p
  if layout.leastPositional ≤ exponent ∧ exponent < layout.pastPositional then
    if 0 ≤ p then String.ofList digits ++ zeros p.toNat ++ layout.wholeFraction
    else if 0 ≤ exponent then
      let whole := (exponent + 1).toNat
      String.ofList (digits.take whole) ++ "." ++ String.ofList (digits.drop whole)
    else "0." ++ zeros (-exponent - 1).toNat ++ String.ofList digits
  else
    let fraction := if digits.length ≤ 1 then "" else "." ++ String.ofList (digits.drop 1)
    let sign := if exponent < 0 then "-" else layout.plus
    String.ofList (digits.take 1) ++ fraction ++ layout.mark ++ sign ++ toString exponent.natAbs

/-- The text of a double. -/
def render (x : Binary64) : String :=
  let (c, p) := if x.isZero then (0, 0) else x.shortest
  (if x.negative then "-" else "") ++ renderDecimal .standard c p

/-! ## Reading a double -/

/-- Divide by `10 ^ e`, for a positive `e`, at most `10 ^ 308` at a time.  Four such steps leave
zero of any double, so that no more are taken. -/
def scaleDown (x : Binary64) (e : Nat) : Option Binary64 :=
  let steps := (e - 1) / 308
  (List.replicate (min steps 4) 308 ++ [e - 308 * steps]).foldlM
    (fun y n => y.div? (ofInt (Nat.pow 10 n))) x

/-- **The double of a decimal** `c * 10 ^ e`: the count and the power of ten are each rounded, and
so is their product or quotient.  None where it would not be finite. -/
def ofDecimal? (c : Nat) (e : Int) : Option Binary64 :=
  let x := ofInt c
  if e < 0 then scaleDown x (-e).toNat
  else if x.isZero then some x
  else if e ≤ 308 then x.mul? (ofInt (Nat.pow 10 e.toNat))
  else none

end Binary64

namespace Number

/-- The text of a number. -/
def render : Number → String
  | .int n => toString n
  | .float x => x.render

/-! ## Reading a literal -/

/-- The digits at the start of a text, and what follows them. -/
def spanDigits (cs : List Char) : List Char × List Char :=
  (cs.takeWhile Char.isDigit, cs.dropWhile Char.isDigit)

def digitValue (c : Char) : Nat := c.toNat - '0'.toNat

/-- The number that digits write. -/
def ofDigits (ds : List Char) : Nat := ds.foldl (fun n d => 10 * n + digitValue d) 0

/-- Read digits into a count that stays below `2 ^ 64`: the count, and how many digits were left
out because they did not fit. -/
def accumulate : Nat → List Char → Nat × Nat
  | c, [] => (c, 0)
  | c, d :: ds =>
    let next := 10 * c + digitValue d
    if next ≤ Number.maxU64 then accumulate next ds else (c, ds.length + 1)

/-- The exponent of a literal: `e` or `E`, a sign, digits. -/
def readExponent? : List Char → Option (Int × List Char)
  | c :: rest =>
    if c = 'e' ∨ c = 'E' then
      let (negative, rest) := match rest with
        | '-' :: r => (true, r)
        | '+' :: r => (false, r)
        | r => (false, r)
      match spanDigits rest with
      | ([], _) => none
      | (ds, rest) => some (if negative then -(ofDigits ds : Int) else ofDigits ds, rest)
    else some (0, c :: rest)
  | [] => some (0, [])

/-- The fraction of a literal: a point and at least one digit, or nothing. -/
def readFraction? : List Char → Option (Option (List Char) × List Char)
  | '.' :: rest => match spanDigits rest with
    | ([], _) => none
    | (ds, rest) => some (some ds, rest)
  | rest => some (none, rest)

/-- The double of a sign, whole digits, fraction digits and an exponent.  Digits past the
64 bits of the count only scale it (whole digits) or are dropped (fraction digits). -/
def floatOfDigits? (negative : Bool) (whole fraction : List Char) (exponent : Int) :
    Option Number := do
  let (count, skipped) := accumulate 0 whole
  let (count, exponent) :=
    if skipped = 0 then
      let (count, dropped) := accumulate count fraction
      (count, exponent - (fraction.length - dropped : Int))
    else (count, exponent + skipped)
  let x ← Binary64.ofDecimal? count exponent
  return .float (if negative then x.neg else x)

/-- A literal without fraction and exponent: an integer where it fits 64 bits.  A negative zero
is a double. -/
def ofWhole? (negative : Bool) (whole : List Char) : Option Number :=
  let n := ofDigits whole
  if negative then
    if 0 < n ∧ -(n : Int) ≥ minI64 then some (.int (-n)) else floatOfDigits? true whole [] 0
  else if n ≤ maxU64 then some (.int n) else floatOfDigits? false whole [] 0

/-- **Read a number literal** at the start of a text: a sign, whole digits without a leading
zero, a fraction, an exponent. -/
def read? (cs : List Char) : Option (Number × List Char) := do
  let (negative, cs) := match cs with
    | '-' :: r => (true, r)
    | r => (false, r)
  let (whole, cs) ← match cs with
    | '0' :: r => some (['0'], r)
    | r => some (spanDigits r)
  guard (!whole.isEmpty)
  let (fraction, afterFraction) ← readFraction? cs
  let (exponent, rest) ← readExponent? afterFraction
  let marked := fraction.isSome || rest.length != afterFraction.length
  let n ← if marked then floatOfDigits? negative whole (fraction.getD []) exponent
    else ofWhole? negative whole
  return (n, rest)

end Number

end TypedGraph

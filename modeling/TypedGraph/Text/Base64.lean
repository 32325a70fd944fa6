/-!
# Text/Base64 — bytes as letters

Three bytes are written as four letters of an alphabet of 64, and a last group of one or two bytes
as two or three.  An alphabet either fills the last group up with `=` or leaves it short.  Decoding
accepts exactly what encoding writes: the filling has to be there, and the bits that it leaves
unused have to be zero.
-/

namespace TypedGraph

namespace Base64

/-- The two last letters of an alphabet, and whether a short group is filled up. -/
structure Alphabet where
  plus : Char
  slash : Char
  padded : Bool

/-- The standard alphabet, padded. -/
def Alphabet.standard : Alphabet := ⟨'+', '/', true⟩

/-- The alphabet that is safe in addresses, not padded. -/
def Alphabet.urlSafe : Alphabet := ⟨'-', '_', false⟩

/-- The letter of a number below 64. -/
def Alphabet.letter (a : Alphabet) (n : Nat) : Char :=
  if n < 26 then Char.ofNat ('A'.toNat + n)
  else if n < 52 then Char.ofNat ('a'.toNat + (n - 26))
  else if n < 62 then Char.ofNat ('0'.toNat + (n - 52))
  else if n = 62 then a.plus
  else a.slash

/-- The number of a letter. -/
def Alphabet.value? (a : Alphabet) (c : Char) : Option Nat :=
  if 'A' ≤ c ∧ c ≤ 'Z' then some (c.toNat - 'A'.toNat)
  else if 'a' ≤ c ∧ c ≤ 'z' then some (c.toNat - 'a'.toNat + 26)
  else if '0' ≤ c ∧ c ≤ '9' then some (c.toNat - '0'.toNat + 52)
  else if c = a.plus then some 62
  else if c = a.slash then some 63
  else none

/-- The filling of a short last group. -/
def Alphabet.padding (a : Alphabet) (n : Nat) : List Char :=
  if a.padded then List.replicate n '=' else []

/-- Write bytes as letters. -/
def encode (alphabet : Alphabet) : List UInt8 → List Char
  | [] => []
  | [x] =>
    let n := x.toNat
    [alphabet.letter (n / 4), alphabet.letter (n % 4 * 16)] ++ alphabet.padding 2
  | [x, y] =>
    let n := x.toNat * 256 + y.toNat
    [alphabet.letter (n / 1024), alphabet.letter (n / 16 % 64), alphabet.letter (n % 16 * 4)]
      ++ alphabet.padding 1
  | x :: y :: z :: rest =>
    let n := (x.toNat * 256 + y.toNat) * 256 + z.toNat
    [alphabet.letter (n / 262144), alphabet.letter (n / 4096 % 64), alphabet.letter (n / 64 % 64),
      alphabet.letter (n % 64)] ++ encode alphabet rest

/-- Read padded letters: only what `encode` writes in the same alphabet is read. -/
def decode? (alphabet : Alphabet) : List Char → Option (List UInt8)
  | [] => some []
  | [a, b, '=', '='] => do
    let a ← alphabet.value? a
    let b ← alphabet.value? b
    guard (b % 16 = 0)
    return [UInt8.ofNat (a * 4 + b / 16)]
  | [a, b, c, '='] => do
    let a ← alphabet.value? a
    let b ← alphabet.value? b
    let c ← alphabet.value? c
    guard (c % 4 = 0)
    let n := (a * 64 + b) * 16 + c / 4
    return [UInt8.ofNat (n / 256), UInt8.ofNat (n % 256)]
  | a :: b :: c :: d :: rest => do
    let a ← alphabet.value? a
    let b ← alphabet.value? b
    let c ← alphabet.value? c
    let d ← alphabet.value? d
    let n := ((a * 64 + b) * 64 + c) * 64 + d
    let bytes ← decode? alphabet rest
    return UInt8.ofNat (n / 65536) :: UInt8.ofNat (n / 256 % 256) :: UInt8.ofNat (n % 256) :: bytes
  | _ => none

end Base64

end TypedGraph

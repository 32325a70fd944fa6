import TypedGraph.Number.Basic
import TypedGraph.Text.Base64
import TypedGraph.Text.Utf8

/-!
# Page/Cursor — the text that marks a row

A **cursor** is the letters of a label and the row's offset in decimal.  Reading one gives the
integer behind the label, with a sign where it has one; what cannot be read, or lies outside of
the result, is passed over for a default.
-/

namespace TypedGraph

namespace Cursor

/-- What a cursor begins with, before it is written as letters. -/
def label : List Char := "connection:".toList

/-- **The cursor of the row at an offset.** -/
def ofOffset (n : Nat) : String :=
  String.ofList (Base64.encode .standard (Utf8.encode (String.ofList label ++ toString n)))

/-- The characters of a text after a start. -/
def afterStart? : List Char → List Char → Option (List Char)
  | [], cs => some cs
  | c :: start, d :: cs => if c = d then afterStart? start cs else none
  | _ :: _, [] => none

/-- The integer of decimal digits; none where there is no digit or another character. -/
def digits? (cs : List Char) : Option Nat :=
  if cs.isEmpty ∨ !cs.all Char.isDigit then none
  else some (cs.foldl (fun n d => 10 * n + (d.toNat - '0'.toNat)) 0)

/-- A signed 64-bit integer in decimal: at most one sign, and at least one digit. -/
def integer? (cs : List Char) : Option Int := do
  let n ← match cs with
    | '-' :: ds => (digits? ds).map fun n => -(n : Int)
    | '+' :: ds => (digits? ds).map Int.ofNat
    | ds => (digits? ds).map Int.ofNat
  guard (Number.minI64 ≤ n ∧ n ≤ Number.maxI64)
  return n

/-- **The offset of a cursor.** -/
def offset? (cursor : String) : Option Int := do
  let bytes ← Base64.decode? .standard cursor.toList
  let rest ← afterStart? label (bytes.map fun b => Char.ofNat b.toNat)
  integer? rest

/-- The offset of a cursor within a result, or a default. -/
def offsetOr (cursor : Option String) (length : Nat) (default : Int) : Int :=
  match cursor.bind offset? with
  | some n => if 0 ≤ n ∧ n < length then n else default
  | none => default

end Cursor

end TypedGraph

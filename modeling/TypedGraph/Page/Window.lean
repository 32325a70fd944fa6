import TypedGraph.Error
import TypedGraph.Page.Cursor

/-!
# Page/Window — the rows of a page

Paging arguments ask for the first rows after a cursor or for the last rows before one; where both
numbers are given the first rows are meant.  Against a result of known length they give a
**window**: how many rows to skip, and how many to take at most.  A cap on rows bounds the window,
and is its limit where nothing else is.

The page info says what lies on either side of the rows that came back.
-/

namespace TypedGraph

/-- Paging arguments; the numbers are positive. -/
structure Paging where
  first : Option Nat
  last : Option Nat
  after : Option String
  before : Option String

/-- The rows to fetch: how many are skipped, and how many are taken at most. -/
structure Window where
  skip : Nat
  limit : Option Nat
deriving DecidableEq

/-- What lies on either side of a page, and the cursors of its ends. -/
structure PageInfo where
  hasPreviousPage : Bool
  hasNextPage : Bool
  startCursor : Option String
  endCursor : Option String
deriving DecidableEq

namespace Paging

/-- No paging. -/
def none : Paging := ⟨.none, .none, .none, .none⟩

/-- A number of rows, which has to be positive. -/
def positive (key : String) : Option Int → Except Error (Option Nat)
  | .none => .ok .none
  | some n => if 0 < n then .ok (some n.toNat) else .error (.argument (.notPositive key n))

/-- The paging arguments of numbers of rows and cursors. -/
def make (first last : Option Int) (after before : Option String) : Except Error Paging := do
  let first ← positive "first" first
  let last ← positive "last" last
  return { first, last, after, before }

/-- The signed 64-bit integer with the bits of an unsigned one. -/
def asSigned (n : Nat) : Int := Int.bmod n 0x10000000000000000

/-- The unsigned 64-bit integer with the bits of a signed one. -/
def asUnsigned (n : Int) : Nat := (n % 0x10000000000000000).toNat

/-- The bound of a number of rows by a cap. -/
def capped (limit cap : Option Nat) : Option Nat :=
  match limit, cap with
  | some n, some c => some (min n c)
  | .none, cap => cap
  | limit, .none => limit

/-- The window before a cap is applied. -/
def openWindow (p : Paging) (length : Nat) : Window :=
  match p.first, p.last with
  | some first, _ => ⟨(Cursor.offsetOr p.after length (-1) + 1).toNat, some first⟩
  | .none, some last =>
    let before := Cursor.offsetOr p.before length (asSigned length)
    let skip := max (before - last) 0
    ⟨skip.toNat, some (asUnsigned (before - skip))⟩
  | .none, .none => ⟨0, .none⟩

/-- **The window** of paging arguments in a result of some length, under a cap. -/
def window (p : Paging) (length : Nat) (cap : Option Nat) : Window :=
  let w := p.openWindow length
  { w with limit := capped w.limit cap }

/-- **The page info** of a window from which so many rows came back. -/
def pageInfo (p : Paging) (w : Window) (returned length : Nat) : PageInfo where
  hasPreviousPage := p.last.isSome && w.skip != 0
  hasNextPage := p.first.isSome && decide (w.skip + returned < length)
  startCursor := if returned = 0 then .none else some (Cursor.ofOffset w.skip)
  endCursor := if returned = 0 then .none else some (Cursor.ofOffset (w.skip + returned - 1))

end Paging

/-- The rows of a window. -/
def Window.slice {α : Type} (w : Window) (rows : List α) : List α :=
  match w.limit with
  | some n => (rows.drop w.skip).take n
  | none => rows.drop w.skip

/-- A page info as a value. -/
def PageInfo.toValue (info : PageInfo) : Value :=
  .obj [
    ("hasPreviousPage", .bool info.hasPreviousPage),
    ("hasNextPage", .bool info.hasNextPage),
    ("startCursor", .ofString? info.startCursor),
    ("endCursor", .ofString? info.endCursor)]

end TypedGraph

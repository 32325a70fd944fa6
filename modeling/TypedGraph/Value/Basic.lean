import TypedGraph.Record
import TypedGraph.Number.Basic

/-!
# Value — documents

A **value** is a document of the store, or a part of one: null, a boolean, a number, a string, a
list or an object with ordered entries.  Filters, orders, updates and the queries they compile to
are values as well.

A name that is missing from an object and a name whose value is null mean the same to every
operation of this library that takes an optional value.
-/

namespace TypedGraph

/-- A document or a part of one. -/
inductive Value where
  | null
  | bool (b : Bool)
  | num (n : Number)
  | str (s : String)
  | arr (items : List Value)
  | obj (entries : List (String × Value))

namespace Value

instance : Inhabited Value := ⟨.null⟩

/-! ## Building values -/

/-- The integer `n`. -/
def int (n : Int) : Value := .num (.int n)

/-- A natural number. -/
def nat (n : Nat) : Value := .num (.int n)

/-- The result of double arithmetic: null where it is not finite. -/
def ofBinary64? : Option Binary64 → Value
  | some x => .num (.float x)
  | none => .null

/-- The object with one entry. -/
def single (name : String) (x : Value) : Value := .obj [(name, x)]

/-- A list of strings. -/
def strings (names : List String) : Value := .arr (names.map .str)

/-- A string, or null. -/
def ofString? : Option String → Value
  | some s => .str s
  | none => .null

/-! ## Taking values apart -/

def isNull : Value → Bool
  | .null => true
  | _ => false

def isArray : Value → Bool
  | .arr _ => true
  | _ => false

def isNumber : Value → Bool
  | .num _ => true
  | _ => false

def isTrue : Value → Bool
  | .bool true => true
  | _ => false

def asNumber? : Value → Option Number
  | .num n => some n
  | _ => none

def asString? : Value → Option String
  | .str s => some s
  | _ => none

def asArray? : Value → Option (List Value)
  | .arr xs => some xs
  | _ => none

def asObject? : Value → Option (Record Value)
  | .obj es => some es
  | _ => none

/-- The value as a signed 64-bit integer. -/
def asI64? : Value → Option Int
  | .num n => n.toI64?
  | _ => none

/-- The value as an unsigned 64-bit integer. -/
def asU64? : Value → Option Nat
  | .num n => n.toU64?
  | _ => none

/-- The value as a double. -/
def asBinary64? : Value → Option Binary64
  | .num n => some n.toBinary64
  | _ => none

/-- The entry of a name; a value that is no object has none. -/
def get? : Value → String → Option Value
  | .obj es, name => Record.get? es name
  | _, _ => none

/-- The entry of a name that is there and not null. -/
def getPresent? (v : Value) (name : String) : Option Value := (v.get? name).filter (!·.isNull)

/-- Follow a path of names through nested objects; lists are not entered. -/
def lookup? : Value → List String → Option Value
  | v, [] => some v
  | v, name :: path => (v.get? name).bind fun x => lookup? x path

/-- A null counts as missing. -/
def present? (v : Option Value) : Option Value := v.filter (!·.isNull)

/-- What is missing counts as null. -/
def orNull (v : Option Value) : Value := v.getD .null

/-- The items of a list; any other value is one item. -/
def toItems : Value → List Value
  | .arr xs => xs
  | v => [v]

/-- The items of a list; anything else has none. -/
def itemsOf : Option Value → List Value
  | some (.arr xs) => xs
  | _ => []

/-- Wrap a value in objects, the first name outermost. -/
def nest (path : List String) (v : Value) : Value := path.foldr single v

/-! ## Merging -/

mutual

/-- **Deep merge**: two objects merge name by name, and anything else is replaced. -/
def deepMerge : Value → Value → Value
  | .obj es, .obj incoming => .obj (mergeEntries es incoming)
  | _, v => v
termination_by structural _ v => v

/-- Merge entries into those of an object, one after the other. -/
def mergeEntries : Record Value → Record Value → Record Value
  | es, [] => es
  | es, (name, v) :: rest =>
    match Record.get? es name with
    | some old => mergeEntries (Record.put es name (deepMerge old v)) rest
    | none => mergeEntries (Record.put es name v) rest
termination_by structural _ es => es

end

end Value

end TypedGraph

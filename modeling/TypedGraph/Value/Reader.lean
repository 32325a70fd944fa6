import TypedGraph.Value.Basic
import TypedGraph.Number.Text

/-!
# Value/Reader — reading the text of a value

`Value.ofText?` reads one value in JSON and nothing after it but blanks.  Where an object names an
entry twice the later value takes the earlier one's place.  Reading consumes at least one character
for each value, so that the length of the text bounds the depth of the recursion.
-/

namespace TypedGraph

namespace Text

def isBlank (c : Char) : Bool := c = ' ' || c = '\n' || c = '\r' || c = '\t'

def skipBlanks (cs : List Char) : List Char := cs.dropWhile isBlank

def hexValue? (c : Char) : Option Nat :=
  if '0' ≤ c ∧ c ≤ '9' then some (c.toNat - '0'.toNat)
  else if 'a' ≤ c ∧ c ≤ 'f' then some (c.toNat - 'a'.toNat + 10)
  else if 'A' ≤ c ∧ c ≤ 'F' then some (c.toNat - 'A'.toNat + 10)
  else none

/-- Four hexadecimal digits. -/
def readHex4? : List Char → Option (Nat × List Char)
  | a :: b :: c :: d :: rest => do
    let a ← hexValue? a
    let b ← hexValue? b
    let c ← hexValue? c
    let d ← hexValue? d
    return (((a * 16 + b) * 16 + c) * 16 + d, rest)
  | _ => none

/-- The character of an escape sequence, after its backslash.  Two sequences for the halves of a
surrogate pair write one character; half a pair is refused. -/
def readEscape? : List Char → Option (Char × List Char)
  | '"' :: rest => some ('"', rest)
  | '\\' :: rest => some ('\\', rest)
  | '/' :: rest => some ('/', rest)
  | 'b' :: rest => some ('\x08', rest)
  | 'f' :: rest => some ('\x0c', rest)
  | 'n' :: rest => some ('\n', rest)
  | 'r' :: rest => some ('\r', rest)
  | 't' :: rest => some ('\t', rest)
  | 'u' :: rest => do
    let (high, rest) ← readHex4? rest
    if 0xD800 ≤ high ∧ high < 0xDC00 then
      match rest with
      | '\\' :: 'u' :: rest =>
        let (low, rest) ← readHex4? rest
        guard (0xDC00 ≤ low ∧ low < 0xE000)
        return (Char.ofNat (0x10000 + (high - 0xD800) * 0x400 + (low - 0xDC00)), rest)
      | _ => none
    else
      guard ¬(0xDC00 ≤ high ∧ high < 0xE000)
      return (Char.ofNat high, rest)
  | _ => none

/-- The rest of a string literal after its opening quote; `read` holds the characters read so
far, the last one first. -/
def readString? : Nat → List Char → List Char → Option (String × List Char)
  | 0, _, _ => none
  | fuel + 1, read, cs => match cs with
    | '"' :: rest => some (String.ofList read.reverse, rest)
    | '\\' :: rest => (readEscape? rest).bind fun (c, rest) => readString? fuel (c :: read) rest
    | c :: rest => if c.toNat < 32 then none else readString? fuel (c :: read) rest
    | [] => none

end Text

namespace Value

open Text

mutual

/-- Read a value at the start of a text. -/
def read? : Nat → List Char → Option (Value × List Char)
  | 0, _ => none
  | fuel + 1, cs => match skipBlanks cs with
    | 'n' :: 'u' :: 'l' :: 'l' :: rest => some (.null, rest)
    | 't' :: 'r' :: 'u' :: 'e' :: rest => some (.bool true, rest)
    | 'f' :: 'a' :: 'l' :: 's' :: 'e' :: rest => some (.bool false, rest)
    | '"' :: rest => (readString? (rest.length + 1) [] rest).map fun (s, rest) => (.str s, rest)
    | '[' :: rest => match skipBlanks rest with
      | ']' :: rest => some (.arr [], rest)
      | rest => readItems? fuel [] rest
    | '\x7b' :: rest => match skipBlanks rest with
      | '\x7d' :: rest => some (.obj [], rest)
      | rest => readEntries? fuel [] rest
    | rest => (Number.read? rest).map fun (n, rest) => (.num n, rest)

/-- Read the items of a list up to its end; `items` holds those read so far, the last one first. -/
def readItems? : Nat → List Value → List Char → Option (Value × List Char)
  | 0, _, _ => none
  | fuel + 1, items, cs => (read? fuel cs).bind fun (x, rest) => match skipBlanks rest with
    | ',' :: rest => readItems? fuel (x :: items) rest
    | ']' :: rest => some (.arr (x :: items).reverse, rest)
    | _ => none

/-- Read the entries of an object up to its end, writing each into those read so far. -/
def readEntries? : Nat → Record Value → List Char → Option (Value × List Char)
  | 0, _, _ => none
  | fuel + 1, entries, cs => match skipBlanks cs with
    | '"' :: rest => (readString? (rest.length + 1) [] rest).bind fun (name, rest) =>
      match skipBlanks rest with
      | ':' :: rest => (read? fuel rest).bind fun (x, rest) => match skipBlanks rest with
        | ',' :: rest => readEntries? fuel (Record.put entries name x) rest
        | '\x7d' :: rest => some (.obj (Record.put entries name x), rest)
        | _ => none
      | _ => none
    | _ => none

end

/-- **Read a text that is one value.** -/
def ofText? (text : String) : Option Value :=
  let cs := text.toList
  (read? (cs.length + 1) cs).bind fun (v, rest) =>
    if (skipBlanks rest).isEmpty then some v else none

end Value

end TypedGraph

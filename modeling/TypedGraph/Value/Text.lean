import TypedGraph.Value.Basic
import TypedGraph.Number.Text

/-!
# Value/Text — the compact text of a value

`Value.render` writes a value without blanks, the entries of an object in their order.  In strings
the quote, the backslash and the control characters below the blank are escaped, all else stands
for itself.  The same text is used where a message quotes a value.
-/

namespace TypedGraph

namespace Text

/-- A character of a string literal. -/
def escapeChar (c : Char) : List Char :=
  match c with
  | '"' => ['\\', '"']
  | '\\' => ['\\', '\\']
  | '\n' => ['\\', 'n']
  | '\r' => ['\\', 'r']
  | '\t' => ['\\', 't']
  | c =>
    if c.toNat = 8 then ['\\', 'b']
    else if c.toNat = 12 then ['\\', 'f']
    else if c.toNat < 32 then
      ['\\', 'u', '0', '0', Nat.digitChar (c.toNat / 16), Nat.digitChar (c.toNat % 16)]
    else [c]

/-- A string literal. -/
def quote (s : String) : String := "\"" ++ String.ofList (s.toList.flatMap escapeChar) ++ "\""

end Text

namespace Value

mutual

/-- **The compact text of a value.** -/
def render : Value → String
  | .null => "null"
  | .bool true => "true"
  | .bool false => "false"
  | .num n => n.render
  | .str s => Text.quote s
  | .arr xs => "[" ++ ",".intercalate (renderItems xs) ++ "]"
  | .obj es => "\x7b" ++ ",".intercalate (renderEntries es) ++ "\x7d"
termination_by structural v => v

/-- The texts of the items of a list. -/
def renderItems : List Value → List String
  | [] => []
  | x :: xs => render x :: renderItems xs
termination_by structural xs => xs

/-- The texts of the entries of an object. -/
def renderEntries : Record Value → List String
  | [] => []
  | (k, x) :: es => (Text.quote k ++ ":" ++ render x) :: renderEntries es
termination_by structural es => es

end

end Value

end TypedGraph

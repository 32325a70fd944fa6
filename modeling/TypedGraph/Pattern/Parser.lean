import TypedGraph.Pattern.Basic
import TypedGraph.Pattern.Engine

/-!
# Pattern/Parser — reading a pattern

The text of a pattern is made of characters, the dot, the marks `^` and `$`, classes in brackets,
groups, alternatives and quantifiers.  A backslash makes a special character an ordinary one, or
stands for a set (`\d`, `\w`, `\s` and their complements), a place (`\b`, `\B`, `\A`, `\z`) or a
control character.  The flag `(?i)` makes the rest of its group insensitive to case.

There is nothing to look around and nothing to refer back with: such a text, an unclosed group or
class, an inverted range or bound, and a quantifier with nothing before it are refused.

Each step of a reader consumes a character, so that the length of the text bounds the recursion.

This makes a library of regular expressions to run filters with (`engine`).  It is a small one:
others accept more, and what is proved of filters holds with any of them.
-/

namespace TypedGraph.Pattern

/-- What an escape sequence stands for. -/
inductive Escape where
  | literal (c : Char)
  | set (s : CharSet)
  | place (p : Pattern)

/-- An escape sequence, by the character after its backslash. -/
def readEscape? (c : Char) : Option Escape :=
  match c with
  | 'd' => some (.set .digit)
  | 'D' => some (.set (.complement .digit))
  | 'w' => some (.set .word)
  | 'W' => some (.set (.complement .word))
  | 's' => some (.set .space)
  | 'S' => some (.set (.complement .space))
  | 'b' => some (.place (.boundary true))
  | 'B' => some (.place (.boundary false))
  | 'A' => some (.place .start)
  | 'z' => some (.place .finish)
  | 'n' => some (.literal '\n')
  | 'r' => some (.literal '\r')
  | 't' => some (.literal '\t')
  | 'a' => some (.literal '\x07')
  | 'f' => some (.literal '\x0c')
  | 'v' => some (.literal '\x0b')
  | c =>
    if c.toNat < 128 ∧ !c.isAlphanum ∧ c ≠ '<' ∧ c ≠ '>' then some (.literal c) else none

/-! ## Classes -/

/-- One character of a class, or a set named by an escape sequence. -/
def readMember? : List Char → Option ((Char ⊕ CharSet) × List Char)
  | '\\' :: c :: rest => match readEscape? c with
    | some (.literal c) => some (.inl c, rest)
    | some (.set s) => some (.inr s, rest)
    | _ => none
  | ['\\'] => none
  | '[' :: _ => none
  | c :: rest => some (.inl c, rest)
  | [] => none

/-- Whether a text begins with an operator on sets. -/
def atSetOperator : List Char → Bool
  | '&' :: '&' :: _ => true
  | '-' :: '-' :: _ => true
  | '~' :: '~' :: _ => true
  | _ => false

/-- The rest of a class up to its bracket; `sets` holds the members read so far. -/
def readMembers? : Nat → List CharSet → List Char → Option (List CharSet × List Char)
  | 0, _, _ => none
  | _ + 1, sets, ']' :: rest => some (sets, rest)
  | fuel + 1, sets, cs =>
    if atSetOperator cs then none
    else match readMember? cs with
      | none => none
      | some (first, '-' :: c :: rest) =>
        if c = ']' ∨ c = '-' then
          let set := match first with
            | .inl a => CharSet.one a
            | .inr s => s
          readMembers? fuel (set :: sets) ('-' :: c :: rest)
        else match first, readMember? (c :: rest) with
          | .inl a, some (.inl b, rest) =>
            if a.toNat ≤ b.toNat then readMembers? fuel (.range a b :: sets) rest else none
          | _, _ => none
      | some (.inl a, rest) => readMembers? fuel (CharSet.one a :: sets) rest
      | some (.inr s, rest) => readMembers? fuel (s :: sets) rest

/-- A class after its opening bracket: dashes that come first, and then a bracket, are members. -/
def readClass? (cs : List Char) : Option (CharSet × Bool × List Char) := do
  let (negated, cs) := match cs with
    | '^' :: rest => (true, rest)
    | rest => (false, rest)
  let dashes := cs.takeWhile (· = '-')
  let cs := cs.dropWhile (· = '-')
  let leading := dashes.map CharSet.one
  let (leading, cs) := match leading, cs with
    | [], ']' :: rest => ([CharSet.one ']'], rest)
    | sets, rest => (sets, rest)
  let (sets, rest) ← readMembers? (cs.length + 1) leading cs
  match sets with
  | [] => none
  | s :: more => return (more.foldl .union s, negated, rest)

/-- The pattern of a set of characters, under the flag for case. -/
def ofSet (anyCase negated : Bool) (s : CharSet) : Pattern :=
  let s := if anyCase then s.anyCase else s
  .one (if negated then s.complement else s)

/-! ## Quantifiers -/

/-- A decimal count. -/
def readCount? (cs : List Char) : Option (Nat × List Char) :=
  match cs.takeWhile Char.isDigit with
  | [] => none
  | ds => some (ds.foldl (fun n d => 10 * n + (d.toNat - '0'.toNat)) 0, cs.dropWhile Char.isDigit)

/-- The bounds of a quantifier, after its opening brace. -/
def readBounds? (cs : List Char) : Option (Nat × Option Nat × List Char) := do
  let (least, rest) ← readCount? cs
  match rest with
  | '\x7d' :: rest => return (least, some least, rest)
  | ',' :: '\x7d' :: rest => return (least, none, rest)
  | ',' :: rest =>
    let (most, rest) ← readCount? rest
    match rest with
    | '\x7d' :: rest => if least ≤ most then return (least, some most, rest) else none
    | _ => none
  | _ => none

/-- A quantifier at the start of a text, with a mark for laziness skipped. -/
def readQuantifier? (cs : List Char) : Option (Option (Nat × Option Nat × List Char)) :=
  let lazily := fun (least : Nat) (most : Option Nat) (rest : List Char) =>
    match rest with
    | '?' :: rest => some (some (least, most, rest))
    | rest => some (some (least, most, rest))
  match cs with
  | '*' :: rest => lazily 0 none rest
  | '+' :: rest => lazily 1 none rest
  | '?' :: rest => lazily 0 (some 1) rest
  | '\x7b' :: rest => (readBounds? rest).bind fun (least, most, rest) => lazily least most rest
  | _ => some none

/-! ## Groups -/

/-- What stands at the beginning of a group. -/
inductive Opening where
  /-- A group, under the flag for case. -/
  | group (anyCase : Bool) (rest : List Char)
  /-- Flags for the rest of the enclosing group. -/
  | flags (anyCase : Bool) (rest : List Char)

/-- The name of a group, up to its bracket. -/
def skipName? (cs : List Char) : Option (List Char) :=
  let inName := fun (c : Char) => c.isAlphanum || c = '_'
  match cs with
  | c :: _ =>
    if c.isAlpha || c = '_' then
      match cs.dropWhile inName with
      | '>' :: rest => some rest
      | _ => none
    else none
  | [] => none

/-- The beginning of a group, after its parenthesis. -/
def readOpening? (anyCase : Bool) : List Char → Option Opening
  | '?' :: ':' :: rest => some (.group anyCase rest)
  | '?' :: 'i' :: ')' :: rest => some (.flags true rest)
  | '?' :: 'i' :: ':' :: rest => some (.group true rest)
  | '?' :: '-' :: 'i' :: ')' :: rest => some (.flags false rest)
  | '?' :: '-' :: 'i' :: ':' :: rest => some (.group false rest)
  | '?' :: 'P' :: '<' :: rest => (skipName? rest).map (.group anyCase)
  | '?' :: '<' :: rest => (skipName? rest).map (.group anyCase)
  | '?' :: _ => none
  | rest => some (.group anyCase rest)

/-- The alternatives read so far; a part is none where it is a flag, which nothing can repeat. -/
structure Reading where
  /-- The alternatives before the last one, the latest first. -/
  done : List Pattern := []
  /-- The parts of the last alternative, the latest first. -/
  parts : List (Option Pattern) := []

namespace Reading

/-- The pattern of the last alternative. -/
def last (r : Reading) : Pattern := sequence (r.parts.reverse.filterMap id)

/-- Begin another alternative. -/
def branch (r : Reading) : Reading := ⟨r.last :: r.done, []⟩

def add (r : Reading) (p : Option Pattern) : Reading := { r with parts := p :: r.parts }

/-- The pattern of all alternatives. -/
def close (r : Reading) : Pattern := oneOf (r.last :: r.done).reverse

end Reading

/-- Read alternatives up to the end of the text or of the group.  A quantifier applies to the part
before it, again and again. -/
def readAlternatives? : Nat → Bool → Reading → List Char → Option (Pattern × List Char)
  | 0, _, _, _ => none
  | fuel + 1, anyCase, r, cs =>
    match readQuantifier? cs with
    | none => none
    | some (some (least, most, rest)) => match r.parts with
      | some p :: parts =>
        readAlternatives? fuel anyCase { r with parts := some (.times p least most) :: parts } rest
      | _ => none
    | some none => match cs with
      | [] => some (r.close, [])
      | ')' :: _ => some (r.close, cs)
      | '|' :: rest => readAlternatives? fuel anyCase r.branch rest
      | '(' :: rest => match readOpening? anyCase rest with
        | none => none
        | some (.flags anyCase rest) => readAlternatives? fuel anyCase (r.add none) rest
        | some (.group inner rest) => match readAlternatives? fuel inner ⟨[], []⟩ rest with
          | some (p, ')' :: rest) => readAlternatives? fuel anyCase (r.add (some p)) rest
          | _ => none
      | '[' :: rest => match readClass? rest with
        | none => none
        | some (s, negated, rest) =>
          readAlternatives? fuel anyCase (r.add (some (ofSet anyCase negated s))) rest
      | '.' :: rest => readAlternatives? fuel anyCase (r.add (some (.one .dot))) rest
      | '^' :: rest => readAlternatives? fuel anyCase (r.add (some .start)) rest
      | '$' :: rest => readAlternatives? fuel anyCase (r.add (some .finish)) rest
      | '\\' :: c :: rest => match readEscape? c with
        | none => none
        | some (.place p) => readAlternatives? fuel anyCase (r.add (some p)) rest
        | some (.set s) => readAlternatives? fuel anyCase (r.add (some (.one s))) rest
        | some (.literal c) =>
          readAlternatives? fuel anyCase (r.add (some (ofSet anyCase false (.one c)))) rest
      | ['\\'] => none
      | c :: rest =>
        readAlternatives? fuel anyCase (r.add (some (ofSet anyCase false (.one c)))) rest

/-- **Read a pattern**; none where the text is not one. -/
def ofText? (text : String) : Option Pattern :=
  let cs := text.toList
  match readAlternatives? (cs.length + 1) false ⟨[], []⟩ cs with
  | some (p, []) => some p
  | _ => none

/-- Whether a text holds a match of a pattern given as text; a text that is no pattern matches
nothing. -/
def search (pattern text : String) : Bool :=
  match ofText? pattern with
  | some p => p.foundIn text
  | none => false

/-- **The library of these patterns.** -/
def engine : PatternEngine := ⟨fun text => (ofText? text).isSome, search⟩

end TypedGraph.Pattern

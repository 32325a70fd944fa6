import TypedGraph.Pattern.WordTable
import TypedGraph.Pattern.CaseTable

/-!
# Pattern/Basic — regular expressions and what they match

A **pattern** denotes, at each position of a text, the positions where a match that begins there
may end (`Pattern.ends`).  Repetition is the closure of one step of its body, so that a body that
matches nothing does no harm, and whether a quantifier is greedy or lazy makes no difference.

A text **holds** a match where some position of it has an end: the search is not anchored.  The
end mark matches behind the last character only, and the dot matches all but the line feed.
-/

namespace TypedGraph

/-- A set of characters. -/
inductive CharSet where
  /-- All characters from one to another. -/
  | range (first last : Char)
  | word
  | digit
  | space
  | complement (s : CharSet)
  | union (s t : CharSet)
  /-- The characters of a set, and those that differ from one of them by case only. -/
  | anyCase (s : CharSet)

namespace CharSet

/-- The set of one character. -/
def one (c : Char) : CharSet := .range c c

/-- All characters but the line feed. -/
def dot : CharSet := .complement (one '\n')

/-- Whether a character belongs to a set. -/
def holds : CharSet → Char → Bool
  | .range first last, c => first.toNat ≤ c.toNat && c.toNat ≤ last.toNat
  | .word, c => Pattern.isWord c
  | .digit, c => Pattern.isDigit c
  | .space, c => Pattern.isSpace c
  | .complement s, c => !s.holds c
  | .union s t, c => s.holds c || t.holds c
  | .anyCase s, c => (Pattern.caseVariants c).any s.holds

end CharSet

/-- A regular expression. -/
inductive Pattern where
  | empty
  | one (s : CharSet)
  /-- The beginning of the text. -/
  | start
  /-- The end of the text. -/
  | finish
  /-- A place between a word character and another, or, where not expected, any other place. -/
  | boundary (expected : Bool)
  | seq (p q : Pattern)
  | alt (p q : Pattern)
  /-- At least `least` times, and at most `most` times where there is such a bound. -/
  | times (p : Pattern) (least : Nat) (most : Option Nat)

namespace Pattern

/-- The sequence of patterns. -/
def sequence : List Pattern → Pattern
  | [] => .empty
  | [p] => p
  | p :: ps => .seq p (sequence ps)

/-- One of several patterns. -/
def oneOf : List Pattern → Pattern
  | [] => .empty
  | [p] => p
  | p :: ps => .alt p (oneOf ps)

/-- Whether the character at a place is a word character. -/
def wordAt (text : List Char) (i : Nat) : Bool := (text[i]?).any isWord

/-- Whether one of the two characters around a place is a word character and the other is not. -/
def atBoundary (text : List Char) : Nat → Bool
  | 0 => wordAt text 0
  | i + 1 => wordAt text i != wordAt text (i + 1)

/-- Apply a step to a set of positions a given number of times. -/
def iterate (step : List Nat → List Nat) : Nat → List Nat → List Nat
  | 0, s => s
  | n + 1, s => iterate step n (step s)

/-- Add what a step reaches, at most so many times. -/
def closure (step : List Nat → List Nat) : Nat → List Nat → List Nat
  | 0, s => s
  | n + 1, s =>
    let t := (s ++ step s).eraseDups
    if t.length = s.length then s else closure step n t

/-- **The ends of the matches** that begin at a position of the text. -/
def ends (text : List Char) : Pattern → Nat → List Nat
  | .empty, i => [i]
  | .one s, i => if (text[i]?).any s.holds then [i + 1] else []
  | .start, i => if i = 0 then [i] else []
  | .finish, i => if i = text.length then [i] else []
  | .boundary expected, i => if atBoundary text i = expected then [i] else []
  | .seq p q, i => ((ends text p i).flatMap (ends text q)).eraseDups
  | .alt p q, i => (ends text p i ++ ends text q i).eraseDups
  | .times p least most, i =>
    let step := fun s => (s.flatMap (ends text p)).eraseDups
    let more := match most with
      | some n => n - least
      | none => text.length + 1
    closure step more (iterate step least [i])

/-- Whether a match begins at some position of the text. -/
def foundIn (p : Pattern) (text : String) : Bool :=
  let cs := text.toList
  (List.range (cs.length + 1)).any fun i => !(ends cs p i).isEmpty

end Pattern

end TypedGraph

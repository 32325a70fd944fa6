/-!
# Pattern/Engine — a library of regular expressions

Filters and queries search texts for **patterns**.  Which texts are patterns, and where they match,
is up to a library of regular expressions, and what is said here holds for each of them.

The only patterns that are made here are those of literal texts: `Pattern.escape` marks the
characters that would stand for something else.
-/

namespace TypedGraph

/-- **A library of regular expressions.** -/
structure PatternEngine where
  /-- Whether a text is accepted as a pattern. -/
  accepts : String → Bool
  /-- Whether a text holds a match of a pattern, the pattern being given first.  Of a text that is
  not accepted as a pattern this may be anything. -/
  search : String → String → Bool

namespace Pattern

/-- The characters that a pattern for a literal text has to mark. -/
def special : List Char :=
  ['\\', '.', '+', '*', '?', '(', ')', '|', '[', ']', '\x7b', '\x7d', '^', '$', '#', '&', '-', '~']

/-- The pattern text of a literal text. -/
def escape (s : String) : String :=
  String.ofList (s.toList.flatMap fun c => if special.contains c then ['\\', c] else [c])

end Pattern

end TypedGraph

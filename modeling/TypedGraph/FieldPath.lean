import TypedGraph.Value.Basic

/-!
# FieldPath — where a value lies

A **path** is a chain of names that starts at the document or at an element of an enclosing list
quantifier.  Quantifiers are told apart by how deeply they are nested.  A dotted text writes the
names with points between them, empty names being left out when it is read.
-/

namespace TypedGraph

/-- Where a path starts. -/
inductive PathRoot where
  | document
  /-- An element of the list quantifier at a depth of nesting. -/
  | element (depth : Nat)
deriving DecidableEq

/-- A chain of names from a start. -/
structure FieldPath where
  root : PathRoot
  segments : List String
deriving DecidableEq

/-- Split a text at each occurrence of a character. -/
def splitAt (separator : Char) : List Char → List (List Char)
  | [] => [[]]
  | c :: cs =>
    if c = separator then [] :: splitAt separator cs
    else match splitAt separator cs with
      | [] => [[c]]
      | part :: parts => (c :: part) :: parts

/-- The names of a text with a separator, empty ones included. -/
def splitNames (separator : Char) (s : String) : List String :=
  (splitAt separator s.toList).map String.ofList

/-- The names of a dotted text that are not empty. -/
def dottedNames (s : String) : List String := (splitNames '.' s).filter (· ≠ "")

namespace FieldPath

/-- The document itself. -/
def document : FieldPath := ⟨.document, []⟩

/-- An element of the quantifier at a depth. -/
def element (depth : Nat) : FieldPath := ⟨.element depth, []⟩

/-- The path of a dotted text, from the document. -/
def ofDotted (s : String) : FieldPath := ⟨.document, dottedNames s⟩

/-- Go on to a field. -/
def child (p : FieldPath) (name : String) : FieldPath := { p with segments := p.segments ++ [name] }

/-- Go on along a dotted text. -/
def childDotted (p : FieldPath) (s : String) : FieldPath :=
  { p with segments := p.segments ++ dottedNames s }

/-- Whether the path is its start. -/
def isStart (p : FieldPath) : Bool := p.segments.isEmpty

/-- How deeply a quantifier over the list at the path is nested. -/
def quantifierDepth (p : FieldPath) : Nat :=
  match p.root with
  | .document => 0
  | .element depth => depth + 1

/-- The names with points between them. -/
def dotted (p : FieldPath) : String := ".".intercalate p.segments

/-- The value at a path of the document or element where it starts. -/
def valueIn? (p : FieldPath) (start : Value) : Option Value := start.lookup? p.segments

end FieldPath

namespace Value

/-- Follow the names of a dotted text. -/
def dotted? (v : Value) (path : String) : Option Value := v.lookup? (dottedNames path)

end Value

end TypedGraph

import TypedGraph.Filter.Reader

/-!
# Filter/Predicate — deciding a filter on a document in memory

A condition **holds** of a document by its plain meaning: what is missing counts as null, an order
comparison wants two values of one class, and a condition on a list that is none holds only where
it asks for the absence of something.  The meaning is given for any test of patterns; the one that
filters use is the search of a library.

A filter is accepted where it fits its type and the library accepts all its patterns (`checkAll`).
-/

namespace TypedGraph

/-- Whether a value that may be missing equals an operand, or one of its items. -/
def equalsOperand (v : Option Value) : Value → Bool
  | .arr options => options.any (Value.optionalEquals v)
  | x => Value.optionalEquals v x

/-- Whether one text ends with another. -/
def hasEnding (s ending : String) : Bool := ending.toList.isSuffixOf s.toList

/-- The text of an identifier; anything but a string has the empty one. -/
def identifierText (v : Option Value) : String := (v.bind Value.asString?).getD ""

/-- Whether so many of the elements satisfy a test. -/
def Quantifier.holds (q : Quantifier) (items : List Value) (test : Value → Bool) : Bool :=
  match q with
  | .any => items.any test
  | .all => items.all test
  | .none => !items.any test

namespace Condition

mutual

/-- **Whether a condition holds of a document**, for a given test of patterns. -/
def holdsWith (search : String → String → Bool) : Condition → Value → Bool
  | .present path expected, d => (Value.present? (path.valueIn? d)).isSome == expected
  | .isList path expected, d => ((path.valueIn? d).any Value.isArray) == expected
  | .equals path operand, d => equalsOperand (path.valueIn? d) operand
  | .differs path operand, d => !equalsOperand (path.valueIn? d) operand
  | .compares path comparison operand, d => Value.comparesTo (path.valueIn? d) comparison operand
  | .matching path pattern, d => match path.valueIn? d with
    | some (.str s) => search pattern s
    | _ => false
  | .endsWith path suffixes negated, d =>
    let id := identifierText (path.valueIn? d)
    if negated then suffixes.all fun s => !hasEnding id s else suffixes.any (hasEnding id)
  | .length path n, d => match path.valueIn? d with
    | some (.arr xs) => xs.length == n
    | _ => false
  | .isEmpty path expected, d => match path.valueIn? d with
    | some (.arr xs) => xs.isEmpty == expected
    | _ => false
  | .elements path quantifier _ inner, d =>
    quantifier.holds (Value.itemsOf (path.valueIn? d)) (allHoldWith search inner)
  | .fault _, _ => false
termination_by structural c => c

/-- Whether all conditions hold. -/
def allHoldWith (search : String → String → Bool) : List Condition → Value → Bool
  | [], _ => true
  | c :: cs, d => holdsWith search c d && allHoldWith search cs d
termination_by structural cs => cs

end

/-- Whether all conditions hold, a pattern being searched for by a library. -/
def allHold (patterns : PatternEngine) : List Condition → Value → Bool :=
  allHoldWith patterns.search

mutual

/-- Whether a condition can be decided; the first fault in it otherwise. -/
def check (patterns : PatternEngine) : Condition → Except Error Unit
  | .matching _ pattern =>
    if patterns.accepts pattern then .ok () else .error (.argument .invalidPattern)
  | .elements _ _ _ inner => checkAll patterns inner
  | .fault e => .error e
  | _ => .ok ()
termination_by structural c => c

/-- Whether all conditions can be decided; the first fault in them otherwise. -/
def checkAll (patterns : PatternEngine) : List Condition → Except Error Unit
  | [] => .ok ()
  | c :: cs => check patterns c >>= fun _ => checkAll patterns cs
termination_by structural cs => cs

end

end Condition

namespace Filter

/-- The predicate of conditions that can be decided. -/
def predicateOf (patterns : PatternEngine) (cs : List Condition) : Except Error (Value → Bool) :=
  (Condition.checkAll patterns cs).map fun _ => Condition.allHold patterns cs

/-- **The predicate of a filter** on objects of a type. -/
def predicate (ctx : Context) (t : TypeInfo) (filter : Value) : Except Error (Value → Bool) :=
  predicateOf ctx.patterns (read ctx t .document filter)

/-- The predicate of a filter on plain values. -/
def scalarPredicate (ctx : Context) (filter : Value) : Except Error (Value → Bool) :=
  predicateOf ctx.patterns (readScalar (.element 0) filter)

end Filter

end TypedGraph

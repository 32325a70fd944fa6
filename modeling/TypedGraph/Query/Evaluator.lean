import TypedGraph.FieldPath
import TypedGraph.Pattern.Engine
import TypedGraph.Query.Operator

/-!
# Query/Evaluator — whether a document satisfies a query

A query is an object all of whose entries have to hold: a connective over a list of queries, or a
dotted path with a map of operators or a value to be equal to.  Paths lead through objects only.

The meaning is given for any test of patterns.  An operator that is none holds of nothing.
-/

namespace TypedGraph

namespace Query

mutual

/-- **Whether a document satisfies a query**, for a given test of patterns. -/
def holdsWith (search : String → String → Bool) : Value → Value → Bool
  | .obj es, d => entriesHold search es d
  | _, _ => false
termination_by structural q => q

/-- Whether all entries of a query hold. -/
def entriesHold (search : String → String → Bool) : Record Value → Value → Bool
  | [], _ => true
  | (key, c) :: rest, d =>
    (match Connective.ofName? key with
    | some connective => connectiveHolds search connective c d
    | none => fieldHolds search c (d.dotted? key)) && entriesHold search rest d
termination_by structural es => es

/-- Whether a connective holds of its operand; anything but a list has no queries. -/
def connectiveHolds (search : String → String → Bool) (connective : Connective) :
    Value → Value → Bool
  | .arr qs, d => match connective with
    | .and => everyHolds search qs d
    | .or => someHolds search qs d
    | .nor => !someHolds search qs d
  | _, _ => connective != .or
termination_by structural q => q

/-- Whether every query of a list holds. -/
def everyHolds (search : String → String → Bool) : List Value → Value → Bool
  | [], _ => true
  | q :: qs, d => holdsWith search q d && everyHolds search qs d
termination_by structural qs => qs

/-- Whether some query of a list holds. -/
def someHolds (search : String → String → Bool) : List Value → Value → Bool
  | [], _ => false
  | q :: qs, d => holdsWith search q d || someHolds search qs d
termination_by structural qs => qs

/-- Whether the condition of a path holds of the value there. -/
def fieldHolds (search : String → String → Bool) : Value → Option Value → Bool
  | .obj es, v =>
    if isOperatorMap es then operatorsHold search es v else Value.optionalEquals v (.obj es)
  | literal, v => Value.optionalEquals v literal
termination_by structural c => c

/-- Whether all operators of a map hold of a value. -/
def operatorsHold (search : String → String → Bool) : Record Value → Option Value → Bool
  | [], _ => true
  | (name, operand) :: rest, v =>
    (match QueryOperator.ofName? name with
    | some operator => operatorHolds search operator operand v
    | none => false) && operatorsHold search rest v
termination_by structural es => es

/-- Whether an operator holds of a value. -/
def operatorHolds (search : String → String → Bool) (operator : QueryOperator) :
    Value → Option Value → Bool
  | operand, v => match operator with
    | .eq => Value.optionalEquals v operand
    | .ne => !Value.optionalEquals v operand
    | .isIn => match operand with
      | .arr xs => xs.any (Value.optionalEquals v)
      | _ => false
    | .notIn => match operand with
      | .arr xs => !xs.any (Value.optionalEquals v)
      | _ => true
    | .compare c => Value.comparesTo v c operand
    | .regex => match v, operand with
      | some (.str s), .str pattern => search pattern s
      | _, _ => false
    | .not => match operand with
      | .obj inner => !operatorsHold search inner v
      | _ => false
    | .exists => match operand with
      | .bool expected => v.isSome == expected
      | _ => false
    | .type => match operand with
      | .str name => kindName v == name
      | _ => false
    | .size => match v, operand.asU64? with
      | some (.arr xs), some n => xs.length == n
      | _, _ => false
    | .elemMatch => match v, operand with
      | some (.arr xs), .obj inner =>
        xs.any fun x =>
          if isOperatorMap inner then operatorsHold search inner (some x)
          else entriesHold search inner x
      | _, _ => false
termination_by structural c => c

end

/-- **Whether a document satisfies a query**, a pattern being searched for by a library. -/
def holds (patterns : PatternEngine) : Value → Value → Bool := holdsWith patterns.search

end Query

end TypedGraph

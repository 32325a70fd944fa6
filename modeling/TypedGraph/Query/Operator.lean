import TypedGraph.Value.Order

/-!
# Query/Operator — the vocabulary of queries

A query document combines queries by a **connective**, or asks something of the value at a dotted
path by **operators**.  Both are written as names that begin with a dollar sign.
-/

namespace TypedGraph

/-- Whether a name begins with a dollar sign. -/
def isDollarName (s : String) : Bool := s.toList.head? == some '$'

/-- What combines queries. -/
inductive Connective where
  | and
  | or
  | nor
deriving DecidableEq

namespace Connective

def name : Connective → String
  | .and => "$and"
  | .or => "$or"
  | .nor => "$nor"

def ofName? : String → Option Connective
  | "$and" => some .and
  | "$or" => some .or
  | "$nor" => some .nor
  | _ => none

end Connective

/-- What is asked of a value. -/
inductive QueryOperator where
  | eq
  | ne
  | isIn
  | notIn
  | compare (c : Comparison)
  | regex
  | not
  | exists
  | type
  | size
  | elemMatch
deriving DecidableEq

/-- The name of a comparison. -/
def Comparison.operatorName : Comparison → String
  | .gt => "$gt"
  | .gte => "$gte"
  | .lt => "$lt"
  | .lte => "$lte"

namespace QueryOperator

def name : QueryOperator → String
  | .eq => "$eq"
  | .ne => "$ne"
  | .isIn => "$in"
  | .notIn => "$nin"
  | .compare c => c.operatorName
  | .regex => "$regex"
  | .not => "$not"
  | .exists => "$exists"
  | .type => "$type"
  | .size => "$size"
  | .elemMatch => "$elemMatch"

def ofName? : String → Option QueryOperator
  | "$eq" => some .eq
  | "$ne" => some .ne
  | "$in" => some .isIn
  | "$nin" => some .notIn
  | "$gt" => some (.compare .gt)
  | "$gte" => some (.compare .gte)
  | "$lt" => some (.compare .lt)
  | "$lte" => some (.compare .lte)
  | "$regex" => some .regex
  | "$not" => some .not
  | "$exists" => some .exists
  | "$type" => some .type
  | "$size" => some .size
  | "$elemMatch" => some .elemMatch
  | _ => none

@[simp] theorem ofName?_name (o : QueryOperator) : ofName? o.name = some o := by
  cases o with
  | compare c => cases c <;> rfl
  | _ => rfl

end QueryOperator

@[simp] theorem Connective.ofName?_name (c : Connective) : ofName? c.name = some c := by
  cases c <;> rfl

/-- Whether an object is a map of operators, rather than a value to be equal to. -/
def isOperatorMap (es : Record Value) : Bool :=
  !es.isEmpty && es.all fun (k, _) => isDollarName k && (Connective.ofName? k).isNone

/-- The name of a value's kind, as queries and expressions test it. -/
def kindName : Option Value → String
  | none => "missing"
  | some .null => "null"
  | some (.bool _) => "bool"
  | some (.num (.float _)) => "double"
  | some (.num (.int _)) => "long"
  | some (.str _) => "string"
  | some (.arr _) => "array"
  | some (.obj _) => "object"

end TypedGraph

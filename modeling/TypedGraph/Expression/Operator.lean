import TypedGraph.Query.Operator

/-!
# Expression/Operator — the vocabulary of expressions

An expression is evaluated on a document and gives a value, or nothing where something that it
needs is missing.  An object with one name that begins with a dollar sign applies an **operator**.
-/

namespace TypedGraph

/-- What an expression applies. -/
inductive ExpressionOperator where
  | literal
  | cond
  | filter
  | ifNull
  | eq
  | ne
  | compare (c : Comparison)
  | and
  | or
  | not
  | isIn
  | isArray
  | isNumber
  | type
  | size
  | strLenBytes
  | subtract
  | substr
deriving DecidableEq

namespace ExpressionOperator

def name : ExpressionOperator → String
  | .literal => "$literal"
  | .cond => "$cond"
  | .filter => "$filter"
  | .ifNull => "$ifNull"
  | .eq => "$eq"
  | .ne => "$ne"
  | .compare c => c.operatorName
  | .and => "$and"
  | .or => "$or"
  | .not => "$not"
  | .isIn => "$in"
  | .isArray => "$isArray"
  | .isNumber => "$isNumber"
  | .type => "$type"
  | .size => "$size"
  | .strLenBytes => "$strLenBytes"
  | .subtract => "$subtract"
  | .substr => "$substr"

def ofName? : String → Option ExpressionOperator
  | "$literal" => some .literal
  | "$cond" => some .cond
  | "$filter" => some .filter
  | "$ifNull" => some .ifNull
  | "$eq" => some .eq
  | "$ne" => some .ne
  | "$gt" => some (.compare .gt)
  | "$gte" => some (.compare .gte)
  | "$lt" => some (.compare .lt)
  | "$lte" => some (.compare .lte)
  | "$and" => some .and
  | "$or" => some .or
  | "$not" => some .not
  | "$in" => some .isIn
  | "$isArray" => some .isArray
  | "$isNumber" => some .isNumber
  | "$type" => some .type
  | "$size" => some .size
  | "$strLenBytes" => some .strLenBytes
  | "$subtract" => some .subtract
  | "$substr" => some .substr
  | _ => none

@[simp] theorem ofName?_name (o : ExpressionOperator) : ofName? o.name = some o := by
  cases o with
  | compare c => cases c <;> rfl
  | _ => rfl

end ExpressionOperator

end TypedGraph

import TypedGraph.Error
import TypedGraph.FieldPath
import TypedGraph.Filter.Condition
import TypedGraph.Query.Operator

/-!
# Query/Clause — the parts of a query document

A **clause** asks operators of the value at one path, or is a query document of its own.  Clauses
on the element of a list are combined before they are asked of it:

* `elementOperators` makes one map of operators of clauses on a plain element.  Two equalities
  intersect and two inequalities unite their operands; no other operator may come twice.
* `elementCondition` makes one query document of clauses on an object.
-/

namespace TypedGraph

/-- A part of a query document. -/
inductive Clause where
  /-- Operators on the value at a dotted path; the empty path is the element of a list itself. -/
  | field (path : String) (operators : Record Value)
  /-- A complete query document. -/
  | document (query : Record Value)

namespace Clause

/-- One operator on the value at a path. -/
def ask (path : FieldPath) (operator : QueryOperator) (operand : Value) : Clause :=
  .field path.dotted [(operator.name, operand)]

/-- The query document of a clause; a clause on an element has none. -/
def toDocument : Clause → Except Error (Record Value)
  | .field path operators =>
    if path = "" then .error (.schema .elementOutsideList) else .ok [(path, .obj operators)]
  | .document query => .ok query

/-- **The conjunction of query documents.** -/
def conjunction : List (Record Value) → Record Value
  | [] => []
  | [query] => query
  | queries => [(Connective.and.name, .arr (queries.map .obj))]

/-! ## Conditions on a plain element -/

/-- The operands that an operator accepts or rejects: the items of a list operator, the operand of
any other. -/
def operands (operator : QueryOperator) (operand : Value) : List Value :=
  match operator with
  | .isIn | .notIn => operand.toItems
  | _ => [operand]

/-- The operands that two equalities both accept. -/
def intersection (xs ys : List Value) : List Value := xs.filter fun x => Value.among x ys

/-- The operands that one of two inequalities rejects, without repetition of equal ones. -/
def unite (xs ys : List Value) : List Value :=
  ys.foldl (fun union y => if Value.among y union then union else union ++ [y]) xs

/-- Take the first of two operators out of a map: which it was, its operand, and the rest. -/
def takeEither? (operators : Record Value) (a b : QueryOperator) :
    Option (QueryOperator × Value × Record Value) :=
  match Record.swapRemove? operators a.name with
  | some (x, rest) => some (a, x, rest)
  | none => (Record.swapRemove? operators b.name).map fun (x, rest) => (b, x, rest)

/-- Add an operator to a family of two that share a meaning: `single` for one operand and `list`
for several. -/
def addToFamily (operators : Record Value) (single list : QueryOperator)
    (combine : List Value → List Value → List Value) (operator : QueryOperator) (operand : Value) :
    Record Value :=
  match takeEither? operators single list with
  | none => Record.put operators operator.name operand
  | some (existing, x, rest) =>
    Record.put rest list.name (.arr (combine (operands existing x) (operands operator operand)))

/-- **Add an operator to the map of a plain element.** -/
def addOperator (operators : Record Value) (name : String) (operand : Value) :
    Except Error (Record Value) :=
  match QueryOperator.ofName? name with
  | some .eq => .ok (addToFamily operators .eq .isIn intersection .eq operand)
  | some .isIn => .ok (addToFamily operators .eq .isIn intersection .isIn operand)
  | some .ne => .ok (addToFamily operators .ne .notIn unite .ne operand)
  | some .notIn => .ok (addToFamily operators .ne .notIn unite .notIn operand)
  | _ =>
    if Record.has operators name then .error (.schema (.conflictingElement name))
    else .ok (Record.put operators name operand)

/-- The operators that a clause asks of a plain element. -/
def onElement : Clause → Except Error (Record Value)
  | .field path operators =>
    if path = "" then .ok operators else .error (.schema .fieldOfScalarElement)
  | .document _ => .error (.schema .fieldOfScalarElement)

/-- Add the operators of a clause to the map of a plain element. -/
def addClause (operators : Record Value) (c : Clause) : Except Error (Record Value) := do
  let asked ← c.onElement
  asked.foldlM (fun acc (name, operand) => addOperator acc name operand) operators

/-- The map of operators of clauses on a plain element. -/
def elementOperators (cs : List Clause) : Except Error (Record Value) := cs.foldlM addClause []

/-- **The condition of clauses on one element of a list**: a map of operators on a plain value, a
query document on an object. -/
def elementCondition (kind : ElementKind) (cs : List Clause) : Except Error (Record Value) :=
  match kind with
  | .scalar => elementOperators cs
  | .object => (cs.mapM toDocument).map conjunction

/-! ## Conditions on a list -/

/-- An operator that holds of a value where the given one does not. -/
def negated (name : String) (operand : Value) : Value :=
  match QueryOperator.ofName? name with
  | some .eq => .single QueryOperator.ne.name operand
  | some .ne => .single QueryOperator.eq.name operand
  | some .isIn => .single QueryOperator.notIn.name operand
  | some .notIn => .single QueryOperator.isIn.name operand
  | some .not => operand
  | _ => .single QueryOperator.not.name (.single name operand)

/-- The value at a path is a list that has items. -/
def nonEmptyList (path : FieldPath) : Clause :=
  .field path.dotted [
    (QueryOperator.type.name, .str "array"),
    (QueryOperator.not.name, .single QueryOperator.size.name (.nat 0))]

/-- The value at a path is no list that has items. -/
def noItems (path : FieldPath) : Except Error Clause := do
  let query ← (nonEmptyList path).toDocument
  return .document [(Connective.nor.name, .arr [.obj query])]

/-- Some element satisfies a condition. -/
def someElement (path : FieldPath) (condition : Value) : Clause :=
  ask path .elemMatch condition

/-- No element satisfies a condition. -/
def noElement (path : FieldPath) (condition : Value) : Clause :=
  ask path .not (.single QueryOperator.elemMatch.name condition)

/-- **The clauses of a quantifier** over clauses on the elements of a list.  Where nothing is asked
of them, the quantifier asks whether there are any.  All elements satisfy something where none
fails it: for plain elements each operator is negated on its own, for objects the whole query. -/
def quantified (path : FieldPath) (quantifier : Quantifier) (kind : ElementKind)
    (inner : List Clause) : Except Error (List Clause) :=
  if inner.isEmpty then
    match quantifier with
    | .any => .ok [nonEmptyList path]
    | .all => .ok []
    | .none => (noItems path).map fun c => [c]
  else match quantifier, kind with
    | .any, _ => (elementCondition kind inner).map fun condition =>
      [someElement path (.obj condition)]
    | .none, _ => (elementCondition kind inner).map fun condition =>
      [noElement path (.obj condition)]
    | .all, .scalar => do
      let asked ← inner.mapM onElement
      return asked.flatten.map fun (name, operand) => noElement path (negated name operand)
    | .all, .object => (elementCondition kind inner).map fun condition =>
      [noElement path (.single Connective.nor.name (.arr [.obj condition]))]

end Clause

end TypedGraph

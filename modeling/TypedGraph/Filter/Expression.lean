import TypedGraph.Expression.Operator
import TypedGraph.Filter.Reader

/-!
# Filter/Expression — the expression of a filter

Inside an accumulator a filter cannot be a query, and is written as one expression instead.  What
is missing is made null first, an order comparison is guarded by a test of the value's kind, and a
quantifier counts the elements that it keeps.  An expression has no patterns: a pattern is compared
as a plain string.
-/

namespace TypedGraph

namespace Expression

/-- Apply an operator to operands. -/
def call (operator : ExpressionOperator) (operands : List Value) : Value :=
  .single operator.name (.arr operands)

/-- A value that stands for itself. -/
def quoted (v : Value) : Value := .single ExpressionOperator.literal.name v

/-- The name of the element of a quantifier. -/
def elementName (depth : Nat) : String := "elem" ++ toString depth

/-- **The reference to a path**: one dollar sign before a path of the document, two before the
element of a quantifier. -/
def pathReference (p : FieldPath) : Value :=
  match p.root with
  | .document => .str ("$" ++ p.dotted)
  | .element depth =>
    let start := "$$" ++ elementName depth
    .str (if p.isStart then start else start ++ "." ++ p.dotted)

/-- The value at a path, null where it is missing. -/
def valueOrNull (p : FieldPath) : Value := call .ifNull [pathReference p, .null]

/-- Whether the value at a path is a list. -/
def isList (p : FieldPath) : Value := call .isArray [pathReference p]

/-- The list at a path, empty where there is none. -/
def listOrEmpty (p : FieldPath) : Value := call .cond [isList p, pathReference p, .arr []]

/-- How many items the list at a path has. -/
def sizeOf (p : FieldPath) : Value := .single ExpressionOperator.size.name (listOrEmpty p)

/-- **The conjunction of expressions.** -/
def conjunction : List Value → Value
  | [] => .bool true
  | [e] => e
  | es => call .and es

/-- The disjunction of expressions. -/
def disjunction : List Value → Value
  | [] => .bool false
  | [e] => e
  | es => call .or es

/-- The negation of an expression. -/
def negation (e : Value) : Value := call .not [e]

/-- Whether the value at a path is of the class of an operand. -/
def classGuard (p : FieldPath) (operand : Value) : Value :=
  let kindIs := fun (kind : String) =>
    call .eq [.single ExpressionOperator.type.name (pathReference p), .str kind]
  match operand with
  | .num _ => .single ExpressionOperator.isNumber.name (pathReference p)
  | .bool _ => kindIs "bool"
  | _ => kindIs "string"

/-- Whether the value at a path equals an operand, or one of its items. -/
def equals (p : FieldPath) (operand : Value) : Value :=
  call (if operand.isArray then .isIn else .eq) [valueOrNull p, quoted operand]

/-- The end of the identifier at a path that is as long as a suffix. -/
def tail (p : FieldPath) (suffix : String) : Value :=
  let id := call .ifNull [pathReference p, .str ""]
  let size := Value.nat suffix.utf8ByteSize
  let start := call .subtract [.single ExpressionOperator.strLenBytes.name id, size]
  call .substr [id, start, size]

/-- How many elements of the list at a path satisfy a condition. -/
def countElements (p : FieldPath) (condition : Value) : Value :=
  .single ExpressionOperator.size.name (.single ExpressionOperator.filter.name (.obj [
    ("input", listOrEmpty p), ("as", .str (elementName p.quantifierDepth)), ("cond", condition)]))

end Expression

namespace Condition

open Expression

/-- The expressions of a condition on suffixes. -/
def suffixExpressions (path : FieldPath) (suffixes : List String) (negated : Bool) : List Value :=
  let test := fun (operator : ExpressionOperator) (s : String) =>
    call operator [tail path s, quoted (.str s)]
  if negated then suffixes.map (test .ne) else [disjunction (suffixes.map (test .eq))]

mutual

/-- **The expressions of a condition**, all of which have to hold. -/
def expressions : Condition → Except Error (List Value)
  | .present path expected => .ok [call (if expected then .ne else .eq) [valueOrNull path, .null]]
  | .isList path expected =>
    .ok [if expected then Expression.isList path else negation (Expression.isList path)]
  | .equals path operand => .ok [Expression.equals path operand]
  | .differs path operand =>
    .ok [if operand.isArray then negation (Expression.equals path operand)
      else call .ne [valueOrNull path, quoted operand]]
  | .compares path comparison operand =>
    .ok [conjunction [classGuard path operand,
      call (.compare comparison) [pathReference path, quoted operand]]]
  | .matching path pattern => .ok [Expression.equals path (.str pattern)]
  | .endsWith path suffixes negated => .ok (suffixExpressions path suffixes negated)
  | .length path n =>
    .ok [conjunction [Expression.isList path, call .eq [sizeOf path, .nat n]]]
  | .isEmpty path expected =>
    let operator := if expected then ExpressionOperator.eq else .compare .gt
    .ok [conjunction [Expression.isList path, call operator [sizeOf path, .nat 0]]]
  | .elements path quantifier _ inner => do
    let condition := conjunction (← allExpressions inner)
    return [match quantifier with
      | .any => call (.compare .gt) [countElements path condition, .nat 0]
      | .all => call .eq [countElements path (negation condition), .nat 0]
      | .none => call .eq [countElements path condition, .nat 0]]
  | .fault e => .error e
termination_by structural c => c

/-- The expressions of several conditions. -/
def allExpressions : List Condition → Except Error (List Value)
  | [] => .ok []
  | c :: cs => do
    let first ← expressions c
    let rest ← allExpressions cs
    return first ++ rest
termination_by structural cs => cs

end

end Condition

namespace Filter

/-- **The expression of a filter** on the object at a path. -/
def expression (ctx : Context) (t : TypeInfo) (path : FieldPath) (filter : Value) :
    Except Error Value :=
  (Condition.allExpressions (read ctx t path filter)).map Expression.conjunction

end Filter

end TypedGraph

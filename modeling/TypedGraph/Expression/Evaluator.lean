import TypedGraph.Expression.Operator
import TypedGraph.FieldPath
import TypedGraph.Text.Utf8

/-!
# Expression/Evaluator — the value of an expression on a document

A string that begins with one dollar sign refers to a path of the document, and one that begins
with two to a path of a variable.  An object with one name that begins with a dollar sign applies
an operator; all other lists and objects are built of the values of their parts, null where there
is none.

`evaluate` gives nothing where something that is needed is missing, and where an operator is none.
-/

namespace TypedGraph

namespace Expression

/-- The variables of an expression. -/
abbrev Scope := Record Value

/-- Whether a result counts as true: all but nothing, null, false and zero. -/
def truthy : Option Value → Bool
  | none => false
  | some .null => false
  | some (.bool b) => b
  | some (.num n) => !n.isZero
  | some _ => true

/-- The value that a string stands for: that of a reference, or the string itself. -/
def reference (d : Value) (scope : Scope) (s : String) : Option Value :=
  match s.toList with
  | '$' :: '$' :: cs => match splitNames '.' (String.ofList cs) with
    | name :: path => (Record.get? scope name).bind fun v => v.lookup? path
    | [] => none
  | '$' :: cs => d.dotted? (String.ofList cs)
  | _ => some (.str s)

/-- The difference of two numbers: an integer where both are, a double otherwise. -/
def subtract (a b : Value) : Option Value :=
  match a.asI64?, b.asI64? with
  | some m, some n => some (.int (m - n))
  | _, _ => do
    let x ← a.asBinary64?
    let y ← b.asBinary64?
    return Value.ofBinary64? (x.sub? y)

/-- So many bytes of a string from one on; none of them where the first is outside. -/
def substring (s : String) (start count : Int) : String :=
  if start < 0 ∨ start > s.utf8ByteSize then ""
  else Utf8.slice s start.toNat (min (start + count) s.utf8ByteSize).toNat

/-- **The result of an operator** on the results of its operands. -/
def apply (operator : ExpressionOperator) (args : List (Option Value)) : Option Value :=
  let first := args.head?.join
  let second := (args[1]?).join
  let third := (args[2]?).join
  match operator with
  | .ifNull => some ((Value.present? first).getD (Value.orNull second))
  | .eq => some (.bool (Value.compareOptional first second == .eq))
  | .ne => some (.bool (Value.compareOptional first second != .eq))
  | .compare c => some (.bool (c.holds (Value.compareOptional first second)))
  | .and => some (.bool (args.all truthy))
  | .or => some (.bool (args.any truthy))
  | .not => some (.bool (!truthy first))
  | .isIn => match second with
    | some (.arr xs) => some (.bool (xs.any fun x => Value.equal x (Value.orNull first)))
    | _ => some (.bool false)
  | .isArray => some (.bool (first.any Value.isArray))
  | .isNumber => some (.bool (first.any Value.isNumber))
  | .type => some (.str (kindName first))
  | .size => (first.bind Value.asArray?).map fun xs => .nat xs.length
  | .strLenBytes => (first.bind Value.asString?).map fun s => .nat s.utf8ByteSize
  | .subtract => do subtract (← first) (← second)
  | .substr => do
    let start ← second.bind Value.asI64?
    let count ← third.bind Value.asI64?
    return .str (substring ((first.bind Value.asString?).getD "") start count)
  | .literal | .cond | .filter => none

mutual

/-- **The value of an expression** on a document.  Literals, choices and filters decide which of
their operands are evaluated, and how; all other operators are applied to the results of theirs. -/
def evaluate (d : Value) : Value → Scope → Option Value
  | .str s, scope => reference d scope s
  | .arr es, scope => some (.arr ((evaluateAll d es scope).map Value.orNull))
  | .obj es, scope => match es with
    | [(name, operand)] =>
      if isDollarName name then
        match ExpressionOperator.ofName? name, operand with
        | none, _ => none
        | some .literal, v => some v
        | some .cond, .arr (condition :: yes :: rest) =>
          if truthy (evaluate d condition scope) then evaluate d yes scope
          else match rest with
            | no :: _ => evaluate d no scope
            | [] => none
        | some .filter, .obj parts =>
          match (Record.get? parts "as").bind Value.asString? with
          | some name =>
            let items := Value.itemsOf (evaluatePart d "input" parts scope)
            some (.arr (items.filter fun x =>
              truthy (evaluatePart d "cond" parts (Record.put scope name x))))
          | none => none
        | some operator, .arr es => apply operator (evaluateAll d es scope)
        | some operator, e => apply operator [evaluate d e scope]
      else some (.obj [(name, Value.orNull (evaluate d operand scope))])
    | es => some (.obj (evaluateEntries d es scope))
  | v, _ => some v
termination_by structural e => e

/-- The values of several expressions. -/
def evaluateAll (d : Value) : List Value → Scope → List (Option Value)
  | [], _ => []
  | e :: es, scope => evaluate d e scope :: evaluateAll d es scope
termination_by structural es => es

/-- The entries of an object with their values. -/
def evaluateEntries (d : Value) : Record Value → Scope → Record Value
  | [], _ => []
  | (name, e) :: es, scope =>
    (name, Value.orNull (evaluate d e scope)) :: evaluateEntries d es scope
termination_by structural es => es

/-- The value of the named part of an operand; null where there is no such part. -/
def evaluatePart (d : Value) (name : String) : Record Value → Scope → Option Value
  | [], _ => some .null
  | (k, e) :: es, scope =>
    if k = name then evaluate d e scope else evaluatePart d name es scope
termination_by structural es => es

end

/-- **Whether an expression holds of a document.** -/
def holds (e d : Value) : Bool := truthy (evaluate d e [])

end Expression

end TypedGraph

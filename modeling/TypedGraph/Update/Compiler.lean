import TypedGraph.Filter.Query
import TypedGraph.Update.Document
import TypedGraph.Update.ListUpdate

/-!
# Update/Compiler — from update expressions to update documents

An update expression names fields of a type and says what becomes of each.  A plain field is set or
cleared, a number is also added to, scaled and bounded, an embedded object is updated in its turn,
and a list is extended, thinned out or popped.  An expression of none of these shapes changes
nothing.
-/

namespace TypedGraph

namespace Update

/-- The document with one operand of an operator. -/
def change (operator : UpdateOperator) (path : FieldPath) (operand : Value) : UpdateDocument :=
  .single operator.name path.dotted operand

/-- Remove the value at a path. -/
def unset (path : FieldPath) : UpdateDocument := change .unset path (.str "")

/-! ## Plain fields -/

/-- The update of a plain field: its new value, or the wish to clear it. -/
def scalar (path : FieldPath) (v : Value) : UpdateDocument :=
  match v with
  | .obj es => match Record.get? es "clear" with
    | some wish => if wish.isTrue then unset path else .empty
    | none => change .set path v
  | _ => change .set path v

/-- What can be done to a number. -/
inductive Arithmetic where
  | add
  | sub
  | mul
  | div
  | min
  | max

namespace Arithmetic

/-- The names of the operations, in the order in which they are looked for. -/
def all : List (String × Arithmetic) :=
  [("add", .add), ("sub", .sub), ("mul", .mul), ("div", .div), ("min", .min), ("max", .max)]

/-- The first operation that an update gives an operand, with its name. -/
def given? (es : Record Value) : Option (String × Arithmetic × Value) :=
  all.findSome? fun (key, operation) =>
    (givenPart? es key).map fun operand => (key, operation, operand)

/-- The update of an operation with a number.  A difference adds the number with its sign turned,
and a quotient multiplies by the reciprocal. -/
def change (operation : Arithmetic) (path : FieldPath) (n : Number) :
    Except Error UpdateDocument :=
  match operation with
  | .add => .ok (Update.change .inc path (.num n))
  | .sub => .ok (Update.change .inc path (.num n.negate))
  | .mul => .ok (Update.change .mul path (.num n))
  | .div =>
    if n.isZero then .error (.argument .divisionByZero)
    else match n.reciprocal? with
      | some x => .ok (Update.change .mul path (.num (.float x)))
      | none => .error (.argument (.cannotDivideBy n))
  | .min => .ok (Update.change .min path (.num n))
  | .max => .ok (Update.change .max path (.num n))

end Arithmetic

/-- The update of a number: its new value, the wish to clear it, or the first operation that is
given. -/
def numeric (path : FieldPath) (v : Value) : Except Error UpdateDocument :=
  match v with
  | .obj es =>
    if clearRequested es then .ok (unset path)
    else
      match Arithmetic.given? es with
      | some (_, operation, .num n) => operation.change path n
      | some (key, _, other) => .error (.argument (.numberExpected key other))
      | none => .ok .empty
  | _ => .ok (change .set path v)

/-! ## Lists -/

/-- The order of an insertion, as the store takes it. -/
def sortOperand : InsertOrder → Value
  | .whole direction => .int direction.sign
  | .field name direction => .single name (.int direction.sign)

/-- Which elements stay, as the store takes it: the last ones by a negative number. -/
def keepEntries : Keep → Record Value
  | .everything => []
  | .first n => [("$slice", .nat n)]
  | .last n => [("$slice", .int (-n))]

/-- What is inserted, as the store takes it: the elements, then their position or their order, then
how many of all elements stay. -/
def pushOperand (field : FieldInfo) (es : Record Value) (items : List Value) :
    Except Error Value := do
  let place : Record Value ← match givenPart? es "at" with
    | some v => match v.asI64? with
      | some position => .ok [("$position", .int position)]
      | none => .error (.argument .positionExpected)
    | none => (InsertOrder.read field es).map fun
      | some order => [("$sort", sortOperand order)]
      | none => []
  let keep ← Keep.read es
  return .obj ([("$each", .arr items)] ++ place ++ keepEntries keep)

/-- The condition of a filter on one element of a list field. -/
def elementFilter (ctx : Context) (field : FieldInfo) (filter : Value) :
    Except Error (Record Value) := do
  let start := FieldPath.element 0
  let conditions ← match field.elementKind with
    | .object => (ctx.schema.type field.typeName).map fun t => Filter.read ctx t start filter
    | .scalar => .ok (Filter.readScalar start filter)
  let clauses ← Condition.allClauses conditions
  Clause.elementCondition field.elementKind clauses

/-- What is deleted, as the store takes it. -/
def pullOperand (ctx : Context) (field : FieldInfo) : DeleteTarget → Except Error Value
  | .literals [v] => .ok v
  | .literals values => .ok (.single QueryOperator.isIn.name (.arr values))
  | .filter f => (elementFilter ctx field f).map .obj

/-- The end that loses an element, as the store takes it. -/
def popOperand : ListEnd → Value
  | .first => .int (-1)
  | .last => .int 1

/-- The update of a list that an object asks for which does not clear it. -/
def listChange (ctx : Context) (field : FieldInfo) (path : FieldPath) (es : Record Value) :
    Except Error UpdateDocument :=
  match Record.get? es "insert" with
  | some v => (pushOperand field es v.toItems).map (change .push path)
  | none => match Record.get? es "delete" with
    | some v => (pullOperand ctx field (DeleteTarget.read v)).map (change .pull path)
    | none => match Record.get? es "pop" with
      | some v => match ListEnd.read? v with
        | some side => .ok (change .pop path (popOperand side))
        | none => .ok .empty
      | none => .ok .empty

/-- **The update of a list.** -/
def list (ctx : Context) (field : FieldInfo) (path : FieldPath) (v : Value) :
    Except Error UpdateDocument :=
  match v with
  | .arr _ => .ok (change .set path v)
  | .obj es => if clearRequested es then .ok (unset path) else listChange ctx field path es
  | _ => .ok .empty

/-! ## Fields and objects -/

/-- The update of a field; `nested` is that of an embedded object of a type. -/
def fieldUpdate (ctx : Context) (field : FieldInfo) (path : FieldPath) (v : Value)
    (nested : TypeInfo → Except Error UpdateDocument) : Except Error UpdateDocument :=
  match field.category with
  | .scalar | .node => .ok (scalar path v)
  | .numeric => numeric path v
  | .object => match v with
    | .null => .ok (unset path)
    | .obj _ => do nested (← ctx.schema.type field.typeName)
    | _ => .ok .empty
  | .scalarList | .nodeList | .objectList => list ctx field path v
  | .connection => .error (.schema (.connectionField field.name "updatable"))

mutual

/-- **The update document of an update expression** for the object at a path. -/
def compile (ctx : Context) (t : TypeInfo) (path : FieldPath) :
    Value → Except Error UpdateDocument
  | .obj es =>
    if !t.kind.hasFields && !es.isEmpty then .error (.schema (.noUpdatableFields t.name))
    else compileEntries ctx t path es .empty
  | _ => .ok .empty
termination_by structural v => v

/-- Merge the updates of fields into a document, one after the other. -/
def compileEntries (ctx : Context) (t : TypeInfo) (path : FieldPath) :
    Record Value → UpdateDocument → Except Error UpdateDocument
  | [], doc => .ok doc
  | (name, v) :: rest, doc => do
    let field ← t.field name
    let path' := path.child name
    let update ← fieldUpdate ctx field path' v fun nested => compile ctx nested path' v
    compileEntries ctx t path rest (doc.merge update)
termination_by structural es => es

end

end Update

end TypedGraph

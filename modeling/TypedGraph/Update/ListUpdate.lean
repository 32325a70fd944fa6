import TypedGraph.Filter.Predicate
import TypedGraph.Order.Sort

/-!
# Update/ListUpdate — changing a list in memory

The update of a list field is a new list, or an object that asks to clear the field, to insert
elements, to delete some of them or to pop one; of several things that it asks for the first counts.
`applyListUpdate` changes a list at hand.  What the update compiles to is told in `Update/Compiler`,
by another walk through the same object.

The parts of an update are read here for both: the order of an insertion, how many elements stay,
what is deleted, and the end that loses an element.
-/

namespace TypedGraph

/-- The order in which elements are inserted. -/
inductive InsertOrder where
  /-- By the elements themselves. -/
  | whole (direction : Direction)
  /-- By a field of the elements. -/
  | field (name : String) (direction : Direction)

/-- Which elements stay after an insertion. -/
inductive Keep where
  | everything
  | first (n : Nat)
  | last (n : Nat)

/-- What is deleted. -/
inductive DeleteTarget where
  /-- All elements equal to one of the values. -/
  | literals (values : List Value)
  /-- All elements that satisfy a filter. -/
  | filter (filter : Value)

/-- An end of a list. -/
inductive ListEnd where
  | first
  | last

/-! ## The parts of an update -/

/-- Whether the elements of a list field are objects with fields. -/
def FieldInfo.elementKind (field : FieldInfo) : ElementKind :=
  match field.category with
  | .objectList => .object
  | _ => .scalar

/-- The entry of a name that is there and not null. -/
def givenPart? (es : Record Value) (name : String) : Option Value :=
  Value.present? (Record.get? es name)

/-- Whether an update asks to clear its field. -/
def clearRequested (es : Record Value) : Bool := (Record.get? es "clear").any Value.isTrue

/-- The order of an insertion in a direction: a flag for plain elements, which may decline it, and a
field for objects. -/
def InsertOrder.ofOperand (field : FieldInfo) (direction : Direction) (v : Value) :
    Except Error (Option InsertOrder) :=
  match field.elementKind, v with
  | .scalar, .bool true => .ok (some (.whole direction))
  | .scalar, .bool false => .ok none
  | .object, .str name => .ok (some (.field name direction))
  | _, other => .error (.argument (.invalidSort other field.name))

/-- Read the order of an insertion, where there is one. -/
def InsertOrder.read (field : FieldInfo) (es : Record Value) :
    Except Error (Option InsertOrder) :=
  match givenPart? es "ascending", givenPart? es "descending" with
  | some _, some _ => .error (.argument (.onlyOneOf "ascending" "descending"))
  | some v, none => ofOperand field .ascending v
  | none, some v => ofOperand field .descending v
  | none, none => .ok none

/-- A number of elements that stay. -/
def Keep.count (es : Record Value) (key : String) : Except Error (Option Nat) :=
  match givenPart? es key with
  | none => .ok none
  | some v => match v.asI64? with
    | some n => if 0 ≤ n then .ok (some n.toNat) else .error (.argument (.countExpected key))
    | none => .error (.argument (.countExpected key))

/-- Read which elements stay. -/
def Keep.read (es : Record Value) : Except Error Keep := do
  match ← count es "keepFirst", ← count es "keepLast" with
  | some _, some _ => .error (.argument (.onlyOneOf "keepFirst" "keepLast"))
  | some n, none => return .first n
  | none, some n => return .last n
  | none, none => return .everything

/-- What is deleted: an object is a filter, anything else one value or a list of them. -/
def DeleteTarget.read : Value → DeleteTarget
  | .obj es => .filter (.obj es)
  | v => .literals v.toItems

/-- Read an end of a list, in letters of any case. -/
def ListEnd.read? (v : Value) : Option ListEnd :=
  match v.asString?.map (·.map Char.toLower) with
  | some "first" => some .first
  | some "last" => some .last
  | _ => none

/-! ## Inserting -/

/-- The index in a list of so many items before which a position lies. -/
def positionIndex (length : Nat) (position : Int) : Nat :=
  if position < 0 then (length + position).toNat else min position.toNat length

/-- Insert elements before a position, counted from the end where it is negative. -/
def insertAt (position : Int) (items list : List Value) : List Value :=
  let i := positionIndex list.length position
  list.take i ++ items ++ list.drop i

/-- Comparison of two elements in the order of an insertion. -/
def InsertOrder.compare : InsertOrder → Value → Value → Ordering
  | .whole direction, a, b => direction.apply (Value.compare a b)
  | .field name direction, a, b =>
    direction.apply (Value.compareOptional (a.lookup? [name]) (b.lookup? [name]))

/-- Insert elements in an order.  They are sorted, and each goes behind the elements of the list
that do not come after it. -/
def InsertOrder.insert (order : InsertOrder) (items list : List Value) : List Value :=
  list.merge (stableSort order.compare items) fun x y => order.compare x y != .gt

/-- The elements that stay. -/
def Keep.apply : Keep → List Value → List Value
  | .everything, list => list
  | .first n, list => list.take n
  | .last n, list => list.drop (list.length - n)

/-- **Insert elements as an update asks**: before a position, or in an order, or at the end.
Afterwards only those stay that are asked to. -/
def insertElements (field : FieldInfo) (es : Record Value) (items list : List Value) :
    Except Error (List Value) := do
  let whole ← match givenPart? es "at" with
    | some v => match v.asI64? with
      | some position => .ok (insertAt position items list)
      | none => .error (.argument .positionExpected)
    | none => (InsertOrder.read field es).map fun
      | some order => order.insert items list
      | none => list ++ items
  let keep ← Keep.read es
  return keep.apply whole

/-! ## Deleting -/

/-- The predicate of a filter on the elements of a list field. -/
def elementPredicate (ctx : Context) (field : FieldInfo) (filter : Value) :
    Except Error (Value → Bool) :=
  match field.elementKind with
  | .object => do Filter.predicate ctx (← ctx.schema.type field.typeName) filter
  | .scalar => Filter.scalarPredicate ctx filter

/-- The list without what is deleted. -/
def DeleteTarget.remove (ctx : Context) (field : FieldInfo) (list : List Value) :
    DeleteTarget → Except Error (List Value)
  | .literals values => .ok (list.filter fun x => !Value.among x values)
  | .filter f => do
    let selected ← elementPredicate ctx field f
    return list.filter fun x => !selected x

/-- A list without one of its ends. -/
def ListEnd.pop : ListEnd → List Value → List Value
  | .first, list => list.drop 1
  | .last, list => list.dropLast

/-! ## Updating -/

/-- Change a list as an object asks that does not clear it.  Where it asks for nothing known, the
elements stay as they are. -/
def changeList (ctx : Context) (field : FieldInfo) (es : Record Value) (list : List Value) :
    Except Error (List Value) :=
  match Record.get? es "insert" with
  | some v => insertElements field es v.toItems list
  | none => match Record.get? es "delete" with
    | some v => (DeleteTarget.read v).remove ctx field list
    | none => match Record.get? es "pop" with
      | some v => match ListEnd.read? v with
        | some side => .ok (side.pop list)
        | none => .ok list
      | none => .ok list

/-- **Apply the update of a list field** to a list that may be missing.  An object changes a missing
list as it changes an empty one; what is neither a list nor an object changes nothing. -/
def applyListUpdate (ctx : Context) (field : FieldInfo) (current : Option (List Value))
    (update : Value) : Except Error (Option (List Value)) :=
  if field.category.isList then match update with
    | .arr items => .ok (some items)
    | .obj es =>
      if clearRequested es then .ok none
      else (changeList ctx field es (current.getD [])).map some
    | _ => .ok current
  else .error (.schema (.notList field.name))

end TypedGraph

import TypedGraph.Value.Basic

/-!
# Update/Document — update operators and their targets

An **update document** lists, for each update operator, the paths that it changes and the operand
at each.  Where an operator is given a path again the operands are merged deeply: objects entry by
entry, and any other value replaces the one before it.
-/

namespace TypedGraph

/-- What an update does to the value at a path. -/
inductive UpdateOperator where
  | set
  | unset
  | inc
  | mul
  | min
  | max
  | push
  | pull
  | pop
deriving DecidableEq

/-- The name of an update operator. -/
def UpdateOperator.name : UpdateOperator → String
  | .set => "$set"
  | .unset => "$unset"
  | .inc => "$inc"
  | .mul => "$mul"
  | .min => "$min"
  | .max => "$max"
  | .push => "$push"
  | .pull => "$pull"
  | .pop => "$pop"

/-- Update operators by name, each with its operands by path. -/
structure UpdateDocument where
  operators : Record (Record Value)

namespace UpdateDocument

/-- The document that changes nothing. -/
def empty : UpdateDocument := ⟨[]⟩

/-- The targets of an operator with an operand at one more path. -/
def addTarget (targets : Record Value) (path : String) (operand : Value) : Record Value :=
  match Record.get? targets path with
  | some existing => Record.put targets path (existing.deepMerge operand)
  | none => Record.put targets path operand

/-- Give an operator an operand at a path. -/
def add (d : UpdateDocument) (operator path : String) (operand : Value) : UpdateDocument :=
  ⟨Record.put d.operators operator
    (addTarget ((Record.get? d.operators operator).getD []) path operand)⟩

/-- The document with one operand. -/
def single (operator path : String) (operand : Value) : UpdateDocument :=
  empty.add operator path operand

/-- Give an operator several operands. -/
def addTargets (d : UpdateDocument) (operator : String) (targets : Record Value) :
    UpdateDocument :=
  targets.foldl (fun d (path, operand) => d.add operator path operand) d

/-- **Merge a document into another**, operand by operand. -/
def merge (d other : UpdateDocument) : UpdateDocument :=
  other.operators.foldl (fun d (operator, targets) => d.addTargets operator targets) d

/-- Merge documents, one after the other. -/
def mergeAll (documents : List UpdateDocument) : UpdateDocument := documents.foldl merge empty

/-- Whether no operator has a target. -/
def isEmpty (d : UpdateDocument) : Bool := d.operators.all fun (_, targets) => targets.isEmpty

/-- The targets of an operator. -/
def get? (d : UpdateDocument) (operator : String) : Option (Record Value) :=
  Record.get? d.operators operator

/-- The document as the store takes it: an operator without targets is left out. -/
def toDocument (d : UpdateDocument) : Record Value :=
  (d.operators.filter fun (_, targets) => !targets.isEmpty).map fun (operator, targets) =>
    (operator, .obj targets)

end UpdateDocument

end TypedGraph

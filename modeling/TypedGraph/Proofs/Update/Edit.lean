import TypedGraph.Proofs.Outcome
import TypedGraph.Proofs.Value.Merge
import TypedGraph.Update.Compiler

/-!
# Proofs/Update/Edit — one update, walked through twice

The update of a list is compiled and applied by two walks through the same object, each of which
looks for what is asked for and for what is wrong with it in its own steps.  What they have to agree
on is told by an **edit**: what an update asks for, of several things the first (`ListEdit.Asked`),
or the first error in it (`ListEdit.read`).

Applying an update is applying its edit (`applyListUpdate_eq`), and its document is that of its edit
(`Update.list_eq`).  So the same entry counts on both sides, the same error is reported first, and
what an edit does is all that is left to compare.
-/

namespace TypedGraph

/-- Where elements are inserted. -/
inductive Placement where
  | last
  /-- Before the element at a position, counted from the end where it is negative. -/
  | position (index : Int)
  /-- After the elements that do not come after them in an order. -/
  | sorted (order : InsertOrder)

/-- A change to a list. -/
inductive ListEdit where
  | replace (items : List Value)
  | clear
  | insert (items : List Value) (placement : Placement) (keep : Keep)
  | delete (target : DeleteTarget)
  | pop (side : ListEnd)
  /-- An object that asks for nothing known. -/
  | unknown
  /-- Neither a list nor an object. -/
  | ignored

namespace Placement

/-- The place that an order stands for: the end of the list where there is none. -/
def ofOrder : Option InsertOrder → Placement
  | some order => .sorted order
  | none => .last

/-- Read where elements are inserted: a position goes before an order. -/
def read (field : FieldInfo) (es : Record Value) : Except Error Placement :=
  match givenPart? es "at" with
  | some v => match v.asI64? with
    | some n => .ok (.position n)
    | none => .error (.argument .positionExpected)
  | none => (InsertOrder.read field es).map ofOrder

/-- Insert elements at a place. -/
def insert (placement : Placement) (items list : List Value) : List Value :=
  match placement with
  | .last => list ++ items
  | .position p => insertAt p items list
  | .sorted order => order.insert items list

end Placement

namespace ListEdit

/-- Read an edit from an object: of several things that it asks for, the first counts. -/
def readObject (field : FieldInfo) (es : Record Value) : Except Error ListEdit :=
  if clearRequested es then .ok .clear
  else match Record.get? es "insert" with
    | some v => do
      let placement ← Placement.read field es
      let keep ← Keep.read es
      return .insert v.toItems placement keep
    | none => match Record.get? es "delete" with
      | some v => .ok (.delete (DeleteTarget.read v))
      | none => match (Record.get? es "pop").bind ListEnd.read? with
        | some side => .ok (.pop side)
        | none => .ok .unknown

/-- **Read the update of a list field.** -/
def read (field : FieldInfo) : Value → Except Error ListEdit
  | .arr items => .ok (.replace items)
  | .obj es => readObject field es
  | _ => .ok .ignored

/-- **Apply an edit** to a list that may be missing.  An edit of an unknown shape leaves the
elements as they are, but makes a missing list an empty one. -/
def apply (ctx : Context) (field : FieldInfo) (current : Option (List Value)) :
    ListEdit → Except Error (Option (List Value))
  | .replace items => .ok (some items)
  | .clear => .ok none
  | .insert items placement keep =>
    .ok (some (keep.apply (placement.insert items (current.getD []))))
  | .delete target => (target.remove ctx field (current.getD [])).map some
  | .pop side => .ok (some (side.pop (current.getD [])))
  | .unknown => .ok (some (current.getD []))
  | .ignored => .ok current

end ListEdit

namespace Update

/-- Where elements are inserted, as the store takes it. -/
def placementEntries : Placement → Record Value
  | .last => []
  | .position p => [("$position", .int p)]
  | .sorted order => [("$sort", sortOperand order)]

/-- **The update of an edit.** -/
def edit (ctx : Context) (field : FieldInfo) (path : FieldPath) :
    ListEdit → Except Error UpdateDocument
  | .replace items => .ok (change .set path (.arr items))
  | .clear => .ok (unset path)
  | .insert items placement keep =>
    .ok (change .push path
      (.obj ([("$each", .arr items)] ++ placementEntries placement ++ keepEntries keep)))
  | .delete target => (pullOperand ctx field target).map (change .pull path)
  | .pop side => .ok (change .pop path (popOperand side))
  | .unknown | .ignored => .ok .empty

end Update

/-! ## What is asked for -/

namespace ListEdit

variable {field : FieldInfo} {update : Value} {edit : ListEdit}

/-- **What an update of a list asks for.**  Of several things the first counts. -/
inductive Asked (field : FieldInfo) : Value → ListEdit → Prop where
  | replace (items : List Value) : Asked field (.arr items) (.replace items)
  | clear {es : Record Value} (hclear : clearRequested es = true) : Asked field (.obj es) .clear
  | insert {es : Record Value} {v : Value} {placement : Placement} {keep : Keep}
      (hclear : clearRequested es = false) (hinsert : Record.get? es "insert" = some v)
      (hplacement : Placement.read field es = .ok placement) (hkeep : Keep.read es = .ok keep) :
      Asked field (.obj es) (.insert v.toItems placement keep)
  | delete {es : Record Value} {v : Value} (hclear : clearRequested es = false)
      (hinsert : Record.get? es "insert" = none) (hdelete : Record.get? es "delete" = some v) :
      Asked field (.obj es) (.delete (DeleteTarget.read v))
  | pop {es : Record Value} {v : Value} {side : ListEnd} (hclear : clearRequested es = false)
      (hinsert : Record.get? es "insert" = none) (hdelete : Record.get? es "delete" = none)
      (hpop : Record.get? es "pop" = some v) (hside : ListEnd.read? v = some side) :
      Asked field (.obj es) (.pop side)
  | unknown {es : Record Value} (hclear : clearRequested es = false)
      (hinsert : Record.get? es "insert" = none) (hdelete : Record.get? es "delete" = none)
      (hpop : (Record.get? es "pop").bind ListEnd.read? = none) : Asked field (.obj es) .unknown
  | ignored {v : Value} (hlist : v.isArray = false) (hobject : v.isObject = false) :
      Asked field v .ignored

/-- **What is read is asked for.** -/
theorem asked_of_read (h : ListEdit.read field update = .ok edit) : Asked field update edit := by
  cases update with
  | arr items =>
    cases h
    exact .replace items
  | obj es =>
    unfold ListEdit.read readObject at h
    dsimp only at h
    split at h
    · next hclear =>
      cases h
      exact .clear hclear
    next hclear =>
    rw [Bool.not_eq_true] at hclear
    split at h
    · next v hinsert =>
      obtain ⟨placement, hplacement, h⟩ := bind_eq_ok.1 h
      obtain ⟨keep, hkeep, h⟩ := bind_eq_ok.1 h
      cases h
      exact .insert hclear hinsert hplacement hkeep
    next hinsert =>
    split at h
    · next v hdelete =>
      cases h
      exact .delete hclear hinsert hdelete
    next hdelete =>
    split at h
    · next side hpop =>
      cases h
      obtain ⟨v, hpop, hside⟩ := Option.bind_eq_some_iff.1 hpop
      exact .pop hclear hinsert hdelete hpop hside
    · next hpop =>
      cases h
      exact .unknown hclear hinsert hdelete hpop
  | _ =>
    cases h
    exact .ignored rfl rfl

end ListEdit

/-! ## Applying -/

section Applying

variable (ctx : Context) {field : FieldInfo}

/-- **Elements are inserted at the place that is read**, and cut to the number that is read. -/
theorem insertElements_eq (es : Record Value) (items list : List Value) :
    insertElements field es items list = (do
      let placement ← Placement.read field es
      let keep ← Keep.read es
      return keep.apply (placement.insert items list)) := by
  unfold insertElements Placement.read
  cases givenPart? es "at" with
  | some v => cases hv : v.asI64? <;> simp only [hv] <;> rfl
  | none =>
    cases InsertOrder.read field es with
    | error e => rfl
    | ok order => cases order <;> rfl

/-- **Applying an update is applying its edit.** -/
theorem applyListUpdate_eq (hlist : field.category.isList = true)
    (current : Option (List Value)) (update : Value) :
    applyListUpdate ctx field current update =
      ListEdit.read field update >>= ListEdit.apply ctx field current := by
  unfold applyListUpdate
  rw [if_pos hlist]
  cases update with
  | obj es =>
    dsimp only
    rw [ListEdit.read, ListEdit.readObject, changeList]
    cases clearRequested es with
    | true => rfl
    | false =>
    cases Record.get? es "insert" with
    | some v =>
      dsimp only
      rw [insertElements_eq]
      cases Placement.read field es with
      | error e => rfl
      | ok placement => cases Keep.read es <;> rfl
    | none =>
    cases Record.get? es "delete" with
    | some v => rfl
    | none =>
    cases Record.get? es "pop" with
    | none => rfl
    | some v => cases hside : ListEnd.read? v <;> simp only [Option.bind_some, hside] <;> rfl
  | _ => rfl

/-- An update is applied as the edit that it is read as. -/
theorem applyListUpdate_of_read {update : Value} {edit : ListEdit}
    (hlist : field.category.isList = true) (hread : ListEdit.read field update = .ok edit)
    (current : Option (List Value)) :
    applyListUpdate ctx field current update = edit.apply ctx field current := by
  rw [applyListUpdate_eq ctx hlist, hread]
  rfl

end Applying

/-! ## Compiling -/

namespace Update

variable (ctx : Context) {field : FieldInfo}

/-- **What is inserted is written with the place that is read** and the number that is read. -/
theorem pushOperand_eq (es : Record Value) (items : List Value) :
    pushOperand field es items = (do
      let placement ← Placement.read field es
      let keep ← Keep.read es
      return .obj ([("$each", .arr items)] ++ placementEntries placement ++ keepEntries keep)) := by
  unfold pushOperand Placement.read
  cases givenPart? es "at" with
  | some v => cases hv : v.asI64? <;> simp only [hv] <;> rfl
  | none =>
    cases InsertOrder.read field es with
    | error e => rfl
    | ok order => cases order <;> rfl

/-- **The document of an update is that of its edit.** -/
theorem list_eq (path : FieldPath) (update : Value) :
    list ctx field path update = ListEdit.read field update >>= edit ctx field path := by
  cases update with
  | obj es =>
    rw [list, ListEdit.read, ListEdit.readObject, listChange]
    cases clearRequested es with
    | true => rfl
    | false =>
    cases Record.get? es "insert" with
    | some v =>
      dsimp only
      rw [pushOperand_eq]
      cases Placement.read field es with
      | error e => rfl
      | ok placement => cases Keep.read es <;> rfl
    | none =>
    cases Record.get? es "delete" with
    | some v => rfl
    | none =>
    cases Record.get? es "pop" with
    | none => rfl
    | some v => cases hside : ListEnd.read? v <;> simp only [Option.bind_some, hside] <;> rfl
  | _ => rfl

end Update

end TypedGraph

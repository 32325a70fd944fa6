import TypedGraph.Proofs.Filter.Fitting
import TypedGraph.Proofs.Update.Changes
import TypedGraph.Proofs.Update.Edit

/-!
# Proofs/Update/Leaves — the field updates of an update expression

An update expression is a tree.  An embedded object that is given an object is updated field by
field; every other update of a field is a **leaf**, and the names that lead to it are its **chain**.

Chains are made of declared names (`declares_of_mem_leaves`), and where no object names a field
twice no chain is the beginning of another one (`pairwise_leaves`).  A leaf changes nothing, or one
target at its own path (`local_fieldUpdate`), so that the changes of two leaves are apart as their
chains are (`pairwise_changes`).
-/

namespace TypedGraph

/-- Induction on the objects within an object. -/
theorem Value.entryInduction {P : Value → Prop} (plain : ∀ v : Value, v.isObject = false → P v)
    (obj : ∀ es : Record Value, (∀ e ∈ es, P e.2) → P (.obj es)) : ∀ v, P v
  | .obj es => obj es fun e _ => entryInduction plain obj e.2
  | .null | .bool _ | .num _ | .str _ | .arr _ => plain _ rfl
termination_by v => sizeOf v
decreasing_by
  have := List.sizeOf_lt_of_mem ‹e ∈ es›
  obtain ⟨name, v⟩ := e
  simp only [Value.obj.sizeOf_spec, Prod.mk.sizeOf_spec] at *
  omega

/-! ## Chains of names -/

/-- **Chains are apart** where neither is the beginning of the other. -/
def Apart (a b : List String) : Prop := ¬ a <+: b ∧ ¬ b <+: a

namespace Apart

variable {a b : List String}

theorem symm (h : Apart a b) : Apart b a := ⟨h.2, h.1⟩

theorem ne (h : Apart a b) : a ≠ b := fun heq => h.1 (heq ▸ List.prefix_rfl)

theorem append_left (initial : List String) (h : Apart a b) :
    Apart (initial ++ a) (initial ++ b) :=
  h.imp (mt (List.prefix_append_right_inj initial).1) (mt (List.prefix_append_right_inj initial).1)

theorem of_head {name other : String} (hne : name ≠ other) (ha : a.head? = some name)
    (hb : b.head? = some other) : Apart a b := by
  obtain ⟨as, rfl⟩ := List.head?_eq_some_iff.1 ha
  obtain ⟨bs, rfl⟩ := List.head?_eq_some_iff.1 hb
  exact ⟨fun h => hne (List.cons_prefix_cons.1 h).1,
    fun h => hne (List.cons_prefix_cons.1 h).1.symm⟩

end Apart

namespace Update

variable {ctx : Context} {t : TypeInfo} {path : FieldPath}

/-- **A type declares a field behind a chain of names** that goes through embedded objects. -/
inductive Declares (ctx : Context) : TypeInfo → List String → FieldInfo → Prop where
  | field {t : TypeInfo} {f : FieldInfo} (hf : f ∈ t.fields) : Declares ctx t [f.name] f
  | embedded {t nested : TypeInfo} {f g : FieldInfo} {chain : List String} (hf : f ∈ t.fields)
      (hcategory : f.category = .object) (htype : ctx.schema.type f.typeName = .ok nested)
      (h : Declares ctx nested chain g) : Declares ctx t (f.name :: chain) g

theorem Declares.ne_nil {chain : List String} {f : FieldInfo} (h : Declares ctx t chain f) :
    chain ≠ [] := by
  cases h <;> exact List.cons_ne_nil _ _

/-- Declared names are plain. -/
theorem Declares.plain (hctx : ctx.schema.WellNamed) {chain : List String}
    {f : FieldInfo} (h : Declares ctx t chain f) (ht : t.WellNamed) : ∀ n ∈ chain, PlainName n := by
  induction h with
  | field hf => exact fun n hn => List.mem_singleton.1 hn ▸ ht _ hf
  | embedded hf _ htype _ ih =>
    exact List.forall_mem_cons.2 ⟨ht _ hf, ih (hctx.type htype)⟩

/-! ## Leaves -/

/-- A field to be updated, by the chain of names that leads to it, and what becomes of it. -/
structure Leaf where
  chain : List String
  field : FieldInfo
  update : Value

namespace Leaf

/-- The leaf within an embedded object of a name. -/
def under (name : String) (l : Leaf) : Leaf := { l with chain := name :: l.chain }

/-- **The document of a leaf** of an update expression for the object at a path. -/
def document (ctx : Context) (path : FieldPath) (l : Leaf) : Except Error UpdateDocument :=
  fieldUpdate ctx l.field (path.extend l.chain) l.update fun _ => .ok .empty

/-- The changes of a leaf that is accepted. -/
def changes (ctx : Context) (path : FieldPath) (l : Leaf) : List UpdateDocument.Change :=
  match l.document ctx path with
  | .ok d => d.changes
  | .error _ => []

theorem document_under (name : String) (l : Leaf) :
    (l.under name).document ctx path = l.document ctx (path.child name) := by
  rw [document, document, FieldPath.extend_child]
  rfl

theorem changes_under (name : String) (l : Leaf) :
    (l.under name).changes ctx path = l.changes ctx (path.child name) := by
  rw [changes, changes, document_under]

end Leaf

/-- The leaves of a field's update; `nested` are those of an embedded object of a type. -/
def fieldLeaves (ctx : Context) (name : String) (field : FieldInfo) (v : Value)
    (nested : TypeInfo → List Leaf) : List Leaf :=
  match field.category, v with
  | .object, .obj _ => match ctx.schema.type field.typeName with
    | .ok t => (nested t).map (Leaf.under name)
    | .error _ => []
  | _, _ => [⟨[name], field, v⟩]

mutual

/-- **The leaves of an update expression.** -/
def leaves (ctx : Context) (t : TypeInfo) : Value → List Leaf
  | .obj es => entryLeaves ctx t es
  | _ => []
termination_by structural v => v

/-- The leaves of the fields of an object. -/
def entryLeaves (ctx : Context) (t : TypeInfo) : Record Value → List Leaf
  | [] => []
  | (name, v) :: rest =>
    (match t.field name with
      | .ok field => fieldLeaves ctx name field v fun nested => leaves ctx nested v
      | .error _ => []) ++ entryLeaves ctx t rest
termination_by structural es => es

end

/-- The leaves of one entry. -/
def leavesOf (ctx : Context) (t : TypeInfo) (e : String × Value) : List Leaf :=
  match t.field e.1 with
  | .ok field => fieldLeaves ctx e.1 field e.2 fun nested => leaves ctx nested e.2
  | .error _ => []

theorem leaves_obj (es : Record Value) : leaves ctx t (.obj es) = es.flatMap (leavesOf ctx t) := by
  rw [leaves]
  induction es with
  | nil => rfl
  | cons e rest ih => rw [entryLeaves, ih, List.flatMap_cons, leavesOf]

theorem leaves_plain {v : Value} (h : v.isObject = false) : leaves ctx t v = [] := by
  cases v with
  | obj => cases h
  | _ => rfl

/-- Whether a field is an embedded object that is given an object. -/
def IsEmbedded (field : FieldInfo) (v : Value) : Prop := field.category = .object ∧ v.isObject

theorem IsEmbedded.exists_eq_obj {field : FieldInfo} {v : Value} (h : IsEmbedded field v) :
    ∃ es, v = .obj es := by
  cases v with
  | obj es => exact ⟨es, rfl⟩
  | _ => cases h.2

/-- **What the leaves of one entry can be**: none, itself, or those of the embedded object. -/
inductive EntryLeaves (ctx : Context) (t : TypeInfo) (name : String) :
    Value → List Leaf → Prop where
  | none {v : Value} : EntryLeaves ctx t name v []
  | plain {v : Value} {field : FieldInfo} (hfield : t.field name = .ok field)
      (hplain : ¬ IsEmbedded field v) : EntryLeaves ctx t name v [⟨[name], field, v⟩]
  | embedded {field : FieldInfo} {nested : TypeInfo} {es : Record Value}
      (hfield : t.field name = .ok field) (hcategory : field.category = .object)
      (htype : ctx.schema.type field.typeName = .ok nested) :
      EntryLeaves ctx t name (.obj es) ((leaves ctx nested (.obj es)).map (Leaf.under name))

theorem fieldLeaves_of_not_embedded {field : FieldInfo} {v : Value} (h : ¬ IsEmbedded field v)
    (name : String) (nested : TypeInfo → List Leaf) :
    fieldLeaves ctx name field v nested = [⟨[name], field, v⟩] := by
  unfold fieldLeaves
  split
  · next hcategory => exact absurd ⟨hcategory, rfl⟩ h
  · rfl

theorem leavesOf_embedded {name : String} {field : FieldInfo} (hfield : t.field name = .ok field)
    (hcategory : field.category = .object) (es : Record Value) :
    leavesOf ctx t (name, .obj es) = match ctx.schema.type field.typeName with
      | .ok nested => (leaves ctx nested (.obj es)).map (Leaf.under name)
      | .error _ => [] := by
  simp only [leavesOf, hfield, fieldLeaves, hcategory]

theorem entryLeaves_leavesOf (ctx : Context) (t : TypeInfo) (name : String) (v : Value) :
    EntryLeaves ctx t name v (leavesOf ctx t (name, v)) := by
  cases hfield : t.field name with
  | error e =>
    simp only [leavesOf, hfield]
    exact .none
  | ok field =>
    by_cases hembedded : IsEmbedded field v
    · obtain ⟨es, rfl⟩ := hembedded.exists_eq_obj
      rw [leavesOf_embedded hfield hembedded.1]
      cases htype : ctx.schema.type field.typeName with
      | error e => exact .none
      | ok nested => exact .embedded hfield hembedded.1 htype
    · simp only [leavesOf, hfield, fieldLeaves_of_not_embedded hembedded]
      exact .plain hfield hembedded

/-- **A leaf of an entry** is the entry itself, or one of the embedded object there. -/
theorem mem_leavesOf {name : String} {v : Value} {l : Leaf} (h : l ∈ leavesOf ctx t (name, v)) :
    ∃ field, t.field name = .ok field ∧
      (l = ⟨[name], field, v⟩ ∨ field.category = .object ∧
        ∃ nested, ctx.schema.type field.typeName = .ok nested ∧
          ∃ l' ∈ leaves ctx nested v, l = l'.under name) := by
  have hentry := entryLeaves_leavesOf ctx t name v
  generalize leavesOf ctx t (name, v) = ls at h hentry
  cases hentry with
  | none => cases h
  | plain hfield => exact ⟨_, hfield, .inl (List.mem_singleton.1 h)⟩
  | embedded hfield hcategory htype =>
    obtain ⟨l', hl', rfl⟩ := List.mem_map.1 h
    exact ⟨_, hfield, .inr ⟨hcategory, _, htype, l', hl', rfl⟩⟩

theorem exists_mem_leavesOf {es : Record Value} {l : Leaf} (h : l ∈ leaves ctx t (.obj es)) :
    ∃ e ∈ es, l ∈ leavesOf ctx t e := by
  rw [leaves_obj] at h
  exact List.mem_flatMap.1 h

/-- **The chain of a leaf leads to a declared field.** -/
theorem declares_of_mem_leaves {v : Value} {l : Leaf} (h : l ∈ leaves ctx t v) :
    Declares ctx t l.chain l.field := by
  induction v using Value.entryInduction generalizing t l with
  | plain v hplain =>
    rw [leaves_plain hplain] at h
    cases h
  | obj es ih =>
    obtain ⟨e, he, hl⟩ := exists_mem_leavesOf h
    obtain ⟨field, hfield, rfl | ⟨hcategory, nested, htype, l', hl', rfl⟩⟩ := mem_leavesOf hl
    · obtain ⟨hf, hname⟩ := TypeInfo.mem_fields_of_field hfield
      exact hname ▸ .field hf
    · obtain ⟨hf, hname⟩ := TypeInfo.mem_fields_of_field hfield
      exact hname ▸ .embedded hf hcategory htype (ih e he hl')

/-- **A leaf is found in the expression** at its chain, where no name comes twice. -/
theorem lookup?_of_mem_leaves {v : Value} (hv : v.hasDistinctNames) {l : Leaf}
    (h : l ∈ leaves ctx t v) : v.lookup? l.chain = some l.update := by
  induction v using Value.entryInduction generalizing t l with
  | plain v hplain =>
    rw [leaves_plain hplain] at h
    cases h
  | obj es ih =>
    obtain ⟨⟨name, v⟩, he, hl⟩ := exists_mem_leavesOf h
    obtain ⟨hnames, hvalues⟩ := Value.hasDistinctNames_obj_iff.1 hv
    have hfound : (Value.obj es).get? name = some v := Record.get?_of_mem hnames he
    obtain ⟨_, -, rfl | ⟨-, nested, -, l', hl', rfl⟩⟩ := mem_leavesOf hl
    · rw [Value.lookup?, hfound]
      rfl
    · rw [Leaf.under, Value.lookup?, hfound]
      exact ih _ he (hvalues _ he) hl'

/-! ## Chains of leaves -/

/-- The chain of a leaf begins with the name of its entry. -/
theorem head_of_mem_leavesOf {name : String} {v : Value} {l : Leaf}
    (h : l ∈ leavesOf ctx t (name, v)) : l.chain.head? = some name := by
  obtain ⟨_, -, rfl | ⟨-, _, -, l', -, rfl⟩⟩ := mem_leavesOf h <;> rfl

/-- **No chain is the beginning of another one** where no name comes twice. -/
theorem pairwise_leaves {v : Value} (h : v.hasDistinctNames) :
    (leaves ctx t v).Pairwise fun l l' => Apart l.chain l'.chain := by
  induction v using Value.entryInduction generalizing t with
  | plain v hv =>
    rw [leaves_plain hv]
    exact .nil
  | obj es ih =>
    obtain ⟨hnames, hvalues⟩ := Value.hasDistinctNames_obj_iff.1 h
    rw [leaves_obj, List.pairwise_flatMap]
    refine ⟨fun (name, v) he => ?_, (List.pairwise_map.1 hnames).imp fun hne l hl l' hl' => ?_⟩
    · have hentry := entryLeaves_leavesOf ctx t name v
      generalize leavesOf ctx t (name, v) = ls at hentry
      cases hentry with
      | none => exact .nil
      | plain => exact List.pairwise_singleton _ _
      | embedded => exact List.pairwise_map.2 ((ih _ he (hvalues _ he)).imp (·.append_left [name]))
    · exact .of_head hne (head_of_mem_leavesOf hl) (head_of_mem_leavesOf hl')

/-! ## Changes of leaves -/

/-- **A local document** changes nothing, or one target: that at a path. -/
def Local (path : FieldPath) (d : UpdateDocument) : Prop :=
  d = .empty ∨ ∃ operator operand, d = .single operator path.dotted operand

theorem local_change (operator : UpdateOperator) (operand : Value) :
    Local path (change operator path operand) :=
  .inr ⟨operator.name, operand, rfl⟩

theorem local_scalar (v : Value) : Local path (scalar path v) := by
  unfold scalar
  split
  · split
    · split
      · exact local_change .unset _
      · exact .inl rfl
    · exact local_change .set _
  · exact local_change .set _

theorem local_arithmetic {operation : Arithmetic} {n : Number} {d : UpdateDocument}
    (h : operation.change path n = .ok d) : Local path d := by
  unfold Arithmetic.change at h
  cases operation with
  | div =>
    dsimp only at h
    split at h
    · cases h
    · split at h <;> cases h
      exact local_change .mul _
  | _ =>
    cases h
    exact local_change _ _

theorem local_numeric {v : Value} {d : UpdateDocument} (h : numeric path v = .ok d) :
    Local path d := by
  unfold numeric at h
  split at h
  · split at h
    · cases h
      exact local_change .unset _
    · split at h
      · exact local_arithmetic h
      · cases h
      · cases h
        exact .inl rfl
  · cases h
    exact local_change .set _

theorem local_edit {field : FieldInfo} {e : ListEdit} {d : UpdateDocument}
    (h : edit ctx field path e = .ok d) : Local path d := by
  cases e with
  | delete target =>
    obtain ⟨operand, -, rfl⟩ := map_eq_ok.1 h
    exact local_change .pull _
  | unknown | ignored =>
    cases h
    exact .inl rfl
  | _ =>
    cases h
    exact local_change _ _

theorem local_list {field : FieldInfo} {v : Value} {d : UpdateDocument}
    (h : list ctx field path v = .ok d) : Local path d := by
  rw [list_eq] at h
  obtain ⟨e, -, hedit⟩ := bind_eq_ok.1 h
  exact local_edit hedit

/-- **The update of a field is local**, but for what it takes from an embedded object. -/
theorem local_fieldUpdate {field : FieldInfo} {v : Value} {d : UpdateDocument}
    (h : fieldUpdate ctx field path v (fun _ => .ok .empty) = .ok d) : Local path d := by
  unfold fieldUpdate at h
  cases hcategory : field.category <;> rw [hcategory] at h
  case scalar | node =>
    cases h
    exact local_scalar v
  case numeric => exact local_numeric h
  case object =>
    cases v with
    | null =>
      cases h
      exact local_change .unset _
    | obj es =>
      obtain ⟨_, -, hempty⟩ := bind_eq_ok.1 h
      cases hempty
      exact .inl rfl
    | _ =>
      cases h
      exact .inl rfl
  case connection => cases h
  all_goals exact local_list h

namespace Leaf

variable {l : Leaf} {c : UpdateDocument.Change}

/-- A leaf makes no change, or one at its path. -/
theorem changes_eq (l : Leaf) : l.changes ctx path = [] ∨ ∃ operator operand,
    l.changes ctx path = [⟨operator, (path.extend l.chain).dotted, operand⟩] := by
  rw [changes]
  split
  · next hd =>
    rcases local_fieldUpdate hd with rfl | ⟨operator, operand, rfl⟩
    · exact .inl rfl
    · exact .inr ⟨operator, operand, rfl⟩
  · exact .inl rfl

theorem path_of_mem_changes (h : c ∈ l.changes ctx path) :
    c.path = (path.extend l.chain).dotted := by
  rcases l.changes_eq with hnone | ⟨operator, operand, hone⟩
  · rw [hnone] at h
    cases h
  · rw [hone] at h
    exact List.mem_singleton.1 h ▸ rfl

/-- **A change of a leaf is all that its document does.** -/
theorem mem_changes_iff : c ∈ l.changes ctx path ↔
    l.document ctx path = .ok (.single c.operator c.path c.operand) := by
  rw [changes]
  constructor
  · split
    · next hd =>
      intro h
      rw [hd]
      rcases local_fieldUpdate hd with rfl | ⟨operator, operand, rfl⟩
      · cases h
      · exact List.mem_singleton.1 h ▸ rfl
    · exact nofun
  · intro h
    rw [h]
    exact List.mem_singleton_self c

end Leaf

/-- Changes whose paths are apart are at different paths. -/
theorem distinctPaths_of_pairwise {cs : List UpdateDocument.Change}
    (h : cs.Pairwise fun c c' => Apart c.segments c'.segments) :
    UpdateDocument.DistinctPaths cs :=
  List.pairwise_map.2 (h.imp fun hapart hpath => hapart.ne (congrArg (splitNames '.') hpath))

section WellNamed

variable (hctx : ctx.schema.WellNamed) (ht : t.WellNamed)

include hctx ht

/-- **The paths of all changes are the chains of their leaves** behind one beginning. -/
theorem exists_segments_eq (path : FieldPath) (v : Value) :
    ∃ initial, ∀ l ∈ leaves ctx t v, ∀ c ∈ l.changes ctx path, c.segments = initial ++ l.chain := by
  obtain ⟨initial, hinitial⟩ := path.exists_splitNames_extend
  refine ⟨initial, fun l hl c hc => ?_⟩
  have hdeclares := declares_of_mem_leaves hl
  rw [UpdateDocument.Change.segments, Leaf.path_of_mem_changes hc]
  exact hinitial _ hdeclares.ne_nil fun n hn => (hdeclares.plain hctx ht n hn).undotted

/-- **The changes of all leaves are apart** where no name comes twice. -/
theorem pairwise_changes (path : FieldPath) {v : Value} (hv : v.hasDistinctNames) :
    ((leaves ctx t v).flatMap (Leaf.changes ctx path)).Pairwise
      fun c c' => Apart c.segments c'.segments := by
  obtain ⟨initial, hsegments⟩ := exists_segments_eq hctx ht path v
  refine List.pairwise_flatMap.2 ⟨fun l _ => ?_, ?_⟩
  · rcases l.changes_eq with hnone | ⟨operator, operand, hone⟩
    · rw [hnone]
      exact .nil
    · rw [hone]
      exact List.pairwise_singleton _ _
  · refine (pairwise_leaves hv).imp_of_mem fun hl hl' hapart c hc c' hc' => ?_
    rw [hsegments _ hl c hc, hsegments _ hl' c' hc']
    exact hapart.append_left initial

end WellNamed

end Update

end TypedGraph

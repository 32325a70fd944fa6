import Mathlib.Data.List.Forall2
import TypedGraph.Filter.Reader
import TypedGraph.Proofs.FieldPath.Names

/-!
# Proofs/Filter/Reading — all that a filter can be read as

Reading a filter at two paths gives two lists of conditions that go side by side
(`forall₂_read`): each condition is what an operator asks of a plain value, or is about the type of
an object, the presence of a value or a list, or stands for a fault, and the two lists differ in
nothing but the paths.  A path goes on from where the reading starts, along names of the schema and
the configuration (`Along`).

The conditions on the elements of a list start anew, at the element, and are read off a part of the
filter (`Inside`).  So what holds of all conditions is proved case by case, by recursion on the
filter.
-/

namespace TypedGraph

/-! ## Names -/

/-- All names that a schema and a configuration give to fields are of one kind. -/
structure Context.Names (ctx : Context) (P : String → Prop) : Prop where
  idField : P ctx.config.idField
  typeField : P ctx.config.typeField
  types : ∀ e ∈ ctx.schema.types, ∀ f ∈ e.2.fields, P f.name

theorem Context.names_true (ctx : Context) : ctx.Names fun _ => True :=
  ⟨trivial, trivial, fun _ _ _ _ => trivial⟩

theorem Context.Names.imp {ctx : Context} {P Q : String → Prop} (h : ctx.Names P)
    (himp : ∀ name, P name → Q name) : ctx.Names Q :=
  ⟨himp _ h.idField, himp _ h.typeField, fun e he f hf => himp _ (h.types e he f hf)⟩

theorem Context.Names.type {ctx : Context} {P : String → Prop} (h : ctx.Names P) {name : String}
    {t : TypeInfo} (ht : ctx.schema.type name = .ok t) : ∀ f ∈ t.fields, P f.name := by
  rw [Schema.type] at ht
  split at ht
  · next found =>
    cases ht
    exact h.types _ (Record.mem_of_get? found)
  · cases ht

/-- A field that is found is declared, under the name by which it was looked for. -/
theorem TypeInfo.mem_fields_of_field {t : TypeInfo} {name : String} {f : FieldInfo}
    (h : t.field name = .ok f) : f ∈ t.fields ∧ f.name = name := by
  rw [TypeInfo.field] at h
  split at h
  · next found =>
    cases h
    exact ⟨List.mem_of_find?_eq_some found, by simpa using List.find?_some found⟩
  · cases h

/-- The names of a chain are of one kind. -/
def Along (P : String → Prop) (chain : List String) : Prop := ∀ n ∈ chain, P n

theorem Along.child {P : String → Prop} {chain : List String} (h : Along P chain) {name : String}
    (hname : P name) : Along P (chain ++ [name]) := fun n hn =>
  (List.mem_append.1 hn).elim (h n) fun hn => List.mem_singleton.1 hn ▸ hname

/-- A path that goes on along names has a text. -/
theorem Along.dotted_ne_empty {chain : List String} (h : Along (· ≠ "") chain) (hne : chain ≠ [])
    (p : FieldPath) : (p.extend chain).dotted ≠ "" := by
  obtain ⟨name, hname⟩ := List.exists_mem_of_ne_nil _ hne
  exact FieldPath.dotted_ne_empty_of_mem (List.mem_append_right _ hname) (h name hname)

theorem FieldPath.extend_append_child (p : FieldPath) (chain : List String) (name : String) :
    (p.extend chain).child name = p.extend (chain ++ [name]) := by
  simp [FieldPath.extend, FieldPath.child]

/-! ## Parts of a filter -/

namespace Value

theorem Within.trans {v x y : Value} (h : Within v x) (h' : Within x y) : Within v y := by
  induction h' with
  | self => exact h
  | item hx _ ih => exact .item hx ih
  | entry hx _ ih => exact .entry hx ih

theorem sizeOf_le_of_within {v x : Value} (h : Within v x) : sizeOf v ≤ sizeOf x := by
  induction h with
  | self => exact Nat.le_refl _
  | item hx _ ih =>
    have hsize := List.sizeOf_lt_of_mem hx
    simp only [Value.arr.sizeOf_spec]
    omega
  | entry hx _ ih =>
    have hsize := List.sizeOf_lt_of_mem hx
    simp only [Value.obj.sizeOf_spec, Prod.mk.sizeOf_spec] at hsize ⊢
    omega

/-- **A value is inside another one**: it is an entry of an object that lies in it. -/
def Inside (v x : Value) : Prop := ∃ es name, (name, v) ∈ es ∧ Within (.obj es) x

theorem Inside.within {v x : Value} (h : Inside v x) : Within v x := by
  obtain ⟨es, name, hv, hes⟩ := h
  exact (Within.entry hv (.self v)).trans hes

theorem Inside.sizeOf_lt {v x : Value} (h : Inside v x) : sizeOf v < sizeOf x := by
  obtain ⟨es, name, hv, hes⟩ := h
  have hsize := List.sizeOf_lt_of_mem hv
  have hle := sizeOf_le_of_within hes
  simp only [Value.obj.sizeOf_spec, Prod.mk.sizeOf_spec] at hsize hle
  omega

end Value

/-! ## Conditions at a path -/

namespace Value

/-- Whether a value is one that order comparisons take as an operand. -/
def isOrderable : Value → Bool
  | .num _ | .str _ | .bool _ => true
  | _ => false

end Value

namespace Condition

/-- The condition with another path. -/
def placed (p : FieldPath) : Condition → Condition
  | .present _ expected => .present p expected
  | .isList _ expected => .isList p expected
  | .equals _ operand => .equals p operand
  | .differs _ operand => .differs p operand
  | .compares _ comparison operand => .compares p comparison operand
  | .matching _ pattern => .matching p pattern
  | .endsWith _ suffixes negated => .endsWith p suffixes negated
  | .length _ n => .length p n
  | .isEmpty _ expected => .isEmpty p expected
  | .elements _ quantifier kind inner => .elements p quantifier kind inner
  | .fault e => .fault e

end Condition

/-- Whether an error is one of those that arise in putting conditions on elements together. -/
def Error.isElementFault : Error → Bool
  | .schema .elementOutsideList | .schema (.conflictingElement _)
  | .schema .fieldOfScalarElement => true
  | _ => false

namespace Filter

open Condition (placed)

variable {ctx : Context} {t : TypeInfo}

/-- The condition on the type of the object at a path that an operator asks for. -/
def typeCondition (ctx : Context) (t : TypeInfo) (path : FieldPath) (names : List String)
    (negated : Bool) : Condition :=
  if t.isNode then .endsWith (path.child ctx.config.idField) (names.map ctx.suffix) negated
  else if negated then .differs (path.child ctx.config.typeField) (Value.strings names)
  else .equals (path.child ctx.config.typeField) (Value.strings names)

/-- What holds of a condition on an identifier and of those on the field of the type holds of the
condition on the type. -/
@[elab_as_elim]
theorem typeCondition_cases {path : FieldPath} {names : List String} {negated : Bool}
    {motive : Condition → Prop}
    (endsWith : motive (.endsWith (path.child ctx.config.idField) (names.map ctx.suffix) negated))
    (differs : motive (.differs (path.child ctx.config.typeField) (Value.strings names)))
    (equals : motive (.equals (path.child ctx.config.typeField) (Value.strings names))) :
    motive (typeCondition ctx t path names negated) := by
  unfold typeCondition
  split
  · exact endsWith
  · split
    · exact differs
    · exact equals

theorem readTypeOperator_eq (ctx : Context) (t : TypeInfo) (path : FieldPath) (key : String)
    (v : Value) : readTypeOperator ctx t path key v =
      match strange? t v.toItems with
      | some other => schemaFault (.notPossible other t.name)
      | none => match key with
        | "eq" => [typeCondition ctx t path (v.toItems.filterMap Value.asString?) false]
        | "ne" => [typeCondition ctx t path (v.toItems.filterMap Value.asString?) true]
        | _ => schemaFault (.invalidOperation "type filter" key) := by
  unfold readTypeOperator typeCondition
  cases t.isNode <;> rfl

/-! ## Filters on a plain value -/

/-- **What a filter on a plain value asks** of the value at a path. -/
inductive Asks (path : FieldPath) (v : Value) : Condition → Prop where
  | present (expected : Bool) : Asks path v (.present path expected)
  | equals (operand : Value) : Asks path v (.equals path operand)
  | differs (operand : Value) : Asks path v (.differs path operand)
  | compares (comparison : Comparison) {operand : Value} (h : operand.isOrderable) :
      Asks path v (.compares path comparison operand)
  | matching {es : Record Value} {pattern : String} (hv : v = .obj es)
      (h : ("matches", .str pattern) ∈ es) : Asks path v (.matching path pattern)
  | fault {e : Error} (he : e.isElementFault = false) : Asks path v (.fault e)

theorem asks_of_mem_readScalar {path : FieldPath} {v : Value} {c : Condition}
    (h : c ∈ readScalar path v) : Asks path v c := by
  unfold readScalar at h
  split at h
  · cases h
  · next es =>
    obtain ⟨⟨key, x⟩, hx, h⟩ := List.mem_flatMap.1 h
    dsimp only at h
    split at h
    · cases h
    unfold readScalarOperator at h
    split at h
    · unfold onBool at h
      split at h <;> cases List.mem_singleton.1 h
      · exact .present _
      · exact .fault rfl
    · cases List.mem_singleton.1 h
      exact .equals x
    · cases List.mem_singleton.1 h
      exact .differs x
    · split at h <;> cases List.mem_singleton.1 h
      · exact .matching rfl hx
      · exact .fault rfl
    · split at h
      · cases List.mem_singleton.1 h
        exact .fault rfl
      · split at h <;> cases List.mem_singleton.1 h
        · exact .compares _ rfl
        · exact .compares _ rfl
        · exact .compares _ rfl
        · exact .fault rfl
  · cases List.mem_singleton.1 h
    exact .fault rfl

theorem readScalarOperator_placed (path : FieldPath) (key : String) (v : Value) :
    readScalarOperator path key v = (readScalarOperator .document key v).map (placed path) := by
  unfold readScalarOperator
  split
  · unfold onBool
    split <;> rfl
  · rfl
  · rfl
  · split <;> rfl
  · split
    · rfl
    · split <;> rfl

/-- **A filter on a plain value** asks the same of it wherever it lies. -/
theorem readScalar_placed (path : FieldPath) (v : Value) :
    readScalar path v = (readScalar .document v).map (placed path) := by
  unfold readScalar
  split
  · rfl
  · rw [readScalarEntries, readScalarEntries, List.map_flatMap]
    refine congrArg (List.flatMap · _) (funext fun (key, v) => ?_)
    dsimp only
    split
    · rfl
    · exact readScalarOperator_placed path key v
  · rfl

theorem placed_mem_readScalar {v : Value} {c : Condition} (h : c ∈ readScalar .document v)
    (path : FieldPath) : c.placed path ∈ readScalar path v := by
  rw [readScalar_placed path]
  exact List.mem_map_of_mem h

/-! ## Reading at two paths -/

variable {P : String → Prop} {filter : Value} {a b : FieldPath} {chain : List String}

/-- **Two conditions that a filter is read as**, at two paths from which the reading goes on along
the same names. -/
inductive Reads (ctx : Context) (P : String → Prop) (filter : Value) (a b : FieldPath) :
    Condition → Condition → Prop where
  /-- What an operator asks of a plain value. -/
  | value {chain : List String} {v : Value} {c : Condition} (hne : chain ≠ [])
      (hchain : Along P chain) (hv : v.Inside filter) (hc : c ∈ readScalar .document v) :
      Reads ctx P filter a b (c.placed (a.extend chain)) (c.placed (b.extend chain))
  | type {chain : List String} (t : TypeInfo) (hchain : Along P chain) (names : List String)
      (negated : Bool) :
      Reads ctx P filter a b (typeCondition ctx t (a.extend chain) names negated)
        (typeCondition ctx t (b.extend chain) names negated)
  | present {chain : List String} (hne : chain ≠ []) (hchain : Along P chain) (expected : Bool) :
      Reads ctx P filter a b (.present (a.extend chain) expected)
        (.present (b.extend chain) expected)
  | isList {chain : List String} (hne : chain ≠ []) (hchain : Along P chain) (expected : Bool) :
      Reads ctx P filter a b (.isList (a.extend chain) expected) (.isList (b.extend chain) expected)
  | isEmpty {chain : List String} (hne : chain ≠ []) (hchain : Along P chain) (expected : Bool) :
      Reads ctx P filter a b (.isEmpty (a.extend chain) expected)
        (.isEmpty (b.extend chain) expected)
  | length {chain : List String} {v : Value} {n : Nat} (hne : chain ≠ []) (hchain : Along P chain)
      (hn : v.asU64? = some n) :
      Reads ctx P filter a b (.length (a.extend chain) n) (.length (b.extend chain) n)
  /-- A quantifier over plain values. -/
  | values {chain : List String} {v : Value} (hne : chain ≠ []) (hchain : Along P chain)
      (quantifier : Quantifier) (hv : v.Inside filter) :
      Reads ctx P filter a b
        (.elements (a.extend chain) quantifier .scalar (readScalar (.element a.quantifierDepth) v))
        (.elements (b.extend chain) quantifier .scalar (readScalar (.element b.quantifierDepth) v))
  /-- A quantifier over objects. -/
  | objects {chain : List String} {v : Value} {t : TypeInfo} (hne : chain ≠ [])
      (hchain : Along P chain) (quantifier : Quantifier) (ht : ∀ f ∈ t.fields, P f.name)
      (hv : v.Inside filter) :
      Reads ctx P filter a b
        (.elements (a.extend chain) quantifier .object (read ctx t (.element a.quantifierDepth) v))
        (.elements (b.extend chain) quantifier .object (read ctx t (.element b.quantifierDepth) v))
  | fault {e : Error} (he : e.isElementFault = false) :
      Reads ctx P filter a b (.fault e) (.fault e)

/-- Conditions that go side by side. -/
abbrev AllRead (ctx : Context) (P : String → Prop) (filter : Value) (a b : FieldPath) :
    List Condition → List Condition → Prop :=
  List.Forall₂ (Reads ctx P filter a b)

theorem allRead_single {c c' : Condition} (h : Reads ctx P filter a b c c') :
    AllRead ctx P filter a b [c] [c'] :=
  .cons h .nil

theorem allRead_onBool {key : String} {v : Value} {f g : Bool → List Condition}
    (h : ∀ x, AllRead ctx P filter a b (f x) (g x)) :
    AllRead ctx P filter a b (onBool key v f) (onBool key v g) := by
  unfold onBool
  split
  · exact h _
  · exact allRead_single (.fault rfl)

theorem allRead_onType (hctx : ctx.Names P) {name : String} {f g : TypeInfo → List Condition}
    (h : ∀ t : TypeInfo, (∀ f ∈ t.fields, P f.name) → AllRead ctx P filter a b (f t) (g t)) :
    AllRead ctx P filter a b (onType ctx name f) (onType ctx name g) := by
  unfold onType
  split
  · next t ht => exact h t (hctx.type ht)
  · next e he =>
    refine allRead_single (.fault ?_)
    unfold Schema.type at he
    split at he
    · cases he
    · cases he
      rfl

theorem allRead_readScalar (hne : chain ≠ []) (hchain : Along P chain) {v : Value}
    (hv : v.Inside filter) : AllRead ctx P filter a b (readScalar (a.extend chain) v)
      (readScalar (b.extend chain) v) := by
  rw [readScalar_placed (a.extend chain), readScalar_placed (b.extend chain), AllRead,
    List.forall₂_map_left_iff, List.forall₂_map_right_iff, List.forall₂_same]
  exact fun c hc => .value hne hchain hv hc

theorem allRead_readType (t : TypeInfo) (hchain : Along P chain) (v : Value) :
    AllRead ctx P filter a b (readType ctx t (a.extend chain) v)
      (readType ctx t (b.extend chain) v) := by
  unfold readType
  split
  · split
    · exact .nil
    · refine List.rel_flatMap (List.forall₂_same.2 fun _ _ => rfl) ?_
      rintro ⟨key, v⟩ _ rfl
      simp only [readTypeOperator_eq]
      split
      · exact .nil
      · split
        · exact allRead_single (.fault rfl)
        · split
          · exact allRead_single (.type t hchain _ _)
          · exact allRead_single (.type t hchain _ _)
          · exact allRead_single (.fault rfl)
    · exact allRead_single (.fault rfl)
  · exact allRead_single (.fault rfl)

mutual

theorem allRead_readObject (hctx : ctx.Names P) (embedded : Bool) (t : TypeInfo)
    (ht : ∀ f ∈ t.fields, P f.name) (chain : List String) (hchain : Along P chain)
    (hembedded : embedded → chain ≠ []) : ∀ v : Value, v.Within filter →
      AllRead ctx P filter a b (readObject ctx embedded t (a.extend chain) v)
        (readObject ctx embedded t (b.extend chain) v)
  | .null, _ => .nil
  | .obj es, hv => allRead_readObjectEntries hctx embedded t ht chain hchain hembedded es
      fun e he => ⟨es, e.1, he, hv⟩
  | .bool _, _ | .num _, _ | .str _, _ | .arr _, _ => allRead_single (.fault rfl)

theorem allRead_readObjectEntries (hctx : ctx.Names P) (embedded : Bool) (t : TypeInfo)
    (ht : ∀ f ∈ t.fields, P f.name) (chain : List String) (hchain : Along P chain)
    (hembedded : embedded → chain ≠ []) : ∀ es : Record Value, (∀ e ∈ es, e.2.Inside filter) →
      AllRead ctx P filter a b (readObjectEntries ctx embedded t (a.extend chain) es)
        (readObjectEntries ctx embedded t (b.extend chain) es)
  | [], _ => .nil
  | (key, v) :: rest, hes => by
    obtain ⟨hv, hrest⟩ := List.forall_mem_cons.1 hes
    rw [readObjectEntries, readObjectEntries]
    refine List.rel_append ?_
      (allRead_readObjectEntries hctx embedded t ht chain hchain hembedded rest hrest)
    split
    · exact .nil
    split
    · refine allRead_onBool fun x => ?_
      split
      · next h => exact allRead_single (.present (hembedded h) hchain x)
      · exact .nil
    split
    · split
      · rw [FieldPath.extend_append_child, FieldPath.extend_append_child]
        exact allRead_readScalar (by simp) (hchain.child hctx.idField) hv
      · exact allRead_single (.fault rfl)
    split
    · exact allRead_readType t hchain v
    split
    · exact allRead_single (.fault rfl)
    split
    · next e he =>
      refine allRead_single (.fault ?_)
      unfold TypeInfo.field at he
      split at he
      · cases he
      · cases he
        rfl
    · next field hfield =>
      obtain ⟨hmem, rfl⟩ := TypeInfo.mem_fields_of_field hfield
      have hchild := hchain.child (ht field hmem)
      have hne : chain ++ [field.name] ≠ [] := by simp
      simp only [FieldPath.extend_append_child]
      split
      · exact allRead_readScalar hne hchild hv
      · exact allRead_readScalar hne hchild hv
      · exact allRead_readScalar hne hchild hv
      · exact allRead_onType hctx fun nested hnested =>
          allRead_readObject hctx true nested hnested _ hchild (fun _ => hne) v hv.within
      · exact allRead_readList hctx field _ hne hchild v hv.within
      · exact allRead_readList hctx field _ hne hchild v hv.within
      · exact allRead_readList hctx field _ hne hchild v hv.within
      · exact allRead_single (.fault rfl)

theorem allRead_readList (hctx : ctx.Names P) (field : FieldInfo) (chain : List String)
    (hne : chain ≠ []) (hchain : Along P chain) : ∀ v : Value, v.Within filter →
      AllRead ctx P filter a b (readList ctx field (a.extend chain) v)
        (readList ctx field (b.extend chain) v)
  | .null, _ => .nil
  | .obj es, hv => allRead_readListEntries hctx field chain hne hchain es
      fun e he => ⟨es, e.1, he, hv⟩
  | .bool _, _ | .num _, _ | .str _, _ | .arr _, _ => allRead_single (.fault rfl)

theorem allRead_readListEntries (hctx : ctx.Names P) (field : FieldInfo) (chain : List String)
    (hne : chain ≠ []) (hchain : Along P chain) : ∀ es : Record Value,
      (∀ e ∈ es, e.2.Inside filter) →
        AllRead ctx P filter a b (readListEntries ctx field (a.extend chain) es)
          (readListEntries ctx field (b.extend chain) es)
  | [], _ => .nil
  | (key, v) :: rest, hes => by
    obtain ⟨hv, hrest⟩ := List.forall_mem_cons.1 hes
    unfold readListEntries
    refine List.rel_append ?_ (allRead_readListEntries hctx field chain hne hchain rest hrest)
    split
    · exact .nil
    split
    · dsimp only
      split
      · exact allRead_onType hctx fun t ht => allRead_single (.objects hne hchain _ ht hv)
      · exact allRead_single (.values hne hchain _ hv)
    · split
      · exact allRead_onBool fun x => allRead_single (.isList hne hchain x)
      · split
        · next hn => exact allRead_single (.length hne hchain hn)
        · exact allRead_single (.fault rfl)
      · exact allRead_onBool fun x => allRead_single (.isEmpty hne hchain x)
      · exact allRead_single (.fault rfl)

end

/-- **Reading at two paths** gives conditions that go side by side. -/
theorem allRead_read (hctx : ctx.Names P) (ht : ∀ f ∈ t.fields, P f.name) (filter : Value)
    (a b : FieldPath) :
    AllRead ctx P filter a b (read ctx t a filter) (read ctx t b filter) := by
  have hread := allRead_readObject (a := a) (b := b) hctx false t ht [] (List.forall_mem_nil _)
    nofun filter (.self filter)
  have hstart : ∀ p : FieldPath, p.extend [] = p := fun p => by simp [FieldPath.extend]
  rwa [hstart, hstart] at hread

/-- Each condition that is read is one of these. -/
theorem exists_reads (hctx : ctx.Names P) (ht : ∀ f ∈ t.fields, P f.name) {c : Condition}
    (hc : c ∈ read ctx t a filter) : ∃ c', Reads ctx P filter a a c c' :=
  ⟨c, List.forall₂_same.1 (allRead_read hctx ht filter a a) c hc⟩

end Filter

end TypedGraph

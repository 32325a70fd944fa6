import TypedGraph.Filter.Predicate
import TypedGraph.Pattern.Parser
import TypedGraph.Proofs.Filter.Reading
import TypedGraph.Proofs.Schema.Suffix
import TypedGraph.Schema.Sample

/-!
# Proofs/Filter/Fitting — the conditions that a filter is read as

Whatever the filter expression, the conditions that it is read as have a common form.  Their paths
start where the reading started and go on by plain names; conditions on a plain element of a list
are about the element itself and are no conditions on lists; suffixes are not empty.  `Fits` is this
form, and `allFit_read` says that reading has it, where the schema and the configuration use plain
names.

What is read does not depend on the prefix either: reading at a prefix gives the same conditions
behind the prefix (`read_ofDotted`).
-/

namespace TypedGraph

/-! ## Well-named schemas -/

/-- The names of all fields are plain. -/
def TypeInfo.WellNamed (t : TypeInfo) : Prop := ∀ f ∈ t.fields, PlainName f.name

instance (t : TypeInfo) : Decidable t.WellNamed :=
  inferInstanceAs (Decidable (∀ f ∈ t.fields, PlainName f.name))

/-- The names of the fields of all types are plain. -/
def Schema.WellNamed (s : Schema) : Prop := ∀ e ∈ s.types, e.2.WellNamed

instance (s : Schema) : Decidable s.WellNamed :=
  inferInstanceAs (Decidable (∀ e ∈ s.types, e.2.WellNamed))

/-- The names that a schema and a configuration give to fields are plain, and no type has an empty
suffix. -/
structure Context.WellNamed (ctx : Context) : Prop where
  idField : PlainName ctx.config.idField
  typeField : PlainName ctx.config.typeField
  types : ∀ e ∈ ctx.schema.types, e.2.WellNamed
  suffix : ∀ name, ctx.suffix name ≠ ""

namespace Context

/-- The sample schema with the standard configuration, the standard suffixes and patterns that can
be run. -/
def sample : Context := ⟨.sample, .standard, .standard, Pattern.engine⟩

theorem sample_wellNamed : sample.WellNamed where
  idField := by decide
  typeField := by decide
  types := by decide
  suffix := TypeSuffix.standard_ne_empty

end Context

theorem Schema.WellNamed.type {s : Schema} (h : s.WellNamed) {name : String} {t : TypeInfo}
    (ht : s.type name = .ok t) : t.WellNamed := by
  rw [Schema.type] at ht
  split at ht
  · next found =>
    cases ht
    exact h _ (Record.mem_of_get? found)
  · cases ht

theorem Context.WellNamed.type {ctx : Context} (h : ctx.WellNamed) {name : String} {t : TypeInfo}
    (ht : ctx.schema.type name = .ok t) : t.WellNamed :=
  Schema.WellNamed.type h.types ht

theorem TypeInfo.WellNamed.field {t : TypeInfo} (h : t.WellNamed) {key : String} {f : FieldInfo}
    (hf : t.field key = .ok f) : PlainName key := by
  obtain ⟨hmem, rfl⟩ := TypeInfo.mem_fields_of_field hf
  exact h f hmem

theorem Context.WellNamed.names {ctx : Context} (h : ctx.WellNamed) : ctx.Names PlainName :=
  ⟨h.idField, h.typeField, h.types⟩

theorem Context.WellNamed.nonempty {ctx : Context} (h : ctx.WellNamed) : ctx.Names (· ≠ "") :=
  h.names.imp fun _ hname => hname.nonempty

/-! ## The form of conditions -/

namespace FieldPath

/-- The path starts at `root` and goes on by plain names. -/
structure From (root : PathRoot) (p : FieldPath) : Prop where
  root_eq : p.root = root
  plain : ∀ n ∈ p.segments, PlainName n

/-- The path from `root` to what a condition is about: the start itself on a plain element, and a
field behind it on an object. -/
structure Fits (root : PathRoot) (kind : ElementKind) (p : FieldPath) : Prop
    extends p.From root where
  start_iff : p.segments = [] ↔ kind = .scalar

theorem From.child {root : PathRoot} {p : FieldPath} (h : p.From root) {name : String}
    (hname : PlainName name) : (p.child name).Fits root .object where
  root_eq := h.root_eq
  plain n hn := by
    rcases List.mem_append.1 hn with hn | hn
    · exact h.plain n hn
    · exact List.mem_singleton.1 hn ▸ hname
  start_iff := by simp [FieldPath.child]

theorem from_document : document.From .document := ⟨rfl, by simp [document]⟩

theorem from_element (depth : Nat) : (element depth).From (.element depth) :=
  ⟨rfl, by simp [element]⟩

theorem fits_element (depth : Nat) : (element depth).Fits (.element depth) .scalar :=
  ⟨from_element depth, by simp [element]⟩

end FieldPath

namespace Condition

mutual

/-- **The form of a condition** on an object, or on a plain element of a list. -/
def Fits (root : PathRoot) (kind : ElementKind) : Condition → Prop
  | .present p _ | .equals p _ | .differs p _ | .matching p _ => p.Fits root kind
  | .compares p _ operand => p.Fits root kind ∧ operand.isOrderable
  | .isList p _ | .isEmpty p _ => p.Fits root kind ∧ kind = .object
  | .endsWith p suffixes _ => p.Fits root kind ∧ kind = .object ∧ ∀ s ∈ suffixes, s ≠ ""
  | .length p n => p.Fits root kind ∧ kind = .object ∧ (n : Int) ≤ Number.maxU64
  | .elements p _ inner conditions =>
    p.Fits root kind ∧ kind = .object ∧ AllFit (.element p.quantifierDepth) inner conditions
  | .fault _ => True
termination_by structural c => c

/-- The form of several conditions. -/
def AllFit (root : PathRoot) (kind : ElementKind) : List Condition → Prop
  | [] => True
  | c :: cs => Fits root kind c ∧ AllFit root kind cs
termination_by structural cs => cs

end

variable {root : PathRoot} {kind : ElementKind}

theorem allFit_iff : ∀ cs : List Condition, AllFit root kind cs ↔ ∀ c ∈ cs, c.Fits root kind
  | [] => by simp [AllFit]
  | c :: cs => by simp [AllFit, allFit_iff cs]

end Condition

/-! ## Reading gives this form -/

namespace FieldPath

variable {root : PathRoot} {a : FieldPath} {chain : List String}

theorem from_extend (ha : a = ⟨root, []⟩) (h : Along PlainName chain) :
    (a.extend chain).From root := by
  subst ha
  exact ⟨rfl, h⟩

theorem fits_extend (ha : a = ⟨root, []⟩) (hne : chain ≠ []) (h : Along PlainName chain) :
    (a.extend chain).Fits root .object where
  toFrom := from_extend ha h
  start_iff := by
    subst ha
    exact iff_of_false hne nofun

end FieldPath

namespace Filter

open Condition (AllFit allFit_iff)

variable {root : PathRoot} {kind : ElementKind} {ctx : Context} {t : TypeInfo} {path : FieldPath}

theorem Asks.fits (hp : path.Fits root kind) {v : Value} {c : Condition} (h : Asks path v c) :
    c.Fits root kind := by
  cases h with
  | compares _ hoperand => exact ⟨hp, hoperand⟩
  | fault => exact trivial
  | _ => exact hp

/-- **A filter on a plain value** has conditions on that value only. -/
theorem allFit_readScalar (hp : path.Fits root kind) (v : Value) :
    AllFit root kind (readScalar path v) :=
  (allFit_iff _).2 fun _ hc => (asks_of_mem_readScalar hc).fits hp

theorem fits_typeCondition (hctx : ctx.WellNamed) (hp : path.From root) (names : List String)
    (negated : Bool) : (typeCondition ctx t path names negated).Fits root .object := by
  refine typeCondition_cases ⟨hp.child hctx.idField, rfl, fun s hs => ?_⟩
    (hp.child hctx.typeField) (hp.child hctx.typeField)
  obtain ⟨name, -, rfl⟩ := List.mem_map.1 hs
  exact hctx.suffix name

theorem asU64?_le {v : Value} {n : Nat} (h : v.asU64? = some n) : (n : Int) ≤ Number.maxU64 := by
  cases v with
  | num m => cases m with
    | int i =>
      simp only [Value.asU64?, Number.toU64?] at h
      split at h
      · have := Option.some.inj h
        omega
      · cases h
    | float => cases h
  | _ => cases h

/-- Reading at a start gives conditions of the common form. -/
theorem allFit_read_start (hctx : ctx.WellNamed) {t : TypeInfo} (ht : t.WellNamed)
    {root : PathRoot} {a : FieldPath} (ha : a = ⟨root, []⟩) (filter : Value) :
    AllFit root .object (read ctx t a filter) := by
  refine (allFit_iff _).2 fun c hc => ?_
  obtain ⟨c', hreads⟩ := exists_reads hctx.names ht hc
  clear hc
  have hdepth : ∀ chain, (a.extend chain).quantifierDepth = a.quantifierDepth := fun _ => rfl
  cases hreads with
  | value hne hchain hv hc =>
    exact (asks_of_mem_readScalar (placed_mem_readScalar hc _)).fits
      (FieldPath.fits_extend ha hne hchain)
  | type t hchain names negated =>
    exact fits_typeCondition hctx (FieldPath.from_extend ha hchain) names negated
  | present hne hchain => exact FieldPath.fits_extend ha hne hchain
  | isList hne hchain => exact ⟨FieldPath.fits_extend ha hne hchain, rfl⟩
  | isEmpty hne hchain => exact ⟨FieldPath.fits_extend ha hne hchain, rfl⟩
  | length hne hchain hn => exact ⟨FieldPath.fits_extend ha hne hchain, rfl, asU64?_le hn⟩
  | values hne hchain quantifier hv =>
    refine ⟨FieldPath.fits_extend ha hne hchain, rfl, ?_⟩
    rw [hdepth]
    exact allFit_readScalar (FieldPath.fits_element _) _
  | objects hne hchain quantifier hnested hv =>
    refine ⟨FieldPath.fits_extend ha hne hchain, rfl, ?_⟩
    rw [hdepth]
    exact allFit_read_start hctx hnested rfl _
  | fault => exact trivial
termination_by sizeOf filter
decreasing_by exact hv.sizeOf_lt

/-- **Reading gives conditions of the common form.** -/
theorem allFit_read (hctx : ctx.WellNamed) (ht : t.WellNamed) (filter : Value) :
    AllFit .document .object (read ctx t .document filter) :=
  allFit_read_start hctx ht rfl filter

end Filter

/-! ## Reading behind a prefix -/

namespace Condition

/-- The condition with its path behind a prefix. -/
def under (initial : List String) : Condition → Condition
  | .present p expected => .present (p.under initial) expected
  | .isList p expected => .isList (p.under initial) expected
  | .equals p operand => .equals (p.under initial) operand
  | .differs p operand => .differs (p.under initial) operand
  | .compares p comparison operand => .compares (p.under initial) comparison operand
  | .matching p pattern => .matching (p.under initial) pattern
  | .endsWith p suffixes negated => .endsWith (p.under initial) suffixes negated
  | .length p n => .length (p.under initial) n
  | .isEmpty p expected => .isEmpty (p.under initial) expected
  | .elements p quantifier kind inner => .elements (p.under initial) quantifier kind inner
  | .fault e => .fault e

theorem under_nil (c : Condition) : c.under [] = c := by
  cases c <;> rfl

theorem map_under_nil (cs : List Condition) : cs.map (under []) = cs := by
  rw [funext under_nil, List.map_id'']
  exact fun _ => rfl

theorem placed_under (initial : List String) (p : FieldPath) (c : Condition) :
    c.placed (p.under initial) = (c.placed p).under initial := by
  cases c <;> rfl

end Condition

namespace Filter

open Condition (under)

variable (initial : List String) (ctx : Context)

theorem typeCondition_under (t : TypeInfo) (path : FieldPath) (names : List String)
    (negated : Bool) : typeCondition ctx t (path.under initial) names negated =
      (typeCondition ctx t path names negated).under initial := by
  unfold typeCondition
  simp only [FieldPath.under_child]
  split
  · rfl
  · split <;> rfl

variable {initial ctx}

/-- Of two conditions at a path and behind a prefix, the second is the first behind the prefix. -/
theorem Reads.eq_under {filter : Value} {a : FieldPath} {c c' : Condition}
    (h : Reads ctx (fun _ => True) filter a (a.under initial) c c') : c' = c.under initial := by
  have hextend : ∀ chain, (a.under initial).extend chain = (a.extend chain).under initial := by
    intro chain
    simp [FieldPath.extend, FieldPath.under]
  cases h with
  | value => rw [hextend, Condition.placed_under]
  | type => rw [hextend, typeCondition_under]
  | fault => rfl
  | _ => rw [hextend]; rfl

/-- **Reading at a prefix** gives what reading at the document gives, behind the prefix. -/
theorem read_ofDotted (t : TypeInfo) (s : String) (filter : Value) :
    read ctx t (.ofDotted s) filter =
      (read ctx t .document filter).map (under (dottedNames s)) := by
  have hread := allRead_read (t := t) ctx.names_true (fun _ _ => trivial) filter .document
    (.under (dottedNames s) .document)
  have heq : List.Forall₂ Eq ((read ctx t .document filter).map (under (dottedNames s)))
      (read ctx t (.under (dottedNames s) .document) filter) :=
    List.forall₂_map_left_iff.2 (hread.imp fun _ _ h => h.eq_under.symm)
  rw [List.forall₂_eq_eq_eq] at heq
  rw [FieldPath.ofDotted_eq_under, heq]

end Filter

end TypedGraph

import TypedGraph.Proofs.Outcome
import TypedGraph.Schema.Reader

/-!
# Proofs/Schema/Loading — what a schema that loads can be relied on for

Types name each other as members, so that they are read first and finished afterwards, each of them
with a look at the descriptions of all.  A schema that loads is **closed** (`closed_ofValue`): what
is found under a name has the name, and the possible types of an abstract type are object types of
the schema.  Whether the instances of an abstract type are nodes is said by its description, or else
it is so where there are members, all of them node types (`isNode_iff_of_leavesOpen`).
-/

namespace TypedGraph

namespace Record

variable {ε α β : Type} {f : String → α → Except ε β}

/-- What is found among results was made of what is found under the same name. -/
theorem exists_of_get?_mapM {name : String} {y : β} : ∀ {r : Record α} {s : Record β},
    (r.mapM fun e => do return (e.1, ← f e.1 e.2)) = .ok s → get? s name = some y →
      ∃ x, get? r name = some x ∧ f name x = .ok y
  | [], _, h, hy => by
    cases h
    cases hy
  | (k, x) :: r, s, h, hy => by
    obtain ⟨e, s, he, hs, rfl⟩ := mapM_cons_eq_ok.1 h
    obtain ⟨y', hy', he⟩ := bind_eq_ok.1 he
    cases he
    rw [get?] at hy ⊢
    split at hy
    · next hk =>
      cases hy
      exact ⟨x, if_pos hk, hk ▸ hy'⟩
    · next hk =>
      rw [if_neg hk]
      exact exists_of_get?_mapM hs hy

/-- What is found under a name has a result, which is found under the same name. -/
theorem exists_get?_mapM {name : String} {x : α} : ∀ {r : Record α} {s : Record β},
    (r.mapM fun e => do return (e.1, ← f e.1 e.2)) = .ok s → get? r name = some x →
      ∃ y, f name x = .ok y ∧ get? s name = some y
  | [], _, _, hx => by cases hx
  | (k, x') :: r, s, h, hx => by
    obtain ⟨e, s, he, hs, rfl⟩ := mapM_cons_eq_ok.1 h
    obtain ⟨y', hy', he⟩ := bind_eq_ok.1 he
    cases he
    rw [get?] at hx ⊢
    split at hx
    · next hk =>
      cases hx
      exact ⟨y', hk ▸ hy', if_pos hk⟩
    · next hk =>
      rw [if_neg hk]
      exact exists_get?_mapM hs hx

end Record

/-! ## Descriptions -/

namespace TypeDraft

/-- The parts that the description of a type gives, by their names. -/
def given : Value → Record Value
  | .obj es => es
  | .arr xs => parts.zip xs
  | _ => []

/-- **A description leaves open** whether every member of its type is a node. -/
def LeavesOpen (v : Value) : Prop :=
  ∀ x, ("everyMemberImplementsNode", x) ∈ given v → x = .null

/-- The draft of a description is made of its parts. -/
theorem ofValue_eq_ok {v : Value} {kind : TypeKind} {d : TypeDraft}
    (h : ofValue v = .ok (kind, d)) :
    (given v).foldlM (fun d e => d.set e.1 e.2) start = .ok d := by
  have hdraft : ∀ {es : Record Value}, ofValue (.obj es) = .ok (kind, d) →
      es.foldlM (fun d e => d.set e.1 e.2) start = .ok d := by
    intro es h
    dsimp only [ofValue] at h
    obtain ⟨given, hgiven, h⟩ := bind_eq_ok.1 h
    cases hgiven
    obtain ⟨draft, hdraft, h⟩ := bind_eq_ok.1 h
    split at h
    · cases h
      exact hdraft
    · cases h
  cases v with
  | obj es => exact hdraft h
  | arr xs =>
    dsimp only [ofValue] at h
    split at h
    · exact hdraft h
    · cases h
  | _ => cases h

/-- Only one part says whether every member is a node, and null says nothing. -/
theorem everyMemberImplementsNode_set {d d' : TypeDraft} {name : String} {v : Value}
    (hv : name = "everyMemberImplementsNode" → v = .null)
    (hd : d.everyMemberImplementsNode = none) (h : d.set name v = .ok d') :
    d'.everyMemberImplementsNode = none := by
  unfold set at h
  split at h
  case h_6 =>
    obtain ⟨x, hx, h⟩ := bind_eq_ok.1 h
    rw [hv rfl] at hx
    cases hx
    cases h
    rfl
  case h_7 =>
    cases h
    exact hd
  all_goals
    obtain ⟨x, -, h⟩ := bind_eq_ok.1 h
    cases h
    exact hd

theorem everyMemberImplementsNode_of_leavesOpen {v : Value} {kind : TypeKind} {d : TypeDraft}
    (hv : LeavesOpen v) (h : ofValue v = .ok (kind, d)) : d.everyMemberImplementsNode = none := by
  refine foldlM_preserves (P := fun d => d.everyMemberImplementsNode = none) ?_ (ofValue_eq_ok h)
    rfl
  rintro d ⟨name, x⟩ hx d' hd hset
  exact everyMemberImplementsNode_set (fun hname => hv x (hname ▸ hx)) hd hset

end TypeDraft

namespace Schema

/-! ## Types -/

variable {schema : Schema} {doc : Value} {drafts : Record (TypeKind × TypeDraft)}

theorem type_eq_ok {name : String} {t : TypeInfo} :
    schema.type name = .ok t ↔ Record.get? schema.types name = some t := by
  unfold type
  cases Record.get? schema.types name with
  | none => exact ⟨nofun, nofun⟩
  | some t' => exact ⟨fun h => congrArg some (Except.ok.inj h), fun h => by cases h; rfl⟩

/-- A type that is finished: its possible types are object types, as the descriptions say. -/
theorem finishType_eq_ok {name : String} {kind : TypeKind} {d : TypeDraft} {t : TypeInfo}
    (h : finishType drafts name kind d = .ok t) :
    (∀ m ∈ d.possibleTypes kind, (objectIsNode? drafts m).isSome) ∧
      t = ⟨name, kind, if kind.hasFields then d.fields else [], d.possibleTypes kind,
        draftIsNode drafts kind d⟩ := by
  unfold finishType at h
  dsimp only at h
  split at h
  · cases h
  · next hfind =>
    refine ⟨fun m hm => ?_, (Except.ok.inj h).symm⟩
    have hsome := List.find?_eq_none.1 hfind m hm
    rwa [Option.isNone_iff_eq_none, ← ne_eq, ← Option.isSome_iff_ne_none] at hsome

/-- **A schema is finished from descriptions** that are read from a document: a name has a type
where it has a description. -/
structure FinishedFrom (drafts : Record (TypeKind × TypeDraft)) (doc : Value) (schema : Schema) :
    Prop where
  read : ∀ {name v}, doc.get? name = some v →
    ∃ kind d, TypeDraft.ofValue v = .ok (kind, d) ∧ Record.get? drafts name = some (kind, d)
  type : ∀ {name t}, schema.type name = .ok t →
    ∃ kind d, Record.get? drafts name = some (kind, d) ∧ finishType drafts name kind d = .ok t
  draft : ∀ {name kind d}, Record.get? drafts name = some (kind, d) →
    ∃ t, schema.type name = .ok t ∧ finishType drafts name kind d = .ok t

theorem exists_finishedFrom (h : ofValue doc = .ok schema) :
    ∃ drafts, FinishedFrom drafts doc schema := by
  cases doc with
  | obj es =>
    obtain ⟨drafts, hdrafts, h⟩ := bind_eq_ok.1 h
    obtain ⟨types, htypes, h⟩ := bind_eq_ok.1 h
    cases h
    let finish := fun name (x : TypeKind × TypeDraft) => finishType drafts name x.1 x.2
    refine ⟨drafts, fun {name v} hv => ?_, fun {name t} ht => ?_, fun {name kind d} hd => ?_⟩
    · obtain ⟨⟨kind, d⟩, hd, hfound⟩ :=
        Record.exists_get?_mapM (f := fun _ => TypeDraft.ofValue) hdrafts hv
      exact ⟨kind, d, hd, hfound⟩
    · obtain ⟨⟨kind, d⟩, hfound, hfinish⟩ :=
        Record.exists_of_get?_mapM (f := finish) htypes (type_eq_ok.1 ht)
      exact ⟨kind, d, hfound, hfinish⟩
    · obtain ⟨t, hfinish, hfound⟩ := Record.exists_get?_mapM (f := finish) htypes hd
      exact ⟨t, type_eq_ok.2 hfound, hfinish⟩
  | _ => cases h

/-- A name is described as an object type where it has an object type. -/
theorem FinishedFrom.objectIsNode?_eq_some (h : FinishedFrom drafts doc schema) {name : String}
    {b : Bool} (hname : objectIsNode? drafts name = some b) :
    ∃ own, schema.type name = .ok own ∧ own.kind = .object ∧ own.isNode = b := by
  unfold objectIsNode? at hname
  split at hname
  · next d hd =>
    cases hname
    obtain ⟨own, hown, hfinish⟩ := h.draft hd
    obtain ⟨-, rfl⟩ := finishType_eq_ok hfinish
    exact ⟨_, hown, rfl, rfl⟩
  · cases hname

/-- **A schema is closed**: the type of a name has the name, and possible types are object types of
the schema. -/
structure Closed (schema : Schema) : Prop where
  name : ∀ {name t}, schema.type name = .ok t → t.name = name
  member : ∀ {name t}, schema.type name = .ok t → ∀ m ∈ t.possibleTypes,
    ∃ own, schema.type m = .ok own ∧ own.kind = .object

/-- **A schema that loads is closed.** -/
theorem closed_ofValue (h : ofValue doc = .ok schema) : schema.Closed := by
  obtain ⟨drafts, hfrom⟩ := exists_finishedFrom h
  refine ⟨fun ht => ?_, fun ht m hm => ?_⟩
  · obtain ⟨kind, d, -, hfinish⟩ := hfrom.type ht
    obtain ⟨-, rfl⟩ := finishType_eq_ok hfinish
    rfl
  · obtain ⟨kind, d, -, hfinish⟩ := hfrom.type ht
    obtain ⟨hobjects, rfl⟩ := finishType_eq_ok hfinish
    obtain ⟨b, hb⟩ := Option.isSome_iff_exists.1 (hobjects m hm)
    obtain ⟨own, hown, hkind, -⟩ := hfrom.objectIsNode?_eq_some hb
    exact ⟨own, hown, hkind⟩

/-- **An abstract type is a node type** whose description leaves that open where it has possible
types, and all of them are node types. -/
theorem isNode_iff_of_leavesOpen (h : ofValue doc = .ok schema) {name : String} {v : Value}
    {t : TypeInfo} (hv : doc.get? name = some v) (hopen : TypeDraft.LeavesOpen v)
    (ht : schema.type name = .ok t) (habstract : t.isAbstract = true) :
    t.isNode = true ↔ t.possibleTypes ≠ [] ∧
      ∀ m ∈ t.possibleTypes, ∃ own, schema.type m = .ok own ∧ own.isNode = true := by
  obtain ⟨drafts, hfrom⟩ := exists_finishedFrom h
  obtain ⟨kind, d, hfound, hfinish⟩ := hfrom.type ht
  obtain ⟨kind', d', hd, hfound'⟩ := hfrom.read hv
  cases hfound.symm.trans hfound'
  obtain ⟨hobjects, rfl⟩ := finishType_eq_ok hfinish
  have hnone := TypeDraft.everyMemberImplementsNode_of_leavesOpen hopen hd
  have hmember : ∀ m ∈ d.possibleTypes kind, ((objectIsNode? drafts m).getD false = true ↔
      ∃ own, schema.type m = .ok own ∧ own.isNode = true) := by
    intro m hm
    obtain ⟨b, hb⟩ := Option.isSome_iff_exists.1 (hobjects m hm)
    obtain ⟨own, hown, -, hnode⟩ := hfrom.objectIsNode?_eq_some hb
    rw [hb, Option.getD_some, ← hnode]
    constructor
    · exact fun hnode => ⟨own, hown, hnode⟩
    · rintro ⟨own', hown', hnode⟩
      cases hown.symm.trans hown'
      exact hnode
  have hisNode : draftIsNode drafts kind d = (!(d.possibleTypes kind).isEmpty &&
      (d.possibleTypes kind).all fun m => (objectIsNode? drafts m).getD false) := by
    cases kind with
    | object => cases habstract
    | enum => cases habstract
    | interface => rw [draftIsNode, hnone]; rfl
    | union => rw [draftIsNode, hnone]; rfl
  dsimp only
  rw [hisNode, Bool.and_eq_true, Bool.not_eq_true', List.isEmpty_eq_false_iff, List.all_eq_true]
  exact and_congr_right fun _ => forall₂_congr hmember

end Schema

end TypedGraph

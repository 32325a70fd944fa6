import Mathlib.Data.List.Pairwise
import TypedGraph.Proofs.Update.Leaves

/-!
# Proofs/Update/Conflict — compiled updates have no conflicts

The document of an update expression makes the changes of its leaves, each as it is
(`changes_compile`): as the chains of leaves are apart, no two operands meet when the documents of
the fields are merged.  So no change is at the path of another one, or within it, and the order of
fields plays no role (`compile_unconflicted`).
-/

namespace TypedGraph

namespace Update

variable {ctx : Context} {t : TypeInfo} {path : FieldPath}

/-! ## Compiling entry by entry -/

/-- The update of one entry of an update expression. -/
def entryUpdate (ctx : Context) (t : TypeInfo) (path : FieldPath) (e : String × Value) :
    Except Error UpdateDocument := do
  let field ← t.field e.1
  let path' := path.child e.1
  fieldUpdate ctx field path' e.2 fun nested => compile ctx nested path' e.2

theorem compileEntries_cons (e : String × Value) (rest : Record Value) (doc : UpdateDocument) :
    compileEntries ctx t path (e :: rest) doc =
      entryUpdate ctx t path e >>= fun update =>
        compileEntries ctx t path rest (doc.merge update) := by
  rw [entryUpdate, bind_assoc]
  rfl

/-- **The updates of the entries** are compiled each on its own and then merged. -/
theorem compileEntries_eq (es : Record Value) (doc : UpdateDocument) :
    compileEntries ctx t path es doc =
      (es.mapM (entryUpdate ctx t path)).map (·.foldl UpdateDocument.merge doc) := by
  induction es generalizing doc with
  | nil => rfl
  | cons e rest ih =>
    rw [compileEntries_cons, List.mapM_cons]
    cases entryUpdate ctx t path e with
    | error e => rfl
    | ok update =>
      refine (ih (doc.merge update)).trans ?_
      cases rest.mapM (entryUpdate ctx t path) <;> rfl

/-- **An object is accepted** where its entries are, unless the type has no fields. -/
theorem compile_obj_eq_ok {es : Record Value} {doc : UpdateDocument} :
    compile ctx t path (.obj es) = .ok doc ↔
      (t.kind.hasFields = true ∨ es = []) ∧
        ∃ updates, es.mapM (entryUpdate ctx t path) = .ok updates ∧
          UpdateDocument.mergeAll updates = doc := by
  have hrefused : (!t.kind.hasFields && !es.isEmpty) = true ↔
      ¬ (t.kind.hasFields = true ∨ es = []) := by simp
  rw [compile, compileEntries_eq]
  split
  · next h => exact ⟨nofun, fun haccepted => absurd haccepted.1 (hrefused.1 h)⟩
  · next h =>
    rw [map_eq_ok]
    exact ⟨fun haccepted => ⟨not_imp_comm.1 hrefused.2 h, haccepted⟩, fun haccepted => haccepted.2⟩

theorem accepted_obj_iff {es : Record Value} :
    (∃ doc, compile ctx t path (.obj es) = .ok doc) ↔
      (t.kind.hasFields = true ∨ es = []) ∧
        ∀ e ∈ es, ∃ update, entryUpdate ctx t path e = .ok update := by
  constructor
  · rintro ⟨doc, h⟩
    obtain ⟨hfields, updates, hupdates, -⟩ := compile_obj_eq_ok.1 h
    refine ⟨hfields, fun e he => ?_⟩
    obtain ⟨update, -, hupdate⟩ := exists_ok_of_mapM hupdates e he
    exact ⟨update, hupdate⟩
  · rintro ⟨hfields, hentries⟩
    obtain ⟨updates, hupdates⟩ := exists_mapM_eq_ok hentries
    exact ⟨_, compile_obj_eq_ok.2 ⟨hfields, updates, hupdates, rfl⟩⟩

/-! ## Changes of compiled documents -/

theorem fieldUpdate_of_not_embedded {field : FieldInfo} {v : Value} (h : ¬ IsEmbedded field v)
    (nested nested' : TypeInfo → Except Error UpdateDocument) :
    fieldUpdate ctx field path v nested = fieldUpdate ctx field path v nested' := by
  unfold fieldUpdate
  cases hcategory : field.category with
  | object =>
    cases v with
    | obj es => exact absurd ⟨hcategory, rfl⟩ h
    | _ => rfl
  | _ => rfl

theorem fieldUpdate_embedded {field : FieldInfo} (hcategory : field.category = .object)
    (es : Record Value) (nested : TypeInfo → Except Error UpdateDocument) :
    fieldUpdate ctx field path (.obj es) nested = ctx.schema.type field.typeName >>= nested := by
  unfold fieldUpdate
  rw [hcategory]

theorem entryUpdate_embedded {name : String} {field : FieldInfo} (hfield : t.field name = .ok field)
    (hcategory : field.category = .object) (es : Record Value) :
    entryUpdate ctx t path (name, .obj es) =
      ctx.schema.type field.typeName >>= fun nested =>
        compile ctx nested (path.child name) (.obj es) := by
  rw [entryUpdate, hfield]
  exact fieldUpdate_embedded hcategory es _

/-- **What an accepted entry is**: a leaf, or an embedded object that is accepted. -/
theorem accepted_entry {name : String} {v : Value} {update : UpdateDocument}
    (h : entryUpdate ctx t path (name, v) = .ok update) :
    (∃ l, leavesOf ctx t (name, v) = [l] ∧ l.document ctx path = .ok update) ∨
      ∃ f nested, ctx.schema.type f = .ok nested ∧
        leavesOf ctx t (name, v) = (leaves ctx nested v).map (Leaf.under name) ∧
        compile ctx nested (path.child name) v = .ok update := by
  obtain ⟨field, hfield, hupdate⟩ := bind_eq_ok.1 h
  by_cases hembedded : IsEmbedded field v
  · obtain ⟨es, rfl⟩ := hembedded.exists_eq_obj
    rw [entryUpdate_embedded hfield hembedded.1] at h
    obtain ⟨nested, htype, hnested⟩ := bind_eq_ok.1 h
    refine .inr ⟨field.typeName, nested, htype, ?_, hnested⟩
    rw [leavesOf_embedded hfield hembedded.1, htype]
  · refine .inl ⟨⟨[name], field, v⟩, ?_, ?_⟩
    · simp only [leavesOf, hfield, fieldLeaves_of_not_embedded hembedded]
    · exact (fieldUpdate_of_not_embedded hembedded _ _).trans hupdate

/-- **Every leaf of an accepted expression is accepted.** -/
theorem exists_document {v : Value} {doc : UpdateDocument} (h : compile ctx t path v = .ok doc) :
    ∀ l ∈ leaves ctx t v, ∃ d, l.document ctx path = .ok d := by
  induction v using Value.entryInduction generalizing t path doc with
  | plain v hv =>
    rw [leaves_plain hv]
    exact nofun
  | obj es ih =>
    obtain ⟨-, updates, hupdates, -⟩ := compile_obj_eq_ok.1 h
    intro l hl
    obtain ⟨⟨name, v⟩, he, hl⟩ := exists_mem_leavesOf hl
    obtain ⟨update, -, hupdate⟩ := exists_ok_of_mapM hupdates _ he
    rcases accepted_entry hupdate with ⟨l', hleaves, hdocument⟩ | ⟨_, nested, -, hleaves, hnested⟩
    · rw [hleaves] at hl
      exact List.mem_singleton.1 hl ▸ ⟨update, hdocument⟩
    · rw [hleaves] at hl
      obtain ⟨l', hl', rfl⟩ := List.mem_map.1 hl
      rw [Leaf.document_under]
      exact ih _ he hnested l' hl'

/-- **A compiled document makes the changes of the leaves**, as they are. -/
theorem changes_compile (hctx : ctx.schema.WellNamed) (ht : t.WellNamed)
    {v : Value} (hv : v.hasDistinctNames) {doc : UpdateDocument}
    (h : compile ctx t path v = .ok doc) :
    doc.changes.Perm ((leaves ctx t v).flatMap (Leaf.changes ctx path)) := by
  induction v using Value.entryInduction generalizing t path doc with
  | plain v hplain =>
    have hempty : compile ctx t path v = .ok .empty := by
      cases v with
      | obj => cases hplain
      | _ => rfl
    rw [leaves_plain hplain]
    cases hempty.symm.trans h
    exact .refl _
  | obj es ih =>
    obtain ⟨-, updates, hupdates, rfl⟩ := compile_obj_eq_ok.1 h
    have hentries : (updates.flatMap UpdateDocument.changes).Perm
        (es.flatMap fun e => (leavesOf ctx t e).flatMap (Leaf.changes ctx path)) := by
      refine perm_flatMap_of_mapM hupdates fun (name, v) he update hupdate => ?_
      rcases accepted_entry hupdate with
        ⟨l, hleaves, hdocument⟩ | ⟨_, nested, htype, hleaves, hnested⟩
      · rw [hleaves, List.flatMap_singleton, Leaf.changes, hdocument]
      · have hv := (Value.hasDistinctNames_obj_iff.1 hv).2 _ he
        have hchanges := ih _ he (hctx.type htype) hv hnested
        rw [hleaves, List.flatMap_map]
        simpa only [Leaf.changes_under] using hchanges
    rw [← List.flatMap_assoc, ← leaves_obj] at hentries
    -- the leaves are apart, so that no two operands meet in the merges
    have hpaths := distinctPaths_of_pairwise (pairwise_changes hctx ht path hv)
    exact (UpdateDocument.changes_mergeAll (hpaths.perm hentries)).trans hentries

/-! ## Fields in another order -/

/-- **Update expressions with their fields in another order**, those of embedded objects included.
The type may be one that the schema lacks: of the fields of such a type nothing is known. -/
inductive Rearranged (ctx : Context) : Except Error TypeInfo → Value → Value → Prop where
  | refl (type : Except Error TypeInfo) (v : Value) : Rearranged ctx type v v
  | perm (type : Except Error TypeInfo) {es es' : Record Value} (h : es.Perm es') :
      Rearranged ctx type (.obj es) (.obj es')
  | embedded {t : TypeInfo} {name : String} {field : FieldInfo} {v v' : Value}
      (before after : Record Value) (hfield : t.field name = .ok field)
      (hcategory : field.category = .object)
      (h : Rearranged ctx (ctx.schema.type field.typeName) v v') :
      Rearranged ctx (.ok t) (.obj (before ++ (name, v) :: after))
        (.obj (before ++ (name, v') :: after))
  | trans {type : Except Error TypeInfo} {v v' v'' : Value} (h : Rearranged ctx type v v')
      (h' : Rearranged ctx type v' v'') : Rearranged ctx type v v''

namespace Rearranged

variable {type : Except Error TypeInfo} {v v' : Value}

theorem eq_or_obj (h : Rearranged ctx type v v') :
    v = v' ∨ ∃ es es', v = .obj es ∧ v' = .obj es' := by
  induction h with
  | refl => exact .inl rfl
  | perm | embedded => exact .inr ⟨_, _, rfl, rfl⟩
  | trans _ _ ih ih' =>
    rcases ih with rfl | ⟨es, _, rfl, rfl⟩
    · exact ih'
    · rcases ih' with rfl | ⟨_, es', _, rfl⟩
      · exact .inr ⟨_, _, rfl, rfl⟩
      · exact .inr ⟨es, es', rfl, rfl⟩

theorem hasDistinctNames (h : Rearranged ctx type v v') (hv : v.hasDistinctNames) :
    v'.hasDistinctNames := by
  induction h with
  | refl => exact hv
  | perm type hperm =>
    rw [Value.hasDistinctNames_obj_iff] at hv ⊢
    exact ⟨(hperm.map Prod.fst).nodup_iff.1 hv.1, fun e he => hv.2 e (hperm.mem_iff.2 he)⟩
  | embedded before after _ _ _ ih =>
    rw [Value.hasDistinctNames_obj_iff, List.forall_mem_append, List.forall_mem_cons] at hv ⊢
    obtain ⟨hnames, hbefore, hv, hafter⟩ := hv
    refine ⟨?_, hbefore, ih hv, hafter⟩
    rw [Record.names, List.map_append, List.map_cons] at hnames ⊢
    exact hnames
  | trans _ _ ih ih' => exact ih' (ih hv)

/-- **The leaves are the same** in another order. -/
theorem leaves_perm (h : Rearranged ctx type v v') (htype : type = .ok t) :
    (leaves ctx t v).Perm (leaves ctx t v') := by
  induction h generalizing t with
  | refl => exact .refl _
  | perm type hperm =>
    rw [leaves_obj, leaves_obj]
    exact hperm.flatMap fun _ _ => .refl _
  | @embedded owner name field v v' before after hfield hcategory h ih =>
    cases htype
    have hentry : (leavesOf ctx owner (name, v)).Perm (leavesOf ctx owner (name, v')) := by
      rcases h.eq_or_obj with rfl | ⟨es, es', rfl, rfl⟩
      · exact .refl _
      · rw [leavesOf_embedded hfield hcategory, leavesOf_embedded hfield hcategory]
        cases hnested : ctx.schema.type field.typeName with
        | error e => exact .refl _
        | ok nested => exact (ih hnested).map _
    rw [leaves_obj, leaves_obj, List.flatMap_append, List.flatMap_append, List.flatMap_cons,
      List.flatMap_cons]
    exact (hentry.append_right _).append_left _
  | trans _ _ ih ih' => exact (ih htype).trans (ih' htype)

/-- **Both expressions are accepted, or neither is.** -/
theorem accepted_iff (h : Rearranged ctx type v v') (path : FieldPath) :
    (∃ doc, (type >>= fun t => compile ctx t path v) = .ok doc) ↔
      ∃ doc, (type >>= fun t => compile ctx t path v') = .ok doc := by
  induction h generalizing path with
  | refl => exact .rfl
  | @perm type es es' hperm =>
    cases type with
    | error e => exact .rfl
    | ok t =>
      have hempty : es = [] ↔ es' = [] :=
        ⟨fun h => (h ▸ hperm).nil_eq.symm, fun h => (h ▸ hperm).eq_nil⟩
      refine accepted_obj_iff.trans (.trans ?_ accepted_obj_iff.symm)
      rw [hempty]
      exact and_congr_right' (forall_congr' fun e => imp_congr_left hperm.mem_iff)
  | @embedded t name field v v' before after hfield hcategory h ih =>
    have hentry : (∃ update, entryUpdate ctx t path (name, v) = .ok update) ↔
        ∃ update, entryUpdate ctx t path (name, v') = .ok update := by
      rcases h.eq_or_obj with rfl | ⟨es, es', rfl, rfl⟩
      · exact .rfl
      · rw [entryUpdate_embedded hfield hcategory, entryUpdate_embedded hfield hcategory]
        exact ih (path.child name)
    refine accepted_obj_iff.trans (.trans ?_ accepted_obj_iff.symm)
    simp only [List.append_eq_nil_iff, List.cons_ne_nil, List.forall_mem_append,
      List.forall_mem_cons, hentry]
  | trans _ _ ih ih' => exact (ih path).trans (ih' path)

end Rearranged

/-! ## Conflicts -/

/-- **A document without conflicts** for an update expression. -/
structure Unconflicted (ctx : Context) (t : TypeInfo) (path : FieldPath) (u : Value)
    (doc : UpdateDocument) : Prop where
  /-- The leaves are updates of declared fields in the expression. -/
  located : ∀ l ∈ leaves ctx t u, Declares ctx t l.chain l.field ∧
    u.lookup? l.chain = some l.update
  /-- Every path goes on from the given one by a chain of declared names. -/
  declared : ∀ c ∈ doc.changes, ∃ chain field, chain ≠ [] ∧ Declares ctx t chain field ∧
    c.path = (path.extend chain).dotted
  /-- No path is that of another change or the beginning of it, under whatever operators. -/
  apart : doc.changes.Pairwise fun c c' => Apart c.segments c'.segments
  /-- Every change is that of one leaf, whose document has the operand as it is. -/
  source : ∀ c ∈ doc.changes, ∃! l, l ∈ leaves ctx t u ∧
    l.document ctx path = .ok (.single c.operator c.path c.operand)
  /-- No leaf is lost. -/
  complete : ∀ l ∈ leaves ctx t u, ∃ d, l.document ctx path = .ok d ∧
    ∀ c ∈ d.changes, c ∈ doc.changes

section WellNamed

variable (hctx : ctx.schema.WellNamed) (ht : t.WellNamed)

include hctx ht

/-- A change is made by one leaf only. -/
theorem eq_of_mem_changes {u : Value} (hu : u.hasDistinctNames) {l l' : Leaf}
    (hl : l ∈ leaves ctx t u) (hl' : l' ∈ leaves ctx t u) {c : UpdateDocument.Change}
    (hc : c ∈ l.changes ctx path) (hc' : c ∈ l'.changes ctx path) : l = l' := by
  obtain ⟨initial, hsegments⟩ := exists_segments_eq hctx ht path u
  have hchain : l.chain = l'.chain :=
    List.append_cancel_left ((hsegments l hl c hc).symm.trans (hsegments l' hl' c hc'))
  have : Std.Symm fun l l' : Leaf => Apart l.chain l'.chain := ⟨fun _ _ h => h.symm⟩
  by_contra hne
  exact ((pairwise_leaves hu).forall hl hl' hne).ne hchain

theorem unconflicted_compile {u : Value} (hu : u.hasDistinctNames) {doc : UpdateDocument}
    (h : compile ctx t path u = .ok doc) : Unconflicted ctx t path u doc := by
  have hchanges := changes_compile hctx ht hu h
  have hleaf : ∀ c ∈ doc.changes, ∃ l ∈ leaves ctx t u, c ∈ l.changes ctx path := fun c hc =>
    List.mem_flatMap.1 (hchanges.mem_iff.1 hc)
  refine ⟨fun l hl => ⟨declares_of_mem_leaves hl, lookup?_of_mem_leaves hu hl⟩, fun c hc => ?_, ?_,
    fun c hc => ?_, fun l hl => ?_⟩
  · obtain ⟨l, hl, hc⟩ := hleaf c hc
    have hdeclares := declares_of_mem_leaves hl
    exact ⟨l.chain, l.field, hdeclares.ne_nil, hdeclares, Leaf.path_of_mem_changes hc⟩
  · exact (hchanges.pairwise_iff Apart.symm).2 (pairwise_changes hctx ht path hu)
  · obtain ⟨l, hl, hc⟩ := hleaf c hc
    exact ⟨l, ⟨hl, Leaf.mem_changes_iff.1 hc⟩, fun l' ⟨hl', hc'⟩ =>
      eq_of_mem_changes hctx ht hu hl' hl (Leaf.mem_changes_iff.2 hc') hc⟩
  · obtain ⟨d, hd⟩ := exists_document h l hl
    refine ⟨d, hd, fun c hc => hchanges.mem_iff.2 (List.mem_flatMap.2 ⟨l, hl, ?_⟩)⟩
    rwa [Leaf.changes, hd]

end WellNamed

theorem keyed_compile {u : Value} {doc : UpdateDocument} (h : compile ctx t path u = .ok doc) :
    doc.Keyed := by
  cases u with
  | obj es =>
    obtain ⟨-, updates, -, rfl⟩ := compile_obj_eq_ok.1 h
    exact .mergeAll updates
  | _ =>
    cases h
    exact .empty

/-- **Compiled updates never conflict with themselves.**  Where the names of fields are plain and no
object of the expression gives a name twice, every change is that of one field, at a path apart from
those of all others; and the order of the fields, also of those of embedded objects, decides neither
on what is accepted nor on the document as a map. -/
theorem compile_unconflicted (hctx : ctx.schema.WellNamed) (ht : t.WellNamed)
    (path : FieldPath) {u : Value} (hu : u.hasDistinctNames) :
    (∀ doc, compile ctx t path u = .ok doc → Unconflicted ctx t path u doc) ∧
      ∀ u', Rearranged ctx (.ok t) u u' →
        ((∃ doc, compile ctx t path u = .ok doc) ↔ ∃ doc, compile ctx t path u' = .ok doc) ∧
          ∀ doc doc', compile ctx t path u = .ok doc → compile ctx t path u' = .ok doc' →
            doc.Alike doc' := by
  refine ⟨fun doc => unconflicted_compile hctx ht hu, fun u' hu' =>
    ⟨hu'.accepted_iff path, fun doc doc' h h' => ?_⟩⟩
  have hleaves := (hu'.leaves_perm rfl).flatMap fun l _ => .refl (l.changes ctx path)
  have hchanges := changes_compile hctx ht hu h
  have hchanges' := changes_compile hctx ht (hu'.hasDistinctNames hu) h'
  exact (keyed_compile h).alike_of_perm (keyed_compile h')
    (hchanges.trans (hleaves.trans hchanges'.symm))

/-- A user who moves and has a birthday. -/
theorem compile_unconflicted_user :
    let user := (Schema.sample.types.head (List.cons_ne_nil _ _)).2
    let city := ("city", Value.str "Oslo")
    let zip := ("zip", Value.single "clear" (.bool true))
    let age := ("age", Value.single "add" (.int 1))
    let u : Value := .obj [("address", .obj [city, zip]), age]
    let u' : Value := .obj [age, ("address", .obj [zip, city])]
    ∃ doc doc', compile .sample user (.ofDotted "node") u = .ok doc ∧
      compile .sample user (.ofDotted "node") u' = .ok doc' ∧
      doc.changes.map UpdateDocument.Change.segments =
        [["node", "address", "city"], ["node", "address", "zip"], ["node", "age"]] ∧
      Unconflicted .sample user (.ofDotted "node") u doc ∧ doc.Alike doc' := by
  intro user city zip age u u'
  have haddress : Rearranged .sample (.ok user) u (.obj [("address", .obj [zip, city]), age]) :=
    .embedded [] [age] rfl rfl (.perm _ (.swap _ _ _))
  have hrearranged : Rearranged .sample (.ok user) u u' := .trans haddress (.perm _ (.swap _ _ _))
  obtain ⟨hunconflicted, hreordered⟩ := @compile_unconflicted .sample user (by decide) (by decide)
    (.ofDotted "node") u rfl
  obtain ⟨-, halike⟩ := hreordered u' hrearranged
  have hdoc : compile .sample user (.ofDotted "node") u = .ok _ := rfl
  have hdoc' : compile .sample user (.ofDotted "node") u' = .ok _ := rfl
  exact ⟨_, _, hdoc, hdoc', rfl, hunconflicted _ hdoc, halike _ _ hdoc hdoc'⟩

end Update

end TypedGraph

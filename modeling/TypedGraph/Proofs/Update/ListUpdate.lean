import TypedGraph.Proofs.Update.Conflict
import TypedGraph.Proofs.Update.ElementFilter

/-!
# Proofs/Update/ListUpdate — the update of a list, compiled and applied

An expression that updates nothing but a list compiles to the document of that list
(`compile_single_list`).  The walk that compiles the update and the walk that applies it come to the
same edit, or to the same error in it (`list_eq`, `applyListUpdate_eq`).  So both fail together: of
all edits only a deletion by a filter can still fail, and it is refused by the condition of the
store as it is by the predicate (`parallel_edit_apply`).

Where the document is empty, no element is inserted, moved or lost; but a missing list becomes an
empty one where the update is an object (`applyListUpdate_of_compile_isEmpty`).
-/

namespace TypedGraph

/-! ## What an update is read as -/

/-- A filter is read from an object, which it is. -/
theorem DeleteTarget.eq_of_read_eq_filter {v filter : Value}
    (h : DeleteTarget.read v = .filter filter) : v = filter ∧ v.isObject = true := by
  cases v with
  | obj es => exact ⟨DeleteTarget.filter.inj h, rfl⟩
  | _ => cases h

namespace Update

variable {ctx : Context} {t : TypeInfo} {path : FieldPath} {field : FieldInfo}

/-! ## An expression with one list -/

theorem local_empty_merge {d : UpdateDocument} (h : Local path d) :
    UpdateDocument.empty.merge d = d := by
  rcases h with rfl | ⟨operator, operand, rfl⟩ <;> rfl

theorem fieldUpdate_of_isList (hlist : field.category.isList = true) (v : Value)
    (nested : TypeInfo → Except Error UpdateDocument) :
    fieldUpdate ctx field path v nested = list ctx field path v := by
  unfold fieldUpdate
  cases hcategory : field.category with
  | scalarList | nodeList | objectList => rfl
  | _ =>
    rw [hcategory] at hlist
    exact absurd hlist Bool.false_ne_true

/-- **The document of an expression that updates one list** is that of the list. -/
theorem compile_single_list (hkind : t.kind.hasFields = true)
    (hfield : t.field field.name = .ok field) (hlist : field.category.isList = true) (v : Value) :
    compile ctx t path (.obj [(field.name, v)]) = list ctx field (path.child field.name) v := by
  have hentry : entryUpdate ctx t path (field.name, v) =
      list ctx field (path.child field.name) v := by
    rw [entryUpdate, hfield]
    exact fieldUpdate_of_isList hlist v _
  have haccepted : (!t.kind.hasFields && !List.isEmpty [(field.name, v)]) = false := by
    rw [hkind]
    rfl
  rw [compile, haccepted, if_neg Bool.false_ne_true, compileEntries_cons, hentry]
  cases hupdate : list ctx field (path.child field.name) v with
  | error e => rfl
  | ok update => exact congrArg Except.ok (local_empty_merge (local_list hupdate))

/-! ## Where the update is refused -/

/-- **An edit is compiled where it is applied**, and else both fail with the same error. -/
theorem parallel_edit_apply (hctx : ctx.Names (· ≠ "")) {e : ListEdit}
    (he : ∀ filter, e = .delete (.filter filter) →
      filter.hasDistinctNames ∧ Filter.PatternsAccepted ctx.patterns filter)
    (current : Option (List Value)) :
    Parallel (fun _ _ => True) (edit ctx field path e) (e.apply ctx field current) := by
  cases e with
  | delete target =>
    have htarget : Parallel (fun _ _ => True) (pullOperand ctx field target)
        (target.remove ctx field (current.getD [])) := by
      cases target with
      | literals values =>
        -- the operand has one shape for a single literal and one for any other number of them
        rcases values with _ | ⟨v, _ | ⟨w, values⟩⟩ <;> exact .ok trivial
      | filter filter =>
        obtain ⟨hnames, hpatterns⟩ := he filter rfl
        exact (parallel_elementFilter hctx hnames hpatterns).bind fun _ _ _ _ _ => .ok trivial
    exact htarget.map fun _ _ _ => trivial
  | _ => exact .ok trivial

/-- A deletion by a filter is asked for by an object that gives the filter. -/
theorem get?_delete_of_asked {update filter : Value}
    (h : ListEdit.Asked field update (.delete (.filter filter))) :
    update.get? "delete" = some filter := by
  generalize htarget : DeleteTarget.filter filter = target at h
  cases h with
  | @delete es v _ _ hdelete =>
    obtain ⟨rfl, -⟩ := DeleteTarget.eq_of_read_eq_filter htarget.symm
    exact hdelete

/-- **The update of a list is refused by both or by none.**  Compiled and applied, to whatever list,
it fails with the same error. -/
theorem applyListUpdate_eq_error_iff (hctx : ctx.Names (· ≠ "")) (hkind : t.kind.hasFields = true)
    (hfield : t.field field.name = .ok field) (hlist : field.category.isList = true)
    {update : Value} (hnames : update.hasDistinctNames)
    (hpatterns : ∀ filter, update.get? "delete" = some filter →
      Filter.PatternsAccepted ctx.patterns filter)
    (current : Option (List Value)) (e : Error) :
    applyListUpdate ctx field current update = .error e ↔
      compile ctx t path (.obj [(field.name, update)]) = .error e := by
  have hparallel : Parallel (fun _ _ => True)
      (compile ctx t path (.obj [(field.name, update)]))
      (applyListUpdate ctx field current update) := by
    rw [compile_single_list hkind hfield hlist, list_eq, applyListUpdate_eq ctx hlist]
    refine (Parallel.refl (ListEdit.read field update)).bind fun edit _ hedit _ heq => ?_
    subst heq
    refine parallel_edit_apply hctx (fun filter hfilter => ?_) current
    subst hfilter
    have hdelete := get?_delete_of_asked (ListEdit.asked_of_read hedit)
    refine ⟨?_, hpatterns filter hdelete⟩
    cases update with
    | obj es => exact Value.hasDistinctNames_of_get? hnames hdelete
    | _ => cases hdelete
  exact hparallel.eq_error_iff.symm

/-- A deletion by a filter with an unknown operator is refused, whatever else is asked for and
whatever the list. -/
theorem applyListUpdate_eq_error_posts :
    let user := (Schema.sample.types.head (List.cons_ne_nil _ _)).2
    let posts : FieldInfo := ⟨"posts", "Post", .objectList⟩
    let update : Value := .obj [("delete", .single "title" (.obj [("matches", .str "^a"),
      ("like", .str "b")])), ("at", .str "end"), ("pop", .str "first")]
    let error := Error.schema (.invalidOperation "scalar filter" "like")
    compile .sample user .document (.obj [("posts", update)]) = .error error ∧
      ∀ current, applyListUpdate .sample posts current update = .error error := by
  intro user posts update error
  have hcompile : compile .sample user .document (.obj [("posts", update)]) = .error error := rfl
  have hpattern : Pattern.engine.accepts "^a" := by decide
  have hpatterns : ∀ filter, update.get? "delete" = some filter →
      Filter.PatternsAccepted Pattern.engine filter := by
    intro filter hfilter
    cases hfilter
    simp [Value.single, hpattern]
  have hnames : update.hasDistinctNames := by decide
  refine ⟨hcompile, fun current => ?_⟩
  exact (applyListUpdate_eq_error_iff (t := user) Context.sample_wellNamed.nonempty rfl rfl rfl
    hnames hpatterns current error).2 hcompile

/-! ## Where the document is empty -/

/-- Only an edit that asks for nothing has an empty document. -/
theorem edit_isEmpty {e : ListEdit} {doc : UpdateDocument} (h : edit ctx field path e = .ok doc)
    (hempty : doc.isEmpty = true) : e = .unknown ∨ e = .ignored := by
  cases e with
  | unknown => exact .inl rfl
  | ignored => exact .inr rfl
  | delete target =>
    obtain ⟨operand, -, rfl⟩ := map_eq_ok.1 h
    cases hempty
  | _ =>
    cases h
    cases hempty

/-- **What compiles to nothing changes no element.**  The update is accepted in memory too and
leaves the elements as they are.  The list itself stays, unless it is missing and the update is an
object: then it becomes an empty one. -/
theorem applyListUpdate_of_compile_isEmpty (hkind : t.kind.hasFields = true)
    (hfield : t.field field.name = .ok field) (hlist : field.category.isList = true)
    {update : Value} {doc : UpdateDocument}
    (hcompile : compile ctx t path (.obj [(field.name, update)]) = .ok doc)
    (hempty : doc.isEmpty = true) (current : Option (List Value)) :
    ∃ kept, applyListUpdate ctx field current update = .ok kept ∧
      kept.getD [] = current.getD [] ∧
      (kept = current ↔ current ≠ none ∨ update.isObject = false) := by
  rw [compile_single_list hkind hfield hlist] at hcompile
  rw [list_eq] at hcompile
  obtain ⟨edit, hread, hedit⟩ := bind_eq_ok.1 hcompile
  have hasked := ListEdit.asked_of_read hread
  rw [applyListUpdate_of_read ctx hlist hread]
  rcases edit_isEmpty hedit hempty with rfl | rfl
  · refine ⟨_, rfl, rfl, ?_⟩
    cases hasked
    cases current with
    | none => exact iff_of_false nofun (not_or.2 ⟨absurd rfl, nofun⟩)
    | some list => exact iff_of_true rfl (.inl nofun)
  · refine ⟨_, rfl, rfl, iff_of_true rfl (.inr ?_)⟩
    cases hasked with
    | ignored _ hobject => exact hobject

/-- The end of a list is told by a word: a number pops nothing. -/
theorem applyListUpdate_pop_number :
    let user := (Schema.sample.types.head (List.cons_ne_nil _ _)).2
    let tags : FieldInfo := ⟨"tags", "String", .scalarList⟩
    let update : Value := .obj [("clear", .bool false), ("pop", .int 1)]
    let list := some [Value.str "a", .str "b"]
    ∃ doc, compile .sample user .document (.obj [("tags", update)]) = .ok doc ∧
      doc.isEmpty = true ∧ applyListUpdate .sample tags list update = .ok list := by
  intro user tags update list
  have hcompile : compile .sample user .document (.obj [(tags.name, update)]) = .ok .empty := rfl
  have hempty : UpdateDocument.empty.isEmpty = true := rfl
  obtain ⟨kept, happly, -, hsame⟩ :=
    applyListUpdate_of_compile_isEmpty (t := user) rfl rfl rfl hcompile hempty list
  obtain rfl : kept = list := hsame.2 (.inl nofun)
  exact ⟨_, hcompile, hempty, happly⟩

/-- A missing list does not stay missing when it is shuffled, although that compiles to nothing. -/
theorem applyListUpdate_shuffle_missing :
    let user := (Schema.sample.types.head (List.cons_ne_nil _ _)).2
    let tags : FieldInfo := ⟨"tags", "String", .scalarList⟩
    ¬ ∀ (current : Option (List Value)) (update : Value) (doc : UpdateDocument),
      compile .sample user .document (.obj [("tags", update)]) = .ok doc → doc.isEmpty = true →
        applyListUpdate .sample tags current update = .ok current := by
  intro user tags h
  have hempty : applyListUpdate .sample tags none (.obj [("shuffle", .bool true)]) =
      .ok (some []) := rfl
  cases hempty.symm.trans (h none (.obj [("shuffle", .bool true)]) .empty rfl rfl)

end Update

end TypedGraph

import TypedGraph.Proofs.Permission.Exactness
import TypedGraph.Proofs.Query.Acceptance
import TypedGraph.Proofs.Schema.Loading

/-!
# Proofs/Permission/Acceptance — a permission fails with the first filter at fault

Over a schema that loads, the members of a type can be looked up, and the guard of each is compiled,
at whatever path (`exists_query_guard`, `exists_predicate_guard`).  So nothing can go wrong with a
permission but the filters that its members are restricted by: it fails where one of them does not
compile against its member, and then with the error of the first one (`loaded_failsFirst`).
-/

namespace TypedGraph

namespace Permission

variable {α β : Type} {ctx : Context} {permissions : Permissions} {t : TypeInfo}
  {compile : TypeInfo → Value → Except Error α} {e : Error}

/-! ## Filters at fault -/

/-- **A member is at fault**: the filter that restricts it does not compile against its type. -/
def AtFault (schema : Schema) (permissions : Permissions)
    (compile : TypeInfo → Value → Except Error α) (m : String) (e : Error) : Prop :=
  ∃ f own, permissions m = .filtered f ∧ schema.type m = .ok own ∧ compile own f = .error e

/-- **The first member at fault**, and its error. -/
def FirstFault (schema : Schema) (permissions : Permissions)
    (compile : TypeInfo → Value → Except Error α) (ms : List String) (e : Error) : Prop :=
  ∃ before m after, ms = before ++ m :: after ∧ AtFault schema permissions compile m e ∧
    ∀ other ∈ before, ∀ e', ¬AtFault schema permissions compile other e'

/-- **A result fails with the first fault** of some members, and only where one is at fault. -/
structure FailsFirst (schema : Schema) (permissions : Permissions)
    (compile : TypeInfo → Value → Except Error α) (ms : List String) (result : Except Error β) :
    Prop where
  fails : (∃ e, result = .error e) ↔ ∃ m ∈ ms, ∃ e, AtFault schema permissions compile m e
  error : ∀ e, result = .error e ↔ FirstFault schema permissions compile ms e

variable {schema : Schema} {ms : List String} {m : String}

theorem not_firstFault_nil : ¬FirstFault schema permissions compile [] e := by
  rintro ⟨before, m, after, h, -⟩
  exact List.append_ne_nil_of_right_ne_nil before (List.cons_ne_nil m after) h.symm

/-- The first fault is that of the head, or of the rest where the head has none. -/
theorem firstFault_cons : FirstFault schema permissions compile (m :: ms) e ↔
    AtFault schema permissions compile m e ∨
      (∀ e', ¬AtFault schema permissions compile m e') ∧
        FirstFault schema permissions compile ms e := by
  constructor
  · rintro ⟨before, m', after, h, hfault, hbefore⟩
    cases before with
    | nil =>
      cases h
      exact .inl hfault
    | cons other before =>
      cases h
      exact .inr ⟨hbefore _ List.mem_cons_self, before, m', after, rfl, hfault,
        fun other hother => hbefore other (List.mem_cons_of_mem _ hother)⟩
  · rintro (hfault | ⟨hclear, before, m', after, rfl, hfault, hbefore⟩)
    · exact ⟨[], m, ms, rfl, hfault, fun _ h => nomatch h⟩
    · refine ⟨m :: before, m', after, rfl, hfault, fun other hother => ?_⟩
      rcases List.mem_cons.1 hother with rfl | hother
      · exact hclear
      · exact hbefore other hother

/-- There is a first fault where there is any. -/
theorem exists_firstFault_iff : (∃ e, FirstFault schema permissions compile ms e) ↔
    ∃ m ∈ ms, ∃ e, AtFault schema permissions compile m e := by
  constructor
  · rintro ⟨e, before, m, after, rfl, hfault, -⟩
    exact ⟨m, by simp, e, hfault⟩
  · rintro ⟨m, hm, hfault⟩
    induction ms with
    | nil => cases hm
    | cons other ms ih =>
      by_cases hother : ∃ e, AtFault schema permissions compile other e
      · obtain ⟨e, he⟩ := hother
        exact ⟨e, firstFault_cons.2 (.inl he)⟩
      · rcases List.mem_cons.1 hm with rfl | hm
        · exact absurd hfault hother
        · obtain ⟨e, he⟩ := ih hm
          exact ⟨e, firstFault_cons.2 (.inr ⟨not_exists.1 hother, he⟩)⟩

/-! ## Branches at fault -/

/-- The branch of a member that is not denied. -/
def admission? (permissions : Permissions) (m : String) : Option (String × Option Value) :=
  match permissions m with
  | .denied => none
  | .unrestricted => some (m, none)
  | .filtered f => some (m, some f)

theorem admitted_eq_filterMap :
    admitted permissions t = (members t).filterMap (admission? permissions) := rfl

/-- **What a branch needs**: the type of its member, and a guard that is compiled. -/
structure Grounded (ctx : Context) (t : TypeInfo) (compile : TypeInfo → Value → Except Error α)
    (m : String) : Prop where
  type : ∃ own, ctx.schema.type m = .ok own
  guard : t.isAbstract = true → ∃ g, compile t (guard m) = .ok g

/-- **A branch fails with the fault of its filter**, and with no other. -/
theorem branch_eq_error (h : Grounded ctx t compile m) {filter : Option Value} :
    branch ctx t compile (m, filter) = .error e ↔
      ∃ f own, filter = some f ∧ ctx.schema.type m = .ok own ∧ compile own f = .error e := by
  have hguard : ∀ y : Option α, ¬(if t.isAbstract then
        (compile t (Permission.guard m)).map some >>= fun g => pure (g, y)
      else .ok none >>= fun g => pure (g, y)) =
        (.error e : Except Error (Option α × Option α)) := by
    intro y herror
    split at herror
    · next habstract =>
      obtain ⟨g, hg⟩ := h.guard habstract
      rw [hg] at herror
      cases herror
    · cases herror
  cases filter with
  | none => exact iff_of_false (hguard none) fun ⟨_, _, hf, _⟩ => nomatch hf
  | some f =>
    obtain ⟨own, hown⟩ := h.type
    constructor
    · intro herror
      rcases bind_eq_error.1 herror with herror | ⟨y, -, herror⟩
      · rcases bind_eq_error.1 herror with herror | ⟨own', hown', herror⟩
        · cases hown.symm.trans herror
        · refine ⟨f, own', rfl, hown', ?_⟩
          cases hf : compile own' f with
          | error e' => rw [hf] at herror; exact congrArg _ (Except.error.inj herror)
          | ok x => rw [hf] at herror; cases herror
      · exact (hguard y herror).elim
    · rintro ⟨f', own', hf, hown', herror⟩
      cases hf
      refine bind_eq_error.2 (.inl (bind_eq_error.2 (.inr ⟨own', hown', ?_⟩)))
      rw [herror]
      rfl

/-- **The branches of members fail with the first fault.** -/
theorem mapM_branch_eq_error (h : ∀ m ∈ ms, Grounded ctx t compile m) :
    (ms.filterMap (admission? permissions)).mapM (branch ctx t compile) = .error e ↔
      FirstFault ctx.schema permissions compile ms e := by
  induction ms with
  | nil => exact iff_of_false nofun not_firstFault_nil
  | cons m ms ih =>
    obtain ⟨hm, hms⟩ := List.forall_mem_cons.1 h
    rw [firstFault_cons]
    cases hadmission : admission? permissions m with
    | none =>
      have hclear : ∀ e', ¬AtFault ctx.schema permissions compile m e' := by
        rintro e' ⟨f, -, hf, -⟩
        rw [admission?, hf] at hadmission
        cases hadmission
      rw [List.filterMap_cons_none hadmission, ih hms]
      exact ⟨fun h => .inr ⟨hclear, h⟩, fun h => h.elim (fun h => (hclear e h).elim) And.right⟩
    | some b =>
      have hfault : ∀ e', branch ctx t compile b = .error e' ↔
          AtFault ctx.schema permissions compile m e' := by
        intro e'
        unfold admission? at hadmission
        split at hadmission
        · cases hadmission
        · next hpermission =>
          cases hadmission
          refine (branch_eq_error hm).trans (iff_of_false nofun ?_)
          rintro ⟨f, -, hf, -⟩
          exact nomatch hpermission.symm.trans hf
        · next f hpermission =>
          cases hadmission
          rw [branch_eq_error hm, AtFault, hpermission]
          simp only [Option.some.injEq, Permission.filtered.injEq]
      have hclear : (∃ c, branch ctx t compile b = .ok c) ↔
          ∀ e', ¬AtFault ctx.schema permissions compile m e' := by
        simp only [← hfault]
        cases branch ctx t compile b with
        | error e' => exact iff_of_false nofun fun h => h e' rfl
        | ok c => exact iff_of_true ⟨c, rfl⟩ nofun
      rw [List.filterMap_cons_some hadmission, mapM_cons_eq_error, hfault, hclear, ih hms]

/-- A result that is made of branches fails as they do. -/
theorem failsFirst_of_branches (h : ∀ m ∈ members t, Grounded ctx t compile m)
    (finish : List (Option α × Option α) → β) :
    FailsFirst ctx.schema permissions compile (members t)
      (if isOpen permissions t then .ok none
        else (admitted permissions t).mapM (branch ctx t compile) >>= fun bs =>
          pure (some (finish bs))) := by
  have herror : ∀ e, (if isOpen permissions t then .ok none
      else (admitted permissions t).mapM (branch ctx t compile) >>= fun bs =>
        pure (some (finish bs))) = .error e ↔
        FirstFault ctx.schema permissions compile (members t) e := by
    intro e
    split
    · next hopen =>
      refine iff_of_false nofun fun hfault => ?_
      obtain ⟨m, hm, -, f, -, hf, -⟩ := exists_firstFault_iff.1 ⟨e, hfault⟩
      exact nomatch (unrestricted_of_isOpen hopen hm).symm.trans hf
    · rw [← mapM_branch_eq_error h, admitted_eq_filterMap, bind_eq_error]
      exact ⟨fun h => h.elim id fun ⟨_, _, h⟩ => (nomatch h), .inl⟩
  refine ⟨?_, herror⟩
  rw [← exists_firstFault_iff]
  exact exists_congr herror

/-! ## Guards -/

/-- **The guard of a possible type has a query** at any path. -/
theorem exists_query_guard (hid : ctx.config.idField ≠ "") (htype : ctx.config.typeField ≠ "")
    (habstract : t.isAbstract = true) (hm : m ∈ t.possibleTypes) (path : FieldPath) :
    ∃ queries, Filter.query ctx t path (guard m) = .ok queries := by
  have hclauses := Condition.parallel_allClauses
    (List.forall_mem_singleton.2 (Filter.parallel_typeCondition hid htype t path [m] false))
  rw [Condition.verdictOf, Filter.verdict_typeCondition] at hclauses
  obtain ⟨clauses, hok, hwritable⟩ := hclauses.exists_ok
  obtain ⟨queries, hqueries⟩ := exists_mapM_eq_ok hwritable
  rw [Filter.query, read_guard_eq habstract hm]
  exact ⟨queries, bind_eq_ok.2 ⟨clauses, hok, hqueries⟩⟩

/-- **The guard of a possible type has a predicate.** -/
theorem exists_predicate_guard (habstract : t.isAbstract = true) (hm : m ∈ t.possibleTypes) :
    ∃ accepts, Filter.predicate ctx t (guard m) = .ok accepts := by
  have haccepted : Condition.AllAccepted ctx.patterns
      [Filter.typeCondition ctx t .document [m] false] :=
    ⟨Filter.accepted_typeCondition t .document [m] false, trivial⟩
  rw [Filter.predicate, read_guard_eq habstract hm, Filter.predicateOf,
    Condition.checkAll_eq_verdictOf haccepted, Condition.verdictOf,
    Filter.verdict_typeCondition]
  exact ⟨_, rfl⟩

/-! ## Loaded schemas -/

/-- The members of a type of a closed schema can be looked up. -/
theorem exists_type_of_mem_members (h : schema.Closed) {name : String}
    (ht : schema.type name = .ok t) (hm : m ∈ members t) : ∃ own, schema.type m = .ok own := by
  unfold members at hm
  split at hm
  · obtain ⟨own, hown, -⟩ := h.member ht m hm
    exact ⟨own, hown⟩
  · obtain rfl := List.mem_singleton.1 hm
    exact ⟨t, h.name ht ▸ ht⟩

/-- **What loading a schema establishes.**  Possible types are object types of the schema, and an
abstract type whose description leaves it open is a node type where it has possible types and all of
them are node types.  So a permission on a type of the schema fails with the first filter that does
not compile against its member, as a query at whatever path and as a predicate: every member can be
looked up, and every guard is compiled. -/
theorem loaded_failsFirst {doc : Value} (hload : Schema.ofValue doc = .ok ctx.schema) :
    (∀ name t, ctx.schema.type name = .ok t → ∀ m ∈ t.possibleTypes,
      ∃ own, ctx.schema.type m = .ok own ∧ own.kind = .object) ∧
    (∀ name v t, doc.get? name = some v → TypeDraft.LeavesOpen v →
      ctx.schema.type name = .ok t → t.isAbstract = true → (t.isNode = true ↔
        t.possibleTypes ≠ [] ∧
          ∀ m ∈ t.possibleTypes, ∃ own, ctx.schema.type m = .ok own ∧ own.isNode = true)) ∧
    (ctx.config.idField ≠ "" → ctx.config.typeField ≠ "" →
      ∀ name t, ctx.schema.type name = .ok t → ∀ (permissions : Permissions) (path : FieldPath),
        (∀ m ∈ members t, Grounded ctx t (fun own f => Filter.query ctx own path f) m ∧
          Grounded ctx t (Filter.predicate ctx) m) ∧
        FailsFirst ctx.schema permissions (fun own f => Filter.query ctx own path f) (members t)
          (query ctx permissions t path) ∧
        FailsFirst ctx.schema permissions (Filter.predicate ctx) (members t)
          (predicate ctx permissions t)) := by
  have hclosed := Schema.closed_ofValue hload
  refine ⟨fun name t ht => hclosed.member ht,
    fun name v t hv hopen ht => Schema.isNode_iff_of_leavesOpen hload hv hopen ht, ?_⟩
  intro hid htype name t ht permissions path
  have hpossible : ∀ m ∈ members t, t.isAbstract = true → m ∈ t.possibleTypes := by
    intro m hm habstract
    rwa [members, if_pos habstract] at hm
  have hquery : ∀ m ∈ members t, Grounded ctx t (fun own f => Filter.query ctx own path f) m :=
    fun m hm => ⟨exists_type_of_mem_members hclosed ht hm, fun habstract =>
      exists_query_guard hid htype habstract (hpossible m hm habstract) path⟩
  have hpredicate : ∀ m ∈ members t, Grounded ctx t (Filter.predicate ctx) m :=
    fun m hm => ⟨exists_type_of_mem_members hclosed ht hm, fun habstract =>
      exists_predicate_guard habstract (hpossible m hm habstract)⟩
  exact ⟨fun m hm => ⟨hquery m hm, hpredicate m hm⟩, failsFirst_of_branches hquery _,
    failsFirst_of_branches hpredicate _⟩

/-- A union of users and bots, the users restricted by a filter on a field that they do not have:
the union is a node type, and what may be seen of it fails with the fault of this filter. -/
theorem loaded_failsFirst_actors :
    let object := Value.obj [("kind", .str "object"), ("implementsNode", .bool true)]
    let union := Value.obj [("kind", .str "union"), ("memberTypeNames", .strings ["User", "Bot"])]
    let doc := Value.obj [("Actor", union), ("User", object), ("Bot", object)]
    let permissions : Permissions := fun m =>
      if m = "User" then .filtered (.single "name" (.single "eq" (.str "a"))) else .unrestricted
    ∃ schema t, Schema.ofValue doc = .ok schema ∧ schema.type "Actor" = .ok t ∧ t.isNode = true ∧
      query ⟨schema, .standard, .standard, Pattern.engine⟩ permissions t .document =
        .error (.fieldNotFound "name" "User") := by
  intro object union doc permissions
  obtain ⟨schema, hschema⟩ : ∃ schema, Schema.ofValue doc = .ok schema := ⟨_, rfl⟩
  have hstanding := @loaded_failsFirst ⟨schema, .standard, .standard, Pattern.engine⟩ doc hschema
  cases hschema
  refine ⟨_, _, rfl, rfl, rfl, ?_⟩
  refine (((hstanding.2.2 (by decide) (by decide) "Actor" _ rfl permissions
    .document).2.1).error _).2 ?_
  exact ⟨[], "User", ["Bot"], rfl, ⟨_, _, rfl, rfl, rfl⟩, fun _ h => nomatch h⟩

end Permission

end TypedGraph

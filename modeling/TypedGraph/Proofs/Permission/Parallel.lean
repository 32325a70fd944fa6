import TypedGraph.Proofs.Permission.Exactness
import TypedGraph.Proofs.Query.Acceptance

/-!
# Proofs/Permission/Parallel — a permission hides the same from a query and in memory

The query and the predicate of a permission are put together from the same branches, in the same
order.  Each part of a branch is a filter: guards are accepted by both compilers and mean the same,
whatever the document (`parallel_guard`), and the filters of members fail alike or agree on the
documents.  So the query and the predicate do (`parallel_query_predicate`), also of documents that
are instances of no member.
-/

namespace TypedGraph

namespace Permission

variable {ctx : Context} {permissions : Permissions} {t : TypeInfo} {s : String}
  {docs : List Value}

/-- Whether queries hold of a document under the prefix. -/
def holdUnder (patterns : PatternEngine) (s : String) (d : Value) (queries : List (Record Value)) :
    Bool :=
  queries.all fun q => Query.holds patterns (.obj q) (Value.nest (dottedNames s) d)

/-! ## Guards -/

theorem accepted_guardCondition (ctx : Context) (t : TypeInfo) (other : String) :
    (guardCondition ctx t other).Accepted ctx.patterns :=
  Filter.accepted_typeCondition t .document [other] false

theorem hasDistinctNames_guard (other : String) : (guard other).hasDistinctNames := by
  simp [guard, Value.single, Value.strings, Value.hasDistinctNames, Value.itemsHaveDistinctNames,
    Value.entriesHaveDistinctNames, Record.names]

/-- **Guards are parallel**, and agree on all documents. -/
theorem parallel_guard (hsearch : SuffixSearch ctx.patterns.search) (hctx : ctx.WellNamed)
    (ht : t.WellNamed) (habstract : t.isAbstract = true) {other : String}
    (hother : other ∈ t.possibleTypes) :
    Parallel (fun queries accepts => ∀ d, holdUnder ctx.patterns s d queries = accepts d)
      (Filter.query ctx t (.ofDotted s) (guard other))
      (Filter.predicate ctx t (guard other)) := by
  have hread : Filter.read ctx t .document (guard other) = [guardCondition ctx t other] :=
    read_guard habstract hother
  refine (Filter.parallel_accepted hctx.nonempty (fun f hf => (ht f hf).nonempty) (.ofDotted s)
    (hasDistinctNames_guard other) ?_).refine fun queries accepts hquery hpredicate _ d => ?_
  · rw [hread]
    exact ⟨accepted_guardCondition ctx t other, trivial⟩
  · obtain ⟨-, -, rfl⟩ := map_eq_ok.1 hpredicate
    refine (all_query_guard hsearch hctx ht habstract hother hquery d).trans ?_
    rw [hread, Condition.allHold, Condition.allHoldWith, Condition.allHoldWith, Bool.and_true]

/-! ## Branches -/

/-- **What the permissions need** for their filters to be decided alike on some documents. -/
def AllClear (ctx : Context) (permissions : Permissions) (t : TypeInfo) (docs : List Value) :
    Prop :=
  ∀ other ∈ members t, ∀ f own, permissions other = .filtered f →
    ctx.schema.type other = .ok own → Filter.Clear ctx own docs f

/-- The parts of a branch agree on some documents. -/
structure BranchesAgree (patterns : PatternEngine) (s : String) (docs : List Value)
    (b : Option (List (Record Value)) × Option (List (Record Value)))
    (c : Option (Value → Bool) × Option (Value → Bool)) : Prop where
  guard : ∀ d ∈ docs, b.1.all (holdUnder patterns s d) = c.1.all (· d)
  filter : ∀ d ∈ docs, b.2.all (holdUnder patterns s d) = c.2.all (· d)

/-- The guard of a branch is compiled last, whatever the filter gave. -/
theorem parallel_guarded (hsearch : SuffixSearch ctx.patterns.search) (hctx : ctx.WellNamed)
    (ht : t.WellNamed) {other : String} (hother : other ∈ members t)
    {queries : Option (List (Record Value))} {accepts : Option (Value → Bool)}
    (h : ∀ d ∈ docs, queries.all (holdUnder ctx.patterns s d) = accepts.all (· d)) :
    Parallel (BranchesAgree ctx.patterns s docs)
      (if t.isAbstract then
          (Filter.query ctx t (.ofDotted s) (guard other)).map some >>= fun g => pure (g, queries)
        else .ok none >>= fun g => pure (g, queries))
      (if t.isAbstract then
          (Filter.predicate ctx t (guard other)).map some >>= fun g => pure (g, accepts)
        else .ok none >>= fun g => pure (g, accepts)) := by
  split
  · next habstract =>
    rw [members, if_pos habstract] at hother
    have hsome : Parallel
        (fun g g' => ∀ d ∈ docs, g.all (holdUnder ctx.patterns s d) = g'.all (· d))
        ((Filter.query ctx t (.ofDotted s) (guard other)).map some)
        ((Filter.predicate ctx t (guard other)).map some) :=
      (parallel_guard hsearch hctx ht habstract hother).map fun _ _ hguard d _ => hguard d
    exact hsome.bind fun _ _ _ _ hguard => .ok ⟨hguard, h⟩
  · exact .ok ⟨fun _ _ => rfl, h⟩

/-- **Branches are parallel.** -/
theorem parallel_branch (hsearch : SuffixSearch ctx.patterns.search) (hctx : ctx.WellNamed)
    (ht : t.WellNamed) (hclear : AllClear ctx permissions t docs) {member : String × Option Value}
    (hmember : member ∈ admitted permissions t) :
    Parallel (BranchesAgree ctx.patterns s docs)
      (branch ctx t (fun t f => Filter.query ctx t (.ofDotted s) f) member)
      (branch ctx t (Filter.predicate ctx) member) := by
  obtain ⟨other, filter⟩ := member
  obtain ⟨hother, ⟨-, rfl⟩ | ⟨f, hf, rfl⟩⟩ := mem_admitted hmember
  · exact parallel_guarded hsearch hctx ht hother fun _ _ => rfl
  · have hfilter : Parallel
        (fun x y => ∀ d ∈ docs, x.all (holdUnder ctx.patterns s d) = y.all (· d))
        (ctx.schema.type other >>= fun own =>
          (Filter.query ctx own (.ofDotted s) f).map some)
        (ctx.schema.type other >>= fun own => (Filter.predicate ctx own f).map some) := by
      cases hown : ctx.schema.type other with
      | error e => exact .error e
      | ok own =>
        have hparallel := Filter.parallel_query_predicate (s := s) hsearch hctx (hctx.type hown)
          (hclear other hother f own hf hown)
        exact hparallel.map fun _ _ h => h
    exact hfilter.bind fun _ _ _ _ h => parallel_guarded hsearch hctx ht hother h

theorem any_eq_any_of_forall₂ {α β : Type} {p : α → Bool} {q : β → Bool} {as : List α}
    {bs : List β} (h : List.Forall₂ (fun a b => p a = q b) as bs) : as.any p = bs.any q := by
  induction h with
  | nil => rfl
  | cons hab _ ih => rw [List.any_cons, List.any_cons, hab, ih]

/-- **The query and the predicate of a permission are parallel**: they fail with the same error, or
the documents that the query holds of under the prefix are those that the predicate accepts. -/
theorem parallel_query_predicate (hsearch : SuffixSearch ctx.patterns.search)
    (hctx : ctx.WellNamed) (ht : t.WellNamed) (hclear : AllClear ctx permissions t docs) :
    Parallel (fun visible accepts => ∀ d ∈ docs, (visible.all fun q =>
        Query.holds ctx.patterns (.obj q) (Value.nest (dottedNames s) d)) = accepts.all (· d))
      (query ctx permissions t (.ofDotted s)) (predicate ctx permissions t) := by
  unfold query predicate
  split
  · exact .ok fun _ _ => rfl
  · refine (Parallel.mapM fun member hmember =>
      parallel_branch (s := s) hsearch hctx ht hclear hmember).bind
        fun branches tests _ _ hbranches => ?_
    refine .ok fun d hd => ?_
    have hgetD : ∀ queries : Option (List (Record Value)),
        (queries.getD []).all (fun q =>
          Query.entriesHold ctx.patterns.search q (Value.nest (dottedNames s) d)) =
            queries.all (holdUnder ctx.patterns s d) := by
      intro queries
      cases queries <;> rfl
    refine (entriesHold_anyBranch _ _).trans ?_
    rw [List.any_map]
    refine any_eq_any_of_forall₂ (hbranches.imp fun b c hbc => ?_)
    rw [Function.comp, Clause.entriesHold_conjunction, List.all_append, hgetD, hgetD,
      hbc.guard d hd, hbc.filter d hd]

end Permission

end TypedGraph

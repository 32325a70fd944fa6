import TypedGraph.Proofs.Connection.Collection
import TypedGraph.Proofs.Value.Preorder

/-!
# Proofs/Connection/RowOrder — pages do not depend on where the rows lie

Two collections with the same rows in different places answer a request alike, as long as a
tiebreaker tells the rows apart and the values that they are sorted by are a preorder
(`resolve_eq_of_perm`).  The tiebreaker is a path of every sort document, so that no two rows are
equal to one; then there is only one way to sort them, and whatever is cut from the sorted rows is
the same.  The count depends on the number of rows alone.

Requests with aggregates are another matter: a sum of doubles depends on the order of its terms.
-/

namespace TypedGraph

/-! ## Two runs with the same outcome -/

namespace Asked

variable {α β : Type} {a₁ a₂ : Asked α}

/-- Two computations with the same result after the same queries. -/
structure Agree (a₁ a₂ : Asked α) : Prop where
  result : a₁.result = a₂.result
  calls : a₁.calls = a₂.calls

/-- What goes on from each of two stores agrees where it agrees after every result. -/
theorem Agree.andThen (h : Agree a₁ a₂) {f : α → Store → Asked β}
    (hf : ∀ x, Agree (f x a₁.store) (f x a₂.store)) : Agree (a₁.andThen f) (a₂.andThen f) := by
  obtain ⟨result₁, calls₁, store₁⟩ := a₁
  obtain ⟨result₂, calls₂, store₂⟩ := a₂
  obtain ⟨rfl, rfl⟩ := h
  rcases result₁ with e | x
  · exact ⟨rfl, rfl⟩
  · exact ⟨(hf x).result, congrArg (calls₁ ++ ·) (hf x).calls⟩

end Asked

namespace Connection.Resolver

open Asked (Agree)

variable {r : Resolver} {source : ConnectionSource} {request : ConnectionRequest}

/-! ## What a request sorts by -/

/-- **The paths that a request sorts rows by**: those of its order, and the tiebreaker. -/
def sortPaths (r : Resolver) (source : ConnectionSource) (request : ConnectionRequest) :
    Except Error (List String) := do
  let t ← r.context.schema.type source.nodeType
  let order ← request.effectiveOrder source.named
  let clauses ← r.orderClauses t order
  return (r.sortDocument clauses).names

/-- What a request compiles to, and what it is compiled from. -/
theorem prepare_eq_ok {t : TypeInfo} {stages : Pipeline} {sort : Option (Record Value)}
    (h : r.prepare source request = .ok (t, stages, sort)) :
    r.context.schema.type source.nodeType = .ok t ∧
      (∃ filter, r.filterStages source t filter = .ok stages) ∧
      ∃ clauses, r.sortPaths source request = .ok (r.sortDocument clauses).names ∧
        sort = stageOf (r.sortDocument clauses) := by
  obtain ⟨t', ht, hrest⟩ := bind_eq_ok.1 h
  obtain ⟨filter, -, hrest⟩ := bind_eq_ok.1 hrest
  obtain ⟨order, horder, hrest⟩ := bind_eq_ok.1 hrest
  obtain ⟨stages', hstages, hrest⟩ := bind_eq_ok.1 hrest
  obtain ⟨sort', hsort, hrest⟩ := bind_eq_ok.1 hrest
  cases hrest
  rw [sortStage_eq] at hsort
  obtain ⟨clauses, hclauses, rfl⟩ := map_eq_ok.1 hsort
  refine ⟨ht, ⟨filter, hstages⟩, clauses, ?_, rfl⟩
  exact bind_eq_ok.2 ⟨t, ht, bind_eq_ok.2 ⟨order, horder, bind_eq_ok.2 ⟨clauses, hclauses, rfl⟩⟩⟩

/-! ## Collections with the same rows in different places -/

variable {patterns : PatternEngine} {stages : Pipeline} {rows₁ rows₂ kept₁ kept₂ : List Value}

/-- Counting asks for a number that does not depend on where the rows lie. -/
theorem agree_count (own collection : String)
    (h₁ : stages.foldlM (Pipeline.runStage patterns) rows₁ = .ok kept₁)
    (h₂ : stages.foldlM (Pipeline.runStage patterns) rows₂ = .ok kept₂)
    (hlength : kept₁.length = kept₂.length) :
    Agree (count collection stages (.memory patterns own rows₁))
      (count collection stages (.memory patterns own rows₂)) := by
  refine ⟨?_, rfl⟩
  rw [result_count own collection h₁, result_count own collection h₂, hlength]

/-- A page is cut from the sorted rows. -/
theorem agree_page (own collection : String) {sort : Option (Record Value)}
    (h : (stages ++ sort.toList).foldlM (Pipeline.runStage patterns) rows₁ =
      (stages ++ sort.toList).foldlM (Pipeline.runStage patterns) rows₂) (w : Window) :
    Agree (page collection stages sort w (.memory patterns own rows₁))
      (page collection stages sort w (.memory patterns own rows₂)) := by
  unfold page
  split
  · exact ⟨rfl, rfl⟩
  · refine ⟨congrArg (Except.mapError Error.store) ?_, rfl⟩
    unfold pageStages
    rw [List.append_assoc (stages ++ sort.toList)]
    exact (Store.Alike.memory patterns own h).answer_eq collection _

/-- **Fetching** without aggregates asks for a count and a page. -/
theorem agree_fetch {t : TypeInfo} (haggregates : request.aggregates = [])
    (own collection : String) {sort : Option (Record Value)}
    (h₁ : stages.foldlM (Pipeline.runStage patterns) rows₁ = .ok kept₁)
    (h₂ : stages.foldlM (Pipeline.runStage patterns) rows₂ = .ok kept₂)
    (hlength : kept₁.length = kept₂.length)
    (hsorted : sort.toList.foldlM (Pipeline.runStage patterns) kept₁ =
      sort.toList.foldlM (Pipeline.runStage patterns) kept₂) :
    Agree (r.fetch t collection stages sort request (.memory patterns own rows₁))
      (r.fetch t collection stages sort request (.memory patterns own rows₂)) := by
  have hsame : (stages ++ sort.toList).foldlM (Pipeline.runStage patterns) rows₁ =
      (stages ++ sort.toList).foldlM (Pipeline.runStage patterns) rows₂ := by
    rw [List.foldlM_append, List.foldlM_append, h₁, h₂]
    exact hsorted
  refine (agree_count own collection h₁ h₂ hlength).andThen fun length => ?_
  refine (agree_page own collection hsame _).andThen fun rows => ?_
  rw [haggregates]
  exact ⟨rfl, rfl⟩

/-- The stages of the edges make the same rows of the same rows in different places. -/
theorem perm_filterStages (patterns : PatternEngine) {t : TypeInfo} {filter : Option Value}
    (hinitial : source.initialStages = [])
    (hstages : r.filterStages source t filter = .ok stages) (hperm : rows₁.Perm rows₂) :
    ∃ kept₁ kept₂, stages.foldlM (Pipeline.runStage patterns) rows₁ = .ok kept₁ ∧
      stages.foldlM (Pipeline.runStage patterns) rows₂ = .ok kept₂ ∧ kept₁.Perm kept₂ ∧
        kept₁.Sublist rows₁ := by
  obtain ⟨permission, queries, -, rfl⟩ := filterStages_eq_ok hstages
  rw [hinitial, List.nil_append]
  exact ⟨_, _, Pipeline.foldlM_matchStage? _ rows₁, Pipeline.foldlM_matchStage? _ rows₂,
    hperm.filter _, List.filter_sublist⟩

/-- **Pages do not depend on where the rows lie.**  Two collections with the same rows in different
places answer a request without aggregates alike, with the same edges, cursors and page info or the
same error, and receive the same queries: where a tiebreaker tells any two rows apart, and the
values at each path that the request sorts by are compared by a preorder.  The order may mention the
tiebreaker itself, in either direction, and a path more than once. -/
theorem resolve_eq_of_perm (own : String) (hinitial : source.initialStages = [])
    (haggregates : request.aggregates = []) {tiebreaker : String}
    (htiebreaker : r.context.config.sortTiebreaker = some tiebreaker) (hperm : rows₁.Perm rows₂)
    (hdistinct : rows₁.Pairwise fun a b =>
      Value.compareOptional (a.dotted? tiebreaker) (b.dotted? tiebreaker) ≠ .eq)
    (hpreorder : ∀ paths, r.sortPaths source request = .ok paths → ∀ path ∈ paths,
      PreorderOn Value.compare fun v => ∃ row ∈ rows₁, Value.orNull (row.dotted? path) = v) :
    (r.resolve source request (.memory patterns own rows₁)).result =
        (r.resolve source request (.memory patterns own rows₂)).result ∧
      (r.resolve source request (.memory patterns own rows₁)).calls =
        (r.resolve source request (.memory patterns own rows₂)).calls := by
  unfold resolve
  split
  · exact ⟨rfl, rfl⟩
  · next t stages sort hprepare =>
    obtain ⟨-, ⟨filter, hstages⟩, clauses, hpaths, rfl⟩ := prepare_eq_ok hprepare
    obtain ⟨kept₁, kept₂, h₁, h₂, hkept, hsub⟩ :=
      perm_filterStages patterns hinitial hstages hperm
    have htie : tiebreaker ∈ (r.sortDocument clauses).names :=
      Order.mem_names_sortDocument htiebreaker clauses _
    have hsorted := stableSort_eq_of_perm
      (Pipeline.preorderOn_compareRows (hpreorder _ hpaths)) (fun _ hrow => hsub.subset hrow) hkept
      ((hdistinct.sublist hsub).imp (Pipeline.compareRows_ne_eq htie))
    have hagree := agree_fetch (r := r) (t := t) haggregates own source.collection h₁ h₂
      hkept.length_eq ((foldlM_stageOf _ _).trans ((congrArg _ hsorted).trans
        (foldlM_stageOf _ _).symm))
    exact ⟨hagree.result, hagree.calls⟩

/-- Two rows in either order: the first page by name begins with the same one. -/
theorem resolve_swapped_rows :
    let r : Resolver := ⟨.sample, Permission.all⟩
    let source : ConnectionSource := ⟨"edges", [], "User", ⟨[], []⟩⟩
    let request : ConnectionRequest :=
      ⟨none, none, some (.single "name" (.str "DESCENDING")), none, ⟨some 1, none, none, none⟩, []⟩
    let row := fun (id : Int) (name : String) =>
      Value.obj [("_id", .int id), ("node", .single "name" (.str name))]
    let rows := [row 1 "a", row 2 "b", row 3 "b"]
    (r.resolve source request (.memory Pattern.engine "edges" rows)).result =
        (r.resolve source request (.memory Pattern.engine "edges" rows.reverse)).result ∧
      ∃ answer, (r.resolve source request (.memory Pattern.engine "edges" rows)).result =
        .ok answer := by
  intro r source request row rows
  have hpaths : r.sortPaths source request = .ok ["node.name", "_id"] := by
    dsimp only [r, source, request]
    rfl
  have hdistinct : rows.Pairwise fun a b =>
      Value.compareOptional (a.dotted? "_id") (b.dotted? "_id") ≠ .eq := by
    decide
  refine ⟨(resolve_eq_of_perm "edges" rfl rfl rfl rows.reverse_perm.symm hdistinct ?_).1, ?_⟩
  · rw [hpaths]
    rintro _ ⟨⟩ path hpath
    refine Value.preorderOn_of_exact ?_
    rintro v ⟨x, hx, rfl⟩
    simp only [rows, List.mem_cons, List.not_mem_nil, or_false] at hx hpath
    rcases hx with rfl | rfl | rfl <;> rcases hpath with rfl | rfl <;> rfl
  · dsimp only [r, source, request, row, rows]
    exact ⟨_, rfl⟩

end Connection.Resolver

end TypedGraph

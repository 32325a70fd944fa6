import TypedGraph.Connection.OfStore
import TypedGraph.Proofs.Outcome
import TypedGraph.Proofs.Query.Agreement

/-!
# Proofs/Connection/Noninterference — hidden rows leave no trace in an answer

Resolving a request asks the store for a number, for a page and for aggregates.  Two collections
that show the viewer the same rows answer each of them alike: how many rows are hidden, what they
hold and where they stand makes no difference.

The argument is about two runs at once.  All three pipelines begin with the stages of the edges, so
that stores of which these stages make the same rows cannot be told apart (`Store.Alike`), whatever
stages follow.  A step of the resolver keeps two runs together (`Asked.Together`), and the stages of
the edges make the same rows of collections with the same visible rows, because the permission is
part of the one query that they begin with (`foldlM_filterStages`).
-/

namespace TypedGraph

/-! ## Stores that answer alike -/

namespace Pipeline

variable {patterns : PatternEngine} {stages : Pipeline} {rows₁ rows₂ : List Value}

/-- What follows the same rows makes the same rows. -/
theorem run_append_congr
    (h : stages.foldlM (runStage patterns) rows₁ = stages.foldlM (runStage patterns) rows₂)
    (more : Pipeline) :
    run patterns rows₁ (stages ++ more) = run patterns rows₂ (stages ++ more) := by
  unfold run
  rw [List.foldlM_append, List.foldlM_append, h]

/-- **The stage of several queries** keeps the rows that satisfy them all. -/
theorem foldlM_matchStage? (queries : List (Record Value)) (rows : List Value) :
    (Filter.matchStage? queries).toList.foldlM (runStage patterns) rows =
      .ok (rows.filter fun row =>
        queries.all fun query => Query.holds patterns (.obj query) row) := by
  unfold Filter.matchStage?
  split
  · next hnil =>
    rw [List.isEmpty_iff.1 hnil]
    exact congrArg Except.ok (List.filter_eq_self.2 fun _ _ => rfl).symm
  · have hkept : ∀ row, Query.holds patterns (.obj (Clause.conjunction queries)) row =
        queries.all fun query => Query.holds patterns (.obj query) row :=
      fun row => Clause.entriesHold_conjunction row queries
    rw [← funext hkept]
    rfl

end Pipeline

namespace Store

/-- **Stores that answer alike** once some stages have run: two collections of one name, with one
library for patterns, of whose rows the stages make the same rows. -/
inductive Alike (stages : Pipeline) : Store → Store → Prop where
  | memory (patterns : PatternEngine) (collection : String) {rows₁ rows₂ : List Value}
      (h : stages.foldlM (Pipeline.runStage patterns) rows₁ =
        stages.foldlM (Pipeline.runStage patterns) rows₂) :
      Alike stages (.memory patterns collection rows₁) (.memory patterns collection rows₂)

variable {stages : Pipeline} {s₁ s₂ : Store}

/-- The answer to a pipeline that begins with the stages is the same. -/
theorem Alike.answer_eq (h : Alike stages s₁ s₂) (collection : String) (more : Pipeline) :
    (s₁.ask collection (stages ++ more)).1 = (s₂.ask collection (stages ++ more)).1 := by
  obtain ⟨patterns, own, hrows⟩ := h
  dsimp only [ask]
  unfold answer
  rw [Pipeline.run_append_congr hrows more]

/-- Stores that answer alike go on to. -/
theorem Alike.after (h : Alike stages s₁ s₂) (collection : String) (asked : Pipeline) :
    Alike stages (s₁.ask collection asked).2 (s₂.ask collection asked).2 := by
  obtain ⟨patterns, own, hrows⟩ := h
  exact .memory patterns own hrows

end Store

/-! ## Two runs of a computation -/

namespace Asked

variable {α β : Type} {stages : Pipeline} {a₁ a₂ : Asked α} {s₁ s₂ : Store}

/-- **Two runs stay together**: they have the same result after the same queries, and leave stores
that answer alike. -/
structure Together (stages : Pipeline) (a₁ a₂ : Asked α) : Prop where
  result : a₁.result = a₂.result
  calls : a₁.calls = a₂.calls
  store : Store.Alike stages a₁.store a₂.store

theorem together_pure (h : Store.Alike stages s₁ s₂) (result : Except Error α) :
    Together stages (pure s₁ result) (pure s₂ result) :=
  ⟨rfl, rfl, h⟩

theorem together_ask (h : Store.Alike stages s₁ s₂) (collection : String) (more : Pipeline) :
    Together stages (ask s₁ collection (stages ++ more)) (ask s₂ collection (stages ++ more)) where
  result := congrArg (Except.mapError Error.store) (h.answer_eq collection more)
  calls := rfl
  store := h.after collection (stages ++ more)

theorem Together.map (h : Together stages a₁ a₂) (f : α → β) :
    Together stages (a₁.map f) (a₂.map f) :=
  ⟨congrArg (Except.map f) h.result, h.calls, h.store⟩

theorem Together.andThen (h : Together stages a₁ a₂) {f : α → Store → Asked β}
    (hf : ∀ x s₁ s₂, Store.Alike stages s₁ s₂ → Together stages (f x s₁) (f x s₂)) :
    Together stages (a₁.andThen f) (a₂.andThen f) := by
  obtain ⟨result₁, calls₁, store₁⟩ := a₁
  obtain ⟨result₂, calls₂, store₂⟩ := a₂
  obtain ⟨rfl, rfl, hstore⟩ := h
  rcases result₁ with e | x
  · exact ⟨rfl, rfl, hstore⟩
  · have hx := hf x store₁ store₂ hstore
    exact ⟨hx.result, congrArg (calls₁ ++ ·) hx.calls, hx.store⟩

end Asked

/-! ## The steps of the resolver -/

namespace Connection.Resolver

open Asked (Together together_pure together_ask)

variable {r : Resolver} {t : TypeInfo} {stages : Pipeline} {s₁ s₂ : Store}

theorem together_count (h : Store.Alike stages s₁ s₂) (collection : String) :
    Together stages (count collection stages s₁) (count collection stages s₂) :=
  (together_ask h collection [countStage]).map countOf

theorem together_page (h : Store.Alike stages s₁ s₂) (collection : String)
    (sort : Option (Record Value)) (w : Window) :
    Together stages (page collection stages sort w s₁) (page collection stages sort w s₂) := by
  unfold page
  split
  · exact together_pure h _
  · unfold pageStages
    rw [List.append_assoc, List.append_assoc]
    exact together_ask h collection _

theorem together_aggregates (h : Store.Alike stages s₁ s₂) (collection : String)
    (requests : List AggregateRequest) :
    Together stages (r.aggregates t collection stages requests s₁)
      (r.aggregates t collection stages requests s₂) := by
  unfold aggregates
  split
  · exact together_pure h _
  · split
    · exact together_pure h _
    · next stage _ => exact (together_ask h collection [stage]).map _

/-- **Fetching from stores that answer alike** has the same result. -/
theorem together_fetch (h : Store.Alike stages s₁ s₂) (collection : String)
    (sort : Option (Record Value)) (request : ConnectionRequest) :
    Together stages (r.fetch t collection stages sort request s₁)
      (r.fetch t collection stages sort request s₂) := by
  refine (together_count h collection).andThen fun length s₁ s₂ h => ?_
  refine (together_page h collection sort _).andThen fun rows s₁ s₂ h => ?_
  exact (together_aggregates h collection request.aggregates).map _

/-! ## What may be seen of a collection -/

/-- **The rows that may be seen** among the rows of a collection: all of them where nothing is
restricted, and else the ones that satisfy the query of the permission. -/
def visibleRows (r : Resolver) (patterns : PatternEngine) (nodeType : String)
    (rows : List Value) : Except Error (List Value) := do
  let t ← r.context.schema.type nodeType
  let visible ← Permission.query r.context r.permissions t r.nodePrefix
  return rows.filter fun row => visible.all fun query => Query.holds patterns (.obj query) row

variable {patterns : PatternEngine} {source : ConnectionSource} {rows₁ rows₂ : List Value}

/-- The stages of the edges end with one of the query of the permission and of others. -/
theorem filterStages_eq_ok {filter : Option Value}
    (hstages : r.filterStages source t filter = .ok stages) :
    ∃ visible queries, Permission.query r.context r.permissions t r.nodePrefix = .ok visible ∧
      stages = source.initialStages ++ (Filter.matchStage? (visible.toList ++ queries)).toList := by
  obtain ⟨visible, hvisible, hrest⟩ := bind_eq_ok.1 hstages
  cases filter with
  | none => exact ⟨visible, [], hvisible, (Except.ok.inj hrest).symm⟩
  | some f =>
    obtain ⟨queries, -, hrest⟩ := bind_eq_ok.1 hrest
    exact ⟨visible, queries, hvisible, (Except.ok.inj hrest).symm⟩

/-- **The stages of the edges** keep those of the visible rows that satisfy the filter. -/
theorem foldlM_filterStages {filter : Option Value} (hinitial : source.initialStages = [])
    (ht : r.context.schema.type source.nodeType = .ok t)
    (hstages : r.filterStages source t filter = .ok stages) :
    ∃ queries : List (Record Value), ∀ rows, ∃ visible,
      r.visibleRows patterns source.nodeType rows = .ok visible ∧
        stages.foldlM (Pipeline.runStage patterns) rows = .ok (visible.filter fun row =>
          queries.all fun query => Query.holds patterns (.obj query) row) := by
  obtain ⟨permission, queries, hpermission, rfl⟩ := filterStages_eq_ok hstages
  refine ⟨queries, fun rows => ⟨rows.filter fun row =>
    permission.all fun query => Query.holds patterns (.obj query) row, ?_, ?_⟩⟩
  · rw [visibleRows, ht]
    dsimp only [bind, Except.bind]
    rw [hpermission]
    rfl
  · rw [hinitial, List.nil_append, Pipeline.foldlM_matchStage?, List.filter_filter]
    refine congrArg Except.ok (List.filter_congr fun row _ => ?_)
    rw [List.all_append, Bool.and_comm]
    cases permission <;> simp

/-- The stages of the edges make the same rows of collections whose visible rows are the same. -/
theorem foldlM_filterStages_congr {filter : Option Value} (hinitial : source.initialStages = [])
    (ht : r.context.schema.type source.nodeType = .ok t)
    (hstages : r.filterStages source t filter = .ok stages)
    (hrows : r.visibleRows patterns source.nodeType rows₁ =
      r.visibleRows patterns source.nodeType rows₂) :
    stages.foldlM (Pipeline.runStage patterns) rows₁ =
      stages.foldlM (Pipeline.runStage patterns) rows₂ := by
  obtain ⟨queries, hkept⟩ := foldlM_filterStages hinitial ht hstages
  obtain ⟨visible₁, hvisible₁, hrun₁⟩ := hkept rows₁
  obtain ⟨visible₂, hvisible₂, hrun₂⟩ := hkept rows₂
  have hsame : visible₁ = visible₂ :=
    Except.ok.inj (hvisible₁.symm.trans (hrows.trans hvisible₂))
  rw [hrun₁, hrun₂, hsame]

/-- **The answer to a request does not depend on hidden rows.**  Two collections with the same
visible rows answer it alike, with the same edges, page info and aggregates or the same error, and
receive the same queries. -/
theorem resolve_eq_of_visibleRows_eq (request : ConnectionRequest) (collection : String)
    (hinitial : source.initialStages = [])
    (hrows : r.visibleRows patterns source.nodeType rows₁ =
      r.visibleRows patterns source.nodeType rows₂) :
    (r.resolve source request (.memory patterns collection rows₁)).result =
        (r.resolve source request (.memory patterns collection rows₂)).result ∧
      (r.resolve source request (.memory patterns collection rows₁)).calls =
        (r.resolve source request (.memory patterns collection rows₂)).calls := by
  unfold resolve
  split
  · exact ⟨rfl, rfl⟩
  · next t stages sort hprepare =>
    obtain ⟨t', ht, hrest⟩ := bind_eq_ok.1 hprepare
    obtain ⟨filter, -, hrest⟩ := bind_eq_ok.1 hrest
    obtain ⟨order, -, hrest⟩ := bind_eq_ok.1 hrest
    obtain ⟨stages', hstages, hrest⟩ := bind_eq_ok.1 hrest
    obtain ⟨sort', -, hrest⟩ := bind_eq_ok.1 hrest
    cases hrest
    have halike := Store.Alike.memory patterns collection
      (foldlM_filterStages_congr hinitial ht hstages hrows)
    have htogether := together_fetch (r := r) (t := t) halike source.collection sort request
    exact ⟨htogether.result, htogether.calls⟩

/-- A hidden row comes first in one collection and is missing in the other. -/
theorem resolve_hidden_row :
    let named : Value := .single "name" (.single "eq" (.str "a"))
    let r : Resolver := ⟨.sample, fun _ => .filtered named⟩
    let source : ConnectionSource := ⟨"edges", [], "User", ⟨[], []⟩⟩
    let request : ConnectionRequest :=
      ⟨none, none, none, none, .none, [⟨"users", .count, .node "name", none⟩]⟩
    let hidden : Value := .single "node" (.single "name" (.str "b"))
    let shown : Value := .single "node" (.single "name" (.str "a"))
    r.visibleRows Pattern.engine "User" [hidden, shown] = .ok [shown] ∧
      (r.resolve source request (.memory Pattern.engine "edges" [hidden, shown])).result =
        (r.resolve source request (.memory Pattern.engine "edges" [shown])).result ∧
      ∃ answer, (r.resolve source request (.memory Pattern.engine "edges" [shown])).result =
        .ok answer := by
  intro named r source request hidden shown
  have hhidden : r.visibleRows Pattern.engine "User" [hidden, shown] = .ok [shown] := by
    dsimp only [r, named]
    rfl
  have hshown : r.visibleRows Pattern.engine "User" [shown] = .ok [shown] := by
    dsimp only [r, named]
    rfl
  refine ⟨hhidden,
    (resolve_eq_of_visibleRows_eq request "edges" rfl (hhidden.trans hshown.symm)).1, ?_⟩
  dsimp only [r, named, source, request, shown]
  exact ⟨_, rfl⟩

end Connection.Resolver

end TypedGraph

import TypedGraph.Proofs.Aggregate.Labels
import TypedGraph.Proofs.Connection.Collection
import TypedGraph.Schema.Sample

/-!
# Proofs/Connection/Rejection — what a store is asked for a request that is rejected

A request is rejected with an error that is none of its store.  Its node type, its arguments, the
permission, the filter and the order are compiled before the store is asked anything.  The
aggregates are compiled behind the page: where nothing but them is at fault, the store has answered
the count and the page by the time that the request is rejected, though no query for the aggregates
is sent (`resolve_rejected`).

So a store is asked nothing for a rejected request exactly where its aggregates are not what is at
fault.
-/

namespace TypedGraph

/-! ## Aggregates at fault -/

namespace AggregateRequest

variable {ctx : Context} {t : TypeInfo} {a : AggregateRequest} {e : Error}

/-- **An aggregate is at fault**: the field of the node is not declared, or the filter does not
compile. -/
inductive AtFault (ctx : Context) (t : TypeInfo) (a : AggregateRequest) (e : Error) : Prop where
  | field {path : String} (hfield : a.field = .node path)
      (herror : t.field ((splitNames '.' path).headD "") = .error e) : AtFault ctx t a e
  | filter {f : Value} (hvalid : a.validate t = .ok ()) (hfilter : a.filter = some f)
      (herror : Filter.expression ctx t (.ofDotted ctx.config.nodePath) f = .error e) :
      AtFault ctx t a e

theorem validate_eq_error : a.validate t = .error e ↔
    ∃ path, a.field = .node path ∧ t.field ((splitNames '.' path).headD "") = .error e := by
  unfold validate
  cases a.field with
  | node path => exact map_eq_error.trans ⟨fun h => ⟨path, rfl, h⟩, fun ⟨_, hp, h⟩ => by
      cases hp; exact h⟩
  | edge path => exact iff_of_false nofun fun ⟨_, hp, _⟩ => nomatch hp

theorem condition_eq_error : a.condition ctx t = .error e ↔
    ∃ f, a.filter = some f ∧
      Filter.expression ctx t (.ofDotted ctx.config.nodePath) f = .error e := by
  unfold condition
  cases a.filter with
  | none => exact iff_of_false nofun fun ⟨_, hf, _⟩ => nomatch hf
  | some f => exact map_eq_error.trans ⟨fun h => ⟨f, rfl, h⟩, fun ⟨_, hf, h⟩ => by
      cases hf; exact h⟩

/-- **An accumulator fails with the fault** of its aggregate. -/
theorem accumulator_eq_error : a.accumulator ctx t = .error e ↔ a.AtFault ctx t e := by
  rw [accumulator_eq, bind_eq_error]
  simp only [map_eq_error, condition_eq_error, validate_eq_error]
  constructor
  · rintro (⟨path, hfield, h⟩ | ⟨⟨⟩, hvalid, f, hfilter, h⟩)
    · exact .field hfield h
    · exact .filter hvalid hfilter h
  · rintro (⟨hfield, h⟩ | ⟨hvalid, hfilter, h⟩)
    · exact .inl ⟨_, hfield, h⟩
    · exact .inr ⟨(), hvalid, _, hfilter, h⟩

end AggregateRequest

namespace Aggregate

variable {ctx : Context} {t : TypeInfo} {requests : List AggregateRequest} {e : Error}

/-- **The first aggregate at fault**, and its error. -/
def FirstAtFault (ctx : Context) (t : TypeInfo) (requests : List AggregateRequest) (e : Error) :
    Prop :=
  ∃ before a after, requests = before ++ a :: after ∧
    (∀ b ∈ before, ∀ e', ¬b.AtFault ctx t e') ∧ a.AtFault ctx t e

/-- **The group stage fails with the first aggregate at fault.** -/
theorem groupStage_eq_error :
    groupStage ctx t requests = .error e ↔ FirstAtFault ctx t requests e := by
  have hfine : ∀ b : AggregateRequest,
      (∃ c, ((b.accumulator ctx t).map fun v => (b.label, v)) = .ok c) ↔
        ∀ e', ¬b.AtFault ctx t e' := by
    intro b
    simp only [← AggregateRequest.accumulator_eq_error]
    cases b.accumulator ctx t with
    | error e' => exact iff_of_false nofun fun h => h e' rfl
    | ok v => exact iff_of_true ⟨_, rfl⟩ nofun
  rw [groupStage, map_eq_error, collect_eq, map_eq_error, labelled, mapM_eq_error, FirstAtFault]
  simp only [hfine, map_eq_error, AggregateRequest.accumulator_eq_error]

end Aggregate

/-! ## Steps that ask a store -/

namespace Asked

variable {α β : Type} {a : Asked α} {f : α → Store → Asked β} {x : α} {e : Error}

/-- **Only the store is at fault** where a computation fails. -/
def FailsByStore (a : Asked α) : Prop := ∀ e, a.result = .error e → ∃ text, e = .store text

theorem failsByStore_ok (store : Store) (x : α) : (pure store (.ok x)).FailsByStore := nofun

theorem failsByStore_ask (store : Store) (collection : String) (stages : Pipeline) :
    (ask store collection stages).FailsByStore := by
  intro e h
  have h : (store.ask collection stages).1.mapError Error.store = .error e := h
  cases hanswer : (store.ask collection stages).1 with
  | error text =>
    rw [hanswer] at h
    cases h
    exact ⟨text, rfl⟩
  | ok rows => rw [hanswer] at h; cases h

theorem FailsByStore.map (h : a.FailsByStore) (f : α → β) : (a.map f).FailsByStore :=
  fun e herror => h e (map_eq_error.1 herror)

theorem result_andThen (a : Asked α) (f : α → Store → Asked β) :
    (a.andThen f).result = a.result >>= fun x => (f x a.store).result := by
  unfold andThen
  cases a.result <;> rfl

/-- A computation that goes on from a result asks what comes before it and what comes behind. -/
theorem calls_andThen (h : a.result = .ok x) (f : α → Store → Asked β) :
    (a.andThen f).calls = a.calls ++ (f x a.store).calls := by
  rw [andThen, h]

/-- Behind a step of the store a computation fails by itself only in what follows. -/
theorem FailsByStore.andThen_eq_error (ha : a.FailsByStore) (he : ∀ text, e ≠ .store text)
    (f : α → Store → Asked β) : (a.andThen f).result = .error e ↔
      ∃ x, a.result = .ok x ∧ (f x a.store).result = .error e := by
  rw [result_andThen, bind_eq_error]
  refine or_iff_right fun h => ?_
  obtain ⟨text, htext⟩ := ha e h
  exact he text htext

end Asked

namespace Connection.Resolver

open Aggregate (groupStage FirstAtFault groupStage_eq_error)

variable {r : Resolver} {t : TypeInfo} {source : ConnectionSource} {request : ConnectionRequest}
  {store : Store} {stages : Pipeline} {e : Error}

/-- The query for the rows of a page; of no rows there is none. -/
def pageCalls (collection : String) (stages : Pipeline) (sort : Option (Record Value))
    (w : Window) : List StoreCall :=
  if w.limit = some 0 then [] else [⟨collection, pageStages stages sort w⟩]

theorem failsByStore_count (collection : String) :
    (count collection stages store).FailsByStore :=
  (Asked.failsByStore_ask store collection _).map countOf

theorem failsByStore_page (collection : String) (sort : Option (Record Value)) (w : Window) :
    (page collection stages sort w store).FailsByStore := by
  unfold page
  split
  · exact Asked.failsByStore_ok store []
  · exact Asked.failsByStore_ask store collection _

theorem calls_page (collection : String) (sort : Option (Record Value)) (w : Window) :
    (page collection stages sort w store).calls = pageCalls collection stages sort w := by
  unfold page pageCalls
  split <;> rfl

/-- **Aggregates fail by themselves where one is at fault**, and then nothing is asked. -/
theorem aggregates_eq_error (hstore : ∀ text, e ≠ .store text) (collection : String)
    (requests : List AggregateRequest) :
    (r.aggregates t collection stages requests store).result = .error e ↔
      FirstAtFault r.context t requests e := by
  rw [← groupStage_eq_error]
  unfold aggregates
  split
  · next hempty =>
    rw [List.isEmpty_iff.1 hempty]
    exact iff_of_false nofun nofun
  · cases groupStage r.context t requests with
    | error e' => exact ⟨fun h => Except.error.inj h ▸ rfl, fun h => Except.error.inj h ▸ rfl⟩
    | ok stage =>
      refine iff_of_false (fun h => ?_) nofun
      obtain ⟨text, rfl⟩ := (Asked.failsByStore_ask store collection (stages ++ [stage])).map
        (Aggregate.ofRows requests) e h
      exact hstore text rfl

theorem calls_aggregates {requests : List AggregateRequest}
    (h : FirstAtFault r.context t requests e) (collection : String) :
    (r.aggregates t collection stages requests store).calls = [] := by
  unfold aggregates
  split
  · rfl
  · rw [groupStage_eq_error.2 h]
    rfl

/-! ## Requests -/

/-- **Fetching fails by itself** where an aggregate is at fault, once the count and the page have
been answered. -/
theorem fetch_eq_error (he : ∀ text, e ≠ .store text) (collection : String)
    (sort : Option (Record Value)) :
    (r.fetch t collection stages sort request store).result = .error e ↔
      ∃ length rows, (count collection stages store).result = .ok length ∧
        (page collection stages sort (request.paging.window length r.context.config.maxRows)
          (count collection stages store).store).result = .ok rows ∧
        FirstAtFault r.context t request.aggregates e := by
  unfold fetch
  rw [(failsByStore_count collection).andThen_eq_error he]
  refine exists_congr fun length => ?_
  rw [(failsByStore_page collection sort _).andThen_eq_error he, exists_and_left]
  refine and_congr_right fun _ => exists_congr fun rows => and_congr_right fun _ => ?_
  exact map_eq_error.trans (aggregates_eq_error he collection _)

/-- By then the count and the page have been asked for, and nothing else. -/
theorem calls_fetch {collection : String} {sort : Option (Record Value)} {length : Nat}
    {rows : List (Record Value)} (hcount : (count collection stages store).result = .ok length)
    (hpage : (page collection stages sort
      (request.paging.window length r.context.config.maxRows)
      (count collection stages store).store).result = .ok rows)
    (hfault : FirstAtFault r.context t request.aggregates e) :
    (r.fetch t collection stages sort request store).calls =
      ⟨collection, stages ++ [countStage]⟩ ::
        pageCalls collection stages sort
          (request.paging.window length r.context.config.maxRows) := by
  unfold fetch
  rw [Asked.calls_andThen hcount, Asked.calls_andThen hpage, calls_page, Asked.map,
    calls_aggregates hfault, List.append_nil]
  rfl

/-- **A request is rejected** with an error, and its store has received some queries by then. -/
inductive Rejected (r : Resolver) (source : ConnectionSource) (request : ConnectionRequest)
    (store : Store) (e : Error) : List StoreCall → Prop where
  /-- What cannot be prepared is asked of no store. -/
  | early (hprepare : r.prepare source request = .error e) : Rejected r source request store e []
  /-- An aggregate is found at fault when the store has answered the count and the page. -/
  | late {t : TypeInfo} {stages : Pipeline} {sort : Option (Record Value)} {length : Nat}
      {rows : List (Record Value)} (hprepare : r.prepare source request = .ok (t, stages, sort))
      (hcount : (count source.collection stages store).result = .ok length)
      (hpage : (page source.collection stages sort
        (request.paging.window length r.context.config.maxRows)
        (count source.collection stages store).store).result = .ok rows)
      (hfault : FirstAtFault r.context t request.aggregates e) :
      Rejected r source request store e (⟨source.collection, stages ++ [countStage]⟩ ::
        pageCalls source.collection stages sort
          (request.paging.window length r.context.config.maxRows))

/-- **A request that fails by itself is rejected**, early or late. -/
theorem rejected_iff (he : ∀ text, e ≠ .store text) (asked : List StoreCall) :
    (r.resolve source request store).result = .error e ∧
        (r.resolve source request store).calls = asked ↔
      Rejected r source request store e asked := by
  unfold resolve
  constructor
  · rintro ⟨herror, rfl⟩
    split at herror
    · next hprepare =>
      cases herror
      exact .early hprepare
    · next hprepare =>
      obtain ⟨length, rows, hcount, hpage, hfault⟩ := (fetch_eq_error he _ _).1 herror
      exact (calls_fetch hcount hpage hfault).symm ▸ .late hprepare hcount hpage hfault
  · rintro (hprepare | ⟨hprepare, hcount, hpage, hfault⟩)
    · rw [hprepare]
      exact ⟨rfl, rfl⟩
    · rw [hprepare]
      exact ⟨(fetch_eq_error he _ _).2 ⟨_, _, hcount, hpage, hfault⟩,
        calls_fetch hcount hpage hfault⟩

/-- Nothing has been asked for a request exactly where its aggregates are not at fault. -/
theorem Rejected.eq_nil_iff {asked : List StoreCall}
    (h : Rejected r source request store e asked) : asked = [] ↔
      ∀ t stages sort, r.prepare source request = .ok (t, stages, sort) →
        ¬FirstAtFault r.context t request.aggregates e := by
  cases h with
  | early hprepare =>
    refine iff_of_true rfl fun t stages sort hok => ?_
    cases hprepare.symm.trans hok
  | late hprepare _ _ hfault =>
    exact iff_of_false (List.cons_ne_nil _ _) fun h => h _ _ _ hprepare hfault

/-- **What a store is asked for a rejected request.**  A request that fails with an error of its own
is rejected.  Where it cannot be prepared, its store has been asked nothing.  Where an aggregate is
at fault, which is looked at last, the store has answered the count and the page, and is not asked
for the aggregates.  So nothing has been asked exactly where the aggregates are not at fault. -/
theorem resolve_rejected (he : ∀ text, e ≠ .store text) (asked : List StoreCall) :
    ((r.resolve source request store).result = .error e ∧
        (r.resolve source request store).calls = asked ↔
      Rejected r source request store e asked) ∧
    (Rejected r source request store e asked → (asked = [] ↔
      ∀ t stages sort, r.prepare source request = .ok (t, stages, sort) →
        ¬FirstAtFault r.context t request.aggregates e)) :=
  ⟨rejected_iff he asked, Rejected.eq_nil_iff⟩

/-- The filter of the second aggregate does not compile: it is looked at behind the page. -/
theorem resolve_rejected_second_aggregate :
    let source : ConnectionSource := ⟨"edges", [], "User", ⟨[], []⟩⟩
    let r : Resolver := ⟨.sample, Permission.all⟩
    let like : Value := .single "name" (.single "like" (.str "a"))
    let request : ConnectionRequest := ⟨none, none, none, none, ⟨some 1, none, none, none⟩,
      [⟨"a", .count, .node "name", none⟩, ⟨"b", .sum, .node "age", some like⟩]⟩
    let store : Store := .memory Pattern.engine "edges" [.single "node" (.single "name" (.str "a"))]
    let e := Error.schema (.invalidOperation "scalar filter" "like")
    let asked : List StoreCall := [⟨"edges", [countStage]⟩,
      ⟨"edges", [[("$sort", .single "_id" (.int 1))], [("$limit", .nat 1)]]⟩]
    (r.resolve source request store).result = .error e ∧
      (r.resolve source request store).calls = asked ∧
      ∃ t stages sort, r.prepare source request = .ok (t, stages, sort) ∧
        FirstAtFault r.context t request.aggregates e := by
  intro source r like request store e asked
  have hresult : (r.resolve source request store).result = .error e := rfl
  have hcalls : (r.resolve source request store).calls = asked := rfl
  have he : ∀ text, e ≠ .store text := nofun
  obtain ⟨hrejected, hnothing⟩ : (_ ↔ Rejected r source request store e asked) ∧ _ :=
    resolve_rejected he asked
  have hasked := mt (hnothing (hrejected.1 ⟨hresult, hcalls⟩)).2 (List.cons_ne_nil _ _)
  refine ⟨hresult, hcalls, ?_⟩
  simpa only [not_forall, not_not, exists_prop] using hasked

/-- **An aggregate is rejected too late.**  A filter on a field that is not declared is rejected
before anything is asked; an aggregate over it is rejected with the same error, and the store has
been asked for the count and the page. -/
theorem rejected_behind_page :
    let source : ConnectionSource := ⟨"edges", [], "User", ⟨[], []⟩⟩
    let r : Resolver := ⟨.sample, Permission.all⟩
    let store : Store := .memory Pattern.engine "edges" [.single "node" (.single "name" (.str "a"))]
    let size : Value := .single "size" (.single "exists" (.bool true))
    let filtered := r.resolve source ⟨some size, none, none, none, .none, []⟩ store
    let reduced := r.resolve source
      ⟨none, none, none, none, .none, [⟨"n", .count, .node "size", none⟩]⟩ store
    filtered.result = .error (.fieldNotFound "size" "User") ∧ filtered.calls = [] ∧
      reduced.result = .error (.fieldNotFound "size" "User") ∧
      reduced.calls = [⟨"edges", [countStage]⟩,
        ⟨"edges", [[("$sort", .single "_id" (.int 1))]]⟩] :=
  ⟨rfl, rfl, rfl, rfl⟩

end Connection.Resolver

end TypedGraph

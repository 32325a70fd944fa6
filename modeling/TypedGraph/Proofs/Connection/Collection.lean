import TypedGraph.Proofs.Connection.Answer
import TypedGraph.Proofs.Connection.Noninterference
import TypedGraph.Proofs.Order.SortDocument
import TypedGraph.Proofs.Page.Window

/-!
# Proofs/Connection/Collection — what a collection answers to a request

Where the stages of the edges make certain rows of a collection, the count is their number
(`map_run_countStage`), and the stage that orders them sorts them by its document
(`foldlM_stageOf`), the stage being left out only where there is nothing to sort by.  A page is cut
out of the sorted rows (`result_page`), so that a request without aggregates is answered by them
alone (`result_fetch`).
-/

namespace TypedGraph

namespace Asked

theorem andThen_eq_ok {α β : Type} {a : Asked α} {f : α → Store → Asked β} {y : β} :
    (a.andThen f).result = .ok y ↔ ∃ x, a.result = .ok x ∧ (f x a.store).result = .ok y := by
  unfold andThen
  cases a.result with
  | error e => exact ⟨nofun, nofun⟩
  | ok x => exact ⟨fun h => ⟨x, rfl, h⟩, fun ⟨_, hx, h⟩ => by cases hx; exact h⟩

end Asked

/-! ## Counting -/

namespace Group

open Connection.Resolver (countStage)

/-- The sum of as many ones. -/
theorem groupSum_replicate (n : Nat) :
    Reducer.groupSum (List.replicate n (.int 1)) = .int n := by
  have hnumbers : Aggregate.numbers (List.replicate n (.int 1)) = List.replicate n (.int 1) :=
    List.filterMap_replicate_of_some rfl
  have hints : ∀ n : Nat, (List.replicate n (Number.int 1)).mapM Number.toI64? =
      some (List.replicate n 1) := by
    intro n
    induction n with
    | zero => rfl
    | succ n ih =>
      rw [List.replicate_succ, List.mapM_cons, ih]
      rfl
  have hsum : ∀ (n : Nat) (start : Int),
      (List.replicate n (1 : Int)).foldl (· + ·) start = start + n := by
    intro n
    induction n with
    | zero => intro start; simp
    | succ n ih =>
      intro start
      rw [List.replicate_succ, List.foldl_cons, ih]
      omega
  unfold Reducer.groupSum
  rw [hnumbers]
  dsimp only
  rw [hints]
  dsimp only
  rw [hsum, Int.zero_add]

/-- **The count stage** makes one row with the number of rows, and none of none. -/
theorem rows_countStage (docs : List Value) : rows countStage docs =
    if docs.isEmpty then [] else [[("_id", .null), ("count", .int docs.length)]] := by
  have hones : ∀ ds : List Value,
      (ds.filterMap fun d => Value.present? (Expression.evaluate d (.int 1) [])) =
        List.replicate ds.length (.int 1) := by
    intro ds
    rw [← List.map_const']
    exact congrFun List.filterMap_eq_map ds
  cases docs with
  | nil => rfl
  | cons d ds =>
    have hcount : accumulate (d :: ds) (.single Reducer.sum.name (.int 1)) =
        .int (d :: ds).length := by
      rw [← groupSum_replicate, ← hones]
      rfl
    rw [List.isEmpty_cons, if_neg Bool.false_ne_true, ← hcount]
    rfl

end Group

namespace Connection.Resolver

variable {patterns : PatternEngine} {stages : Pipeline} {rows kept : List Value}

/-- A number as far as a counter holds it. -/
def counted (n : Nat) : Nat := (Value.nat n).asU64?.getD 0

theorem counted_of_le {n : Nat} (h : (n : Int) ≤ Number.maxU64) : counted n = n := by
  have hfits : (Value.nat n).asU64? = some n := by
    simp [Value.asU64?, Value.nat, Number.toU64?, h]
  rw [counted, hfits]
  rfl

/-- The rows of a stage that makes objects. -/
theorem filterMap_asObject? (rows : List (Record Value)) :
    (rows.map Value.obj).filterMap Value.asObject? = rows := by
  rw [List.filterMap_map]
  exact List.filterMap_some

theorem countOf_singleton (n : Nat) : countOf [[("_id", .null), ("count", .int n)]] = counted n :=
  rfl

/-- **The count** is the number of rows that the stages make. -/
theorem map_run_countStage (h : stages.foldlM (Pipeline.runStage patterns) rows = .ok kept) :
    (Pipeline.run patterns rows (stages ++ [countStage])).map countOf =
      .ok (counted kept.length) := by
  have hrun : Pipeline.run patterns rows (stages ++ [countStage]) =
      .ok (Group.rows countStage kept) := by
    rw [Pipeline.run, List.foldlM_append, h, ← filterMap_asObject? (Group.rows countStage kept)]
    rfl
  rw [hrun, Group.rows_countStage]
  cases kept with
  | nil => rfl
  | cons row rest =>
    rw [List.isEmpty_cons, if_neg Bool.false_ne_true, ← countOf_singleton]
    rfl

theorem result_count (own collection : String)
    (h : stages.foldlM (Pipeline.runStage patterns) rows = .ok kept) :
    (count collection stages (.memory patterns own rows)).result =
      if collection = own then .ok (counted kept.length)
      else .error (.store ("unknown collection " ++ collection)) := by
  have hswap : ∀ answer : Except String (List (Record Value)),
      (answer.mapError Error.store).map countOf = (answer.map countOf).mapError Error.store := by
    intro answer
    cases answer <;> rfl
  dsimp only [count, Asked.map, Asked.ask, Store.ask]
  rw [hswap, Store.answer]
  split
  · rw [map_run_countStage h]
    rfl
  · rfl

/-! ## Sorting -/

variable {r : Resolver} {request : ConnectionRequest}

/-- The clauses of an order, where there is one. -/
def orderClauses (r : Resolver) (t : TypeInfo) (order : Option Value) :
    Except Error (List OrderClause) :=
  match order with
  | some o => Order.read r.context t o
  | none => .ok []

/-- The sort document of clauses. -/
def sortDocument (r : Resolver) (clauses : List OrderClause) : Record Value :=
  Order.sortDocument r.context.config clauses r.nodePrefix.segments

/-- The stage that orders rows by a document, left out where the document is empty. -/
def stageOf (document : Record Value) : Option (Record Value) :=
  if document.isEmpty then none else some [("$sort", .obj document)]

/-- **The stage of a sort document** sorts rows by it. -/
theorem foldlM_stageOf (document : Record Value) (rows : List Value) :
    (stageOf document).toList.foldlM (Pipeline.runStage patterns) rows =
      .ok (stableSort (Pipeline.compareRows document) rows) := by
  cases document with
  | nil =>
    rw [stableSort_eq_self fun _ _ _ _ => by rw [Pipeline.compareRows]; decide]
    rfl
  | cons e rest => rfl

theorem sortStage_eq (t : TypeInfo) (order : Option Value) : r.sortStage t order =
    (r.orderClauses t order).map fun clauses => stageOf (r.sortDocument clauses) := by
  cases order with
  | none => rfl
  | some o =>
    dsimp only [sortStage, orderClauses]
    cases Order.read r.context t o <;> rfl

/-! ## Pages -/

/-- The stages of a window cut it out of the rows. -/
theorem foldlM_window {w : Window} (hskip : (w.skip : Int) ≤ Number.maxU64)
    (hlimit : ∀ n ∈ w.limit, (n : Int) ≤ Number.maxU64) (rows : List Value) :
    ((if 0 < w.skip then [[("$skip", Value.nat w.skip)]] else []) ++
        (w.limit.map fun n => [("$limit", Value.nat n)]).toList).foldlM
          (Pipeline.runStage patterns) rows =
      .ok (w.slice rows) := by
  have hskipped : (if 0 < w.skip then [[("$skip", Value.nat w.skip)]] else []).foldlM
      (Pipeline.runStage patterns) rows = .ok (rows.drop w.skip) := by
    split
    · have hstage : Pipeline.runStage patterns rows [("$skip", Value.nat w.skip)] =
          .ok (rows.drop (counted w.skip)) := rfl
      rw [List.foldlM_cons, hstage, counted_of_le hskip]
      rfl
    · next h =>
      rw [Nat.eq_zero_of_not_pos h, List.drop_zero]
      rfl
  rw [List.foldlM_append, hskipped, Window.slice]
  cases hw : w.limit with
  | none => rfl
  | some n =>
    have hstage : Pipeline.runStage patterns (rows.drop w.skip) [("$limit", Value.nat n)] =
        .ok ((rows.drop w.skip).take (counted n)) := rfl
    have hlimit := hlimit n hw
    rw [counted_of_le hlimit] at hstage
    exact (List.foldlM_cons).trans (bind_eq_ok.2 ⟨_, hstage, rfl⟩)

/-- **A page** is cut out of the sorted rows. -/
theorem result_page (collection : String)
    (h : stages.foldlM (Pipeline.runStage patterns) rows = .ok kept)
    (document : Record Value) {w : Window} (hskip : (w.skip : Int) ≤ Number.maxU64)
    (hlimit : ∀ n ∈ w.limit, (n : Int) ≤ Number.maxU64) :
    (page collection stages (stageOf document) w (.memory patterns collection rows)).result =
      .ok ((w.slice (stableSort (Pipeline.compareRows document) kept)).filterMap
        Value.asObject?) := by
  unfold page
  split
  · next hzero =>
    rw [Window.slice, hzero]
    rfl
  · have hrun : (pageStages stages (stageOf document) w).foldlM (Pipeline.runStage patterns) rows =
        .ok (w.slice (stableSort (Pipeline.compareRows document) kept)) := by
      unfold pageStages
      rw [List.append_assoc, List.foldlM_append, List.foldlM_append, h]
      refine bind_eq_ok.2 ⟨_, bind_eq_ok.2 ⟨kept, rfl, foldlM_stageOf document kept⟩, ?_⟩
      exact foldlM_window hskip hlimit _
    dsimp only [Asked.ask, Store.ask]
    rw [Store.answer, if_pos rfl, Pipeline.run, hrun]
    rfl

/-! ## Answers -/

/-- **A collection of objects answers** a request without aggregates by its sorted rows. -/
theorem result_fetch (t : TypeInfo) (collection : String) (haggregates : request.aggregates = [])
    (hfits : request.paging.Fits r.context.config.maxRows)
    (h : stages.foldlM (Pipeline.runStage patterns) rows = .ok kept)
    (hlength : (kept.length : Int) ≤ Number.maxU64) (document : Record Value)
    {edges : List (Record Value)}
    (hedges : stableSort (Pipeline.compareRows document) kept = edges.map .obj) :
    (r.fetch t collection stages (stageOf document) request
        (.memory patterns collection rows)).result =
      .ok (answer r.context.config request.paging edges) := by
  have hsame : kept.length = edges.length := by
    have hlengths := congrArg List.length hedges
    rwa [length_stableSort, List.length_map] at hlengths
  have hcount : (count collection stages (.memory patterns collection rows)).result =
      .ok edges.length := by
    rw [result_count collection collection h, if_pos rfl, counted_of_le hlength, hsame]
  have hslice : ∀ w : Window, (w.slice (edges.map Value.obj)).filterMap Value.asObject? =
      w.slice edges := by
    intro w
    unfold Window.slice
    split <;> simp only [← List.map_drop, ← List.map_take, filterMap_asObject?]
  have hskip := Paging.skip_window_le request.paging edges.length r.context.config.maxRows
  have hpage := result_page collection h document
    (w := request.paging.window edges.length r.context.config.maxRows) (by omega)
    (Paging.limit_window_le hfits)
  rw [hedges, hslice] at hpage
  refine Asked.andThen_eq_ok.2 ⟨_, hcount, Asked.andThen_eq_ok.2 ⟨_, hpage, ?_⟩⟩
  rw [haggregates]
  rfl

end Connection.Resolver

end TypedGraph

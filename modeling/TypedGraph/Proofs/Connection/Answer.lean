import Mathlib.Data.List.Basic
import TypedGraph.Connection.OfList
import TypedGraph.Proofs.Outcome

/-!
# Proofs/Connection/Answer — the answer to a request

Without aggregates an answer is made of all edges in their order and of the paging arguments
(`answer`), and says three things: the edges of the page, whether there is more on either side of
it, and the cursors of its ends.  A connection over a list answers so for the items that it selects
(`resolveList_eq`), and writes the results of aggregates into the answer (`resolveList_eq_bind`).
-/

namespace TypedGraph

namespace Connection

/-- **The answer** without aggregates, over all edges in their order. -/
def answer (config : Config) (paging : Paging) (edges : List (Record Value)) : Value :=
  let window := paging.window edges.length config.maxRows
  let rows := window.slice edges
  payload (withCursors rows window.skip) (paging.pageInfo window rows.length edges.length) []

/-! ## A connection over a list -/

/-- **The items that a connection selects**, in their order, by the filter and the order of a
request. -/
def selection (ctx : Context) (permissions : Permissions) (element : ListElement)
    (named : NamedExpressions) (items : List Value) (request : ConnectionRequest) :
    Except Error (List Value) := do
  let filter ← request.effectiveFilter named
  let order ← request.effectiveOrder named
  selectItems ctx permissions element filter order items

theorem slice_map {α β : Type} (w : Window) (f : α → β) (rows : List α) :
    w.slice (rows.map f) = (w.slice rows).map f := by
  unfold Window.slice
  split <;> simp

/-- The edges on the page of selected items. -/
def pageEdges (config : Config) (paging : Paging) (selected : List Value) : List Value :=
  let window := paging.window selected.length config.maxRows
  withCursors ((window.slice selected).map (edge config)) window.skip

/-- The page info of selected items. -/
def infoFor (config : Config) (paging : Paging) (selected : List Value) : PageInfo :=
  let window := paging.window selected.length config.maxRows
  paging.pageInfo window (window.slice selected).length selected.length

/-- **The answer for selected items**, with the results of aggregates. -/
def answerFor (config : Config) (paging : Paging) (selected : List Value)
    (results : Record Value) : Value :=
  payload (pageEdges config paging selected) (infoFor config paging selected) results

/-- The answer over the edges of items is the one for the items. -/
theorem answer_map_edge (config : Config) (paging : Paging) (selected : List Value) :
    answer config paging (selected.map (edge config)) = answerFor config paging selected [] := by
  simp only [answer, answerFor, pageEdges, infoFor, List.length_map, slice_map]

section Lists

variable {ctx : Context} {permissions : Permissions} {element : ListElement}
  {named : NamedExpressions} {items selected : List Value} {request : ConnectionRequest}

/-- **A connection over a list answers for the items that it selects**, with aggregates over their
edges. -/
theorem resolveList_eq_bind : resolveList ctx permissions element named items request =
    selection ctx permissions element named items request >>= fun selected =>
      (listAggregates ctx element request.aggregates (selected.map (edge ctx.config))).map
        (answerFor ctx.config request.paging selected) := by
  unfold resolveList selection answerFor pageEdges infoFor
  simp only [bind_assoc, List.length_map, slice_map]
  rfl

/-- **Without aggregates** the answer is that over the edges of the items. -/
theorem resolveList_eq (haggregates : request.aggregates = []) :
    resolveList ctx permissions element named items request =
      (selection ctx permissions element named items request).map fun selected =>
        answer ctx.config request.paging (selected.map (edge ctx.config)) := by
  rw [resolveList_eq_bind, haggregates]
  cases selection ctx permissions element named items request with
  | error e => rfl
  | ok selected => exact congrArg Except.ok (answer_map_edge ..).symm

theorem length_keep_le (predicate : Option (Value → Bool)) (items : List Value) :
    (keep predicate items).length ≤ items.length := by
  cases predicate with
  | none => exact Nat.le_refl _
  | some p => exact List.length_filter_le p items

theorem length_sortScalars (direction : Direction) (items : List Value) :
    (Order.sortScalars direction items).length = items.length := by
  rw [Order.sortScalars, List.length_append, length_stableSort, ← List.length_append]
  exact (List.filter_append_perm Value.isNull items).length_eq

/-- No more items are selected than there are. -/
theorem length_selection_le
    (h : selection ctx permissions element named items request = .ok selected) :
    selected.length ≤ items.length := by
  obtain ⟨filter, -, h⟩ := bind_eq_ok.1 h
  obtain ⟨order, -, h⟩ := bind_eq_ok.1 h
  cases element with
  | scalar =>
    obtain ⟨predicate, -, h⟩ := bind_eq_ok.1 h
    obtain ⟨direction, -, h⟩ := bind_eq_ok.1 h
    cases h
    split
    · rw [length_sortScalars]
      exact length_keep_le _ _
    · exact length_keep_le _ _
  | object t =>
    obtain ⟨visible, -, h⟩ := bind_eq_ok.1 h
    obtain ⟨predicate, -, h⟩ := bind_eq_ok.1 h
    obtain ⟨clauses, -, h⟩ := bind_eq_ok.1 h
    cases h
    have hkept := Nat.le_trans (length_keep_le predicate (keep visible items)) (length_keep_le _ _)
    split
    · rwa [Order.sortObjects, length_stableSort]
    · exact hkept

end Lists

/-! ## Reading an answer -/

/-- The edges of an answer. -/
def edgesOf (answer : Value) : List Value := Value.itemsOf (answer.get? "edges")

/-- A flag in the page info of an answer. -/
def flagIn (answer : Value) (name : String) : Bool :=
  (answer.lookup? ["pageInfo", name]).any Value.isTrue

/-- A cursor in the page info of an answer. -/
def cursorIn? (answer : Value) (name : String) : Option String :=
  (answer.lookup? ["pageInfo", name]).bind Value.asString?

section Reading

variable (edges : List Value) (info : PageInfo)

/-- Aggregates change nothing under any other name. -/
theorem get?_payload_of_not_mem {results : Record Value} {name : String}
    (h : name ∉ Record.names results) :
    (payload edges info results).get? name = (payload edges info []).get? name :=
  Record.get?_putAll_of_not_mem h _

theorem edgesOf_payload : edgesOf (payload edges info []) = edges := rfl

theorem flagIn_payload_hasNextPage :
    flagIn (payload edges info []) "hasNextPage" = info.hasNextPage := by
  have hread : (payload edges info []).lookup? ["pageInfo", "hasNextPage"] =
      some (.bool info.hasNextPage) := rfl
  rw [flagIn, hread]
  cases info.hasNextPage <;> rfl

theorem flagIn_payload_hasPreviousPage :
    flagIn (payload edges info []) "hasPreviousPage" = info.hasPreviousPage := by
  have hread : (payload edges info []).lookup? ["pageInfo", "hasPreviousPage"] =
      some (.bool info.hasPreviousPage) := rfl
  rw [flagIn, hread]
  cases info.hasPreviousPage <;> rfl

theorem cursorIn?_payload_startCursor :
    cursorIn? (payload edges info []) "startCursor" = info.startCursor := by
  have hread : (payload edges info []).lookup? ["pageInfo", "startCursor"] =
      some (.ofString? info.startCursor) := rfl
  rw [cursorIn?, hread]
  cases info.startCursor <;> rfl

theorem cursorIn?_payload_endCursor :
    cursorIn? (payload edges info []) "endCursor" = info.endCursor := by
  have hread : (payload edges info []).lookup? ["pageInfo", "endCursor"] =
      some (.ofString? info.endCursor) := rfl
  rw [cursorIn?, hread]
  cases info.endCursor <;> rfl

end Reading

/-! ## The edges of a page -/

/-- The cursor of a row is that of its place. -/
theorem withCursors_eq (rows : List (Record Value)) (skip : Nat) : withCursors rows skip =
    (rows.zipIdx skip).map fun (row, i) =>
      .obj (Record.put row "cursor" (.str (Cursor.ofOffset i))) := by
  unfold withCursors
  rw [List.zipIdx_eq_map_add (i := skip), List.map_map]
  exact List.map_congr_left fun _ _ => rfl

theorem length_withCursors (rows : List (Record Value)) (skip : Nat) :
    (withCursors rows skip).length = rows.length := by
  rw [withCursors, List.length_map, List.length_zipIdx]

/-- Cursors count on. -/
theorem withCursors_append (xs ys : List (Record Value)) (skip : Nat) :
    withCursors (xs ++ ys) skip = withCursors xs skip ++ withCursors ys (skip + xs.length) := by
  rw [withCursors_eq, withCursors_eq, withCursors_eq, List.zipIdx_append, List.map_append]

theorem withCursors_take (rows : List (Record Value)) (skip n : Nat) :
    withCursors (rows.take n) skip = (withCursors rows skip).take n := by
  by_cases h : n ≤ rows.length
  · have hlength : (withCursors (rows.take n) skip).length = n := by
      rw [length_withCursors, List.length_take_of_le h]
    conv_rhs => rw [← List.take_append_drop n rows, withCursors_append]
    exact (List.take_left' hlength).symm
  · have hall : rows.length ≤ n := Nat.le_of_not_le h
    rw [List.take_of_length_le hall, List.take_of_length_le]
    rwa [length_withCursors]

end Connection

end TypedGraph

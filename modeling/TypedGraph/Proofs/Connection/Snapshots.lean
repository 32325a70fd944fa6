import TypedGraph.Proofs.Connection.Collection

/-!
# Proofs/Connection/Snapshots — an answer out of two snapshots

A resolver asks a store twice, for the number of edges and for the rows of a page, and nothing ties
the second answer to the first: in between the store may have changed, and a store may be a script
of any answers at all.  So the rows of a page may be fewer than the window takes, or more, or none.
The answer agrees with itself all the same (`resolve_consistent`): the cursors count on from the
window's start, the page info tells the cursors of the edges that are there, and whether there are
more is decided by the number of these edges and by the count.
-/

namespace TypedGraph

namespace Record

variable {α : Type}

/-- The entries under other names. -/
def without (r : Record α) (name : String) : Record α := r.filter fun e => e.1 ≠ name

/-- Writing an entry leaves the others as they are. -/
theorem without_put (name : String) (x : α) : ∀ r : Record α,
    (r.put name x).without name = r.without name
  | [] => by simp [put, without]
  | (k, v) :: r => by
    have ih : without (put r name x) name = without r name := without_put name x r
    rw [put]
    split
    · next hk => simp [without, hk]
    · next hk =>
      rw [without, List.filter_cons_of_pos (by simpa using hk), ← without, ih, without, without,
        List.filter_cons_of_pos (by simpa using hk)]

end Record

namespace Connection

/-! ## What a consistent answer says -/

/-- **The edge of a row** at an offset: its cursor is that of the offset, and otherwise it is the
row. -/
structure IsEdge (offset : Nat) (row edge : Record Value) : Prop where
  cursor : Record.get? edge "cursor" = some (.str (Cursor.ofOffset offset))
  rest : Record.without edge "cursor" = Record.without row "cursor"

/-- **An answer is consistent**: it has the edges of the rows, counted on from an offset, its page
info has the cursors of the first and the last of these edges, and its flags compare them with the
number of edges in all. -/
structure Consistent (paging : Paging) (skip length : Nat) (rows edges : List (Record Value))
    (answer : Value) : Prop where
  edges_eq : answer.get? "edges" = some (.arr (edges.map .obj))
  length_eq : edges.length = rows.length
  isEdge : ∀ {i row edge}, rows[i]? = some row → edges[i]? = some edge → IsEdge (skip + i) row edge
  startCursor : answer.lookup? ["pageInfo", "startCursor"] =
    some (Value.orNull (edges.head?.bind fun e => Record.get? e "cursor"))
  endCursor : answer.lookup? ["pageInfo", "endCursor"] =
    some (Value.orNull (edges.getLast?.bind fun e => Record.get? e "cursor"))
  startCursor_null : answer.lookup? ["pageInfo", "startCursor"] = some .null ↔ edges = []
  endCursor_null : answer.lookup? ["pageInfo", "endCursor"] = some .null ↔ edges = []
  hasNextPage : answer.lookup? ["pageInfo", "hasNextPage"] =
    some (.bool (decide (paging.first.isSome ∧ skip + edges.length < length)))
  hasPreviousPage : answer.lookup? ["pageInfo", "hasPreviousPage"] =
    some (.bool (decide (paging.last.isSome ∧ skip ≠ 0)))

/-! ## The edges of any rows -/

/-- The edges of rows from an offset on. -/
def edgesFrom (rows : List (Record Value)) (skip : Nat) : List (Record Value) :=
  (rows.zipIdx skip).map fun (row, i) => Record.put row "cursor" (.str (Cursor.ofOffset i))

variable (rows : List (Record Value)) (skip : Nat)

theorem withCursors_eq_map : withCursors rows skip = (edgesFrom rows skip).map .obj := by
  rw [withCursors_eq, edgesFrom, List.map_map]
  rfl

theorem length_edgesFrom : (edgesFrom rows skip).length = rows.length := by
  rw [edgesFrom, List.length_map, List.length_zipIdx]

theorem getElem?_edgesFrom (i : Nat) : (edgesFrom rows skip)[i]? =
    rows[i]?.map fun row => Record.put row "cursor" (.str (Cursor.ofOffset (skip + i))) := by
  rw [edgesFrom, List.getElem?_map, List.getElem?_zipIdx, Option.map_map]
  rfl

theorem isEdge_put (row : Record Value) (offset : Nat) :
    IsEdge offset row (Record.put row "cursor" (.str (Cursor.ofOffset offset))) :=
  ⟨Record.get?_put_self _ _ _, Record.without_put _ _ _⟩

/-- The cursor of an edge. -/
theorem cursor_edgesFrom {i : Nat} (h : i < rows.length) :
    ((edgesFrom rows skip)[i]?.bind fun e => Record.get? e "cursor") =
      some (.str (Cursor.ofOffset (skip + i))) := by
  rw [getElem?_edgesFrom, List.getElem?_eq_getElem h]
  exact (isEdge_put _ _).cursor

theorem edgesFrom_eq_nil_iff : edgesFrom rows skip = [] ↔ rows.length = 0 := by
  rw [← List.length_eq_zero_iff, length_edgesFrom]

variable (paging : Paging) (w : Window) (length : Nat)

/-- The start of a page is written as the cursor of its first edge. -/
theorem startCursor_pageInfo :
    Value.ofString? (paging.pageInfo w rows.length length).startCursor =
      Value.orNull ((edgesFrom rows w.skip).head?.bind fun e => Record.get? e "cursor") := by
  rw [List.head?_eq_getElem?]
  dsimp only [Paging.pageInfo]
  split
  · next hzero => rw [(edgesFrom_eq_nil_iff rows w.skip).2 hzero]; rfl
  · next hne => rw [cursor_edgesFrom rows w.skip (Nat.pos_of_ne_zero hne)]; rfl

/-- The end of a page is written as the cursor of its last edge. -/
theorem endCursor_pageInfo :
    Value.ofString? (paging.pageInfo w rows.length length).endCursor =
      Value.orNull ((edgesFrom rows w.skip).getLast?.bind fun e => Record.get? e "cursor") := by
  rw [List.getLast?_eq_getElem?, length_edgesFrom]
  dsimp only [Paging.pageInfo]
  split
  · next hzero => rw [(edgesFrom_eq_nil_iff rows w.skip).2 hzero]; rfl
  · next hne =>
    rw [cursor_edgesFrom rows w.skip (by omega), ← Nat.add_sub_assoc (Nat.pos_of_ne_zero hne)]
    rfl

/-- **Answers to any rows are consistent.** -/
theorem consistent_payload :
    Consistent paging w.skip length rows (edgesFrom rows w.skip)
      (payload (withCursors rows w.skip) (paging.pageInfo w rows.length length) []) := by
  have hlength := length_edgesFrom rows w.skip
  have hempty := edgesFrom_eq_nil_iff rows w.skip
  refine ⟨?_, hlength, ?_, congrArg some (startCursor_pageInfo rows paging w length),
    congrArg some (endCursor_pageInfo rows paging w length), ?_, ?_, ?_, ?_⟩
  · rw [withCursors_eq_map]
    rfl
  · intro i row edge hrow hedge
    rw [getElem?_edgesFrom, hrow] at hedge
    cases hedge
    exact isEdge_put row _
  · rw [hempty]
    change some (Value.ofString? (if rows.length = 0 then none else _)) = _ ↔ _
    split <;> simp [Value.ofString?, *]
  · rw [hempty]
    change some (Value.ofString? (if rows.length = 0 then none else _)) = _ ↔ _
    split <;> simp [Value.ofString?, *]
  · rw [hlength, Bool.decide_and, Bool.decide_eq_true]
    rfl
  · have hskip : decide (w.skip ≠ 0) = (w.skip != 0) := by simp [bne, Bool.beq_eq_decide_eq]
    rw [Bool.decide_and, Bool.decide_eq_true, hskip]
    rfl

/-! ## Two snapshots -/

namespace Resolver

variable {r : Resolver} {source : ConnectionSource} {request : ConnectionRequest} {store : Store}
  {v : Value}

/-- **An answer out of two snapshots is consistent.**  Whatever a store answers when it is asked for
the count, and whatever it answers when it is asked for the page, an answer to a request without
aggregates has one edge for each row of the second answer, its window is that of the count of the
first, and it is consistent for both. -/
theorem resolve_consistent (haggregates : request.aggregates = [])
    (h : (r.resolve source request store).result = .ok v) :
    ∃ t stages sort length rows edges,
      r.prepare source request = .ok (t, stages, sort) ∧
      (count source.collection stages store).result = .ok length ∧
      (page source.collection stages sort
        (request.paging.window length r.context.config.maxRows)
        (count source.collection stages store).store).result = .ok rows ∧
      Consistent request.paging (request.paging.window length r.context.config.maxRows).skip length
        rows edges v := by
  unfold resolve at h
  split at h
  · cases h
  · next t stages sort hprepare =>
    obtain ⟨length, hcount, h⟩ := Asked.andThen_eq_ok.1 h
    obtain ⟨rows, hpage, h⟩ := Asked.andThen_eq_ok.1 h
    rw [haggregates] at h
    cases h
    exact ⟨t, stages, sort, length, rows, _, hprepare, hcount, hpage,
      consistent_payload rows _ _ _⟩

/-- A store counts five edges, and then has three rows for the first two of them: the answer has
three edges, and more to come. -/
theorem resolve_consistent_three_of_two :
    let r : Resolver := ⟨.sample, Permission.all⟩
    let source : ConnectionSource := ⟨"edges", [], "User", ⟨[], []⟩⟩
    let request : ConnectionRequest := ⟨none, none, none, none, ⟨some 2, none, none, none⟩, []⟩
    let rows := [[("cursor", .null)], [("node", .null)], []]
    ∃ v edges,
      (r.resolve source request (.scripted [.ok [[("count", .int 5)]], .ok rows])).result = .ok v ∧
      Consistent request.paging 0 5 rows edges v ∧
      v.lookup? ["pageInfo", "hasNextPage"] = some (.bool true) := by
  intro r source request rows
  have hresolve : ∃ v,
      (r.resolve source request (.scripted [.ok [[("count", .int 5)]], .ok rows])).result =
        .ok v := by
    dsimp only [r, source, request, rows]
    exact ⟨_, rfl⟩
  obtain ⟨v, hv⟩ := hresolve
  obtain ⟨t, stages, sort, length, rows', edges, -, hcount, hpage, hconsistent⟩ :=
    resolve_consistent rfl hv
  obtain rfl : 5 = length := Except.ok.inj hcount
  obtain rfl : rows = rows' := Except.ok.inj hpage
  refine ⟨v, edges, hv, hconsistent, ?_⟩
  rw [hconsistent.hasNextPage, hconsistent.length_eq]
  rfl

end Resolver

end Connection

end TypedGraph

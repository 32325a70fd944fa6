import TypedGraph.Proofs.Connection.Answer
import TypedGraph.Proofs.Filter.Fitting
import TypedGraph.Proofs.Page.Places
import TypedGraph.Proofs.Page.Window

/-!
# Proofs/Connection/Walk — going through the pages of a connection

A client that asks for one page after the other, by the cursor at the end of the page before, sees
every edge once and in its place, forwards and backwards (`walk_eq_selection`).

A walk is a chain of answers that are linked by nothing but their cursors.  What carries it is where
the next page begins: after a page that says that there is more, its cursor stands for the last row
of the page, so that the next page begins right behind it (`exists_walk_forward`), or for the first
row, so that the next page ends right before it (`exists_walk_backward`).  Each page of these holds
a row, and so the walk comes to an end.

A cap does not move the pages of a walk backwards.  It ends each of them early, so that the rows
behind those that come are in no page (`exists_walk_backward_capped`).
-/

namespace TypedGraph

namespace Connection

/-! ## Walks -/

/-- A way to go through pages: the arguments that ask for a page of a size at a cursor, the flag of
an answer that announces another page, and the cursor of an answer that leads there. -/
structure Travel where
  paging : Nat → Option String → Paging
  more : String
  mark : String

namespace Travel

/-- Forwards: the first rows after the end of the page before. -/
def forward : Travel where
  paging k after := ⟨some k, none, after, none⟩
  more := "hasNextPage"
  mark := "endCursor"

/-- Backwards: the last rows before the start of the page before. -/
def backward : Travel where
  paging k before := ⟨none, some k, none, before⟩
  more := "hasPreviousPage"
  mark := "startCursor"

end Travel

/-- **A walk** from a cursor: pages that are asked for one after the other, each by the mark of the
page before, until one announces no other. -/
inductive Walk (travel : Travel) (ask : Option String → Except Error Value) :
    Option String → List Value → Prop where
  | last {cursor : Option String} {page : Value} (hpage : ask cursor = .ok page)
      (hmore : flagIn page travel.more = false) : Walk travel ask cursor [page]
  | next {cursor : Option String} {page : Value} {pages : List Value}
      (hpage : ask cursor = .ok page) (hmore : flagIn page travel.more = true)
      (hrest : Walk travel ask (cursorIn? page travel.mark) pages) :
      Walk travel ask cursor (page :: pages)

/-- There is one walk from a cursor at most. -/
theorem Walk.unique {travel : Travel} {ask : Option String → Except Error Value}
    {cursor : Option String} {pages others : List Value} (h : Walk travel ask cursor pages)
    (h' : Walk travel ask cursor others) : others = pages := by
  induction h generalizing others with
  | last hpage hmore =>
    cases h' with
    | last hpage' =>
      cases hpage.symm.trans hpage'
      rfl
    | next hpage' hmore' =>
      cases hpage.symm.trans hpage'
      exact absurd hmore' (by simp [hmore])
  | next hpage hmore hrest ih =>
    cases h' with
    | last hpage' hmore' =>
      cases hpage.symm.trans hpage'
      exact absurd hmore (by simp [hmore'])
    | next hpage' hmore' hrest' =>
      cases hpage.symm.trans hpage'
      rw [ih hrest']

/-! ## Forwards -/

variable {config : Config} {edges : List (Record Value)} {k : Nat}
  {ask : Option String → Except Error Value}

section Forward

variable {after : Option String} {offset size : Nat}

/-- A page behind a cursor begins at the next row, and holds as many rows as may come. -/
theorem answer_forward (hafter : Cursor.offsetOr after edges.length (-1) + 1 = offset)
    (hsize : Paging.capped (some k) config.maxRows = some size) :
    answer config (Travel.forward.paging k after) edges =
      payload (withCursors ((edges.drop offset).take size) offset)
        ((Travel.forward.paging k after).pageInfo ⟨offset, some size⟩
          (min size (edges.length - offset)) edges.length) [] := by
  have hwindow : (Travel.forward.paging k after).window edges.length config.maxRows =
      ⟨offset, some size⟩ := Paging.window_forward rfl hafter hsize
  rw [answer, hwindow, Window.slice]
  dsimp only
  rw [List.length_take, List.length_drop]

/-- **A walk forwards** sees all edges from where it begins. -/
theorem exists_walk_forward
    (hask : ∀ after, ask after = .ok (answer config (Travel.forward.paging k after) edges))
    (hfits : (edges.length : Int) ≤ Number.maxI64)
    (hsize : Paging.capped (some k) config.maxRows = some size) (hpos : 0 < size) :
    ∀ {offset : Nat} {after : Option String}, offset ≤ edges.length →
      Cursor.offsetOr after edges.length (-1) + 1 = offset →
      ∃ pages, Walk .forward ask after pages ∧
        pages.flatMap edgesOf = withCursors (edges.drop offset) offset := by
  intro offset
  induction h : edges.length - offset using Nat.strongRecOn generalizing offset with
  | ind remaining ih =>
    intro after hoffset hafter
    have hpage := (hask after).trans (congrArg _ (answer_forward hafter hsize))
    by_cases hmore : offset + size < edges.length
    · have hreturned : min size (edges.length - offset) = size := by omega
      have hnext : Cursor.offsetOr (some (Cursor.ofOffset (offset + size - 1))) edges.length (-1) +
          1 = (offset + size : Nat) := by
        rw [Cursor.offsetOr_ofOffset (by omega) hfits]
        omega
      have hmark : ∀ p : Paging, (p.pageInfo ⟨offset, some size⟩ size edges.length).endCursor =
          some (Cursor.ofOffset (offset + size - 1)) := fun _ => if_neg (by omega)
      obtain ⟨pages, hwalk, hpages⟩ := ih _ (by omega) rfl (Nat.le_of_lt hmore) hnext
      rw [hreturned] at hpage
      refine ⟨_ :: pages, .next hpage ?_ ?_, ?_⟩
      · rw [Travel.forward, flagIn_payload_hasNextPage]
        exact decide_eq_true hmore
      · rw [Travel.forward, cursorIn?_payload_endCursor, hmark]
        exact hwalk
      · have hlength : ((edges.drop offset).take size).length = size := by
          rw [List.length_take, List.length_drop, hreturned]
        rw [List.flatMap_cons, hpages, edgesOf_payload, ← List.drop_drop,
          ← List.take_append_drop size (edges.drop offset), withCursors_append, hlength,
          List.take_append_drop]
    · refine ⟨[_], .last hpage ?_, ?_⟩
      · rw [Travel.forward, flagIn_payload_hasNextPage]
        exact decide_eq_false (by dsimp only; omega)
      · rw [List.flatMap_singleton, edgesOf_payload, List.take_of_length_le]
        rw [List.length_drop]
        omega

end Forward

/-! ## Backwards -/

section Backward

variable {before : Option String} {stop size : Nat}

/-- A page before a cursor begins so many rows before it as are asked for, and holds as many of them
as may come. -/
theorem answer_backward (hsize : Paging.capped (some k) config.maxRows = some size)
    (hfits : (edges.length : Int) ≤ Number.maxI64) (hstop : stop ≤ edges.length)
    (hbefore : Cursor.offsetOr before edges.length (Paging.asSigned edges.length) = stop) :
    answer config (Travel.backward.paging k before) edges =
      payload (withCursors (Paging.rowsBefore k size edges stop) (stop - k))
        ((Travel.backward.paging k before).pageInfo ⟨stop - k, some (min size stop)⟩
          (min size stop) edges.length) [] := by
  dsimp only [answer]
  rw [Paging.slice_window_backward rfl rfl hfits hstop hbefore hsize,
    Paging.window_backward rfl rfl hfits hstop hbefore hsize,
    Paging.length_rowsBefore (Paging.le_of_capped hsize) hstop]

/-- The edges that come of the rows before a place, where of each page of `k` rows only the first
ones come, so many as `size`. -/
def reached (k size : Nat) (edges : List (Record Value)) (stop : Nat) : List Value :=
  atPlaces (fun i => Paging.placeInPage k stop i < size) (withCursors (edges.take stop) 0) 0

/-- The edges before a place are parted where its page begins. -/
theorem withCursors_take_eq_append (hstop : stop ≤ edges.length) :
    withCursors (edges.take stop) 0 = withCursors (edges.take (stop - k)) 0 ++
      withCursors ((edges.take stop).drop (stop - k)) (stop - k) := by
  have htake : (edges.take stop).take (stop - k) = edges.take (stop - k) := by
    rw [List.take_take, Nat.min_eq_left (Nat.sub_le stop k)]
  have hlength : (edges.take (stop - k)).length = stop - k := List.length_take_of_le (by omega)
  have happend := withCursors_append ((edges.take stop).take (stop - k))
    ((edges.take stop).drop (stop - k)) 0
  rwa [List.take_append_drop, htake, hlength, Nat.zero_add] at happend

/-- The pages before the last, and of the last page the first rows. -/
theorem reached_eq_append (hstop : stop ≤ edges.length) :
    reached k size edges stop = reached k size edges (stop - k) ++
      withCursors (Paging.rowsBefore k size edges stop) (stop - k) := by
  have hlength : (withCursors (edges.take (stop - k)) 0).length = stop - k := by
    rw [length_withCursors, List.length_take]
    omega
  rw [reached, withCursors_take_eq_append (k := k) hstop, atPlaces_append, hlength, Nat.zero_add,
    Paging.rowsBefore, withCursors_take _ _ size]
  refine congrArg₂ _ (atPlaces_congr fun i _ hi => ?_)
    (Eq.trans (atPlaces_congr fun i hlow hhigh => ?_) atPlaces_first)
  · rw [Paging.placeInPage_sub (by omega)]
  · rw [length_withCursors, List.length_drop, List.length_take] at hhigh
    rw [Paging.placeInPage_of_le hlow (by omega)]

/-- **A walk backwards under a cap** sees of the rows of each page those that may come, which are
the first. -/
theorem exists_walk_backward_capped
    (hask : ∀ before, ask before = .ok (answer config (Travel.backward.paging k before) edges))
    (hfits : (edges.length : Int) ≤ Number.maxI64)
    (hsize : Paging.capped (some k) config.maxRows = some size) (hpos : 0 < size) :
    ∀ {stop : Nat} {before : Option String}, stop ≤ edges.length →
      Cursor.offsetOr before edges.length (Paging.asSigned edges.length) = stop →
      ∃ pages, Walk .backward ask before pages ∧
        pages.reverse.flatMap edgesOf = reached k size edges stop := by
  have hle := Paging.le_of_capped hsize
  intro stop
  induction stop using Nat.strongRecOn with
  | ind stop ih =>
    intro before hstop hbefore
    have hpage := (hask before).trans (congrArg _ (answer_backward hsize hfits hstop hbefore))
    by_cases hmore : k < stop
    · have hnext : Cursor.offsetOr (some (Cursor.ofOffset (stop - k))) edges.length
          (Paging.asSigned edges.length) = (stop - k : Nat) :=
        Cursor.offsetOr_ofOffset (by omega) hfits _
      have hmark : ∀ p : Paging, (p.pageInfo ⟨stop - k, some (min size stop)⟩ (min size stop)
          edges.length).startCursor = some (Cursor.ofOffset (stop - k)) :=
        fun _ => if_neg (by omega)
      obtain ⟨pages, hwalk, hpages⟩ := ih (stop - k) (by omega) (by omega) hnext
      refine ⟨_ :: pages, .next hpage ?_ ?_, ?_⟩
      · rw [Travel.backward, flagIn_payload_hasPreviousPage]
        exact bne_iff_ne.2 (by dsimp only; omega)
      · rw [Travel.backward, cursorIn?_payload_startCursor, hmark]
        exact hwalk
      · rw [List.reverse_cons, List.flatMap_append, hpages, List.flatMap_singleton,
          edgesOf_payload, reached_eq_append hstop]
    · have hskip : stop - k = 0 := by omega
      have hnone : reached k size edges 0 = [] := rfl
      refine ⟨[_], .last hpage ?_, ?_⟩
      · rw [Travel.backward, flagIn_payload_hasPreviousPage, hskip]
        rfl
      · rw [List.reverse_singleton, List.flatMap_singleton, edgesOf_payload,
          reached_eq_append hstop, hskip, hnone, List.nil_append]

/-- Everything comes exactly where whole pages do. -/
theorem reached_eq_self_iff (hk : 0 < k) (hstop : stop ≤ edges.length) :
    reached k size edges stop = withCursors (edges.take stop) 0 ↔ min k stop ≤ size := by
  rw [reached, atPlaces_eq_self_iff, ← Paging.forall_placeInPage_lt_iff hk, length_withCursors,
    List.length_take_of_le hstop, Nat.zero_add]
  exact forall_congr' fun i => by simp only [Nat.zero_le, true_implies, decide_eq_true_iff]

/-- **A walk backwards** sees all edges before where it begins, page by page. -/
theorem exists_walk_backward
    (hask : ∀ before, ask before = .ok (answer config (Travel.backward.paging k before) edges))
    (hfits : (edges.length : Int) ≤ Number.maxI64) (hcap : config.maxRows = none) (hpos : 0 < k)
    (hstop : stop ≤ edges.length)
    (hbefore : Cursor.offsetOr before edges.length (Paging.asSigned edges.length) = stop) :
    ∃ pages, Walk .backward ask before pages ∧
      pages.reverse.flatMap edgesOf = withCursors (edges.take stop) 0 := by
  obtain ⟨pages, hwalk, hpages⟩ :=
    exists_walk_backward_capped hask hfits (by rw [hcap]; rfl) hpos hstop hbefore
  exact ⟨pages, hwalk, hpages.trans ((reached_eq_self_iff hpos hstop).2 (Nat.min_le_left k stop))⟩

end Backward

/-! ## The nodes of pages -/

/-- The node of an edge. -/
def nodeOf (config : Config) (edge : Value) : Value := Value.orNull (edge.get? config.nodePath)

/-- The nodes of a page. -/
def nodesOf (config : Config) (page : Value) : List Value := (edgesOf page).map (nodeOf config)

/-- Edges hold the nodes that they were made of, wherever nodes and cursors have names of their
own. -/
theorem map_nodeOf_withCursors (hname : config.nodePath ≠ "cursor") (items : List Value)
    (skip : Nat) :
    (withCursors (items.map (edge config)) skip).map (nodeOf config) = items := by
  have hnode : ∀ item cursor, nodeOf config (.obj (Record.put (edge config item) "cursor" cursor)) =
      item := by
    intro item cursor
    have hget := Record.get?_put_of_ne hname (edge config item) cursor
    rw [edge, Record.get?, if_pos rfl] at hget
    rw [nodeOf, Value.get?, edge, hget]
    rfl
  rw [withCursors, List.zipIdx_map, List.map_map, List.map_map]
  exact (List.map_congr_left fun _ _ => hnode _ _).trans (List.zipIdx_map_fst 0 items)

/-! ## Walks through a list -/

/-- The page of a list at a cursor, of a size. -/
def askList (ctx : Context) (permissions : Permissions) (element : ListElement)
    (named : NamedExpressions) (items : List Value) (request : ConnectionRequest) (travel : Travel)
    (size : Nat) (cursor : Option String) : Except Error Value :=
  resolveList ctx permissions element named items
    { request with paging := travel.paging size cursor }

variable {ctx : Context} {permissions : Permissions} {element : ListElement}
  {named : NamedExpressions} {items selected : List Value} {request : ConnectionRequest}

/-- A page of a list is the answer for the items that are selected, which paging does not change. -/
theorem askList_eq (haggregates : request.aggregates = [])
    (hselected : selection ctx permissions element named items request = .ok selected)
    (travel : Travel) (cursor : Option String) :
    askList ctx permissions element named items request travel k cursor =
      .ok (answer ctx.config (travel.paging k cursor) (selected.map (edge ctx.config))) := by
  have hsame : selection ctx permissions element named items
      { request with paging := travel.paging k cursor } = .ok selected := hselected
  have hnone : ({ request with paging := travel.paging k cursor } :
      ConnectionRequest).aggregates = [] := haggregates
  rw [askList, resolveList_eq hnone, hsame]
  rfl

/-- **One walk leads through the pages of a list**, in either direction, and it goes through the
edges of what a request selects, each with the cursor of its place. -/
theorem exists_walk_selection (haggregates : request.aggregates = [])
    (hselected : selection ctx permissions element named items request = .ok selected)
    (hitems : (items.length : Int) ≤ Number.maxI64) (hk : 0 < k) :
    (ctx.config.maxRows ≠ some 0 → ∃ pages,
      (∀ walked, Walk .forward (askList ctx permissions element named items request .forward k) none
        walked ↔ walked = pages) ∧
      pages.flatMap edgesOf = withCursors (selected.map (edge ctx.config)) 0) ∧
    (ctx.config.maxRows = none → ∃ pages,
      (∀ walked, Walk .backward (askList ctx permissions element named items request .backward k)
        none walked ↔ walked = pages) ∧
      pages.reverse.flatMap edgesOf = withCursors (selected.map (edge ctx.config)) 0) := by
  have hask : ∀ (travel : Travel) (cursor : Option String),
      askList ctx permissions element named items request travel k cursor =
        .ok (answer ctx.config (travel.paging k cursor) (selected.map (edge ctx.config))) :=
    askList_eq haggregates hselected
  have hlength : (selected.map (edge ctx.config)).length = selected.length := List.length_map _
  have hfits : ((selected.map (edge ctx.config)).length : Int) ≤ Number.maxI64 := by
    have hle := length_selection_le hselected
    omega
  refine ⟨fun hcap => ?_, fun hcap => ?_⟩
  · obtain ⟨size, hsize, hpos⟩ : ∃ size, Paging.capped (some k) ctx.config.maxRows = some size ∧
        0 < size := by
      cases hmax : ctx.config.maxRows with
      | none => exact ⟨k, rfl, hk⟩
      | some cap =>
        refine ⟨min k cap, rfl, ?_⟩
        have : cap ≠ 0 := fun hzero => hcap (by rw [hmax, hzero])
        omega
    have hstart : Cursor.offsetOr none (selected.map (edge ctx.config)).length (-1) + 1 =
        (0 : Nat) := rfl
    obtain ⟨pages, hwalk, hpages⟩ :=
      exists_walk_forward (hask .forward) hfits hsize hpos (Nat.zero_le _) hstart
    exact ⟨pages, fun walked => ⟨hwalk.unique, fun h => h ▸ hwalk⟩, hpages⟩
  · have hstart : Cursor.offsetOr none (selected.map (edge ctx.config)).length
        (Paging.asSigned (selected.map (edge ctx.config)).length) =
        (selected.map (edge ctx.config)).length := Paging.asSigned_of_le hfits
    obtain ⟨pages, hwalk, hpages⟩ :=
      exists_walk_backward (hask .backward) hfits hcap hk (Nat.le_refl _) hstart
    rw [List.take_length] at hpages
    exact ⟨pages, fun walked => ⟨hwalk.unique, fun h => h ▸ hwalk⟩, hpages⟩

/-- The nodes of pages are those of their edges. -/
theorem flatMap_nodesOf (config : Config) (pages : List Value) :
    pages.flatMap (nodesOf config) = (pages.flatMap edgesOf).map (nodeOf config) :=
  List.map_flatMap.symm

/-- **Paging goes through the whole result exactly once.**  Whatever a request without aggregates
selects of a list, one walk leads through its pages of any size, and it comes to an end: forwards
under any cap but zero, and backwards where there is no cap.  The edges of its pages, one page after
the other, are those of the selected items in their order, each with the cursor of its place; and so
its nodes are the selected items, unless the configuration has cursors written over nodes. -/
theorem walk_eq_selection (haggregates : request.aggregates = [])
    (hselected : selection ctx permissions element named items request = .ok selected)
    (hitems : (items.length : Int) ≤ Number.maxI64) (hk : 0 < k) :
    (ctx.config.maxRows ≠ some 0 → ∃ pages,
      (∀ walked, Walk .forward (askList ctx permissions element named items request .forward k) none
        walked ↔ walked = pages) ∧
      pages.flatMap edgesOf = withCursors (selected.map (edge ctx.config)) 0 ∧
      (ctx.config.nodePath ≠ "cursor" → pages.flatMap (nodesOf ctx.config) = selected)) ∧
    (ctx.config.maxRows = none → ∃ pages,
      (∀ walked, Walk .backward (askList ctx permissions element named items request .backward k)
        none walked ↔ walked = pages) ∧
      pages.reverse.flatMap edgesOf = withCursors (selected.map (edge ctx.config)) 0 ∧
      (ctx.config.nodePath ≠ "cursor" →
        pages.reverse.flatMap (nodesOf ctx.config) = selected)) := by
  have hnodes : ∀ pages : List Value,
      pages.flatMap edgesOf = withCursors (selected.map (edge ctx.config)) 0 →
        ctx.config.nodePath ≠ "cursor" → pages.flatMap (nodesOf ctx.config) = selected := by
    intro pages hedges hname
    rw [flatMap_nodesOf, hedges, map_nodeOf_withCursors hname]
  obtain ⟨hforward, hbackward⟩ := exists_walk_selection haggregates hselected hitems hk
  refine ⟨fun hcap => ?_, fun hcap => ?_⟩
  · obtain ⟨pages, hwalk, hpages⟩ := hforward hcap
    exact ⟨pages, hwalk, hpages, hnodes pages hpages⟩
  · obtain ⟨pages, hwalk, hpages⟩ := hbackward hcap
    exact ⟨pages, hwalk, hpages, hnodes _ hpages⟩

/-- Three words in pages of two, forwards and backwards. -/
theorem walk_three_words :
    let request : ConnectionRequest :=
      ⟨none, none, some (.str "ASCENDING"), none, .none, []⟩
    let ask := askList .sample Permission.all .scalar ⟨[], []⟩ [.str "c", .str "a", .str "b"]
      request
    (∃ pages, Walk .forward (ask .forward 2) none pages ∧
      pages.flatMap (nodesOf .standard) = [.str "a", .str "b", .str "c"]) ∧
    ∃ pages, Walk .backward (ask .backward 2) none pages ∧
      pages.reverse.flatMap (nodesOf .standard) = [.str "a", .str "b", .str "c"] := by
  intro request ask
  have hselected : selection .sample Permission.all .scalar ⟨[], []⟩ [.str "c", .str "a", .str "b"]
      request = .ok [.str "a", .str "b", .str "c"] := rfl
  have hwalk := walk_eq_selection (k := 2) rfl hselected (by decide) (by decide)
  obtain ⟨pages, hpages, -, hnodes⟩ := hwalk.1 (by decide)
  obtain ⟨pages', hpages', -, hnodes'⟩ := hwalk.2 rfl
  exact ⟨⟨pages, (hpages pages).2 rfl, hnodes (by decide)⟩,
    ⟨pages', (hpages' pages').2 rfl, hnodes' (by decide)⟩⟩

/-- **A walk that sees cursors instead of nodes.**  Where the nodes lie under the key of the
cursors, none of two words arrives, in neither direction: what a client reads there are the cursors
of the words. -/
theorem walk_cursors_over_nodes :
    let config : Config := { Config.standard with nodePath := "cursor" }
    let ctx : Context := { Context.sample with config }
    let request : ConnectionRequest := ⟨none, none, none, none, .none, []⟩
    let words : List Value := [.str "a", .str "b"]
    let cursors : List Value := [.str (Cursor.ofOffset 0), .str (Cursor.ofOffset 1)]
    let ask := askList ctx Permission.all .scalar ⟨[], []⟩ words request
    selection ctx Permission.all .scalar ⟨[], []⟩ words request = .ok words ∧
    (∃ pages, (∀ walked, Walk .forward (ask .forward 2) none walked ↔ walked = pages) ∧
      pages.flatMap (nodesOf config) = cursors) ∧
    (∃ pages, (∀ walked, Walk .backward (ask .backward 2) none walked ↔ walked = pages) ∧
      pages.reverse.flatMap (nodesOf config) = cursors) ∧
    cursors ≠ words := by
  intro config ctx request words cursors ask
  have hselected : selection ctx Permission.all .scalar ⟨[], []⟩ words request = .ok words := rfl
  have hnodes : ∀ pages : List Value,
      pages.flatMap edgesOf = withCursors (words.map (edge config)) 0 →
        pages.flatMap (nodesOf config) = cursors := by
    intro pages hedges
    rw [flatMap_nodesOf, hedges]
    rfl
  have hfirst : Cursor.ofOffset 0 ≠ "a" := by decide
  obtain ⟨hforward, hbackward⟩ :=
    exists_walk_selection (k := 2) rfl hselected (by decide) (by decide)
  obtain ⟨pages, hwalk, hpages⟩ := hforward nofun
  obtain ⟨pages', hwalk', hpages'⟩ := hbackward rfl
  exact ⟨hselected, ⟨pages, hwalk, hnodes pages hpages⟩, ⟨pages', hwalk', hnodes _ hpages'⟩,
    fun h => hfirst (Value.str.inj (List.cons.inj h).1)⟩

end Connection

end TypedGraph

import TypedGraph.Proofs.Connection.Walk
import TypedGraph.Proofs.Page.Exactness

/-!
# Proofs/Connection/CappedWalk — paging backwards under a cap

A window that pages backwards begins as many rows before its cursor as are asked for, and a cap then
ends it early.  So of the rows before the cursor the first ones come, and the last ones, which are
next to the cursor, do not (`exists_cutShort`); the next page of a walk ends where this one begins,
so that no page has them.  A walk backwards sees all rows exactly where the cap cuts no page short
(`walk_backward_capped`).
-/

namespace TypedGraph

namespace Paging

variable {α : Type} {p : Paging} {k c : Nat} {items : List α}

/-- **A page backwards that a cap cuts short.**  With rows on either side it makes up the rows
before the one that its cursor leads to. -/
structure CutShort (p : Paging) (k c : Nat) (items : List α) (mark : Int)
    (earlier rows later : List α) : Prop where
  leads : Cursor.Leads p.before items.length items.length mark
  parts : items.take mark.toNat = earlier ++ rows ++ later
  /-- The page begins so many rows before the cursor as are asked for. -/
  start : earlier.length = mark.toNat - k
  count : rows.length = min (min k c) mark.toNat
  /-- The page reaches up to the cursor exactly where the cap does not end it before. -/
  adjacent : later = [] ↔ min k mark.toNat ≤ c

/-- **A page backwards under a cap is cut short at its end.** -/
theorem exists_cutShort (hfirst : p.first = .none) (hlast : p.last = some k)
    (hitems : (items.length : Int) ≤ Number.maxI64) :
    ∃ mark earlier later,
      p.CutShort k c items mark earlier ((p.window items.length (some c)).slice items) later := by
  obtain ⟨stop, hle, hbefore⟩ := exists_place_before p.before hitems
  have hlength : ((items.take stop).drop (stop - k)).length = min k stop := by
    rw [List.length_drop, List.length_take]
    omega
  have hsize : capped (some k) (some c) = some (min k c) := rfl
  rw [slice_window_backward hfirst hlast hitems hle hbefore hsize]
  refine ⟨stop, (items.take stop).take (stop - k),
    ((items.take stop).drop (stop - k)).drop (min k c), leads_of_offsetOr_eq hitems hbefore, ?_, ?_,
    length_rowsBefore (Nat.min_le_left k c) hle, ?_⟩
  · rw [Int.toNat_natCast, rowsBefore, List.append_assoc, List.take_append_drop,
      List.take_append_drop]
  · rw [Int.toNat_natCast, List.length_take, List.length_take]
    omega
  · rw [Int.toNat_natCast, List.drop_eq_nil_iff, hlength]
    omega

end Paging

namespace Connection

variable {k c : Nat}

/-- **Paging backwards under a cap.**  A page begins so many rows before its cursor as are asked
for, and the cap cuts it short at its end; so it is next to its cursor exactly where the cap is no
less than the rows that it has without one.  One walk leads through the pages of what a request
without aggregates selects, and it comes to an end; it sees the first rows of each page, which the
cap leaves, and so it sees all rows exactly where the cap cuts no page short. -/
theorem walk_backward_capped (hk : 0 < k) (hc : 0 < c) :
    (∀ {α : Type} (p : Paging) (items : List α), (items.length : Int) ≤ Number.maxI64 →
      p.first = none → p.last = some k →
      ∃ mark earlier later,
        p.CutShort k c items mark earlier ((p.window items.length (some c)).slice items) later) ∧
    ∀ (ctx : Context) (permissions : Permissions) (element : ListElement)
      (named : NamedExpressions) (items selected : List Value) (request : ConnectionRequest),
      ctx.config.maxRows = some c → request.aggregates = [] →
      selection ctx permissions element named items request = .ok selected →
      (items.length : Int) ≤ Number.maxI64 →
      ∃ pages,
        (∀ walked, Walk .backward
          (askList ctx permissions element named items request .backward k) none walked ↔
            walked = pages) ∧
        pages.reverse.flatMap edgesOf =
          reached k (min k c) (selected.map (edge ctx.config)) selected.length ∧
        (pages.reverse.flatMap edgesOf = withCursors (selected.map (edge ctx.config)) 0 ↔
          min k selected.length ≤ c) := by
  refine ⟨fun p items hitems hfirst hlast => Paging.exists_cutShort hfirst hlast hitems, ?_⟩
  intro ctx permissions element named items selected request hcap haggregates hselected hitems
  have hlength : (selected.map (edge ctx.config)).length = selected.length := List.length_map _
  have hfits : ((selected.map (edge ctx.config)).length : Int) ≤ Number.maxI64 := by
    have hle := length_selection_le hselected
    omega
  have hsize : Paging.capped (some k) ctx.config.maxRows = some (min k c) := by rw [hcap]; rfl
  have hstart : Cursor.offsetOr none (selected.map (edge ctx.config)).length
      (Paging.asSigned (selected.map (edge ctx.config)).length) =
      (selected.map (edge ctx.config)).length := Paging.asSigned_of_le hfits
  obtain ⟨pages, hwalk, hpages⟩ := exists_walk_backward_capped
    (askList_eq haggregates hselected .backward) hfits hsize (by omega) (Nat.le_refl _) hstart
  have hall : _ ↔ min k selected.length ≤ min k c :=
    reached_eq_self_iff hk (Nat.le_of_eq hlength.symm)
  rw [List.take_of_length_le (Nat.le_of_eq hlength)] at hall
  rw [hlength] at hpages
  refine ⟨pages, fun walked => ⟨hwalk.unique, fun h => h ▸ hwalk⟩, hpages, ?_⟩
  rw [hpages, hall]
  omega

/-- Three words in pages of two, under a cap of one: the walk misses the last word. -/
theorem walk_backward_capped_three_words :
    let ctx : Context := ⟨.sample, { Config.standard with maxRows := some 1 }, .standard,
      Pattern.engine⟩
    let request : ConnectionRequest := ⟨none, none, none, none, .none, []⟩
    let items : List Value := [.str "a", .str "b", .str "c"]
    let ask := askList ctx Permission.all .scalar ⟨[], []⟩ items request .backward 2
    let p : Paging := ⟨none, some 2, none, none⟩
    (∃ mark earlier later, p.CutShort 2 1 items mark earlier [.str "b"] later) ∧
    ∃ pages, Walk .backward ask none pages ∧
      pages.reverse.flatMap (nodesOf .standard) = [.str "a", .str "b"] ∧
      pages.reverse.flatMap edgesOf ≠ withCursors (items.map (edge .standard)) 0 := by
  intro ctx request items ask p
  have hselected : selection ctx Permission.all .scalar ⟨[], []⟩ items request = .ok items := rfl
  have hcapped := walk_backward_capped (k := 2) (c := 1) (by decide) (by decide)
  have hwindow : p.window items.length (some 1) = ⟨1, some 1⟩ := by decide +kernel
  have hpage := hcapped.1 p items (by decide) rfl rfl
  rw [hwindow] at hpage
  obtain ⟨pages, hpages, hreached, hall⟩ :=
    hcapped.2 ctx Permission.all .scalar ⟨[], []⟩ items items request rfl rfl hselected (by decide)
  refine ⟨hpage, pages, (hpages pages).2 rfl, ?_, fun h => ?_⟩
  · have hnodes : pages.reverse.flatMap (nodesOf .standard) =
        (pages.reverse.flatMap edgesOf).map (nodeOf .standard) := List.map_flatMap.symm
    rw [hnodes, hreached]
    rfl
  · exact absurd (hall.1 h) (by decide)

/-- The last two of two rows, under a cap of one: the page holds the first row, and not the one at
the end, and it announces no other page. -/
theorem page_misses_last_row :
    let p : Paging := ⟨none, some 2, none, none⟩
    let w := p.window 2 (some 1)
    w.slice ["a", "b"] = ["a"] ∧ ["a", "b"].drop (2 - min (min 2 1) 2) = ["b"] ∧
      (p.pageInfo w 1 2).hasPreviousPage = false ∧ (p.pageInfo w 1 2).hasNextPage = false := by
  decide

end Connection

end TypedGraph

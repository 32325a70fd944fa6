import TypedGraph.Proofs.Page.Window

/-!
# Proofs/Page/Arithmetic — no page overflows

A machine computes a page in words of 64 bits: offsets and differences are signed, lengths and
numbers of rows are not, and one is taken for the other with the same bits.  Here every sum and
every difference on the way is **checked**, as is that the rows lie within the list; a page that
overflows anywhere is none at all.  For arguments that have been accepted, and for a list of a
length that fits, nothing overflows, and the checked page is the page (`checkedPage_eq`).
-/

namespace TypedGraph

/-! ## Checked words -/

namespace Number

/-- An unsigned 64-bit integer; none where it overflows. -/
def checkedU64 (n : Int) : Option Nat := if 0 ≤ n ∧ n ≤ maxU64 then some n.toNat else none

theorem checkedI64_of_le {n : Int} (hmin : minI64 ≤ n) (hmax : n ≤ maxI64) :
    checkedI64 n = some n := if_pos ⟨hmin, hmax⟩

theorem checkedU64_natCast {n : Nat} (h : (n : Int) ≤ maxU64) : checkedU64 n = some n :=
  if_pos ⟨Int.natCast_nonneg n, h⟩

end Number

namespace Paging

theorem asUnsigned_natCast {n : Nat} (h : (n : Int) ≤ Number.maxU64) : asUnsigned n = n := by
  rw [Number.maxU64] at h
  unfold asUnsigned
  omega

/-! ## Checked pages -/

/-- The window of paging arguments before a cap is applied, in checked words. -/
def checkedOpenWindow (p : Paging) (length : Nat) : Option Window :=
  match p.first, p.last with
  | some first, _ => do
    let skip ← Number.checkedI64 (Cursor.offsetOr p.after length (-1) + 1)
    return ⟨asUnsigned skip, some first⟩
  | .none, some last => do
    let before := Cursor.offsetOr p.before length (asSigned length)
    let start ← Number.checkedI64 (before - asSigned last)
    let skip := max start 0
    let limit ← Number.checkedI64 (before - skip)
    return ⟨asUnsigned skip, some (asUnsigned limit)⟩
  | .none, .none => return ⟨0, .none⟩

/-- The window of paging arguments, in checked words. -/
def checkedWindow (p : Paging) (length : Nat) (cap : Option Nat) : Option Window := do
  let w ← p.checkedOpenWindow length
  return { w with limit := capped w.limit cap }

/-- Whether rows follow those of a window, in checked words.  Where nobody pages forwards, the end
of the rows is not computed. -/
def checkedMore (p : Paging) (w : Window) (returned length : Nat) : Option Bool :=
  if p.first.isSome then
    (Number.checkedU64 (w.skip + returned)).map fun stop => decide (stop < length)
  else some false

/-- The cursors of the ends of a window, in checked words. -/
def checkedEnds (w : Window) (returned : Nat) : Option (Option String × Option String) :=
  if returned = 0 then some (.none, .none)
  else do
    let stop ← Number.checkedU64 (w.skip + returned)
    let last ← Number.checkedU64 (stop - 1)
    return (some (Cursor.ofOffset w.skip), some (Cursor.ofOffset last))

/-- The page info of a window, in checked words. -/
def checkedPageInfo (p : Paging) (w : Window) (returned length : Nat) : Option PageInfo := do
  let more ← p.checkedMore w returned length
  let (startCursor, endCursor) ← checkedEnds w returned
  return ⟨p.last.isSome && w.skip != 0, more, startCursor, endCursor⟩

end Paging

/-- The rows of a window between two places of a list, the second of which is saturated.  They have
to lie in the list, the first place not behind the second. -/
def Window.checkedSlice {α : Type} (w : Window) (rows : List α) : Option (List α) :=
  let start := min w.skip rows.length
  let stop := match w.limit with
    | some n => min (min (start + n) Number.maxU64.toNat) rows.length
    | none => rows.length
  if start ≤ stop ∧ stop ≤ rows.length then some ((rows.take stop).drop start) else none

namespace Paging

variable {α : Type} {p : Paging} {cap : Option Nat} {length : Nat} {w : Window} {items : List α}

/-- A page of a list, in checked words: its window, its rows and its page info. -/
def checkedPage (p : Paging) (cap : Option Nat) (items : List α) :
    Option (Window × List α × PageInfo) := do
  let w ← p.checkedWindow items.length cap
  let rows ← w.checkedSlice items
  let info ← p.checkedPageInfo w rows.length items.length
  return (w, rows, info)

/-! ## Nothing overflows -/

/-- **The window does not overflow**: cursors lead to offsets from -1 to the length. -/
theorem checkedOpenWindow_eq (hlast : ∀ n ∈ p.last, (n : Int) ≤ Number.maxI64)
    (hlength : (length : Int) ≤ Number.maxI64) :
    p.checkedOpenWindow length = some (p.openWindow length) := by
  have hmin : Number.minI64 = -0x8000000000000000 := rfl
  have hmax : Number.maxI64 = 0x7FFFFFFFFFFFFFFF := rfl
  have hunsigned : Number.maxU64 = 0xFFFFFFFFFFFFFFFF := rfl
  have hcast : ∀ n : Nat, n ≤ length → asUnsigned n = n := fun n hn =>
    asUnsigned_natCast (by omega)
  unfold checkedOpenWindow openWindow
  cases hfirst : p.first with
  | some first =>
    obtain ⟨offset, hle, hafter⟩ := exists_place_behind p.after length
    dsimp only
    rw [hafter, Number.checkedI64_of_le (by omega) (by omega), Option.bind_eq_bind,
      Option.bind_some, hcast offset hle]
    rfl
  | none =>
    cases hp : p.last with
    | some last =>
      have hcount := hlast last hp
      obtain ⟨stop, hle, hbefore⟩ := exists_place_before p.before hlength
      have hskip : max ((stop : Int) - last) 0 = (stop - last : Nat) := by omega
      dsimp only
      rw [hbefore, asSigned_of_le hcount, Number.checkedI64_of_le (by omega) (by omega),
        Option.bind_eq_bind, Option.bind_some, hskip, Number.checkedI64_of_le (by omega) (by omega),
        Option.bind_some, hcast (stop - last) (by omega)]
      rfl
    | none => rfl

theorem checkedWindow_eq (hlast : ∀ n ∈ p.last, (n : Int) ≤ Number.maxI64)
    (hlength : (length : Int) ≤ Number.maxI64) :
    p.checkedWindow length cap = some (p.window length cap) := by
  rw [checkedWindow, checkedOpenWindow_eq hlast hlength]
  rfl

/-- **The rows of a window lie in the list**, between places that are in order. -/
theorem checkedSlice_eq (hskip : w.skip ≤ items.length)
    (hitems : (items.length : Int) ≤ Number.maxI64) :
    w.checkedSlice items = some (w.slice items) := by
  have hmax : Number.maxI64 = 0x7FFFFFFFFFFFFFFF := rfl
  have hunsigned : Number.maxU64.toNat = 0xFFFFFFFFFFFFFFFF := rfl
  unfold Window.checkedSlice Window.slice
  rw [Nat.min_eq_left hskip]
  cases w.limit with
  | none =>
    dsimp only
    rw [if_pos ⟨hskip, Nat.le_refl _⟩, List.take_length]
  | some n =>
    dsimp only
    rw [if_pos (by omega), List.drop_take, Option.some_inj, List.take_eq_take_iff,
      List.length_drop]
    omega

theorem checkedMore_eq {returned : Nat}
    (h : ((w.skip + returned : Nat) : Int) ≤ Number.maxU64) :
    p.checkedMore w returned length =
      some (p.first.isSome && decide (w.skip + returned < length)) := by
  unfold checkedMore
  cases p.first with
  | none => rfl
  | some n => exact congrArg (Option.map _) (Number.checkedU64_natCast h)

theorem checkedEnds_eq {returned : Nat}
    (h : ((w.skip + returned : Nat) : Int) ≤ Number.maxU64) :
    checkedEnds w returned = some
      (if returned = 0 then .none else some (Cursor.ofOffset w.skip),
        if returned = 0 then .none else some (Cursor.ofOffset (w.skip + returned - 1))) := by
  have hstop : Number.checkedU64 (w.skip + returned) = some (w.skip + returned) :=
    Number.checkedU64_natCast h
  unfold checkedEnds
  by_cases hzero : returned = 0
  · simp only [if_pos hzero]
  · have hcast : ((w.skip + returned : Nat) : Int) - 1 = (w.skip + returned - 1 : Nat) := by omega
    have hlast : Number.checkedU64 ((w.skip + returned : Nat) - 1) =
        some (w.skip + returned - 1) := by
      rw [hcast]
      exact Number.checkedU64_natCast (by omega)
    simp only [if_neg hzero]
    rw [hstop, Option.bind_eq_bind, Option.bind_some, hlast]
    rfl

/-- **The page info does not overflow** where the end of the page does not. -/
theorem checkedPageInfo_eq {returned : Nat}
    (h : ((w.skip + returned : Nat) : Int) ≤ Number.maxU64) :
    p.checkedPageInfo w returned length = some (p.pageInfo w returned length) := by
  rw [checkedPageInfo, checkedMore_eq h, Option.bind_eq_bind, Option.bind_some, checkedEnds_eq h]
  rfl

theorem length_slice_le (w : Window) (items : List α) :
    (w.slice items).length ≤ items.length - w.skip := by
  unfold Window.slice
  split
  · rw [List.length_take, List.length_drop]
    exact Nat.min_le_right _ _
  · exact Nat.le_of_eq List.length_drop

/-- **No page overflows.**  For arguments that have been accepted, and for a list of a length that
fits, the page in checked words is the page. -/
theorem checkedPage_eq (hlast : ∀ n ∈ p.last, (n : Int) ≤ Number.maxI64)
    (hitems : (items.length : Int) ≤ Number.maxI64) :
    p.checkedPage cap items =
      let w := p.window items.length cap
      some (w, w.slice items, p.pageInfo w (w.slice items).length items.length) := by
  have hskip := skip_window_le p items.length cap
  have hlength := length_slice_le (p.window items.length cap) items
  have hend : (((p.window items.length cap).skip +
      ((p.window items.length cap).slice items).length : Nat) : Int) ≤ Number.maxU64 := by
    have hmax : Number.maxI64 ≤ Number.maxU64 := by decide
    omega
  simp only [checkedPage, checkedWindow_eq hlast hitems, checkedSlice_eq hskip hitems,
    checkedPageInfo_eq hend, Option.bind_eq_bind, Option.bind_some]
  rfl

end Paging

end TypedGraph

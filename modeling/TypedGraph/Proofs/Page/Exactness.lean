import TypedGraph.Proofs.Outcome
import TypedGraph.Proofs.Page.Arithmetic

/-!
# Proofs/Page/Exactness — a page holds exactly the rows that are asked for

Forwards a page holds the rows right behind the one that the cursor leads to, as many as are asked
for, as a cap allows and as there are; it says that there is more exactly where a row follows.
Backwards, without a cap, it holds the rows right before, and says that there is more exactly where
a row precedes.  Where nothing is asked for, it holds the first rows that a cap allows, and says
that there is no more.  None of this overflows a machine's words (`make_exact`).
-/

namespace TypedGraph

namespace Paging

/-! ## Accepted arguments -/

theorem positive_eq_ok {key : String} {given : Option Int} {n : Option Nat} :
    positive key given = .ok n ↔ (∀ i ∈ given, 0 < i) ∧ n = given.map Int.toNat := by
  cases given with
  | none => simp [positive, eq_comm]
  | some i =>
    rw [positive]
    split
    · next h => simp [h, eq_comm]
    · next h => simp [h]

variable {first last : Option Int} {after before : Option String} {p : Paging}

/-- **Paging arguments are accepted exactly where their numbers are positive**, and are taken as
they are. -/
theorem make_eq_ok : make first last after before = .ok p ↔
    ((∀ n ∈ first, 0 < n) ∧ ∀ n ∈ last, 0 < n) ∧
      p = ⟨first.map Int.toNat, last.map Int.toNat, after, before⟩ := by
  unfold make
  constructor
  · intro h
    obtain ⟨f, hf, h⟩ := bind_eq_ok.1 h
    obtain ⟨l, hl, h⟩ := bind_eq_ok.1 h
    obtain ⟨hfirst, rfl⟩ := positive_eq_ok.1 hf
    obtain ⟨hlast, rfl⟩ := positive_eq_ok.1 hl
    cases h
    exact ⟨⟨hfirst, hlast⟩, rfl⟩
  · rintro ⟨⟨hfirst, hlast⟩, rfl⟩
    rw [positive_eq_ok.2 ⟨hfirst, rfl⟩, positive_eq_ok.2 ⟨hlast, rfl⟩]
    rfl

/-! ## Pages -/

variable {α : Type} {cap : Option Nat} {items rows : List α} {info : PageInfo}

/-- **A page that is exact**: its rows are those next to the row that its cursor leads to, in their
number and in their place, and its flags say whether there are rows beyond it in the direction of
paging. -/
structure Exact (p : Paging) (cap : Option Nat) (items rows : List α) (info : PageInfo) :
    Prop where
  /-- The rows behind the row of the cursor; without a cursor, the first rows. -/
  forwards : ∀ n, p.first = some n → ∃ mark later,
    Cursor.Leads p.after items.length (-1) mark ∧
    items.drop (mark + 1).toNat = rows ++ later ∧
    rows.length = min (cap.elim n (min n)) (items.length - (mark + 1).toNat) ∧
    (info.hasNextPage ↔ later ≠ [])
  /-- The rows before the row of the cursor; without a cursor, the last rows. -/
  backwards : ∀ n, p.first = .none → p.last = some n → cap = .none → ∃ mark earlier,
    Cursor.Leads p.before items.length items.length mark ∧
    items.take mark.toNat = earlier ++ rows ∧
    rows.length = min n mark.toNat ∧
    (info.hasPreviousPage ↔ earlier ≠ [])
  /-- The first rows that a cap allows. -/
  whole : p.first = .none → p.last = .none →
    rows = items.take (cap.getD items.length) ∧ ¬info.hasPreviousPage ∧ ¬info.hasNextPage

/-- The cap on a number of rows. -/
theorem capped_some (n : Nat) (cap : Option Nat) :
    capped (some n) cap = some (cap.elim n (min n)) := by
  cases cap <;> rfl

/-- More rows are announced forwards exactly where rows follow those of the window. -/
theorem hasNextPage_forward {offset size : Nat} (hfirst : p.first.isSome) :
    (p.pageInfo ⟨offset, some size⟩ ((items.drop offset).take size).length
      items.length).hasNextPage = true ↔ (items.drop offset).drop size ≠ [] := by
  have hmore : offset + ((items.drop offset).take size).length < items.length ↔
      0 < ((items.drop offset).drop size).length := by
    simp only [List.length_take, List.length_drop]
    omega
  rw [pageInfo, hfirst, Bool.true_and, decide_eq_true_iff, hmore, List.length_pos_iff_ne_nil]

/-- More rows are announced backwards exactly where rows precede those of the window. -/
theorem hasPreviousPage_backward {skip returned : Nat} {limit : Option Nat} (hlast : p.last.isSome)
    (hskip : skip ≤ rows.length) :
    (p.pageInfo ⟨skip, limit⟩ returned items.length).hasPreviousPage = true ↔
      rows.take skip ≠ [] := by
  have hzero : skip ≠ 0 ↔ 0 < (rows.take skip).length := by
    rw [List.length_take_of_le hskip, Nat.pos_iff_ne_zero]
  rw [pageInfo, hlast, Bool.true_and, bne_iff_ne, hzero, List.length_pos_iff_ne_nil]

/-- Where no cap ends a page backwards, it ends right before its cursor. -/
theorem rowsBefore_self {n stop : Nat} (hstop : stop ≤ items.length) :
    rowsBefore n n items stop = (items.take stop).drop (stop - n) := by
  refine List.take_of_length_le ?_
  rw [List.length_drop, List.length_take]
  omega

/-- **A page is exact.** -/
theorem exact_page (hitems : (items.length : Int) ≤ Number.maxI64) :
    let w := p.window items.length cap
    p.Exact cap items (w.slice items) (p.pageInfo w (w.slice items).length items.length) where
  forwards n hfirst := by
    obtain ⟨offset, hle, hafter⟩ := exists_place_behind p.after items.length
    rw [window_forward hfirst hafter (capped_some n cap)]
    refine ⟨_, (items.drop offset).drop (cap.elim n (min n)), Cursor.leads_offsetOr, ?_, ?_,
      hasNextPage_forward (by rw [hfirst]; rfl)⟩
    · rw [hafter, Int.toNat_natCast]
      exact (List.take_append_drop _ _).symm
    · rw [hafter, Int.toNat_natCast, ← List.length_drop]
      exact List.length_take
  backwards n hfirst hlast hcap := by
    obtain ⟨stop, hle, hbefore⟩ := exists_place_before p.before hitems
    have hlength : (items.take stop).length = stop := List.length_take_of_le hle
    subst hcap
    rw [slice_window_backward hfirst hlast hitems hle hbefore rfl,
      window_backward hfirst hlast hitems hle hbefore rfl]
    refine ⟨stop, (items.take stop).take (stop - n), leads_of_offsetOr_eq hitems hbefore, ?_,
      length_rowsBefore (Nat.le_refl n) hle,
      hasPreviousPage_backward (by rw [hlast]; rfl) (by omega)⟩
    rw [Int.toNat_natCast, rowsBefore_self hle, List.take_append_drop]
  whole hfirst hlast := by
    have hw : p.window items.length cap = ⟨0, cap⟩ := by
      cases cap <;> simp only [window, openWindow, hfirst, hlast, capped]
    rw [hw, pageInfo, hfirst, hlast]
    refine ⟨?_, Bool.false_ne_true, Bool.false_ne_true⟩
    cases cap with
    | none => exact List.take_length.symm
    | some c => rfl

/-- **A page that is asked for is exact, and its arithmetic is safe.**  Numbers that are accepted
are taken as they are; and whatever they are, whatever the cursors are, and under every cap, the
page of a list of a length that fits is computed without an overflow and within the list, and it is
exact. -/
theorem make_exact (cap : Option Nat) (items : List α)
    (hmake : make first last after before = .ok p) (hlast : ∀ n ∈ last, n ≤ Number.maxI64)
    (hitems : (items.length : Int) ≤ Number.maxI64) :
    p = ⟨first.map Int.toNat, last.map Int.toNat, after, before⟩ ∧
    ∃ w rows info, p.checkedPage cap items = some (w, rows, info) ∧
      w = p.window items.length cap ∧ rows = w.slice items ∧
      info = p.pageInfo w rows.length items.length ∧ p.Exact cap items rows info := by
  obtain ⟨⟨-, hpositive⟩, rfl⟩ := make_eq_ok.1 hmake
  refine ⟨rfl, _, _, _, checkedPage_eq ?_ hitems, rfl, rfl, rfl, exact_page hitems⟩
  intro n hn
  obtain ⟨i, hi, rfl⟩ := Option.mem_map.1 hn
  have hsmall := hlast i hi
  have hlarge := hpositive i hi
  omega

/-- The last three of ten rows before the eighth. -/
theorem make_exact_last_three :
    let p : Paging := ⟨.none, some 3, .none, some (Cursor.ofOffset 7)⟩
    make .none (some 3) .none (some (Cursor.ofOffset 7)) = .ok p ∧
    (3 : Int) ≤ Number.maxI64 ∧ (((List.range 10).length : Nat) : Int) ≤ Number.maxI64 ∧
    ∃ w rows info, p.checkedPage .none (List.range 10) = some (w, rows, info) ∧
      rows = [4, 5, 6] ∧ info.hasPreviousPage = true ∧ p.Exact .none (List.range 10) rows info := by
  intro p
  have hmake : make .none (some 3) .none (some (Cursor.ofOffset 7)) = .ok p := rfl
  have hlength : (((List.range 10).length : Nat) : Int) ≤ Number.maxI64 := by decide
  have hw : p.window (List.range 10).length .none = ⟨4, some 3⟩ := by decide +kernel
  obtain ⟨-, w, rows, info, hpage, rfl, rfl, rfl, hexact⟩ :=
    make_exact .none (List.range 10) hmake (by rintro n ⟨⟩; decide) hlength
  refine ⟨hmake, by decide, hlength, _, _, _, hpage, ?_, ?_, hexact⟩
  · rw [hw]
    rfl
  · rw [hw]
    rfl

end Paging

end TypedGraph

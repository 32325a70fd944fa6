import TypedGraph.Page.Window
import TypedGraph.Proofs.Page.Cursor

/-!
# Proofs/Page/Window — where a window lies

Arguments that page forwards open a window right behind the row of a cursor (`window_forward`), and
arguments that page backwards one that begins so many rows before it as are asked for
(`window_backward`); a cap makes either shorter at its end.  Whatever the arguments, a window
begins within the result or at its end (`skip_window_le`), and its bounds are unsigned 64-bit
integers where those of the arguments are.
-/

namespace TypedGraph

namespace Cursor

/-- The offset of a cursor within a result has whatever the default and the offsets of the rows
have. -/
theorem offsetOr_of_forall {P : Int → Prop} {length : Nat} {default : Int} (hdefault : P default)
    (hrow : ∀ n : Int, 0 ≤ n → n < length → P n) (cursor : Option String) :
    P (offsetOr cursor length default) := by
  unfold offsetOr
  split
  · split
    · next h => exact hrow _ h.1 h.2
    · exact hdefault
  · exact hdefault

end Cursor

namespace Paging

/-! ## Windows at a cursor -/

theorem asSigned_of_le {n : Nat} (h : (n : Int) ≤ Number.maxI64) : asSigned n = n := by
  have hn : n ≤ 0x7FFFFFFFFFFFFFFF := Int.ofNat_le.1 h
  unfold asSigned
  exact Int.bmod_eq_of_le (by omega) (by omega)

/-- Reading the bits of a natural number with a sign makes it no greater. -/
theorem asSigned_le (n : Nat) : asSigned n ≤ n := by
  unfold asSigned
  rw [Int.bmod_def]
  split <;> omega

/-- Behind the row of a cursor, or behind none, lies a place in the result or at its end. -/
theorem exists_place_behind (cursor : Option String) (length : Nat) :
    ∃ offset ≤ length, Cursor.offsetOr cursor length (-1) + 1 = (offset : Int) := by
  obtain ⟨hlow, hhigh⟩ : -1 ≤ Cursor.offsetOr cursor length (-1) ∧
      Cursor.offsetOr cursor length (-1) < length :=
    Cursor.offsetOr_of_forall (P := fun n => -1 ≤ n ∧ n < (length : Int)) (by omega)
      (fun n _ _ => by omega) cursor
  exact ⟨(Cursor.offsetOr cursor length (-1) + 1).toNat, by omega, by omega⟩

/-- Before the row of a cursor, or before none, a place in the result or its end is meant. -/
theorem exists_place_before (cursor : Option String) {length : Nat}
    (hlength : (length : Int) ≤ Number.maxI64) :
    ∃ stop ≤ length, Cursor.offsetOr cursor length (asSigned length) = (stop : Int) := by
  obtain ⟨hlow, hhigh⟩ : 0 ≤ Cursor.offsetOr cursor length (asSigned length) ∧
      Cursor.offsetOr cursor length (asSigned length) ≤ length :=
    Cursor.offsetOr_of_forall (P := fun n => 0 ≤ n ∧ n ≤ (length : Int))
      (by rw [asSigned_of_le hlength]; omega) (fun n _ _ => by omega) cursor
  exact ⟨(Cursor.offsetOr cursor length (asSigned length)).toNat, by omega, by omega⟩

/-- The place that is meant is where the cursor leads. -/
theorem leads_of_offsetOr_eq {cursor : Option String} {length : Nat} {n : Int}
    (hlength : (length : Int) ≤ Number.maxI64)
    (h : Cursor.offsetOr cursor length (asSigned length) = n) :
    Cursor.Leads cursor length length n := by
  rw [← h, asSigned_of_le hlength]
  exact Cursor.leads_offsetOr

variable {p : Paging} {k length size : Nat} {cap : Option Nat}

/-- A cap leaves no more rows than are asked for. -/
theorem le_of_capped (hsize : capped (some k) cap = some size) : size ≤ k := by
  cases cap with
  | none => exact Nat.le_of_eq (Option.some_inj.1 hsize).symm
  | some c => exact Option.some_inj.1 hsize ▸ Nat.min_le_left k c

/-- The cap on rows of which there are not enough. -/
theorem capped_min {stop : Nat} (hsize : capped (some k) cap = some size) :
    capped (some (min k stop)) cap = some (min size stop) := by
  cases cap with
  | none => exact Option.some_inj.1 hsize ▸ rfl
  | some c =>
    cases hsize
    exact congrArg some (Nat.min_right_comm k stop c)

/-- **Forwards** a window begins behind the row of the cursor. -/
theorem window_forward {offset : Nat} (hfirst : p.first = some k)
    (hafter : Cursor.offsetOr p.after length (-1) + 1 = offset)
    (hsize : capped (some k) cap = some size) : p.window length cap = ⟨offset, some size⟩ := by
  dsimp only [window, openWindow]
  rw [hfirst]
  dsimp only
  rw [hafter, hsize, Int.toNat_natCast]

/-- **Backwards** a window begins so many rows before the row of the cursor as are asked for, and
ends there unless a cap ends it earlier. -/
theorem window_backward {stop : Nat} (hfirst : p.first = .none) (hlast : p.last = some k)
    (hlength : (length : Int) ≤ Number.maxI64) (hstop : stop ≤ length)
    (hbefore : Cursor.offsetOr p.before length (asSigned length) = stop)
    (hsize : capped (some k) cap = some size) :
    p.window length cap = ⟨stop - k, some (min size stop)⟩ := by
  rw [Number.maxI64] at hlength
  have hskip : (max ((stop : Int) - k) 0).toNat = stop - k := by omega
  have hlimit : asUnsigned ((stop : Int) - max ((stop : Int) - k) 0) = min k stop := by
    unfold asUnsigned
    omega
  dsimp only [window, openWindow]
  rw [hfirst, hlast]
  dsimp only
  rw [hbefore, hskip, hlimit, capped_min hsize]

/-- **The rows of a page backwards**: of the rows before a place the last ones, so many as are asked
for, and of these the first ones, so many as may come. -/
def rowsBefore {α : Type} (k size : Nat) (items : List α) (stop : Nat) : List α :=
  ((items.take stop).drop (stop - k)).take size

variable {α : Type} {items : List α} {stop : Nat}

theorem length_rowsBefore (hle : size ≤ k) (hstop : stop ≤ items.length) :
    (rowsBefore k size items stop).length = min size stop := by
  rw [rowsBefore, List.length_take, List.length_drop, List.length_take]
  omega

theorem slice_window_backward (hfirst : p.first = .none) (hlast : p.last = some k)
    (hitems : (items.length : Int) ≤ Number.maxI64) (hstop : stop ≤ items.length)
    (hbefore : Cursor.offsetOr p.before items.length (asSigned items.length) = stop)
    (hsize : capped (some k) cap = some size) :
    (p.window items.length cap).slice items = rowsBefore k size items stop := by
  have hle := le_of_capped hsize
  rw [window_backward hfirst hlast hitems hstop hbefore hsize, Window.slice, rowsBefore,
    List.drop_take, List.take_take]
  dsimp only
  congr 1
  omega

/-! ## Bounds -/

/-- The numbers of rows of arguments and of a cap are unsigned 64-bit integers. -/
structure Fits (p : Paging) (cap : Option Nat) : Prop where
  first : ∀ n ∈ p.first, (n : Int) ≤ Number.maxU64
  cap : ∀ n ∈ cap, (n : Int) ≤ Number.maxU64

/-- **A window begins within the result**, or at its end. -/
theorem skip_window_le (p : Paging) (length : Nat) (cap : Option Nat) :
    (p.window length cap).skip ≤ length := by
  dsimp only [window, openWindow]
  split
  · obtain ⟨offset, hle, hafter⟩ := exists_place_behind p.after length
    rw [hafter]
    exact hle
  · have hbefore : Cursor.offsetOr p.before length (asSigned length) ≤ length :=
      Cursor.offsetOr_of_forall (P := (· ≤ (length : Int))) (asSigned_le length)
        (fun n _ h => Int.le_of_lt h) p.before
    dsimp only
    omega
  · exact Nat.zero_le _

/-- A window takes no more rows than a machine counts. -/
theorem limit_window_le {p : Paging} {cap : Option Nat} (hfits : p.Fits cap) :
    ∀ n ∈ (p.window length cap).limit, (n : Int) ≤ Number.maxU64 := by
  have hcapped : ∀ {limit : Option Nat}, (∀ n ∈ limit, (n : Int) ≤ Number.maxU64) →
      ∀ n ∈ capped limit cap, (n : Int) ≤ Number.maxU64 := by
    intro limit hlimit n hn
    unfold capped at hn
    split at hn
    · next m c =>
      cases hn
      have hm := hlimit m rfl
      omega
    · exact hfits.cap n hn
    · exact hlimit n hn
  dsimp only [window, openWindow]
  split
  · next first hfirst =>
    refine hcapped fun n hn => ?_
    cases hn
    exact hfits.first _ hfirst
  · refine hcapped fun n hn => ?_
    cases hn
    rw [asUnsigned, Number.maxU64]
    omega
  · exact hcapped fun n hn => nomatch hn

end Paging

end TypedGraph

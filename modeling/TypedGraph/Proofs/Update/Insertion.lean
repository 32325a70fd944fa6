import TypedGraph.Proofs.Order.Preorder
import TypedGraph.Proofs.Page.Arithmetic
import TypedGraph.Proofs.Update.SortedInsert

/-!
# Proofs/Update/Insertion — an insertion loses, duplicates and reorders nothing

Wherever elements are inserted, the whole list that comes out **interleaves** the list and what is
inserted (`Interleaves`): each of the two is found in it in its own order, and nothing else is.  In
an order the inserted elements are sorted first; at a position they stay together
(`Placement.inserts_insert`).  Only then is the list cut, at either end (`Keep.keeps_apply`).

What an update asks for is told by its entries (`Placement.Asked`, `Keep.Asked`), and the whole list
is that of the same update without the entries that cut it (`applyListUpdate_insert`).
-/

namespace TypedGraph

universe u

/-! ## Interleaving -/

/-- **A list interleaves two lists**: it takes the next item of one or the other, up to the ends of
both. -/
inductive Interleaves {α : Type u} : List α → List α → List α → Prop where
  | nil : Interleaves [] [] []
  | left {x : α} {xs ys zs : List α} (h : Interleaves xs ys zs) :
      Interleaves (x :: xs) ys (x :: zs)
  | right {y : α} {xs ys zs : List α} (h : Interleaves xs ys zs) :
      Interleaves xs (y :: ys) (y :: zs)

namespace Interleaves

variable {α : Type u} {xs xs' ys ys' zs zs' : List α}

theorem nil_right : ∀ xs : List α, Interleaves xs [] xs
  | [] => .nil
  | _ :: xs => .left (nil_right xs)

theorem nil_left : ∀ ys : List α, Interleaves [] ys ys
  | [] => .nil
  | _ :: ys => .right (nil_left ys)

theorem append (h : Interleaves xs ys zs) (h' : Interleaves xs' ys' zs') :
    Interleaves (xs ++ xs') (ys ++ ys') (zs ++ zs') := by
  induction h with
  | nil => exact h'
  | left _ ih => exact .left ih
  | right _ ih => exact .right ih

/-- Nothing is lost, and nothing is made. -/
theorem perm (h : Interleaves xs ys zs) : zs.Perm (xs ++ ys) := by
  induction h with
  | nil => exact .refl _
  | left _ ih => exact ih.cons _
  | right _ ih => exact (ih.cons _).trans List.perm_middle.symm

theorem sublist_left (h : Interleaves xs ys zs) : xs.Sublist zs := by
  induction h with
  | nil => exact .slnil
  | left _ ih => exact ih.cons_cons _
  | right _ ih => exact ih.cons _

end Interleaves

/-- **Merging interleaves**, whether the lists ascend or not. -/
theorem interleaves_mergeBy {α : Type u} (compare : α → α → Ordering) : ∀ xs ys : List α,
    Interleaves xs ys (mergeBy compare xs ys)
  | [], ys => by
    rw [nil_mergeBy]
    exact .nil_left ys
  | x :: xs, [] => by
    rw [mergeBy_nil]
    exact .nil_right (x :: xs)
  | x :: xs, y :: ys => by
    rw [cons_mergeBy_cons]
    split
    · exact .right (interleaves_mergeBy compare (x :: xs) ys)
    · exact .left (interleaves_mergeBy compare xs (y :: ys))

/-! ## The whole list -/

namespace Placement

/-- The inserted elements in the order in which they go into the list. -/
def arrange : Placement → List Value → List Value
  | .last, items | .position _, items => items
  | .sorted order, items => stableSort order.compare items

theorem arrange_perm (placement : Placement) (items : List Value) :
    (placement.arrange items).Perm items := by
  cases placement with
  | last => exact .refl _
  | position p => exact .refl _
  | sorted order => exact stableSort_perm items

/-- **What it is to insert**: the whole list interleaves the list and what is inserted, which stays
together where it goes to a position.  A position from the front counts up to the end of the list,
and one from the end up to its front. -/
structure Inserts (placement : Placement) (items list whole : List Value) : Prop where
  perm : whole.Perm (list ++ items)
  sublist : list.Sublist whole
  arranged : (placement.arrange items).Perm items
  interleaves : Interleaves list (placement.arrange items) whole
  contiguous : ∀ p : Int, placement = .position p → ∃ i : Nat,
    (i : Int) = (if 0 ≤ p then min p list.length else max 0 (list.length + p)) ∧
      whole = list.take i ++ items ++ list.drop i

theorem positionIndex_eq (length : Nat) (p : Int) :
    (positionIndex length p : Int) = if 0 ≤ p then min p length else max 0 (length + p) := by
  unfold positionIndex
  split <;> split <;> omega

/-- **An insertion inserts.** -/
theorem inserts_insert (placement : Placement) (items list : List Value) :
    placement.Inserts items list (placement.insert items list) := by
  have hinterleaves : Interleaves list (placement.arrange items)
      (placement.insert items list) := by
    cases placement with
    | last =>
      have hparts := (Interleaves.nil_right list).append (.nil_left items)
      simpa [insert, arrange] using hparts
    | position p =>
      -- the front of the list, what is inserted and the rest of the list follow each other
      have hparts := ((Interleaves.nil_right (list.take (positionIndex list.length p))).append
        (.nil_left items)).append (.nil_right (list.drop (positionIndex list.length p)))
      simpa [insert, insertAt, arrange] using hparts
    | sorted order => exact interleaves_mergeBy order.compare list _
  have harranged := placement.arrange_perm items
  refine ⟨?_, hinterleaves.sublist_left, harranged, hinterleaves, ?_⟩
  · exact hinterleaves.perm.trans (harranged.append_left list)
  · rintro p rfl
    exact ⟨positionIndex list.length p, positionIndex_eq list.length p, rfl⟩

/-! ## Checked positions -/

/-- The index of a position, in checked words: a length is taken for a signed number with the same
bits, and an index for an unsigned one. -/
def checkedIndex (length : Nat) (p : Int) : Option Nat :=
  if p < 0 then
    (Number.checkedI64 (Paging.asSigned length + p)).map fun i => Paging.asUnsigned (max i 0)
  else some (Paging.asUnsigned (min p (Paging.asSigned length)))

/-- **An insertion in checked words**; the index has to lie in the list. -/
def checkedInsert (placement : Placement) (items list : List Value) : Option (List Value) :=
  match placement with
  | .position p => (checkedIndex list.length p).bind fun i =>
    if i ≤ list.length then some (list.take i ++ items ++ list.drop i) else none
  | placement => some (placement.insert items list)

/-- A position that is a signed 64-bit integer. -/
def Fits : Placement → Prop
  | .position p => Number.minI64 ≤ p ∧ p ≤ Number.maxI64
  | _ => True

theorem checkedIndex_eq {length : Nat} {p : Int} (hlength : (length : Int) ≤ Number.maxI64)
    (hp : Number.minI64 ≤ p) : checkedIndex length p = some (positionIndex length p) := by
  have hmin : Number.minI64 = -0x8000000000000000 := rfl
  have hmax : Number.maxI64 = 0x7FFFFFFFFFFFFFFF := rfl
  have hunsigned : Number.maxU64 = 0xFFFFFFFFFFFFFFFF := rfl
  have hindex := positionIndex_eq length p
  have hcast : Paging.asUnsigned (positionIndex length p) = positionIndex length p :=
    Paging.asUnsigned_natCast (by split at hindex <;> omega)
  unfold checkedIndex
  rw [Paging.asSigned_of_le hlength]
  by_cases hneg : p < 0
  · have hfront : max (length + p : Int) 0 = positionIndex length p := by
      rw [hindex, if_neg (by omega), Int.max_comm]
    rw [if_pos hneg, Number.checkedI64_of_le (by omega) (by omega), Option.map_some, hfront, hcast]
  · have hback : min p (length : Int) = positionIndex length p := by
      rw [hindex, if_pos (by omega)]
    rw [if_neg hneg, hback, hcast]

/-- **No position overflows.** -/
theorem checkedInsert_eq {placement : Placement} (hfits : placement.Fits) (items : List Value)
    {list : List Value} (hlength : (list.length : Int) ≤ Number.maxI64) :
    placement.checkedInsert items list = some (placement.insert items list) := by
  cases placement with
  | last => rfl
  | sorted order => rfl
  | position p =>
    have hle : positionIndex list.length p ≤ list.length := by
      unfold positionIndex
      split <;> omega
    rw [checkedInsert, checkedIndex_eq hlength hfits.1, Option.bind_some, if_pos hle]
    rfl

end Placement

/-! ## What stays of it -/

/-- **Which elements stay**: as many as are asked for, or all where these are more than there are,
at the front or at the end. -/
def Keep.Keeps : Keep → List Value → List Value → Prop
  | .everything, whole, kept => kept = whole
  | .first n, whole, kept => kept <+: whole ∧ kept.length = min n whole.length
  | .last n, whole, kept => kept <:+ whole ∧ kept.length = min n whole.length

theorem Keep.keeps_apply (keep : Keep) (whole : List Value) :
    keep.Keeps whole (keep.apply whole) := by
  cases keep with
  | everything => rfl
  | first n => exact ⟨List.take_prefix n whole, List.length_take⟩
  | last n =>
    refine ⟨List.drop_suffix _ whole, ?_⟩
    rw [Keep.apply, List.length_drop]
    omega

/-! ## What an update asks for -/

theorem Record.get?_filter {α : Type u} {p : String → Bool} {name : String}
    (h : p name = true) : ∀ r : Record α, Record.get? (r.filter fun e => p e.1) name = r.get? name
  | [] => rfl
  | (k, x) :: r => by
    rw [List.filter_cons]
    split
    · rw [Record.get?, Record.get?, Record.get?_filter h r]
    · next hk =>
      have hne : k ≠ name := fun heq => hk (heq ▸ h)
      rw [Record.get?, if_neg hne, Record.get?_filter h r]

theorem Record.get?_filter_of_not {α : Type u} {p : String → Bool} {name : String}
    (h : p name = false) (r : Record α) : Record.get? (r.filter fun e => p e.1) name = none := by
  rw [Record.get?_eq_none_iff]
  intro hmem
  obtain ⟨e, he, rfl⟩ := List.mem_map.1 hmem
  exact Bool.false_ne_true (h.symm.trans (List.mem_filter.1 he).2)

/-- Whether a name asks how many elements stay. -/
def isBound (name : String) : Bool := name == "keepFirst" || name == "keepLast"

/-- The entries of an update but those that ask how many elements stay. -/
def withoutBounds (es : Record Value) : Record Value := es.filter fun e => !isBound e.1

theorem get?_withoutBounds {name : String} (h : (!isBound name) = true) (es : Record Value) :
    Record.get? (withoutBounds es) name = Record.get? es name :=
  Record.get?_filter (p := fun name => !isBound name) h es

theorem get?_withoutBounds_of_isBound {name : String} (h : (!isBound name) = false)
    (es : Record Value) : Record.get? (withoutBounds es) name = none :=
  Record.get?_filter_of_not (p := fun name => !isBound name) h es

/-- The name of the other direction. -/
def Direction.otherKeyword : Direction → String
  | .ascending => Direction.descending.keyword
  | .descending => Direction.ascending.keyword

namespace Placement

variable {field : FieldInfo} {es : Record Value} {placement : Placement}

/-- **The place that an update asks for.**  A position goes before an order; an order is asked for
in one direction only, and plain elements may decline it. -/
inductive Asked (field : FieldInfo) (es : Record Value) : Placement → Prop where
  | position {v : Value} {p : Int} (hat : givenPart? es "at" = some v) (hp : v.asI64? = some p) :
      Asked field es (.position p)
  | sorted {order : InsertOrder} (hat : givenPart? es "at" = none) (horder : order.Suits field)
      (hgiven : givenPart? es order.direction.keyword = some order.operand)
      (hother : givenPart? es order.direction.otherKeyword = none) : Asked field es (.sorted order)
  | declined {direction : Direction} (hat : givenPart? es "at" = none)
      (hscalar : field.elementKind = .scalar)
      (hgiven : givenPart? es direction.keyword = some (.bool false))
      (hother : givenPart? es direction.otherKeyword = none) : Asked field es .last
  | last (hat : givenPart? es "at" = none) (hnone : ∀ direction : Direction,
      givenPart? es direction.keyword = none) : Asked field es .last

theorem Asked.fits (h : placement.Asked field es) : placement.Fits := by
  cases h with
  | sorted => trivial
  | declined => trivial
  | last => trivial
  | @position v p _ hp =>
    cases v with
    | num n =>
      cases n with
      | int n =>
        obtain ⟨hfits, heq⟩ := Option.ite_none_right_eq_some.1 hp
        exact Option.some_inj.1 heq ▸ hfits
      | float x => cases hp
    | _ => cases hp

theorem asked_of_ofOperand_eq_ok (direction : Direction) {v : Value} {order? : Option InsertOrder}
    (h : InsertOrder.ofOperand field direction v = .ok order?) (hat : givenPart? es "at" = none)
    (hgiven : givenPart? es direction.keyword = some v)
    (hother : givenPart? es direction.otherKeyword = none) :
    (ofOrder order?).Asked field es := by
  unfold InsertOrder.ofOperand at h
  split at h
  · next hkind =>
    cases h
    have horder : (InsertOrder.whole direction).Suits field := hkind
    exact .sorted hat horder hgiven hother
  · next hkind =>
    cases h
    exact .declined hat hkind hgiven hother
  · next name hkind =>
    cases h
    have horder : (InsertOrder.field name direction).Suits field := hkind
    exact .sorted hat horder hgiven hother
  · cases h

/-- The order that is read is asked for. -/
theorem asked_of_readOrder {order? : Option InsertOrder}
    (h : InsertOrder.read field es = .ok order?) (hat : givenPart? es "at" = none) :
    (ofOrder order?).Asked field es := by
  unfold InsertOrder.read at h
  split at h
  · cases h
  · next v hascending hdescending =>
    exact asked_of_ofOperand_eq_ok .ascending h hat hascending hdescending
  · next v hascending hdescending =>
    exact asked_of_ofOperand_eq_ok .descending h hat hdescending hascending
  · next hascending hdescending =>
    cases h
    refine .last hat fun direction => ?_
    cases direction with
    | ascending => exact hascending
    | descending => exact hdescending

/-- **The place that is read is asked for.** -/
theorem asked_of_read (h : Placement.read field es = .ok placement) : placement.Asked field es := by
  unfold Placement.read at h
  split at h
  · next v hat =>
    split at h
    · next p hp => exact Except.ok.inj h ▸ .position hat hp
    · cases h
  · next hat =>
    obtain ⟨order?, hread, rfl⟩ := map_eq_ok.1 h
    exact asked_of_readOrder hread hat

theorem read_withoutBounds (field : FieldInfo) (es : Record Value) :
    Placement.read field (withoutBounds es) = Placement.read field es := by
  have hgiven : ∀ name, (!isBound name) = true →
      givenPart? (withoutBounds es) name = givenPart? es name := fun name h =>
    congrArg Value.present? (get?_withoutBounds h es)
  unfold Placement.read InsertOrder.read
  rw [hgiven "at" (by decide), hgiven "ascending" (by decide), hgiven "descending" (by decide)]

end Placement

namespace Keep

variable {es : Record Value} {key : String} {keep : Keep}

/-- **The elements that an update asks to keep**: so many at one of the ends, or all. -/
inductive Asked (es : Record Value) : Keep → Prop where
  | everything (hfirst : givenPart? es "keepFirst" = none)
      (hlast : givenPart? es "keepLast" = none) : Asked es .everything
  | first {v : Value} {n : Nat} (hfirst : givenPart? es "keepFirst" = some v)
      (hn : v.asI64? = some (n : Int)) (hlast : givenPart? es "keepLast" = none) :
      Asked es (.first n)
  | last {v : Value} {n : Nat} (hlast : givenPart? es "keepLast" = some v)
      (hn : v.asI64? = some (n : Int)) (hfirst : givenPart? es "keepFirst" = none) :
      Asked es (.last n)

theorem givenPart?_of_count_none (h : count es key = .ok none) : givenPart? es key = none := by
  unfold count at h
  split at h
  · next hnone => exact hnone
  · split at h
    · split at h <;> cases h
    · cases h

theorem givenPart?_of_count_some {n : Nat} (h : count es key = .ok (some n)) :
    ∃ v, givenPart? es key = some v ∧ v.asI64? = some (n : Int) := by
  unfold count at h
  split at h
  · cases h
  · next v hgiven =>
    split at h
    · next m hm =>
      split at h
      · next hnonneg =>
        obtain rfl : m.toNat = n := Option.some_inj.1 (Except.ok.inj h)
        exact ⟨v, hgiven, hm.trans (congrArg some (Int.toNat_of_nonneg hnonneg).symm)⟩
      · cases h
    · cases h

/-- **The bound that is read is asked for.** -/
theorem asked_of_read (h : Keep.read es = .ok keep) : keep.Asked es := by
  unfold Keep.read at h
  obtain ⟨first, hfirst, h⟩ := bind_eq_ok.1 h
  obtain ⟨last, hlast, h⟩ := bind_eq_ok.1 h
  cases first with
  | none =>
    cases last with
    | none =>
      exact Except.ok.inj h ▸
        .everything (givenPart?_of_count_none hfirst) (givenPart?_of_count_none hlast)
    | some n =>
      obtain ⟨v, hgiven, hn⟩ := givenPart?_of_count_some hlast
      exact Except.ok.inj h ▸ .last hgiven hn (givenPart?_of_count_none hfirst)
  | some n =>
    cases last with
    | none =>
      obtain ⟨v, hgiven, hn⟩ := givenPart?_of_count_some hfirst
      exact Except.ok.inj h ▸ .first hgiven hn (givenPart?_of_count_none hlast)
    | some m => cases h

theorem read_withoutBounds (es : Record Value) :
    Keep.read (withoutBounds es) = .ok .everything := by
  have hfirst := get?_withoutBounds_of_isBound (by decide : (!isBound "keepFirst") = false) es
  have hlast := get?_withoutBounds_of_isBound (by decide : (!isBound "keepLast") = false) es
  unfold Keep.read
  rw [count_eq_none hfirst, count_eq_none hlast]
  rfl

end Keep

/-! ## The update of a list -/

section Update

variable (ctx : Context) {field : FieldInfo} {es : Record Value} {v : Value}

/-- **An insertion as it is applied**: its place and its bound are read, and the list is cut after
the elements have been inserted. -/
theorem applyListUpdate_insert_eq_ok (hlist : field.category.isList = true)
    (hclear : clearRequested es = false) (hinsert : Record.get? es "insert" = some v)
    {current result : Option (List Value)} :
    applyListUpdate ctx field current (.obj es) = .ok result ↔
      ∃ placement keep, Placement.read field es = .ok placement ∧ Keep.read es = .ok keep ∧
        result = some (keep.apply (placement.insert v.toItems (current.getD []))) := by
  rw [applyListUpdate_eq ctx hlist, ListEdit.read, ListEdit.readObject, hclear, hinsert]
  constructor
  · intro h
    obtain ⟨edit, hedit, happly⟩ := bind_eq_ok.1 h
    obtain ⟨placement, hplacement, hedit⟩ := bind_eq_ok.1 hedit
    obtain ⟨keep, hkeep, hedit⟩ := bind_eq_ok.1 hedit
    cases hedit
    exact ⟨placement, keep, hplacement, hkeep, (Except.ok.inj happly).symm⟩
  · rintro ⟨placement, keep, hplacement, hkeep, rfl⟩
    dsimp only
    rw [hplacement, hkeep]
    rfl

/-- **An insertion loses, duplicates and reorders nothing.**  The update without its bounds makes a
whole list, which inserts the elements at the place that is asked for, without an overflow; the
update makes of it the elements that are asked to stay. -/
theorem applyListUpdate_insert (hlist : field.category.isList = true)
    (hclear : clearRequested es = false) (hinsert : Record.get? es "insert" = some v)
    {current result : Option (List Value)}
    (h : applyListUpdate ctx field current (.obj es) = .ok result) :
    ∃ placement keep whole kept,
      Placement.Asked field es placement ∧ Keep.Asked es keep ∧
      applyListUpdate ctx field current (.obj (withoutBounds es)) = .ok (some whole) ∧
      placement.Inserts v.toItems (current.getD []) whole ∧
      (((current.getD []).length : Int) ≤ Number.maxI64 →
        placement.checkedInsert v.toItems (current.getD []) = some whole) ∧
      result = some kept ∧ keep.Keeps whole kept := by
  obtain ⟨placement, keep, hplacement, hkeep, rfl⟩ :=
    (applyListUpdate_insert_eq_ok ctx hlist hclear hinsert).1 h
  have hasked := Placement.asked_of_read hplacement
  have hclear' : clearRequested (withoutBounds es) = false := by
    rw [clearRequested, get?_withoutBounds (by decide)]
    exact hclear
  have hinsert' : Record.get? (withoutBounds es) "insert" = some v :=
    (get?_withoutBounds (by decide) es).trans hinsert
  have hwhole : applyListUpdate ctx field current (.obj (withoutBounds es)) =
      .ok (some (placement.insert v.toItems (current.getD []))) :=
    (applyListUpdate_insert_eq_ok ctx hlist hclear' hinsert').2
      ⟨placement, .everything, (Placement.read_withoutBounds field es).trans hplacement,
        Keep.read_withoutBounds es, rfl⟩
  exact ⟨placement, keep, _, _, hasked, Keep.asked_of_read hkeep, hwhole,
    placement.inserts_insert _ _, Placement.checkedInsert_eq hasked.fits _, rfl,
    keep.keeps_apply _⟩

/-- Five and one go into an unsorted list, upwards, and the last three of five elements stay. -/
theorem applyListUpdate_insert_scores :
    let scores : FieldInfo := ⟨"scores", "Int", .scalarList⟩
    let es : Record Value := [("insert", .arr [.int 5, .int 1]), ("ascending", .bool true),
      ("keepLast", .int 3)]
    let list : List Value := [.int 4, .int 2, .int 9]
    let whole : List Value := [.int 1, .int 4, .int 2, .int 5, .int 9]
    let kept : List Value := [.int 2, .int 5, .int 9]
    applyListUpdate .sample scores (some list) (.obj es) = .ok (some kept) ∧
    applyListUpdate .sample scores (some list) (.obj (withoutBounds es)) = .ok (some whole) ∧
    ∃ placement keep, Placement.Asked scores es placement ∧ Keep.Asked es keep ∧
      placement.Inserts [.int 5, .int 1] list whole ∧
      placement.checkedInsert [.int 5, .int 1] list = some whole ∧ keep.Keeps whole kept := by
  intro scores es list whole kept
  have hinsert : Record.get? es "insert" = some (.arr [.int 5, .int 1]) := rfl
  have hwhole : Placement.insert (.sorted (.whole .ascending)) [.int 5, .int 1] list = whole := by
    change mergeBy (InsertOrder.whole .ascending).compare list [.int 1, .int 5] = whole
    rw [cons_mergeBy_cons, if_pos (by rfl), cons_mergeBy_cons, if_neg (by decide),
      cons_mergeBy_cons, if_neg (by decide), cons_mergeBy_cons, if_pos (by rfl), mergeBy_nil]
  have happly : applyListUpdate .sample scores (some list) (.obj es) =
      .ok (some (Keep.apply (.last 3) whole)) := hwhole ▸ rfl
  replace hwhole : applyListUpdate .sample scores (some list) (.obj (withoutBounds es)) =
      .ok (some whole) := hwhole ▸ rfl
  obtain ⟨placement, keep, whole', kept', hplacement, hkeep, hwhole', hinserts, hchecked, hkept,
    hkeeps⟩ := applyListUpdate_insert .sample rfl rfl hinsert happly
  obtain rfl : whole = whole' := Option.some_inj.1 (Except.ok.inj (hwhole.symm.trans hwhole'))
  obtain rfl : kept = kept' := Option.some_inj.1 hkept
  exact ⟨happly, hwhole, placement, keep, hplacement, hkeep, hinserts, hchecked (by decide), hkeeps⟩

end Update

end TypedGraph

import TypedGraph.Proofs.Filter.Fitting
import TypedGraph.Proofs.Value.Preorder
import TypedGraph.Proofs.Update.Edit

/-!
# Proofs/Update/SortedInsert — a bounded sorted list holds the best of all that was inserted

A list that is only ever inserted into in an order, and cut to so many elements each time, holds
what the sort of everything that arrived begins with, or ends with where its last elements stay
(`foldlM_insertion_eq_sorted`).  What is cut off never comes back: the elements that a merge keeps
at either end are found among those that the list kept there before (`Keep.apply_mergeBy`), so that
one more batch makes of the best of all before the best of all so far (`applyListUpdate_insertion`).

This asks of the values that elements are ordered by that comparison is a preorder of them.
-/

namespace TypedGraph

/-! ## The update that inserts a batch -/

/-- The name under which an insertion asks for a direction. -/
def Direction.keyword : Direction → String
  | .ascending => "ascending"
  | .descending => "descending"

namespace InsertOrder

/-- The direction of an order. -/
def direction : InsertOrder → Direction
  | .whole direction | .field _ direction => direction

/-- What an update says of an order beside its direction. -/
def operand : InsertOrder → Value
  | .whole _ => .bool true
  | .field name _ => .str name

/-- **An order that a list field takes**: plain elements are ordered as a whole, objects by a
field. -/
def Suits (field : FieldInfo) : InsertOrder → Prop
  | .whole _ => field.elementKind = .scalar
  | .field _ _ => field.elementKind = .object

/-- The value that an element is ordered by. -/
def keyOf : InsertOrder → Value → Value
  | .whole _, x => x
  | .field name _, x => Value.orNull (x.lookup? [name])

theorem compare_eq (order : InsertOrder) (a b : Value) :
    order.compare a b = order.direction.apply (Value.compare (order.keyOf a) (order.keyOf b)) := by
  cases order <;> rfl

/-- An order that suits a field is read as it is written. -/
theorem ofOperand_eq_ok {field : FieldInfo} {order : InsertOrder} (h : order.Suits field) :
    ofOperand field order.direction order.operand = .ok (some order) := by
  unfold ofOperand
  cases order <;> rw [h] <;> rfl

/-- An order compares as its values do. -/
theorem preorderOn_compare (order : InsertOrder) {P : Value → Prop}
    (h : PreorderOn Value.compare fun v => ∃ x, P x ∧ order.keyOf x = v) :
    PreorderOn order.compare P := by
  rw [funext fun a => funext (order.compare_eq a)]
  exact (order.direction.preorderOn_apply (h.comap order.keyOf)).mono fun x hx => ⟨x, hx, rfl⟩

end InsertOrder

namespace Keep

/-- The entry of an update that asks how many elements stay, where it does. -/
def bound? : Keep → Option (String × Value)
  | .everything => none
  | .first n => some ("keepFirst", .nat n)
  | .last n => some ("keepLast", .nat n)

/-- The number of elements that stay is a signed 64-bit integer. -/
def Fits : Keep → Prop
  | .everything => True
  | .first n | .last n => (n : Int) ≤ Number.maxI64

end Keep

/-- The entries of an update that inserts a batch in an order and says which elements stay. -/
def insertionEntries (order : InsertOrder) (keep : Keep) (batch : List Value) : Record Value :=
  ("insert", .arr batch) :: (order.direction.keyword, order.operand) :: keep.bound?.toList

/-- **The update that inserts a batch** in an order and says which elements stay. -/
def insertion (order : InsertOrder) (keep : Keep) (batch : List Value) : Value :=
  .obj (insertionEntries order keep batch)

section Reading

variable {field : FieldInfo} {order : InsertOrder} {keep : Keep} (batch : List Value)

theorem get?_insertionEntries {name : String} (hinsert : "insert" ≠ name)
    (horder : order.direction.keyword ≠ name) :
    Record.get? (insertionEntries order keep batch) name = Record.get? keep.bound?.toList name := by
  rw [insertionEntries, Record.get?, if_neg hinsert, Record.get?, if_neg horder]

/-- An insertion asks for nothing else. -/
theorem get?_insertionEntries_eq_none {name : String} (hinsert : "insert" ≠ name)
    (horder : order.direction.keyword ≠ name) (hfirst : "keepFirst" ≠ name)
    (hlast : "keepLast" ≠ name) : Record.get? (insertionEntries order keep batch) name = none := by
  rw [get?_insertionEntries batch hinsert horder]
  cases keep with
  | everything => rfl
  | first n => exact if_neg hfirst
  | last n => exact if_neg hlast

/-- The order of an insertion is read as it was written. -/
theorem read_placement (horder : order.Suits field) :
    Placement.read field (insertionEntries order keep batch) = .ok (.sorted order) := by
  have hread := InsertOrder.ofOperand_eq_ok horder
  have hgiven : givenPart? (insertionEntries order keep batch) order.direction.keyword =
      some order.operand := by
    rw [givenPart?, insertionEntries, Record.get?, if_neg (by cases order.direction <;> decide),
      Record.get?, if_pos rfl]
    cases order <;> rfl
  have hnone : ∀ name, "insert" ≠ name → order.direction.keyword ≠ name → "keepFirst" ≠ name →
      "keepLast" ≠ name → givenPart? (insertionEntries order keep batch) name = none := by
    intro name hinsert horder hfirst hlast
    rw [givenPart?, get?_insertionEntries_eq_none batch hinsert horder hfirst hlast]
    rfl
  rw [Placement.read, hnone "at" (by decide) (by cases order.direction <;> decide) (by decide)
    (by decide)]
  dsimp only
  rw [InsertOrder.read]
  cases hd : order.direction with
  | ascending =>
    rw [hd] at hread hgiven hnone
    rw [Direction.keyword] at hgiven
    rw [hgiven, hnone "descending" (by decide) (by decide) (by decide) (by decide)]
    dsimp only
    rw [hread]
    rfl
  | descending =>
    rw [hd] at hread hgiven hnone
    rw [Direction.keyword] at hgiven
    rw [hgiven, hnone "ascending" (by decide) (by decide) (by decide) (by decide)]
    dsimp only
    rw [hread]
    rfl

/-- A number of elements is read where it is given. -/
theorem count_eq_some {es : Record Value} {key : String} {n : Nat}
    (hn : (n : Int) ≤ Number.maxI64) (h : Record.get? es key = some (.nat n)) :
    Keep.count es key = .ok (some n) := by
  have hgiven : givenPart? es key = some (.nat n) := by
    rw [givenPart?, h]
    rfl
  have hsigned : (Value.nat n).asI64? = some (n : Int) := by
    have hmin : Number.minI64 ≤ n := by
      rw [Number.minI64]
      omega
    exact if_pos ⟨hmin, hn⟩
  rw [Keep.count, hgiven]
  dsimp only
  rw [hsigned]
  exact if_pos (Int.natCast_nonneg n)

theorem count_eq_none {es : Record Value} {key : String} (h : Record.get? es key = none) :
    Keep.count es key = .ok none := by
  rw [Keep.count, givenPart?, h]
  rfl

/-- Which elements stay is read as it was written. -/
theorem read_keep (hkeep : keep.Fits) :
    Keep.read (insertionEntries order keep batch) = .ok keep := by
  have hfirst : Record.get? (insertionEntries order keep batch) "keepFirst" =
      Record.get? keep.bound?.toList "keepFirst" :=
    get?_insertionEntries batch (by decide) (by cases order.direction <;> decide)
  have hlast : Record.get? (insertionEntries order keep batch) "keepLast" =
      Record.get? keep.bound?.toList "keepLast" :=
    get?_insertionEntries batch (by decide) (by cases order.direction <;> decide)
  unfold Keep.read
  cases keep with
  | everything =>
    rw [count_eq_none hfirst, count_eq_none hlast]
    rfl
  | first n =>
    rw [count_eq_some hkeep hfirst, count_eq_none hlast]
    rfl
  | last n =>
    rw [count_eq_none hfirst, count_eq_some hkeep hlast]
    rfl

/-- **The update is read as the insertion that it was written for.** -/
theorem read_insertion (horder : order.Suits field) (hkeep : keep.Fits) :
    ListEdit.read field (insertion order keep batch) =
      .ok (.insert batch (.sorted order) keep) := by
  have hclear : clearRequested (insertionEntries order keep batch) = false := by
    have hkeyword : order.direction.keyword ≠ "clear" := by
      cases order.direction <;> decide
    rw [clearRequested, get?_insertionEntries_eq_none batch (by decide) hkeyword (by decide)
      (by decide)]
    rfl
  have hinsert : Record.get? (insertionEntries order keep batch) "insert" = some (.arr batch) :=
    if_pos rfl
  rw [insertion, ListEdit.read, ListEdit.readObject, hclear, hinsert]
  dsimp only
  rw [read_placement batch horder, read_keep batch hkeep]
  rfl

end Reading

/-! ## One batch after the other -/

/-- **What is cut off never comes back**: merging into what stays of a sorted list keeps the same
elements as merging into all of it. -/
theorem Keep.apply_mergeBy {compare : Value → Value → Ordering} {P : Value → Prop}
    (h : PreorderOn compare P) (keep : Keep) {xs ys : List Value} (hxs : ∀ x ∈ xs, P x)
    (hys : ∀ y ∈ ys, P y) (hascending : Ascending compare xs) :
    keep.apply (mergeBy compare (keep.apply xs) ys) = keep.apply (mergeBy compare xs ys) := by
  cases keep with
  | everything => rfl
  | first n => exact take_mergeBy (Nat.le_refl n) xs ys
  | last n => exact lastItems_mergeBy h n hxs hys hascending

section Batches

variable (ctx : Context) {field : FieldInfo} {order : InsertOrder}

/-- **One more batch**: a list that holds the best of some elements holds the best of them and the
batch afterwards. -/
theorem applyListUpdate_insertion (hlist : field.category.isList = true)
    (horder : order.Suits field) {keep : Keep} (hkeep : keep.Fits) {arrived batch : List Value}
    (hpre : PreorderOn order.compare (· ∈ arrived ++ batch)) {list : Option (List Value)}
    (h : list.getD [] = keep.apply (stableSort order.compare arrived)) :
    applyListUpdate ctx field list (insertion order keep batch) =
      .ok (some (keep.apply (stableSort order.compare (arrived ++ batch)))) := by
  have harrived : ∀ x ∈ arrived, x ∈ arrived ++ batch := fun x => List.mem_append_left batch
  have hbatch : ∀ x ∈ batch, x ∈ arrived ++ batch := fun x => List.mem_append_right arrived
  have hmerge : keep.apply (Placement.insert (.sorted order) batch (list.getD [])) =
      keep.apply (stableSort order.compare (arrived ++ batch)) := by
    rw [stableSort_append hpre harrived hbatch, h]
    exact keep.apply_mergeBy hpre (fun x hx => harrived x (mem_stableSort.1 hx))
      (fun y hy => hbatch y (mem_stableSort.1 hy)) (ascending_stableSort hpre harrived)
  rw [applyListUpdate_of_read ctx hlist (read_insertion batch horder hkeep), ← hmerge]
  rfl

/-- **A run of batches** makes of the best of what arrived before the best of all that arrived. -/
theorem foldlM_applyListUpdate_insertion (hlist : field.category.isList = true)
    (horder : order.Suits field) {keep : Keep} (hkeep : keep.Fits) :
    ∀ {batches : List (List Value)} {arrived : List Value} {list : Option (List Value)},
      PreorderOn order.compare (· ∈ arrived ++ batches.flatten) → batches ≠ [] →
      list.getD [] = keep.apply (stableSort order.compare arrived) →
      batches.foldlM (fun list batch => applyListUpdate ctx field list (insertion order keep batch))
        list = .ok (some (keep.apply (stableSort order.compare (arrived ++ batches.flatten))))
  | [], _, _, _, hne, _ => absurd rfl hne
  | batch :: batches, arrived, list, hpre, _, h => by
    rw [List.flatten_cons, ← List.append_assoc] at hpre ⊢
    have hstep := applyListUpdate_insertion ctx hlist horder hkeep
      (hpre.mono fun x hx => List.mem_append_left _ hx) h
    rw [List.foldlM_cons, hstep]
    cases batches with
    | nil => rw [List.flatten_nil, List.append_nil]; rfl
    | cons next batches =>
      exact foldlM_applyListUpdate_insertion hlist horder hkeep hpre (List.cons_ne_nil _ _) rfl

/-- **A bounded sorted list holds the best of all that was inserted.**  However many batches are
inserted into a missing or an empty list, afterwards it holds the first elements of the stable sort
of all of them, as many as stay, or the last ones where the last ones stay. -/
theorem foldlM_insertion_eq_sorted (hlist : field.category.isList = true)
    (horder : order.Suits field) {n : Nat} (hn : (n : Int) ≤ Number.maxI64)
    {batches : List (List Value)} (hne : batches ≠ [])
    (hpre : PreorderOn Value.compare fun v => ∃ x ∈ batches.flatten, order.keyOf x = v)
    {list : Option (List Value)} (hempty : list = none ∨ list = some []) :
    batches.foldlM (fun list batch => applyListUpdate ctx field list
        (insertion order (.first n) batch)) list =
      .ok (some ((stableSort order.compare batches.flatten).take n)) ∧
    batches.foldlM (fun list batch => applyListUpdate ctx field list
        (insertion order (.last n) batch)) list =
      .ok (some ((stableSort order.compare batches.flatten).drop
        (batches.flatten.length - n))) := by
  have hpre' : PreorderOn order.compare (· ∈ [] ++ batches.flatten) := order.preorderOn_compare hpre
  have hstart : ∀ keep : Keep, list.getD [] = keep.apply (stableSort order.compare []) := by
    intro keep
    rw [stableSort, List.foldl_nil, List.reverse_nil]
    rcases hempty with rfl | rfl <;> cases keep <;> simp [Keep.apply]
  have hrun : ∀ keep : Keep, keep.Fits → batches.foldlM (fun list batch =>
      applyListUpdate ctx field list (insertion order keep batch)) list =
        .ok (some (keep.apply (stableSort order.compare batches.flatten))) := fun _ hkeep =>
    foldlM_applyListUpdate_insertion ctx hlist horder hkeep hpre' hne (hstart _)
  refine ⟨hrun (.first n) hn, (hrun (.last n) hn).trans ?_⟩
  rw [Keep.apply, length_stableSort]

/-- Of posts that arrive in two batches the two most liked ones stay; of the equally liked ones the
one that arrived first goes first. -/
theorem foldlM_insertion_posts :
    let post := fun (title : String) (likes : Int) =>
      Value.obj [("title", .str title), ("likes", .int likes)]
    let posts : FieldInfo := ⟨"posts", "Post", .objectList⟩
    [[post "a" 1, post "b" 3], [post "c" 3, post "d" 2]].foldlM (fun list batch =>
        applyListUpdate .sample posts list
          (insertion (.field "likes" .descending) (.first 2) batch)) none =
      .ok (some [post "b" 3, post "c" 3]) := by
  intro post posts
  have horder : (InsertOrder.field "likes" .descending).Suits posts := rfl
  have hpre : PreorderOn Value.compare fun v =>
      ∃ x ∈ [[post "a" 1, post "b" 3], [post "c" 3, post "d" 2]].flatten,
        (InsertOrder.field "likes" .descending).keyOf x = v := by
    refine Value.preorderOn_of_exact ?_
    rintro v ⟨x, hx, rfl⟩
    simp only [List.flatten_cons, List.flatten_nil, List.append_nil, List.cons_append,
      List.nil_append, List.mem_cons, List.not_mem_nil, or_false] at hx
    rcases hx with rfl | rfl | rfl | rfl <;> rfl
  have hrun := foldlM_insertion_eq_sorted .sample rfl horder (n := 2) (by decide)
    (List.cons_ne_nil _ _) hpre (.inl rfl)
  exact hrun.1

end Batches

end TypedGraph

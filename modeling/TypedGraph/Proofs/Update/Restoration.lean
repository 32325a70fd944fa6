import TypedGraph.Proofs.Update.Insertion

/-!
# Proofs/Update/Restoration — deleting what was inserted restores the list

A deletion of literals asks each element on its own whether it stays.  It can be read through an
interleaving: of a whole list that interleaves a list and other elements, none of which stays, it
leaves what it leaves of the list (`Interleaves.filter_eq`).  Where the elements went, and how they
were sorted before, makes no difference (`Placement.without_insertBy`).

So an insertion is undone by the deletion of what was inserted, exactly where the list holds nothing
that is equal to an inserted element (`applyListUpdate_delete_inserted`).  Of the order of values
this asks nothing but that each value equals itself.
-/

namespace TypedGraph

/-! ## Filters of an interleaving -/

/-- **A test that no item of the second list passes sees the first list only.** -/
theorem Interleaves.filter_eq {α : Type} {xs ys zs : List α} {p : α → Bool}
    (h : Interleaves xs ys zs) (hys : ∀ y ∈ ys, p y = false) : zs.filter p = xs.filter p := by
  induction h with
  | nil => rfl
  | left _ ih => simp only [List.filter_cons, ih hys]
  | right _ ih =>
    obtain ⟨hy, hys⟩ := List.forall_mem_cons.1 hys
    simp [hy, ih hys]

namespace Value

/-- Every item of a list is among its items. -/
theorem among_of_mem {x : Value} {xs : List Value} (h : x ∈ xs) : among x xs = true :=
  List.any_eq_true.2 ⟨x, h, equal_self x⟩

/-- The items of a list that are not among others. -/
def without (others list : List Value) : List Value := list.filter fun x => !among x others

/-- Nothing is taken out of a list where no item equals one of the others. -/
theorem without_eq_self_iff {others list : List Value} :
    without others list = list ↔ ∀ x ∈ list, ∀ y ∈ others, equal x y = false := by
  simp [without, among]

end Value

/-! ## Insertions by any sort -/

namespace Placement

variable {placement : Placement} {sort : (Value → Value → Ordering) → List Value → List Value}
  {items list : List Value}

/-- **Insert elements that a given sort arranges**, where they go into the list in an order. -/
def insertBy (sort : (Value → Value → Ordering) → List Value → List Value)
    (placement : Placement) (items list : List Value) : List Value :=
  match placement with
  | .sorted order => mergeBy order.compare list (sort order.compare items)
  | placement => placement.insert items list

/-- Elements are inserted by the stable sort. -/
theorem insertBy_stableSort (placement : Placement) (items list : List Value) :
    placement.insertBy stableSort items list = placement.insert items list := by
  cases placement <;> rfl

theorem exists_interleaves_insertBy (hsort : ∀ compare xs, (sort compare xs).Perm xs)
    (placement : Placement) (items list : List Value) : ∃ arranged : List Value,
      arranged.Perm items ∧ Interleaves list arranged (placement.insertBy sort items list) := by
  match placement with
  | .sorted order => exact ⟨_, hsort order.compare items, interleaves_mergeBy order.compare list _⟩
  | .last => exact ⟨items, .refl _, (inserts_insert .last items list).interleaves⟩
  | .position p => exact ⟨items, .refl _, (inserts_insert (.position p) items list).interleaves⟩

/-- **What was inserted is taken out again**, wherever it went. -/
theorem without_insertBy (hsort : ∀ compare xs, (sort compare xs).Perm xs) :
    Value.without items (placement.insertBy sort items list) = Value.without items list := by
  obtain ⟨arranged, hperm, hinterleaves⟩ :=
    exists_interleaves_insertBy hsort placement items list
  refine hinterleaves.filter_eq fun y hy => ?_
  simp [Value.among_of_mem (hperm.mem_iff.1 hy)]

end Placement

/-! ## Accepted insertions -/

/-- **A place that an update asks for is read.** -/
theorem Placement.read_of_asked {field : FieldInfo} {es : Record Value} {placement : Placement}
    (h : placement.Asked field es) : Placement.read field es = .ok placement := by
  -- an order is read in either direction, the other one not being given
  have horder : ∀ (direction : Direction) (v : Value), givenPart? es "at" = none →
      givenPart? es direction.keyword = some v → givenPart? es direction.otherKeyword = none →
        Placement.read field es = (InsertOrder.ofOperand field direction v).map ofOrder := by
    intro direction v hat hgiven hother
    cases direction <;> simp only [Direction.keyword, Direction.otherKeyword] at hgiven hother <;>
      simp only [Placement.read, InsertOrder.read, hat, hgiven, hother]
  cases h with
  | position hat hp => simp only [Placement.read, hat, hp]
  | sorted hat hsuits hgiven hother =>
    rw [horder _ _ hat hgiven hother, InsertOrder.ofOperand_eq_ok hsuits]
    rfl
  | declined hat hscalar hgiven hother =>
    rw [horder _ _ hat hgiven hother]
    simp only [InsertOrder.ofOperand, hscalar]
    rfl
  | last hat hnone =>
    have hascending : givenPart? es "ascending" = none := hnone .ascending
    have hdescending : givenPart? es "descending" = none := hnone .descending
    simp only [Placement.read, InsertOrder.read, hat, hascending, hdescending]
    rfl

/-- Where no bound is given, everything stays. -/
theorem Keep.read_of_not_given {es : Record Value} (hfirst : givenPart? es "keepFirst" = none)
    (hlast : givenPart? es "keepLast" = none) : Keep.read es = .ok .everything := by
  simp only [Keep.read, Keep.count, hfirst, hlast]
  rfl

/-! ## Inserting and deleting -/

/-- The update that deletes all elements equal to one of some literals. -/
def deletion (literals : List Value) : Value := .single "delete" (.arr literals)

section Restoration

variable (ctx : Context) {field : FieldInfo} {es : Record Value} {items : List Value}

/-- A deletion of literals takes them out. -/
theorem applyListUpdate_deletion (hlist : field.category.isList = true)
    (literals list : List Value) :
    applyListUpdate ctx field (some list) (deletion literals) =
      .ok (some (Value.without literals list)) := by
  rw [applyListUpdate_eq ctx hlist]
  rfl

/-- An insertion without bounds is accepted at each place that may be asked for. -/
theorem applyListUpdate_unbounded_iff (hlist : field.category.isList = true)
    (hclear : clearRequested es = false) (hinsert : Record.get? es "insert" = some (.arr items))
    (hfirst : givenPart? es "keepFirst" = none) (hlast : givenPart? es "keepLast" = none)
    (list : List Value) (inserted : Option (List Value)) :
    applyListUpdate ctx field (some list) (.obj es) = .ok inserted ↔
      ∃ placement, Placement.Asked field es placement ∧
        inserted = some (placement.insert items list) := by
  rw [applyListUpdate_insert_eq_ok ctx hlist hclear hinsert]
  constructor
  · rintro ⟨placement, keep, hplacement, hkeep, rfl⟩
    cases (Keep.read_of_not_given hfirst hlast).symm.trans hkeep
    exact ⟨placement, Placement.asked_of_read hplacement, rfl⟩
  · rintro ⟨placement, hasked, rfl⟩
    exact ⟨placement, .everything, Placement.read_of_asked hasked,
      Keep.read_of_not_given hfirst hlast, rfl⟩

/-- **Deleting what was inserted restores the list**, at every place where an insertion without
bounds is accepted, exactly where no element of the list equals an inserted one.  It does so however
the inserted elements are sorted on their way into the list. -/
theorem applyListUpdate_delete_inserted (hlist : field.category.isList = true)
    (hclear : clearRequested es = false) (hinsert : Record.get? es "insert" = some (.arr items))
    (hfirst : givenPart? es "keepFirst" = none) (hlast : givenPart? es "keepLast" = none)
    (list : List Value) :
    ((∃ inserted, applyListUpdate ctx field (some list) (.obj es) = .ok inserted) ↔
      ∃ placement, Placement.Asked field es placement) ∧
    (∀ inserted, applyListUpdate ctx field (some list) (.obj es) = .ok inserted →
      (applyListUpdate ctx field inserted (deletion items) = .ok (some list) ↔
        ∀ x ∈ list, ∀ y ∈ items, Value.equal x y = false)) ∧
    ∀ placement, Placement.Asked field es placement → ∀ sort,
      (∀ compare xs, (sort compare xs : List Value).Perm xs) →
        (applyListUpdate ctx field (some (placement.insertBy sort items list)) (deletion items) =
            .ok (some list) ↔
          ∀ x ∈ list, ∀ y ∈ items, Value.equal x y = false) := by
  have haccepted := applyListUpdate_unbounded_iff ctx hlist hclear hinsert hfirst hlast list
  have hrestored : ∀ (placement : Placement) (sort : (Value → Value → Ordering) → List Value →
      List Value), (∀ compare xs, (sort compare xs).Perm xs) →
        (applyListUpdate ctx field (some (placement.insertBy sort items list)) (deletion items) =
            .ok (some list) ↔
          ∀ x ∈ list, ∀ y ∈ items, Value.equal x y = false) := by
    intro placement sort hsort
    rw [applyListUpdate_deletion ctx hlist, Placement.without_insertBy hsort, Except.ok.injEq,
      Option.some.injEq, Value.without_eq_self_iff]
  refine ⟨⟨?_, ?_⟩, ?_, fun placement _ => hrestored placement⟩
  · rintro ⟨inserted, h⟩
    obtain ⟨placement, hasked, -⟩ := (haccepted inserted).1 h
    exact ⟨placement, hasked⟩
  · rintro ⟨placement, hasked⟩
    exact ⟨_, (haccepted _).2 ⟨placement, hasked, rfl⟩⟩
  · intro inserted h
    obtain ⟨placement, -, rfl⟩ := (haccepted inserted).1 h
    rw [← Placement.insertBy_stableSort]
    exact hrestored placement stableSort fun _ => stableSort_perm

/-- Five, a list and one go into an unsorted list, downwards, and are deleted again. -/
theorem applyListUpdate_delete_inserted_scores :
    let scores : FieldInfo := ⟨"scores", "Int", .scalarList⟩
    let items : List Value := [.int 5, .arr [], .int 1]
    let es : Record Value := [("insert", .arr items), ("descending", .bool true)]
    let list : List Value := [.int 4, .null, .int 9, .int 2]
    let whole : List Value := [.arr [], .int 5, .int 4, .int 1, .null, .int 9, .int 2]
    applyListUpdate .sample scores (some list) (.obj es) = .ok (some whole) ∧
      applyListUpdate .sample scores (some whole) (deletion items) = .ok (some list) := by
  intro scores items es list whole
  have hlist : scores.category.isList = true := rfl
  have hinsert : Record.get? es "insert" = some (.arr items) := rfl
  have hwhole : mergeBy (InsertOrder.whole .descending).compare list [.arr [], .int 5, .int 1] =
      whole := by
    rw [cons_mergeBy_cons, if_pos (by rfl), cons_mergeBy_cons, if_pos (by rfl),
      cons_mergeBy_cons, if_neg (by decide), cons_mergeBy_cons, if_pos (by rfl), mergeBy_nil]
  have happly : applyListUpdate .sample scores (some list) (.obj es) = .ok (some whole) :=
    hwhole ▸ rfl
  have hrestored := applyListUpdate_delete_inserted .sample hlist rfl hinsert rfl rfl list
  exact ⟨happly, (hrestored.2.1 _ happly).2 (by decide)⟩

end Restoration

end TypedGraph

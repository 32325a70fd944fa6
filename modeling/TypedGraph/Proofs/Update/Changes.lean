import Mathlib.Data.List.Perm.Basic
import TypedGraph.FieldPath
import TypedGraph.Proofs.Update.Merge

/-!
# Proofs/Update/Changes — the changes that a document makes

A document makes a **change** at each target of an operator.  Where no path comes twice, under one
operator or under two, no operands meet: what is merged in adds its changes to those that are there
(`changes_merge`), and the changes of many documents are those of each (`changes_mergeAll`).

The changes decide on a keyed document up to the order of its operators and of their targets
(`Keyed.alike_of_perm`).
-/

namespace TypedGraph

namespace UpdateDocument

variable {d e : UpdateDocument}

/-- **A change**: an operator with one of its targets and the operand there. -/
structure Change where
  operator : String
  path : String
  operand : Value

/-- The names of the path. -/
def Change.segments (c : Change) : List String := splitNames '.' c.path

/-- The changes of an operator with its targets. -/
def changesOf (operator : String) (targets : Record Value) : List Change :=
  targets.map fun (path, operand) => ⟨operator, path, operand⟩

/-- **The changes of a document**, operator by operator. -/
def changes (d : UpdateDocument) : List Change :=
  d.operators.flatMap fun (operator, targets) => changesOf operator targets

theorem changes_cons (operator : String) (targets : Record Value)
    (rest : Record (Record Value)) :
    changes ⟨(operator, targets) :: rest⟩ = changesOf operator targets ++ changes ⟨rest⟩ := rfl

/-! ## Changes of merges -/

/-- Changes at paths that are all different. -/
def DistinctPaths (cs : List Change) : Prop := (cs.map Change.path).Nodup

theorem DistinctPaths.perm {cs cs' : List Change} (h : DistinctPaths cs) (hperm : cs'.Perm cs) :
    DistinctPaths cs' :=
  (hperm.map Change.path).nodup_iff.2 h

theorem addTarget_of_new {targets : Record Value} {path : String}
    (h : ∀ t ∈ targets, t.1 ≠ path) (operand : Value) :
    addTarget targets path operand = targets ++ [(path, operand)] := by
  have hnone : Record.get? targets path = none := by
    rw [Record.get?_eq_none_iff]
    intro hmem
    obtain ⟨t, ht, hpath⟩ := List.mem_map.1 hmem
    exact h t ht hpath
  rw [addTarget_eq, hnone, Record.put_of_names_ne h]
  rfl

/-- **An operand at a new path is one change more.** -/
theorem changes_add (operator : String) {path : String} (operand : Value)
    (h : ∀ c ∈ d.changes, c.path ≠ path) :
    (d.add operator path operand).changes.Perm (d.changes ++ [⟨operator, path, operand⟩]) := by
  obtain ⟨operators⟩ := d
  induction operators with
  | nil => exact .refl _
  | cons t rest ih =>
    obtain ⟨other, targets⟩ := t
    obtain ⟨hother, hrest⟩ := List.forall_mem_append.1 h
    rw [add, Record.put, Record.get?]
    split
    · next heq =>
      subst heq
      have htargets : ∀ t ∈ targets, t.1 ≠ path := fun t ht =>
        hother ⟨other, t.1, t.2⟩ (List.mem_map_of_mem ht)
      have hmap : changesOf other (targets ++ [(path, operand)]) =
          changesOf other targets ++ [⟨other, path, operand⟩] := List.map_append
      rw [Option.getD_some, addTarget_of_new htargets, changes_cons, hmap, changes_cons,
        List.append_assoc, List.append_assoc]
      exact List.perm_append_comm.append_left _
    · rw [changes_cons, changes_cons, List.append_assoc]
      exact (ih hrest).append_left _

/-- Steps that add their changes, one after the other, add all of them. -/
theorem changes_foldl {α : Type} {step : UpdateDocument → α → UpdateDocument}
    {added : α → List Change}
    (hstep : ∀ d x, DistinctPaths (d.changes ++ added x) →
      (step d x).changes.Perm (d.changes ++ added x)) :
    ∀ (xs : List α) (d : UpdateDocument), DistinctPaths (d.changes ++ xs.flatMap added) →
      (xs.foldl step d).changes.Perm (d.changes ++ xs.flatMap added)
  | [], d, _ => .of_eq (List.append_nil _).symm
  | x :: xs, d, h => by
    rw [List.flatMap_cons, ← List.append_assoc] at h ⊢
    have hfirst : DistinctPaths (d.changes ++ added x) := by
      rw [DistinctPaths, List.map_append] at h
      exact h.of_append_left
    have hchanges := (hstep d x hfirst).append_right (xs.flatMap added)
    exact (changes_foldl hstep xs (step d x) (h.perm hchanges)).trans hchanges

theorem changes_addTargets {operator : String} {targets : Record Value}
    (h : DistinctPaths (d.changes ++ changesOf operator targets)) :
    (d.addTargets operator targets).changes.Perm (d.changes ++ changesOf operator targets) := by
  have hsingle : changesOf operator targets =
      targets.flatMap fun t => [⟨operator, t.1, t.2⟩] := List.map_eq_flatMap
  rw [hsingle] at h ⊢
  refine changes_foldl (fun d t ht => changes_add operator t.2 fun c hc => ?_) targets d h
  rw [DistinctPaths, List.map_append] at ht
  exact (List.nodup_append.1 ht).2.2 _ (List.mem_map_of_mem hc) _ List.mem_cons_self

/-- **A merge makes the changes of both documents** where no path comes twice. -/
theorem changes_merge (h : DistinctPaths (d.changes ++ e.changes)) :
    (d.merge e).changes.Perm (d.changes ++ e.changes) :=
  changes_foldl (fun _ _ => changes_addTargets) e.operators d h

theorem changes_mergeAll {documents : List UpdateDocument}
    (h : DistinctPaths (documents.flatMap changes)) :
    (mergeAll documents).changes.Perm (documents.flatMap changes) :=
  changes_foldl (fun _ _ => changes_merge) documents empty h

/-! ## One document as a map -/

/-- **Documents are alike** where they are one as maps: they have the same operators, each with the
same targets in some order. -/
def Alike (d e : UpdateDocument) : Prop :=
  ∀ operator, Option.Rel List.Perm (d.get? operator) (e.get? operator)

theorem filter_changesOf (operator other : String) (targets : Record Value) :
    ((changesOf other targets).filter fun c => c.operator = operator) =
      if other = operator then changesOf other targets else [] := by
  by_cases h : other = operator <;> simp [changesOf, List.filter_map, Function.comp_def, h]

/-- The targets of an operator are read off the changes. -/
theorem Keyed.filter_changes (h : d.Keyed) (operator : String) :
    (d.changes.filter fun c => c.operator = operator) =
      changesOf operator ((d.get? operator).getD []) := by
  have hnodup := h.operators
  obtain ⟨operators⟩ := d
  clear h
  induction operators with
  | nil => rfl
  | cons t rest ih =>
    obtain ⟨other, targets⟩ := t
    obtain ⟨hother, hrest⟩ := List.nodup_cons.1 hnodup
    rw [changes_cons, List.filter_append, filter_changesOf, ih hrest, get?, get?, Record.get?]
    by_cases heq : other = operator
    · subst heq
      rw [if_pos rfl, if_pos rfl, Record.get?_eq_none_iff.2 hother]
      exact List.append_nil _
    · rw [if_neg heq, if_neg heq]
      rfl

/-- **Keyed documents that make the same changes are alike.** -/
theorem Keyed.alike_of_perm (hd : d.Keyed) (he : e.Keyed) (h : d.changes.Perm e.changes) :
    d.Alike e := by
  intro operator
  have hinjective : Function.Injective fun t : String × Value =>
      (⟨operator, t.1, t.2⟩ : Change) := fun _ _ heq => by
    obtain ⟨-, hpath, hoperand⟩ := Change.mk.inj heq
    exact Prod.ext hpath hoperand
  have hchanges := h.filter fun c => c.operator = operator
  rw [hd.filter_changes, he.filter_changes] at hchanges
  have htargets : ((d.get? operator).getD []).Perm ((e.get? operator).getD []) :=
    (List.map_perm_map_iff hinjective).1 hchanges
  -- an operator without targets would not show in the changes, but a keyed document has none
  cases hleft : d.get? operator with
  | none =>
    cases hright : e.get? operator with
    | none => exact .none
    | some targets =>
      rw [hleft, hright] at htargets
      exact absurd htargets.symm.eq_nil (he.targets _ (Record.mem_of_get? hright)).1
  | some targets =>
    cases hright : e.get? operator with
    | none =>
      rw [hleft, hright] at htargets
      exact absurd htargets.eq_nil (hd.targets _ (Record.mem_of_get? hleft)).1
    | some targets' =>
      rw [hleft, hright] at htargets
      exact .some htargets

end UpdateDocument

end TypedGraph

import TypedGraph.Proofs.Value.Merge
import TypedGraph.Update.Document

/-!
# Proofs/Update/Merge — merging update documents

A document that is built operand by operand names no operator and no path twice, every operator has
a target, and no operand has a name twice (`Built.proper`).  As nested objects, two such documents
merge deeply (`toDocument_merge`), so that three of them may be merged in either grouping where deep
merges may (`merge_assoc`), and a plain value that is merged in last is found in the result.

The groupings differ where one document sets a path to a plain value between two that set it to
objects (`merge_plain_between`).
-/

namespace TypedGraph

namespace UpdateDocument

variable {d e : UpdateDocument}

/-- **A document that is built operand by operand.** -/
inductive Built : UpdateDocument → Prop where
  | empty : Built empty
  | add {d : UpdateDocument} (operator path : String) {operand : Value} :
      Built d → operand.hasDistinctNames → Built (d.add operator path operand)

/-- **A keyed document**: no operator and no path of one comes twice, and no operator is without
targets. -/
structure Keyed (d : UpdateDocument) : Prop where
  operators : d.operators.names.Nodup
  targets : ∀ t ∈ d.operators, t.2 ≠ [] ∧ (Record.names t.2).Nodup

/-- **A proper document**: a keyed one in whose operands no name comes twice. -/
structure Proper (d : UpdateDocument) : Prop extends d.Keyed where
  distinct : ∀ t ∈ d.operators, (Value.obj t.2).hasDistinctNames

/-! ## Built documents are proper -/

theorem addTarget_eq (targets : Record Value) (path : String) (operand : Value) :
    addTarget targets path operand =
      Record.put targets path (Value.mergeOnto (Record.get? targets path) operand) := by
  rw [addTarget]
  cases Record.get? targets path <;> rfl

theorem Keyed.empty : Keyed empty := ⟨List.nodup_nil, nofun⟩

/-- The targets of an operator that has none yet are no targets. -/
theorem Keyed.nodup_targets (h : d.Keyed) (operator : String) :
    (Record.names ((Record.get? d.operators operator).getD [])).Nodup := by
  cases hfound : Record.get? d.operators operator with
  | none => exact List.nodup_nil
  | some targets => exact (h.targets _ (Record.mem_of_get? hfound)).2

theorem Keyed.add (h : d.Keyed) (operator path : String) (operand : Value) :
    (d.add operator path operand).Keyed := by
  refine ⟨Record.nodup_names_put h.operators _ _, fun t ht => ?_⟩
  rcases Record.eq_or_mem_of_mem_put ht with rfl | ht
  · rw [addTarget_eq]
    exact ⟨Record.put_ne_nil _ _ _, Record.nodup_names_put (h.nodup_targets operator) _ _⟩
  · exact h.targets t ht

theorem Keyed.addTargets (h : d.Keyed) (operator : String) (targets : Record Value) :
    (d.addTargets operator targets).Keyed := by
  induction targets generalizing d with
  | nil => exact h
  | cons t rest ih => exact ih (h.add operator t.1 t.2)

/-- **What is merged into a keyed document** leaves it keyed. -/
theorem Keyed.merge (h : d.Keyed) (e : UpdateDocument) : (d.merge e).Keyed := by
  obtain ⟨operators⟩ := e
  unfold UpdateDocument.merge
  induction operators generalizing d with
  | nil => exact h
  | cons t rest ih => exact ih (h.addTargets t.1 t.2)

theorem Keyed.mergeAll (documents : List UpdateDocument) : (mergeAll documents).Keyed := by
  have hfold : ∀ d : UpdateDocument, d.Keyed → (documents.foldl UpdateDocument.merge d).Keyed := by
    induction documents with
    | nil => exact fun _ h => h
    | cons e rest ih => exact fun d h => ih (d.merge e) (h.merge e)
  exact hfold _ .empty

theorem Proper.empty : Proper empty := ⟨.empty, nofun⟩

theorem Proper.distinct_targets (h : d.Proper) (operator : String) :
    (Value.obj ((Record.get? d.operators operator).getD [])).hasDistinctNames := by
  cases hfound : Record.get? d.operators operator with
  | none => rfl
  | some targets => exact h.distinct _ (Record.mem_of_get? hfound)

theorem Proper.add (h : d.Proper) (operator path : String) {operand : Value}
    (hoperand : operand.hasDistinctNames) : (d.add operator path operand).Proper := by
  refine ⟨h.toKeyed.add operator path operand, fun t ht => ?_⟩
  rcases Record.eq_or_mem_of_mem_put ht with rfl | ht
  · have htargets := h.distinct_targets operator
    rw [addTarget_eq]
    exact Value.hasDistinctNames_put htargets path (Value.hasDistinctNames_mergeOnto
      (fun _ hx => Value.hasDistinctNames_of_get? htargets hx) hoperand)
  · exact h.distinct t ht

theorem Built.proper (h : d.Built) : d.Proper := by
  induction h with
  | empty => exact .empty
  | add operator path _ hoperand ih => exact ih.add operator path hoperand

theorem Proper.addTargets (h : d.Proper) (operator : String) {targets : Record Value}
    (htargets : ∀ t ∈ targets, t.2.hasDistinctNames) : (d.addTargets operator targets).Proper := by
  induction targets generalizing d with
  | nil => exact h
  | cons t rest ih =>
    exact ih (h.add operator t.1 (htargets t List.mem_cons_self))
      fun t ht => htargets t (List.mem_cons_of_mem _ ht)

/-- **A merge of proper documents is proper.** -/
theorem Proper.merge (hd : d.Proper) (he : e.Proper) : (d.merge e).Proper := by
  have hdistinct := he.distinct
  obtain ⟨operators⟩ := e
  unfold UpdateDocument.merge
  clear he
  induction operators generalizing d with
  | nil => exact hd
  | cons t rest ih =>
    have ht := (Value.hasDistinctNames_obj_iff.1 (hdistinct t List.mem_cons_self)).2
    exact ih (hd.addTargets t.1 ht) fun t ht => hdistinct t (List.mem_cons_of_mem _ ht)

/-! ## Merges of documents as merges of objects -/

theorem operators_addTargets (operator : String) {targets : Record Value} (h : targets ≠ [])
    (d : UpdateDocument) : (d.addTargets operator targets).operators =
      Record.put d.operators operator
        (Value.mergeEntries ((Record.get? d.operators operator).getD []) targets) := by
  induction targets generalizing d with
  | nil => exact absurd rfl h
  | cons t rest ih =>
    obtain ⟨path, operand⟩ := t
    rw [Value.mergeEntries_cons, ← addTarget_eq]
    cases rest with
    | nil => rfl
    | cons t' rest' =>
      have hrest := ih (List.cons_ne_nil _ _) (d.add operator path operand)
      rw [add, Record.get?_put_self, Record.put_put_self, Option.getD_some] at hrest
      exact hrest

/-- What a document sets an operator to, merged onto what another one sets it to. -/
theorem mergeOnto_targets (d : UpdateDocument) (operator : String) {targets : Record Value}
    (h : (Record.names targets).Nodup) :
    Value.mergeOnto ((Record.get? d.operators operator).map .obj) (.obj targets) =
      .obj (Value.mergeEntries ((Record.get? d.operators operator).getD []) targets) := by
  cases Record.get? d.operators operator with
  | none => exact congrArg Value.obj (Value.mergeEntries_nil_left h).symm
  | some old => rfl

/-- **A merge of documents is the deep merge of their operators.** -/
theorem operators_merge (d : UpdateDocument) (he : e.Keyed) :
    Record.mapValues Value.obj (d.merge e).operators =
      Value.mergeEntries (Record.mapValues Value.obj d.operators)
        (Record.mapValues Value.obj e.operators) := by
  have htargets := he.targets
  obtain ⟨operators⟩ := e
  unfold UpdateDocument.merge
  clear he
  induction operators generalizing d with
  | nil => rfl
  | cons t rest ih =>
    obtain ⟨operator, targets⟩ := t
    obtain ⟨hne, hnodup⟩ := htargets _ List.mem_cons_self
    refine (ih _ fun t ht => htargets t (List.mem_cons_of_mem _ ht)).trans ?_
    rw [operators_addTargets operator hne, Record.mapValues_put, ← mergeOnto_targets d _ hnodup,
      ← Record.get?_mapValues, ← Value.mergeEntries_cons]
    rfl

/-- An operator without targets is never left out of a keyed document: there is none. -/
theorem Keyed.toDocument_eq (h : d.Keyed) :
    d.toDocument = Record.mapValues Value.obj d.operators := by
  rw [toDocument, List.filter_eq_self.2 fun t ht => ?_]
  · rfl
  · rw [Bool.not_eq_true', List.isEmpty_eq_false_iff]
    exact (h.targets t ht).1

/-- **As nested objects, documents merge deeply.** -/
theorem toDocument_merge (hd : d.Keyed) (he : e.Keyed) :
    (d.merge e).toDocument = Value.mergeEntries d.toDocument e.toDocument := by
  rw [(hd.merge e).toDocument_eq, hd.toDocument_eq, he.toDocument_eq, operators_merge d he]

theorem Proper.hasDistinctNames (h : d.Proper) : (Value.obj d.toDocument).hasDistinctNames := by
  rw [h.toDocument_eq, Value.hasDistinctNames_obj_iff, Record.names_mapValues]
  refine ⟨h.operators, fun t ht => ?_⟩
  obtain ⟨⟨operator, targets⟩, hmem, rfl⟩ := List.mem_map.1 ht
  exact h.distinct _ hmem

/-- Keyed documents that are one nested object are one document. -/
theorem Keyed.eq_of_toDocument_eq (hd : d.Keyed) (he : e.Keyed)
    (h : d.toDocument = e.toDocument) : d = e := by
  rw [hd.toDocument_eq, he.toDocument_eq] at h
  have hinjective : Function.Injective fun t : String × Record Value => (t.1, Value.obj t.2) :=
    fun _ _ heq => Prod.ext (Prod.mk.inj heq).1 (Value.obj.inj (Prod.mk.inj heq).2)
  obtain ⟨operators⟩ := d
  obtain ⟨operators'⟩ := e
  have hoperators : operators = operators' := hinjective.list_map h
  rw [hoperators]

/-! ## Groupings -/

/-- **Documents may be merged in either grouping** unless one sets a path to a plain value between
two that set it to objects, and what the last one sets to a plain value is so in the result. -/
theorem merge_assoc {a b c : UpdateDocument} (ha : a.Built) (hb : b.Built) (hc : c.Built)
    (h : Value.Unbroken (.obj a.toDocument) (.obj b.toDocument) (.obj c.toDocument)) :
    (a.merge b).merge c = a.merge (b.merge c) ∧
      ∀ path v, v.isObject = false → (Value.obj c.toDocument).lookup? path = some v →
        (Value.obj ((a.merge b).merge c).toDocument).lookup? path = some v := by
  have ha := ha.proper.toKeyed
  have hleft : Value.obj ((a.merge b).merge c).toDocument =
      Value.deepMerge (Value.obj (a.merge b).toDocument) (Value.obj c.toDocument) :=
    congrArg Value.obj (toDocument_merge (ha.merge b) hc.proper.toKeyed)
  refine ⟨((ha.merge b).merge c).eq_of_toDocument_eq (ha.merge _) (Value.obj.inj ?_),
    fun path v hv hfound => ?_⟩
  · rw [hleft, toDocument_merge ha hb.proper.toKeyed,
      toDocument_merge ha (hb.proper.toKeyed.merge c),
      toDocument_merge hb.proper.toKeyed hc.proper.toKeyed]
    exact Value.deepMerge_assoc hb.proper.hasDistinctNames hc.proper.hasDistinctNames h
  · rw [hleft]
    exact Value.lookup?_deepMerge hv hc.proper.hasDistinctNames hfound

/-- The documents of the names and the age of one author. -/
theorem merge_assoc_author :
    let author := fun es => single "$set" "author" (.obj es)
    let a := author [("first", .str "Ada")]
    let b := author [("age", .int 36)]
    let c := author [("first", .str "Augusta")]
    (a.merge b).merge c = a.merge (b.merge c) ∧
      (Value.obj ((a.merge b).merge c).toDocument).lookup? ["$set", "author", "first"] =
        some (.str "Augusta") := by
  intro author a b c
  have hbuilt : ∀ es, (Value.obj es).hasDistinctNames → (author es).Built :=
    fun _ h => .add _ _ .empty h
  have hauthor : Value.Unbroken (.single "first" (.str "Ada")) (.single "age" (.int 36))
      (.single "first" (.str "Augusta")) := Value.unbroken_obj fun _ _ y z hx _ _ => by
    obtain ⟨-, rfl⟩ := Record.eq_of_get?_single hx
    exact Value.unbroken_of_plain rfl y z
  have hunbroken : Value.Unbroken (.obj a.toDocument) (.obj b.toDocument) (.obj c.toDocument) :=
    Value.unbroken_single (Value.unbroken_single hauthor "author") "$set"
  obtain ⟨hassoc, hlast⟩ := merge_assoc (hbuilt _ rfl) (hbuilt _ rfl) (hbuilt _ rfl) hunbroken
  exact ⟨hassoc, hlast _ _ rfl rfl⟩

/-- **A plain value between two objects breaks the law.**  From the left the value 5 has replaced
the first object before the third comes; from the right it is gone before it meets the first. -/
theorem merge_plain_between :
    ∃ a b c : UpdateDocument, a.Built ∧ b.Built ∧ c.Built ∧
      (Value.obj ((a.merge b).merge c).toDocument).lookup? ["$set", "x", "p"] = none ∧
      (Value.obj (a.merge (b.merge c)).toDocument).lookup? ["$set", "x", "p"] = some (.int 1) :=
  ⟨single "$set" "x" (.obj [("p", .int 1)]), single "$set" "x" (.int 5),
    single "$set" "x" (.obj [("q", .int 2)]), .add _ _ .empty rfl, .add _ _ .empty rfl,
    .add _ _ .empty rfl, rfl, rfl⟩

end UpdateDocument

end TypedGraph

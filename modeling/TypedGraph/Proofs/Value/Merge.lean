import TypedGraph.Proofs.Filter.Ambiguity

/-!
# Proofs/Value/Merge — where deep merges may be grouped in any way

A deep merge keeps the names of both objects and merges the values of those that are in both
(`get?_mergeEntries`), and a plain value that is merged in is found in the result
(`lookup?_deepMerge`).

Three values may be merged in either grouping unless a plain value of the second one stands between
objects of the first and the third (`deepMerge_assoc`).  There the groupings differ: from the left
the plain value has replaced the first object before the third one comes, and from the right it is
gone itself before the first one is met.
-/

namespace TypedGraph

namespace Value

/-- Whether a value is an object. -/
def isObject (v : Value) : Bool := v.asObject?.isSome

/-- What a value makes of one that may be missing when it is merged in. -/
def mergeOnto : Option Value → Value → Value
  | some old, v => deepMerge old v
  | none, v => v

/-! ## Distinct names -/

theorem hasDistinctNames_obj_iff {es : Record Value} : (Value.obj es).hasDistinctNames ↔
    es.names.Nodup ∧ ∀ e ∈ es, e.2.hasDistinctNames := by
  rw [← entriesHaveDistinctNames_iff, hasDistinctNames, Bool.and_eq_true, decide_eq_true_eq]

theorem hasDistinctNames_of_get? {es : Record Value} (h : (Value.obj es).hasDistinctNames)
    {name : String} {x : Value} (hx : Record.get? es name = some x) : x.hasDistinctNames :=
  (hasDistinctNames_obj_iff.1 h).2 _ (Record.mem_of_get? hx)

/-! ## One entry after the other -/

theorem mergeEntries_cons (es : Record Value) (name : String) (v : Value) (rest : Record Value) :
    mergeEntries es ((name, v) :: rest) =
      mergeEntries (Record.put es name (mergeOnto (Record.get? es name) v)) rest := by
  rw [mergeEntries]
  cases Record.get? es name <;> rfl

/-- A plain value replaces, and is replaced. -/
theorem deepMerge_eq_right {a v : Value} (h : a.isObject = false ∨ v.isObject = false) :
    deepMerge a v = v := by
  cases v with
  | obj es =>
    cases a with
    | obj => exact absurd (h.elim id id) (by simp [isObject, asObject?])
    | _ => rfl
  | _ => cases a <;> rfl

/-- **The entries of a merge**: those of one object alone, and the merges of those of both. -/
theorem get?_mergeEntries {incoming : Record Value} (h : (Record.names incoming).Nodup)
    (es : Record Value) (name : String) :
    Record.get? (mergeEntries es incoming) name =
      match Record.get? incoming name with
      | some v => some (mergeOnto (Record.get? es name) v)
      | none => Record.get? es name := by
  induction incoming generalizing es with
  | nil => rfl
  | cons e rest ih =>
    obtain ⟨k, v⟩ := e
    obtain ⟨hk, hrest⟩ := List.nodup_cons.1 h
    rw [mergeEntries_cons, ih hrest, Record.get?]
    by_cases hname : k = name
    · subst hname
      rw [if_pos rfl, Record.get?_eq_none_iff.2 hk]
      exact Record.get?_put_self _ _ _
    · rw [if_neg hname, Record.get?_put_of_ne (Ne.symm hname)]

/-- An entry that a merge does not touch may be written before it or after it. -/
theorem mergeEntries_put_left {incoming es : Record Value} {name : String}
    (hnew : name ∉ Record.names incoming) (hhas : es.has name = true) (x : Value) :
    mergeEntries (Record.put es name x) incoming =
      Record.put (mergeEntries es incoming) name x := by
  induction incoming generalizing es with
  | nil => rfl
  | cons e rest ih =>
    obtain ⟨k, v⟩ := e
    obtain ⟨hk, hrest⟩ := not_or.1 (mt List.mem_cons.2 hnew)
    have hne : k ≠ name := Ne.symm hk
    have hmem : name ∈ es.names := Record.has_iff_mem_names.1 hhas
    have hhas' : ∀ y, (Record.put es k y).has name = true := fun y =>
      Record.has_iff_mem_names.2 (Record.mem_names_put_iff.2 (.inr hmem))
    rw [mergeEntries_cons, mergeEntries_cons, Record.get?_put_of_ne hne, Record.put_comm hhas hne,
      ih hrest (hhas' _)]

/-- **An entry written before a merge** is merged in as one written after it. -/
theorem mergeEntries_put_right {incoming : Record Value} (h : (Record.names incoming).Nodup)
    (es : Record Value) (name : String) (x : Value) :
    mergeEntries es (Record.put incoming name x) =
      Record.put (mergeEntries es incoming) name (mergeOnto (Record.get? es name) x) := by
  induction incoming generalizing es with
  | nil => exact mergeEntries_cons es name x []
  | cons e rest ih =>
    obtain ⟨k, v⟩ := e
    obtain ⟨hk, hrest⟩ := List.nodup_cons.1 h
    by_cases hname : k = name
    · subst hname
      have hhas : ∀ y, (Record.put es k y).has k = true := fun y =>
        Record.has_iff_mem_names.2 (Record.mem_names_put_iff.2 (.inl rfl))
      rw [Record.put, if_pos rfl, mergeEntries_cons, mergeEntries_cons,
        ← mergeEntries_put_left hk (hhas _), Record.put_put_self]
    · rw [Record.put, if_neg hname, mergeEntries_cons, mergeEntries_cons, ih hrest,
        Record.get?_put_of_ne (Ne.symm hname)]

/-- Entries that are merged into nothing are as they were. -/
theorem mergeEntries_nil_left {incoming : Record Value} (h : (Record.names incoming).Nodup) :
    mergeEntries [] incoming = incoming := by
  have happend : ∀ (incoming es : Record Value), (Record.names incoming).Nodup →
      (∀ name ∈ Record.names incoming, name ∉ Record.names es) →
        mergeEntries es incoming = es ++ incoming := by
    intro incoming
    induction incoming with
    | nil => exact fun es _ _ => (List.append_nil es).symm
    | cons e rest ih =>
      obtain ⟨name, v⟩ := e
      intro es hnodup hnew
      obtain ⟨hname, hrest⟩ := List.nodup_cons.1 hnodup
      have hnone := hnew name List.mem_cons_self
      have hput : Record.put es name v = es ++ [(name, v)] :=
        Record.put_of_names_ne fun e he heq => hnone (heq ▸ List.mem_map_of_mem he)
      have hnew' : ∀ other ∈ Record.names rest, other ∉ Record.names (es ++ [(name, v)]) := by
        intro other hother hmem
        rw [← hput, Record.mem_names_put_iff] at hmem
        rcases hmem with rfl | hmem
        · exact hname hother
        · exact hnew other (List.mem_cons_of_mem _ hother) hmem
      rw [mergeEntries_cons, Record.get?_eq_none_iff.2 hnone, mergeOnto, hput, ih _ hrest hnew',
        List.append_assoc]
      rfl
  exact happend incoming [] h fun _ _ => List.not_mem_nil

theorem hasDistinctNames_put {es : Record Value} (h : (Value.obj es).hasDistinctNames)
    (name : String) {x : Value} (hx : x.hasDistinctNames) :
    (Value.obj (Record.put es name x)).hasDistinctNames := by
  rw [hasDistinctNames_obj_iff] at h ⊢
  refine ⟨Record.nodup_names_put h.1 name x, fun e he => ?_⟩
  rcases Record.eq_or_mem_of_mem_put he with rfl | he
  · exact hx
  · exact h.2 e he

theorem hasDistinctNames_deepMerge_plain {a v : Value}
    (h : a.isObject = false ∨ v.isObject = false) (hv : v.hasDistinctNames) :
    (deepMerge a v).hasDistinctNames := by
  rwa [deepMerge_eq_right h]

mutual

/-- **A merge gives no name twice** where neither of the two does. -/
theorem hasDistinctNames_deepMerge : ∀ {a v : Value}, a.hasDistinctNames → v.hasDistinctNames →
    (deepMerge a v).hasDistinctNames
  | .obj _, .obj incoming, ha, hv =>
    hasDistinctNames_mergeEntries incoming ha (hasDistinctNames_obj_iff.1 hv).2
  | .obj _, .null, _, hv | .obj _, .bool _, _, hv | .obj _, .num _, _, hv | .obj _, .str _, _, hv
  | .obj _, .arr _, _, hv => hasDistinctNames_deepMerge_plain (.inr rfl) hv
  | .null, _, _, hv | .bool _, _, _, hv | .num _, _, _, hv | .str _, _, _, hv | .arr _, _, _, hv =>
    hasDistinctNames_deepMerge_plain (.inl rfl) hv

theorem hasDistinctNames_mergeEntries : ∀ (incoming : Record Value) {es : Record Value},
    (Value.obj es).hasDistinctNames → (∀ e ∈ incoming, e.2.hasDistinctNames) →
      (Value.obj (mergeEntries es incoming)).hasDistinctNames
  | [], _, hes, _ => hes
  | (name, v) :: rest, es, hes, h => by
    have hv : v.hasDistinctNames := h _ List.mem_cons_self
    have hmerged : (mergeOnto (Record.get? es name) v).hasDistinctNames := by
      cases hold : Record.get? es name with
      | none => exact hv
      | some old => exact hasDistinctNames_deepMerge (hasDistinctNames_of_get? hes hold) hv
    rw [mergeEntries_cons]
    exact hasDistinctNames_mergeEntries rest (hasDistinctNames_put hes name hmerged)
      fun e he => h e (List.mem_cons_of_mem _ he)

end

theorem hasDistinctNames_mergeOnto {old : Option Value} {v : Value}
    (hold : ∀ x, old = some x → x.hasDistinctNames) (hv : v.hasDistinctNames) :
    (mergeOnto old v).hasDistinctNames := by
  cases old with
  | none => exact hv
  | some x => exact hasDistinctNames_deepMerge (hold x rfl) hv

/-! ## What is merged in is found again -/

/-- **A plain value that is merged in stays**: the last one wins. -/
theorem lookup?_deepMerge {z : Value} (hz : z.isObject = false) :
    ∀ {path : List String} {a c : Value}, c.hasDistinctNames → c.lookup? path = some z →
      (deepMerge a c).lookup? path = some z
  | [], a, c, _, h => by
    cases h
    rw [deepMerge_eq_right (.inr hz)]
    rfl
  | name :: path, a, c, hc, h => by
    obtain ⟨x, hx, hrest⟩ := Option.bind_eq_some_iff.1 h
    cases ha : a.isObject with
    | false => rwa [deepMerge_eq_right (.inl ha)]
    | true =>
      cases a with
      | obj as =>
        cases c with
        | obj cs =>
          have hfound := get?_mergeEntries (hasDistinctNames_obj hc).1 as name
          have hx : Record.get? cs name = some x := hx
          rw [hx] at hfound
          refine Option.bind_eq_some_iff.2 ⟨_, hfound, ?_⟩
          cases Record.get? as name with
          | none => exact hrest
          | some old => exact lookup?_deepMerge hz (hasDistinctNames_of_get? hc hx) hrest
        | _ => cases hx
      | _ => cases ha

/-! ## Groupings -/

/-- **No plain value stands between two objects**: wherever the first and the third value have an
object, the second has one as well, or nothing. -/
def Unbroken (a b c : Value) : Prop :=
  ∀ path, (a.lookup? path).any isObject → (c.lookup? path).any isObject →
    (b.lookup? path).all isObject

theorem Unbroken.of_get? {a b c x y z : Value} (h : Unbroken a b c) {name : String}
    (hx : a.get? name = some x) (hy : b.get? name = some y) (hz : c.get? name = some z) :
    Unbroken x y z := by
  have hdown : ∀ {v w : Value}, v.get? name = some w → ∀ path,
      v.lookup? (name :: path) = w.lookup? path := by
    intro v w hw path
    rw [lookup?, hw]
    rfl
  intro path
  rw [← hdown hx, ← hdown hy, ← hdown hz]
  exact h (name :: path)

theorem unbroken_obj {as bs cs : Record Value}
    (h : ∀ name x y z, Record.get? as name = some x → Record.get? bs name = some y →
      Record.get? cs name = some z → Unbroken x y z) :
    Unbroken (.obj as) (.obj bs) (.obj cs) := by
  rintro (_ | ⟨name, path⟩) ha hc
  · rfl
  · have hdown : ∀ es, (Value.obj es).lookup? (name :: path) =
        (Record.get? es name).bind (·.lookup? path) := fun _ => rfl
    rw [hdown] at ha hc ⊢
    cases hx : Record.get? as name with
    | none => rw [hx] at ha; cases ha
    | some x =>
      cases hz : Record.get? cs name with
      | none => rw [hz] at hc; cases hc
      | some z =>
        cases hy : Record.get? bs name with
        | none => rfl
        | some y =>
          rw [hx] at ha
          rw [hz] at hc
          exact h name x y z hx hy hz path ha hc

/-- Below a plain value nothing can be broken. -/
theorem unbroken_of_plain {a : Value} (h : a.isObject = false) (b c : Value) : Unbroken a b c := by
  rintro (_ | ⟨name, path⟩) ha
  · rw [lookup?, Option.any_some, h] at ha
    cases ha
  · have hnone : a.get? name = none := by
      cases a with
      | obj => cases h
      | _ => rfl
    rw [lookup?, hnone] at ha
    cases ha

theorem unbroken_single {a b c : Value} (h : Unbroken a b c) (name : String) :
    Unbroken (single name a) (single name b) (single name c) := by
  refine unbroken_obj fun other x y z hx hy hz => ?_
  obtain ⟨-, rfl⟩ := Record.eq_of_get?_single hx
  obtain ⟨-, rfl⟩ := Record.eq_of_get?_single hy
  obtain ⟨-, rfl⟩ := Record.eq_of_get?_single hz
  exact h

theorem deepMerge_assoc_plain {c : Value} (h : c.isObject = false) (a b : Value) :
    deepMerge (deepMerge a b) c = deepMerge a (deepMerge b c) := by
  rw [deepMerge_eq_right (.inr h), deepMerge_eq_right (.inr h), deepMerge_eq_right (.inr h)]

mutual

/-- **Deep merges may be grouped in any way** where no plain value stands between two objects. -/
theorem deepMerge_assoc : ∀ {a b c : Value}, b.hasDistinctNames → c.hasDistinctNames →
    Unbroken a b c → deepMerge (deepMerge a b) c = deepMerge a (deepMerge b c)
  | a, b, .obj cs, hb, hc, h => by
    cases ha : a.isObject with
    | false => rw [deepMerge_eq_right (.inl ha), deepMerge_eq_right (.inl ha)]
    | true =>
      have hobject : b.isObject := h [] ha rfl
      obtain ⟨as, rfl⟩ : ∃ as, a = .obj as := by
        cases a with
        | obj as => exact ⟨as, rfl⟩
        | _ => cases ha
      obtain ⟨bs, rfl⟩ : ∃ bs, b = .obj bs := by
        cases b with
        | obj bs => exact ⟨bs, rfl⟩
        | _ => cases hobject
      refine congrArg Value.obj (mergeEntries_assoc (hasDistinctNames_obj hb).1
        (hasDistinctNames_obj hc).1 (fun z hz => ?_) fun name _ y hy => ?_)
      · exact (hasDistinctNames_obj_iff.1 hc).2 z hz
      · exact ⟨hasDistinctNames_of_get? hb hy, fun x z hx hz => h.of_get? hx hy hz⟩
  | _, _, .null, _, _, _ | _, _, .bool _, _, _, _ | _, _, .num _, _, _, _ | _, _, .str _, _, _, _
  | _, _, .arr _, _, _, _ => deepMerge_assoc_plain rfl _ _

theorem mergeEntries_assoc : ∀ {cs as bs : Record Value}, (Record.names bs).Nodup →
    (Record.names cs).Nodup → (∀ e ∈ cs, e.2.hasDistinctNames) →
    (∀ name ∈ Record.names cs, ∀ y, Record.get? bs name = some y → y.hasDistinctNames ∧
      ∀ x z, Record.get? as name = some x → Record.get? cs name = some z → Unbroken x y z) →
    mergeEntries (mergeEntries as bs) cs = mergeEntries as (mergeEntries bs cs)
  | [], _, _, _, _, _, _ => rfl
  | (name, z) :: rest, as, bs, hbs, hcs, hdistinct, h => by
    obtain ⟨hname, hrest⟩ := List.nodup_cons.1 hcs
    have hfound : mergeOnto (Record.get? (mergeEntries as bs) name) z =
        mergeOnto (Record.get? as name) (mergeOnto (Record.get? bs name) z) := by
      rw [get?_mergeEntries hbs]
      cases hy : Record.get? bs name with
      | none => rfl
      | some y =>
        cases hx : Record.get? as name with
        | none => rfl
        | some x =>
          obtain ⟨hdistinct', hunbroken⟩ := h name List.mem_cons_self y hy
          exact deepMerge_assoc hdistinct' (hdistinct _ List.mem_cons_self)
            (hunbroken x z hx (if_pos rfl))
    rw [mergeEntries_cons, mergeEntries_cons, hfound, ← mergeEntries_put_right hbs]
    refine mergeEntries_assoc (Record.nodup_names_put hbs name _) hrest
      (fun e he => hdistinct e (List.mem_cons_of_mem _ he)) fun other hother y hy => ?_
    have hne : other ≠ name := fun heq => hname (heq ▸ hother)
    rw [Record.get?_put_of_ne hne] at hy
    obtain ⟨hdistinct', hunbroken⟩ := h other (List.mem_cons_of_mem _ hother) y hy
    exact ⟨hdistinct', fun x z hx hz => hunbroken x z hx ((if_neg (Ne.symm hne)).trans hz)⟩

end

end Value

end TypedGraph

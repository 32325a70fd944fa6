/-!
# Record — insertion-ordered maps from names

A **record** is a list of named entries, at most one for each name.  Writing to a name that is
present keeps the entry's place; a new name goes to the end.  The order of the entries is part of
a record: it is the order in which a filter is walked and a document is printed.
-/

namespace TypedGraph

universe u v

/-- A list of named entries, in the order in which the names were first written. -/
abbrev Record (α : Type u) := List (String × α)

namespace Record

variable {α : Type u} {β : Type v}

/-- The entry of a name. -/
def get? : Record α → String → Option α
  | [], _ => none
  | (k, v) :: rest, name => if k = name then some v else get? rest name

/-- Whether a name has an entry. -/
def has (r : Record α) (name : String) : Bool := (get? r name).isSome

/-- Write an entry: in place where the name is present, at the end where it is new. -/
def put : Record α → String → α → Record α
  | [], name, x => [(name, x)]
  | (k, v) :: rest, name, x => if k = name then (k, x) :: rest else (k, v) :: put rest name x

/-- The names, in order. -/
def names (r : Record α) : List String := r.map Prod.fst

/-- Write the entries of `s` into `r`, one after the other. -/
def putAll (r s : Record α) : Record α := s.foldl (fun acc (k, x) => put acc k x) r

/-- The record of a list of entries in which a name may come twice: the last entry of a name
wins, at the place of its first. -/
def ofList (entries : List (String × α)) : Record α := putAll [] entries

/-- Apply `f` to every entry. -/
def mapValues (f : α → β) (r : Record α) : Record β := r.map fun (k, x) => (k, f x)

/-- The entries before a name, its own, and those after it. -/
def split? : Record α → String → Option (Record α × α × Record α)
  | [], _ => none
  | (k, v) :: rest, name =>
    if k = name then some ([], v, rest)
    else (split? rest name).map fun (before, x, after) => ((k, v) :: before, x, after)

/-- **Take an entry out.**  The last entry moves into the gap, so that no other entry moves. -/
def swapRemove? (r : Record α) (name : String) : Option (α × Record α) :=
  (split? r name).map fun (before, x, after) =>
    match after.getLast? with
    | none => (x, before)
    | some last => (x, before ++ last :: after.dropLast)

/-! ## Reading what was written -/

@[simp] theorem get?_nil (name : String) : get? ([] : Record α) name = none := rfl

theorem eq_of_get?_single {key name : String} {x y : α} (h : get? [(key, x)] name = some y) :
    key = name ∧ x = y := by
  rw [get?] at h
  split at h
  · next hkey => exact ⟨hkey, Option.some.inj h⟩
  · cases h

theorem has_iff_mem_names {name : String} : ∀ {r : Record α}, has r name = true ↔ name ∈ names r
  | [] => ⟨nofun, nofun⟩
  | (k, _) :: rest => by
    rw [has, get?, names, List.map_cons, List.mem_cons]
    split
    · next h => simp [h]
    · next h => exact has_iff_mem_names.trans ⟨.inr, fun h' => h'.resolve_left (Ne.symm h)⟩

theorem get?_put_self (r : Record α) (name : String) (x : α) :
    get? (put r name x) name = some x := by
  induction r with
  | nil => simp [put, get?]
  | cons e rest ih =>
    obtain ⟨k, v⟩ := e
    by_cases h : k = name <;> simp [put, get?, h, ih]

theorem get?_put_of_ne {name other : String} (h : other ≠ name) (r : Record α) (x : α) :
    get? (put r name x) other = get? r other := by
  induction r with
  | nil => simp [put, get?, Ne.symm h]
  | cons e rest ih =>
    obtain ⟨k, v⟩ := e
    by_cases hk : k = name
    · subst hk
      simp [put, get?, Ne.symm h]
    · simp [put, get?, hk, ih]

/-- Writing to a present name keeps every name in its place. -/
theorem names_put_of_has {r : Record α} {name : String} (h : r.has name = true) (x : α) :
    names (put r name x) = names r := by
  induction r with
  | nil => simp [has] at h
  | cons e rest ih =>
    obtain ⟨k, v⟩ := e
    by_cases hk : k = name
    · simp [put, names, hk]
    · have := ih (by simpa [has, get?, hk] using h)
      simpa [put, names, hk] using this

/-- A new name goes to the end. -/
theorem names_put_of_not_has {r : Record α} {name : String} (h : r.has name = false) (x : α) :
    names (put r name x) = names r ++ [name] := by
  induction r with
  | nil => simp [put, names]
  | cons e rest ih =>
    obtain ⟨k, v⟩ := e
    by_cases hk : k = name
    · simp [has, get?, hk] at h
    · have := ih (by simpa [has, get?, hk] using h)
      simpa [put, names, hk] using this

theorem get?_eq_none_iff {r : Record α} {name : String} : get? r name = none ↔ name ∉ names r := by
  rw [← has_iff_mem_names, has]
  simp

theorem put_ne_nil (r : Record α) (name : String) (x : α) : put r name x ≠ [] := by
  cases r with
  | nil => exact List.cons_ne_nil _ _
  | cons e rest =>
    rw [put]
    split <;> exact List.cons_ne_nil _ _

/-- A new name goes to the end. -/
theorem put_of_names_ne {name : String} {x : α} :
    ∀ {r : Record α}, (∀ e ∈ r, e.1 ≠ name) → put r name x = r ++ [(name, x)]
  | [], _ => rfl
  | (k, v) :: r, h => by
    rw [put, if_neg (h _ List.mem_cons_self),
      put_of_names_ne fun e he => h e (List.mem_cons_of_mem _ he), List.cons_append]

/-- An entry of a record that was written to is the one written, or was there before. -/
theorem eq_or_mem_of_mem_put {name : String} {x : α} {e : String × α} :
    ∀ {r : Record α}, e ∈ put r name x → e = (name, x) ∨ e ∈ r
  | [], h => .inl (List.mem_singleton.1 h)
  | (k, v) :: r, h => by
    rw [put] at h
    split at h
    · next hk =>
      subst hk
      exact (List.mem_cons.1 h).imp_right (List.mem_cons_of_mem _)
    · rcases List.mem_cons.1 h with rfl | h
      · exact .inr List.mem_cons_self
      · exact (eq_or_mem_of_mem_put h).imp_right (List.mem_cons_of_mem _)

/-! ## Changing every entry -/

@[simp] theorem names_mapValues (f : α → β) (r : Record α) :
    names (mapValues f r) = names r := by
  simp [names, mapValues]

theorem get?_mapValues (f : α → β) (r : Record α) (name : String) :
    get? (mapValues f r) name = (get? r name).map f := by
  induction r with
  | nil => rfl
  | cons e rest ih =>
    obtain ⟨k, v⟩ := e
    by_cases h : k = name
    · simp [mapValues, get?, h]
    · simpa [mapValues, get?, h] using ih

theorem mapValues_put (f : α → β) (r : Record α) (name : String) (x : α) :
    mapValues f (put r name x) = put (mapValues f r) name (f x) := by
  induction r with
  | nil => rfl
  | cons e rest ih =>
    obtain ⟨k, v⟩ := e
    by_cases h : k = name
    · simp [mapValues, put, h]
    · simpa [mapValues, put, h] using ih

/-! ## Writing again -/

/-- Of two entries written under one name the second stays. -/
theorem put_put_self (r : Record α) (name : String) (x y : α) :
    put (put r name x) name y = put r name y := by
  induction r with
  | nil => simp [put]
  | cons e rest ih =>
    obtain ⟨k, v⟩ := e
    by_cases h : k = name <;> simp [put, h, ih]

/-- A present name may be written before another one or after it. -/
theorem put_comm {r : Record α} {name other : String} (h : r.has name = true)
    (hne : other ≠ name) (x y : α) :
    put (put r name x) other y = put (put r other y) name x := by
  induction r with
  | nil => simp [has] at h
  | cons e rest ih =>
    obtain ⟨k, v⟩ := e
    by_cases hk : k = name
    · subst hk
      simp [put, Ne.symm hne]
    · have := ih (by simpa [has, get?, hk] using h)
      by_cases ho : k = other
      · subst ho
        simp [put, hk]
      · simp [put, hk, ho, this]

theorem mem_names_put_iff {r : Record α} {name other : String} {x : α} :
    other ∈ names (put r name x) ↔ other = name ∨ other ∈ names r := by
  rw [← has_iff_mem_names, ← has_iff_mem_names, has, has]
  by_cases h : other = name
  · simp [h, get?_put_self]
  · simp [h, get?_put_of_ne h]

/-- Writing gives no name twice. -/
theorem nodup_names_put {r : Record α} (h : (names r).Nodup) (name : String) (x : α) :
    (names (put r name x)).Nodup := by
  cases hhas : r.has name with
  | true => rwa [names_put_of_has hhas]
  | false =>
    have hnew : ∀ other ∈ names r, other ≠ name := by
      rintro other hmem rfl
      rw [has_iff_mem_names.2 hmem] at hhas
      cases hhas
    rw [names_put_of_not_has hhas]
    exact List.nodup_append.2 ⟨h, List.nodup_cons.2 ⟨List.not_mem_nil, List.nodup_nil⟩,
      fun other hother x hx => List.mem_singleton.1 hx ▸ hnew other hother⟩

/-! ## Writing several entries -/

theorem putAll_append (r s s' : Record α) : putAll r (s ++ s') = putAll (putAll r s) s' :=
  List.foldl_append

theorem get?_putAll_of_not_mem {name : String} :
    ∀ {s : Record α}, name ∉ names s → ∀ r, get? (putAll r s) name = get? r name
  | [], _, _ => rfl
  | (k, x) :: s, h, r => by
    obtain ⟨hk, hs⟩ := not_or.1 (mt List.mem_cons.2 h)
    exact (get?_putAll_of_not_mem hs (put r k x)).trans (get?_put_of_ne hk r x)

/-- **The last entry of a name wins.** -/
theorem get?_putAll_last (r before : Record α) {after : Record α} {name : String}
    (h : name ∉ names after) (x : α) :
    get? (putAll r (before ++ (name, x) :: after)) name = some x := by
  have hput : putAll (putAll r before) ((name, x) :: after) =
      putAll (put (putAll r before) name x) after := rfl
  rw [putAll_append, hput, get?_putAll_of_not_mem h, get?_put_self]

theorem nodup_names_putAll {r : Record α} (h : (names r).Nodup) (s : Record α) :
    (names (putAll r s)).Nodup := by
  induction s generalizing r with
  | nil => exact h
  | cons e s ih => exact ih (nodup_names_put h e.1 e.2)

theorem mem_names_putAll {name : String} :
    ∀ {s r : Record α}, name ∈ names (putAll r s) → name ∈ names r ∨ name ∈ names s
  | [], _, h => .inl h
  | (k, x) :: s, r, h => by
    rcases mem_names_putAll (s := s) h with h | h
    · rcases mem_names_put_iff.1 h with rfl | h
      · exact .inr List.mem_cons_self
      · exact .inl h
    · exact .inr (List.mem_cons_of_mem _ h)

/-- Where no name comes twice, an entry that is written is found. -/
theorem get?_putAll {s : Record α} (h : (names s).Nodup) (r : Record α) {name : String} {x : α}
    (hx : get? s name = some x) : get? (putAll r s) name = some x := by
  induction s generalizing r with
  | nil => cases hx
  | cons e s ih =>
    obtain ⟨k, y⟩ := e
    obtain ⟨hk, hs⟩ := List.nodup_cons.1 h
    rw [get?] at hx
    split at hx
    · next hname =>
      subst hname
      cases hx
      exact get?_putAll_last r [] hk x
    · exact ih hs (put r k y) hx

/-! ## Records with the same names -/

theorem names_put_congr {r s : Record α} (h : names r = names s) (name : String) (x y : α) :
    names (put r name x) = names (put s name y) := by
  have hhas : r.has name = s.has name := by
    rw [Bool.eq_iff_iff, has_iff_mem_names, has_iff_mem_names, h]
  cases hr : r.has name with
  | true => rw [names_put_of_has hr, names_put_of_has (hhas ▸ hr), h]
  | false => rw [names_put_of_not_has hr, names_put_of_not_has (hhas ▸ hr), h]

/-- The names that are written decide on the names that are there, and on their order. -/
theorem names_putAll_congr : ∀ {s s' r r' : Record α}, names s = names s' → names r = names r' →
    names (putAll r s) = names (putAll r' s')
  | [], [], _, _, _, hr => hr
  | e :: s, e' :: s', r, r', hs, hr => by
    obtain ⟨hname, hrest⟩ := List.cons.inj hs
    have hrest : names s = names s' := hrest
    have hput : names (put r e.1 e.2) = names (put r' e'.1 e'.2) :=
      hname ▸ names_put_congr hr e.1 e.2 e'.2
    have hall := names_putAll_congr hrest hput
    exact hall

/-- **A record is given by its names and what is found under each.** -/
theorem ext_of_names : ∀ {r s : Record α}, names r = names s → (names r).Nodup →
    (∀ name ∈ names r, get? r name = get? s name) → r = s
  | [], [], _, _, _ => rfl
  | (k, x) :: r, (l, y) :: s, hnames, hnodup, h => by
    obtain ⟨rfl, hrest⟩ := List.cons.inj hnames
    obtain ⟨hk, hr⟩ := List.nodup_cons.1 hnodup
    have hx := h k List.mem_cons_self
    rw [get?, if_pos rfl, get?, if_pos rfl] at hx
    rw [Option.some.inj hx, ext_of_names hrest hr fun name hname => ?_]
    have hne : k ≠ name := fun heq => hk (heq ▸ hname)
    have hfound := h name (List.mem_cons_of_mem _ hname)
    rwa [get?, if_neg hne, get?, if_neg hne] at hfound

end Record

end TypedGraph

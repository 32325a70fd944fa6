import Mathlib.Data.List.Forall2

/-!
# Proofs/Outcome — results that may be errors

A computation of several steps is accepted where each of its steps is.  Two computations are
**parallel** where they are the same error, or results that are related; steps that are parallel
make parallel computations.
-/

namespace TypedGraph

theorem bind_eq_ok {ε α β : Type} {x : Except ε α} {f : α → Except ε β} {b : β} :
    x >>= f = .ok b ↔ ∃ a, x = .ok a ∧ f a = .ok b := by
  cases x with
  | error e => exact ⟨nofun, nofun⟩
  | ok a => exact ⟨fun h => ⟨a, rfl, h⟩, fun ⟨_, ha, h⟩ => by cases ha; exact h⟩

theorem bind_eq_error {ε α β : Type} {x : Except ε α} {f : α → Except ε β} {e : ε} :
    x >>= f = .error e ↔ x = .error e ∨ ∃ a, x = .ok a ∧ f a = .error e := by
  cases x with
  | error e' => exact ⟨fun h => .inl (Except.error.inj h ▸ rfl), fun h => h.elim
      (fun h => Except.error.inj h ▸ rfl) nofun⟩
  | ok a => exact ⟨fun h => .inr ⟨a, rfl, h⟩, fun h => h.elim nofun
      fun ⟨_, ha, h⟩ => by cases ha; exact h⟩

theorem map_eq_ok {ε α β : Type} {x : Except ε α} {f : α → β} {b : β} :
    x.map f = .ok b ↔ ∃ a, x = .ok a ∧ f a = b := by
  cases x with
  | error e => exact ⟨nofun, nofun⟩
  | ok a => exact ⟨fun h => ⟨a, rfl, Except.ok.inj h⟩, fun ⟨_, ha, h⟩ => by cases ha; exact h ▸ rfl⟩

theorem map_eq_error {ε α β : Type} {x : Except ε α} {f : α → β} {e : ε} :
    x.map f = .error e ↔ x = .error e := by
  cases x with
  | error e' => exact ⟨fun h => Except.error.inj h ▸ rfl, fun h => Except.error.inj h ▸ rfl⟩
  | ok a => exact iff_of_false nofun nofun

theorem mapM_congr {α β ε : Type} {f g : α → Except ε β} :
    ∀ {as : List α}, (∀ a ∈ as, f a = g a) → as.mapM f = as.mapM g
  | [], _ => rfl
  | a :: as, h => by
    rw [List.mapM_cons, List.mapM_cons, h a List.mem_cons_self,
      mapM_congr fun b hb => h b (List.mem_cons_of_mem a hb)]

theorem mapM_cons_eq_ok {α β ε : Type} {f : α → Except ε β} {a : α} {as : List α} {bs : List β} :
    (a :: as).mapM f = .ok bs ↔
      ∃ c cs, f a = .ok c ∧ as.mapM f = .ok cs ∧ bs = c :: cs := by
  rw [List.mapM_cons, bind_eq_ok]
  constructor
  · rintro ⟨c, hc, h⟩
    obtain ⟨cs, hcs, h⟩ := bind_eq_ok.1 h
    exact ⟨c, cs, hc, hcs, (Except.ok.inj h).symm⟩
  · rintro ⟨c, cs, hc, hcs, rfl⟩
    exact ⟨c, hc, bind_eq_ok.2 ⟨cs, hcs, rfl⟩⟩

/-- Going through a list fails at its head, or behind it. -/
theorem mapM_cons_eq_error {α β ε : Type} {f : α → Except ε β} {a : α} {as : List α} {e : ε} :
    (a :: as).mapM f = .error e ↔
      f a = .error e ∨ (∃ b, f a = .ok b) ∧ as.mapM f = .error e := by
  rw [List.mapM_cons, bind_eq_error]
  refine or_congr_right ⟨?_, ?_⟩
  · rintro ⟨b, hb, h⟩
    rcases bind_eq_error.1 h with h | ⟨bs, -, h⟩
    · exact ⟨⟨b, hb⟩, h⟩
    · cases h
  · rintro ⟨⟨b, hb⟩, h⟩
    exact ⟨b, hb, bind_eq_error.2 (.inl h)⟩

/-- **Going through a list fails with its first error**, and nothing behind it is looked at. -/
theorem mapM_eq_error {α β ε : Type} {f : α → Except ε β} {as : List α} {e : ε} :
    as.mapM f = .error e ↔ ∃ before a after, as = before ++ a :: after ∧
      (∀ b ∈ before, ∃ c, f b = .ok c) ∧ f a = .error e := by
  induction as with
  | nil =>
    refine iff_of_false nofun ?_
    rintro ⟨before, a, after, h, -⟩
    exact List.append_ne_nil_of_right_ne_nil before (List.cons_ne_nil a after) h.symm
  | cons a as ih =>
    rw [mapM_cons_eq_error, ih]
    constructor
    · rintro (h | ⟨hok, before, a', after, rfl, hbefore, h⟩)
      · exact ⟨[], a, as, rfl, List.forall_mem_nil _, h⟩
      · exact ⟨a :: before, a', after, rfl, List.forall_mem_cons.2 ⟨hok, hbefore⟩, h⟩
    · rintro ⟨before, a', after, heq, hbefore, h⟩
      cases before with
      | nil =>
        cases heq
        exact .inl h
      | cons b before =>
        cases heq
        obtain ⟨hok, hbefore⟩ := List.forall_mem_cons.1 hbefore
        exact .inr ⟨hok, before, a', after, rfl, hbefore, h⟩

theorem exists_ok_of_mapM {α β ε : Type} {f : α → Except ε β} : ∀ {as : List α} {bs : List β},
    as.mapM f = .ok bs → ∀ a ∈ as, ∃ b ∈ bs, f a = .ok b
  | [], _, _, a, ha => nomatch ha
  | _ :: _, _, h, a, ha => by
    obtain ⟨c, cs, hc, hcs, rfl⟩ := mapM_cons_eq_ok.1 h
    rcases List.mem_cons.1 ha with rfl | ha
    · exact ⟨c, List.mem_cons_self, hc⟩
    · obtain ⟨b, hb, hok⟩ := exists_ok_of_mapM hcs a ha
      exact ⟨b, List.mem_cons_of_mem _ hb, hok⟩

theorem exists_of_mem_mapM {α β ε : Type} {f : α → Except ε β} : ∀ {as : List α} {bs : List β},
    as.mapM f = .ok bs → ∀ b ∈ bs, ∃ a ∈ as, f a = .ok b
  | [], _, h, b, hb => by
    cases h
    exact nomatch hb
  | a :: _, _, h, b, hb => by
    obtain ⟨c, cs, hc, hcs, rfl⟩ := mapM_cons_eq_ok.1 h
    rcases List.mem_cons.1 hb with rfl | hb
    · exact ⟨a, List.mem_cons_self, hc⟩
    · obtain ⟨a, ha, hok⟩ := exists_of_mem_mapM hcs b hb
      exact ⟨a, List.mem_cons_of_mem _ ha, hok⟩

theorem exists_mapM_eq_ok {α β ε : Type} {f : α → Except ε β} : ∀ {as : List α},
    (∀ a ∈ as, ∃ b, f a = .ok b) → ∃ bs, as.mapM f = .ok bs
  | [], _ => ⟨[], rfl⟩
  | a :: _, h => by
    obtain ⟨b, hb⟩ := h a List.mem_cons_self
    obtain ⟨bs, hbs⟩ := exists_mapM_eq_ok fun x hx => h x (List.mem_cons_of_mem _ hx)
    exact ⟨b :: bs, mapM_cons_eq_ok.2 ⟨b, bs, hb, hbs, rfl⟩⟩

/-- What every step preserves holds in the end. -/
theorem foldlM_preserves {α β ε : Type} {f : β → α → Except ε β} {P : β → Prop} :
    ∀ {as : List α} {b b' : β}, (∀ b, ∀ a ∈ as, ∀ b', P b → f b a = .ok b' → P b') →
      as.foldlM f b = .ok b' → P b → P b'
  | [], _, _, _, h, hb => by
    cases h
    exact hb
  | a :: as, b, _, hstep, h, hb => by
    rw [List.foldlM_cons] at h
    obtain ⟨c, hc, h⟩ := bind_eq_ok.1 h
    exact foldlM_preserves (fun b a ha => hstep b a (List.mem_cons_of_mem _ ha)) h
      (hstep b a List.mem_cons_self c hb hc)

theorem perm_flatMap_of_mapM {α β γ ε : Type} {f : α → Except ε β} {g : β → List γ}
    {h : α → List γ} : ∀ {as : List α} {bs : List β}, as.mapM f = .ok bs →
      (∀ a ∈ as, ∀ b, f a = .ok b → (g b).Perm (h a)) → (bs.flatMap g).Perm (as.flatMap h)
  | [], _, hbs, _ => by
    cases hbs
    exact .refl _
  | a :: as, _, hbs, hall => by
    obtain ⟨c, cs, hc, hcs, rfl⟩ := mapM_cons_eq_ok.1 hbs
    rw [List.flatMap_cons, List.flatMap_cons]
    exact (hall a List.mem_cons_self c hc).append
      (perm_flatMap_of_mapM hcs fun x hx => hall x (List.mem_cons_of_mem _ hx))

/-! ## Parallel computations -/

/-- **Two computations are parallel**: the same error, or related results. -/
inductive Parallel {ε α β : Type} (R : α → β → Prop) : Except ε α → Except ε β → Prop where
  | error (e : ε) : Parallel R (.error e) (.error e)
  | ok {a : α} {b : β} (h : R a b) : Parallel R (.ok a) (.ok b)

namespace Parallel

variable {ε α β γ δ : Type} {R : α → β → Prop} {S : γ → δ → Prop} {x : Except ε α} {y : Except ε β}

/-- A computation is parallel to itself. -/
theorem refl : ∀ x : Except ε α, Parallel Eq x x
  | .error e => .error e
  | .ok _ => .ok rfl

/-- The results of parallel computations are related. -/
theorem related {a : α} {b : β} (h : Parallel R (.ok a : Except ε α) (.ok b)) : R a b := by
  cases h with
  | ok h => exact h

/-- What is parallel to an error is the same error. -/
theorem eq_error {e : ε} (h : Parallel R x (.error e)) : x = .error e := by
  cases h
  rfl

/-- Parallel computations fail with the same errors. -/
theorem eq_error_iff (h : Parallel R x y) {e : ε} : x = .error e ↔ y = .error e := by
  cases h with
  | error e' => exact ⟨fun h => Except.error.inj h ▸ rfl, fun h => Except.error.inj h ▸ rfl⟩
  | ok h => exact iff_of_false nofun nofun

/-- What is parallel to a result has one. -/
theorem exists_ok {b : β} (h : Parallel R x (.ok b)) : ∃ a, x = .ok a ∧ R a b := by
  cases h with
  | ok h => exact ⟨_, rfl, h⟩

/-- What is known of the results of parallel computations relates them. -/
theorem refine (h : Parallel R x y) {T : α → β → Prop}
    (hT : ∀ a b, x = .ok a → y = .ok b → R a b → T a b) : Parallel T x y := by
  cases h with
  | error e => exact .error e
  | ok h => exact .ok (hT _ _ rfl rfl h)

theorem bind (h : Parallel R x y) {f : α → Except ε γ} {g : β → Except ε δ}
    (hf : ∀ a b, x = .ok a → y = .ok b → R a b → Parallel S (f a) (g b)) :
    Parallel S (x >>= f) (y >>= g) := by
  cases h with
  | error e => exact .error e
  | ok h => exact hf _ _ rfl rfl h

/-- A step that is always accepted may follow on one side only. -/
theorem bind_left (h : Parallel R x y) {f : α → Except ε γ} {T : γ → β → Prop}
    (hf : ∀ a b, x = .ok a → R a b → ∃ c, f a = .ok c ∧ T c b) : Parallel T (x >>= f) y := by
  cases h with
  | error e => exact .error e
  | ok h =>
    obtain ⟨c, hc, hcb⟩ := hf _ _ rfl h
    exact (congrArg (Parallel T · _) hc).mpr (.ok hcb)

theorem map_left (h : Parallel R x y) {f : α → γ} {T : γ → β → Prop}
    (hf : ∀ a b, R a b → T (f a) b) : Parallel T (x.map f) y := by
  cases h with
  | error e => exact .error e
  | ok h => exact .ok (hf _ _ h)

theorem map_right (h : Parallel R x y) {g : β → δ} {T : α → δ → Prop}
    (hg : ∀ a b, R a b → T a (g b)) : Parallel T x (y.map g) := by
  cases h with
  | error e => exact .error e
  | ok h => exact .ok (hg _ _ h)

theorem map (h : Parallel R x y) {f : α → γ} {g : β → δ} (hf : ∀ a b, R a b → S (f a) (g b)) :
    Parallel S (x.map f) (y.map g) := by
  cases h with
  | error e => exact .error e
  | ok h => exact .ok (hf _ _ h)

/-- Parallel computations that go on to the same results are the same. -/
theorem bind_eq_map (h : Parallel R x y) {f : α → Except ε γ} {g : β → γ}
    (hf : ∀ a b, R a b → f a = .ok (g b)) : x >>= f = y.map g := by
  cases h with
  | error e => rfl
  | ok h => exact hf _ _ h

theorem mapM {as : List γ} {f : γ → Except ε α} {g : γ → Except ε β}
    (h : ∀ c ∈ as, Parallel R (f c) (g c)) :
    Parallel (List.Forall₂ R) (as.mapM f) (as.mapM g) := by
  induction as with
  | nil => exact .ok .nil
  | cons c as ih =>
    rw [List.mapM_cons, List.mapM_cons]
    refine (h c List.mem_cons_self).bind fun a b _ _ hab => ?_
    refine (ih fun d hd => h d (List.mem_cons_of_mem _ hd)).bind fun as bs _ _ hasbs => ?_
    exact .ok (.cons hab hasbs)

end Parallel

end TypedGraph

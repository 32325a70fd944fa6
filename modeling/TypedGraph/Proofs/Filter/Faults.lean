import TypedGraph.Filter.Predicate
import TypedGraph.Proofs.Filter.Reading
import TypedGraph.Proofs.Outcome

/-!
# Proofs/Filter/Faults — where a filter is at fault

An expression that does not fit its type is read as conditions with faults among them.  The
**verdict** on conditions is the first fault in them, at any depth; whatever is made of the
conditions, it is what they fail with.  The verdict on a filter does not depend on where the filter
is read (`verdictOf_read_eq`), it is no fault in putting conditions on elements together
(`isElementFault_of_verdictOf_read`), and the filter is checked for nothing else in memory where its
patterns are accepted (`checkAll_eq_verdictOf`).
-/

namespace TypedGraph

namespace Condition

mutual

/-- Whether a condition is at fault; the first fault in it, if so. -/
def verdict : Condition → Except Error Unit
  | .elements _ _ _ inner => verdictOf inner
  | .fault e => .error e
  | _ => .ok ()
termination_by structural c => c

/-- **The verdict on conditions**: the first fault in them. -/
def verdictOf : List Condition → Except Error Unit
  | [] => .ok ()
  | c :: cs => verdict c >>= fun _ => verdictOf cs
termination_by structural cs => cs

end

variable {patterns : PatternEngine}

mutual

/-- Whether a library accepts all patterns of a condition, at any depth. -/
def Accepted (patterns : PatternEngine) : Condition → Prop
  | .matching _ pattern => patterns.accepts pattern
  | .elements _ _ _ inner => AllAccepted patterns inner
  | _ => True
termination_by structural c => c

/-- Whether a library accepts all patterns of several conditions. -/
def AllAccepted (patterns : PatternEngine) : List Condition → Prop
  | [] => True
  | c :: cs => Accepted patterns c ∧ AllAccepted patterns cs
termination_by structural cs => cs

end

theorem allAccepted_iff : ∀ cs : List Condition,
    AllAccepted patterns cs ↔ ∀ c ∈ cs, c.Accepted patterns
  | [] => by simp [AllAccepted]
  | c :: cs => by simp [AllAccepted, allAccepted_iff cs]

mutual

/-- Where its patterns are accepted, a condition is checked for faults only. -/
theorem check_eq_verdict : ∀ {c : Condition}, c.Accepted patterns → c.check patterns = c.verdict
  | .present .., _ | .isList .., _ | .equals .., _ | .differs .., _ | .compares .., _
  | .endsWith .., _ | .length .., _ | .isEmpty .., _ | .fault _, _ => rfl
  | .matching _ _, h => if_pos h
  | .elements .., h => checkAll_eq_verdictOf h

/-- **Where their patterns are accepted**, conditions are checked for faults only. -/
theorem checkAll_eq_verdictOf : ∀ {cs : List Condition}, AllAccepted patterns cs →
    checkAll patterns cs = verdictOf cs
  | [], _ => rfl
  | c :: cs, h => by
    rw [checkAll, verdictOf, check_eq_verdict h.1, checkAll_eq_verdictOf h.2]

end

theorem verdictOf_congr {cs cs' : List Condition}
    (h : List.Forall₂ (fun c c' => c.verdict = c'.verdict) cs cs') :
    verdictOf cs = verdictOf cs' := by
  induction h with
  | nil => rfl
  | cons hc _ ih => rw [verdictOf, verdictOf, hc, ih]

/-- The verdict on conditions is that on one of them. -/
theorem exists_verdict_eq_error {e : Error} : ∀ {cs : List Condition},
    verdictOf cs = .error e → ∃ c ∈ cs, c.verdict = .error e
  | [], h => nomatch h
  | c :: cs, h => by
    rcases bind_eq_error.1 h with h | ⟨_, -, h⟩
    · exact ⟨c, List.mem_cons_self, h⟩
    · obtain ⟨c', hc', h⟩ := exists_verdict_eq_error h
      exact ⟨c', List.mem_cons_of_mem _ hc', h⟩

theorem verdict_placed {p : FieldPath} {c : Condition} : (c.placed p).verdict = c.verdict := by
  cases c <;> rfl

end Condition

namespace Filter

open Condition (AllAccepted verdictOf verdictOf_congr verdict_placed allAccepted_iff)

variable {ctx : Context}

theorem verdict_typeCondition (t : TypeInfo) (path : FieldPath) (names : List String)
    (negated : Bool) : (typeCondition ctx t path names negated).verdict = .ok () :=
  typeCondition_cases rfl rfl rfl

/-- The verdict on a filter on a plain value does not depend on where the value lies. -/
theorem verdictOf_readScalar_eq (p q : FieldPath) (v : Value) :
    verdictOf (readScalar p v) = verdictOf (readScalar q v) := by
  rw [readScalar_placed p, readScalar_placed q]
  refine verdictOf_congr ?_
  rw [List.forall₂_map_left_iff, List.forall₂_map_right_iff, List.forall₂_same]
  exact fun _ _ => verdict_placed.trans verdict_placed.symm

/-- **The verdict on a filter does not depend on where it is read.** -/
theorem verdictOf_read_eq (t : TypeInfo) (a b : FieldPath) (filter : Value) :
    verdictOf (read ctx t a filter) = verdictOf (read ctx t b filter) := by
  refine verdictOf_congr ((allRead_read ctx.names_true (fun _ _ => trivial) filter a b).imp
    fun c c' h => ?_)
  cases h with
  | value => rw [verdict_placed, verdict_placed]
  | type => rw [verdict_typeCondition, verdict_typeCondition]
  | values => exact verdictOf_readScalar_eq _ _ _
  | objects _ _ _ _ hv => exact verdictOf_read_eq _ _ _ _
  | _ => rfl
termination_by sizeOf filter
decreasing_by exact hv.sizeOf_lt

theorem Asks.isElementFault_of_verdict {path : FieldPath} {v : Value} {c : Condition} {e : Error}
    (h : Asks path v c) (hc : c.verdict = .error e) : e.isElementFault = false := by
  cases h with
  | fault he =>
    cases hc
    exact he
  | _ => cases hc

/-- **A filter is at fault for what it says**, never for the way conditions on elements are put
together. -/
theorem isElementFault_of_verdictOf_read {t : TypeInfo} {path : FieldPath} {filter : Value}
    {e : Error} (h : verdictOf (read ctx t path filter) = .error e) : e.isElementFault = false := by
  obtain ⟨c, hc, h⟩ := Condition.exists_verdict_eq_error h
  obtain ⟨c', hreads⟩ := exists_reads ctx.names_true (fun _ _ => trivial) hc
  clear hc
  cases hreads with
  | value _ _ _ hc =>
    exact (asks_of_mem_readScalar (placed_mem_readScalar hc _)).isElementFault_of_verdict h
  | type =>
    rw [verdict_typeCondition] at h
    cases h
  | values =>
    obtain ⟨c, hc, h⟩ := Condition.exists_verdict_eq_error h
    exact (asks_of_mem_readScalar hc).isElementFault_of_verdict h
  | objects _ _ _ _ hv => exact isElementFault_of_verdictOf_read h
  | fault he =>
    cases h
    exact he
  | _ => cases h
termination_by sizeOf filter
decreasing_by exact hv.sizeOf_lt

/-! ## Patterns -/

variable {patterns : PatternEngine}

/-- **A library accepts all patterns within a filter.** -/
def PatternsAccepted (patterns : PatternEngine) (filter : Value) : Prop :=
  ∀ es pattern, Value.Within (.obj es) filter → ("matches", .str pattern) ∈ es →
    patterns.accepts pattern

theorem PatternsAccepted.of_within {filter v : Value} (h : PatternsAccepted patterns filter)
    (hv : v.Within filter) : PatternsAccepted patterns v :=
  fun es pattern hes => h es pattern (hes.trans hv)

@[simp] theorem patternsAccepted_null : PatternsAccepted patterns .null :=
  fun _ _ h => nomatch h

@[simp] theorem patternsAccepted_bool (b : Bool) : PatternsAccepted patterns (.bool b) :=
  fun _ _ h => nomatch h

@[simp] theorem patternsAccepted_num (n : Number) : PatternsAccepted patterns (.num n) :=
  fun _ _ h => nomatch h

@[simp] theorem patternsAccepted_str (s : String) : PatternsAccepted patterns (.str s) :=
  fun _ _ h => nomatch h

@[simp] theorem patternsAccepted_arr {xs : List Value} :
    PatternsAccepted patterns (.arr xs) ↔ ∀ x ∈ xs, PatternsAccepted patterns x := by
  refine ⟨fun h x hx => h.of_within (.item hx (.self x)), fun h es pattern hes => ?_⟩
  cases hes with
  | item hx hes => exact h _ hx es pattern hes

@[simp] theorem patternsAccepted_obj {entries : Record Value} :
    PatternsAccepted patterns (.obj entries) ↔
      (∀ pattern, ("matches", .str pattern) ∈ entries → patterns.accepts pattern) ∧
        ∀ e ∈ entries, PatternsAccepted patterns e.2 := by
  constructor
  · intro h
    exact ⟨fun pattern => h entries pattern (.self _), fun e he =>
      h.of_within (.entry he (.self e.2))⟩
  · rintro ⟨hown, hentries⟩ es pattern hes
    cases hes with
    | self => exact hown pattern
    | entry he hes => exact hentries _ he es pattern hes

theorem accepted_typeCondition (t : TypeInfo) (path : FieldPath) (names : List String)
    (negated : Bool) : (typeCondition ctx t path names negated).Accepted patterns :=
  typeCondition_cases trivial trivial trivial

theorem Asks.accepted {path : FieldPath} {v : Value} {c : Condition} (h : Asks path v c)
    (hv : PatternsAccepted patterns v) : c.Accepted patterns := by
  cases h with
  | matching hobj hmem =>
    subst hobj
    exact hv _ _ (.self _) hmem
  | _ => exact trivial

/-- **A filter has only patterns that it gives.** -/
theorem PatternsAccepted.allAccepted_read {filter : Value} (h : PatternsAccepted patterns filter)
    (t : TypeInfo) (path : FieldPath) : AllAccepted patterns (read ctx t path filter) := by
  refine (allAccepted_iff _).2 fun c hc => ?_
  obtain ⟨c', hreads⟩ := exists_reads ctx.names_true (fun _ _ => trivial) hc
  clear hc
  cases hreads with
  | value _ _ hv hc =>
    exact (asks_of_mem_readScalar (placed_mem_readScalar hc _)).accepted (h.of_within hv.within)
  | type => exact accepted_typeCondition _ _ _ _
  | values _ _ _ hv =>
    exact (allAccepted_iff _).2 fun c hc =>
      (asks_of_mem_readScalar hc).accepted (h.of_within hv.within)
  | objects _ _ _ _ hv => exact (h.of_within hv.within).allAccepted_read _ _
  | _ => exact trivial
termination_by sizeOf filter
decreasing_by exact hv.sizeOf_lt

end Filter

end TypedGraph

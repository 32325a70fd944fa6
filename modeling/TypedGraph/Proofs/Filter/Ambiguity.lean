import Mathlib.Data.List.Nodup
import TypedGraph.Proofs.Filter.Fitting
import TypedGraph.Query.Operator

/-!
# Proofs/Filter/Ambiguity — no operator is asked of an element twice

The operators on a plain element of a list make one map, in which an operator of no family may come
once only.  A filter that gives no name twice asks for none twice: each such operator has a key of
its own (`nodup_readScalar`).  So its conditions on an element can be merged.
-/

namespace TypedGraph

/-! ## Distinct names -/

namespace Value

mutual

/-- Whether no object within a value gives a name twice. -/
def hasDistinctNames : Value → Bool
  | .arr xs => itemsHaveDistinctNames xs
  | .obj es => decide (Record.names es).Nodup && entriesHaveDistinctNames es
  | _ => true
termination_by structural v => v

/-- Whether no object within some items gives a name twice. -/
def itemsHaveDistinctNames : List Value → Bool
  | [] => true
  | x :: xs => hasDistinctNames x && itemsHaveDistinctNames xs
termination_by structural xs => xs

/-- Whether no object within the values of some entries gives a name twice. -/
def entriesHaveDistinctNames : Record Value → Bool
  | [] => true
  | (_, x) :: es => hasDistinctNames x && entriesHaveDistinctNames es
termination_by structural es => es

end

theorem hasDistinctNames_obj {es : Record Value} (h : (Value.obj es).hasDistinctNames) :
    es.names.Nodup ∧ entriesHaveDistinctNames es := by
  rw [hasDistinctNames, Bool.and_eq_true, decide_eq_true_eq] at h
  exact h

theorem itemsHaveDistinctNames_iff (xs : List Value) :
    itemsHaveDistinctNames xs ↔ ∀ x ∈ xs, x.hasDistinctNames := by
  induction xs with
  | nil => simp [itemsHaveDistinctNames]
  | cons x xs ih => simp [itemsHaveDistinctNames, ih]

theorem entriesHaveDistinctNames_iff (es : Record Value) :
    entriesHaveDistinctNames es ↔ ∀ e ∈ es, e.2.hasDistinctNames := by
  induction es with
  | nil => simp [entriesHaveDistinctNames]
  | cons e es ih => simp [entriesHaveDistinctNames, ih]

theorem hasDistinctNames_of_within {v x : Value} (h : Within v x) (hx : x.hasDistinctNames) :
    v.hasDistinctNames := by
  induction h with
  | self => exact hx
  | item hitem _ ih => exact ih ((itemsHaveDistinctNames_iff _).1 hx _ hitem)
  | entry hentry _ ih =>
    exact ih ((entriesHaveDistinctNames_iff _).1 (hasDistinctNames_obj hx).2 _ hentry)

end Value

/-! ## Operators of no family -/

namespace Condition

/-- The operator of no family that a condition on a plain element asks for. -/
def lone? : Condition → Option QueryOperator
  | .compares _ comparison _ => some (.compare comparison)
  | .matching _ _ => some .regex
  | _ => none

end Condition

/-! ## Reading -/

namespace Filter

open Condition (lone?)

/-- The operator of no family that a key of a filter on a plain value asks for. -/
def loneKey? (key : String) : Option QueryOperator :=
  match key with
  | "matches" => some .regex
  | "gt" => some (.compare .gt)
  | "gte" => some (.compare .gte)
  | "lt" => some (.compare .lt)
  | "lte" => some (.compare .lte)
  | _ => none

/-- Each operator has one key. -/
theorem loneKey?_injective {key other : String} {o : QueryOperator}
    (h : o ∈ loneKey? key) (h' : o ∈ loneKey? other) : key = other := by
  unfold loneKey? at h h'
  split at h <;> cases h <;> split at h' <;> first | rfl | cases h'

theorem lone?_readScalarOperator (path : FieldPath) (key : String) (v : Value) :
    ((readScalarOperator path key v).filterMap lone?).Sublist (loneKey? key).toList := by
  have hcompares : ∀ {key : String} {comparison : Comparison},
      Comparison.ofKey key = .ok comparison →
      loneKey? key = some (.compare comparison) := by
    intro key comparison h
    unfold Comparison.ofKey at h
    split at h <;> cases h <;> rfl
  unfold readScalarOperator
  split
  · unfold onBool
    split <;> exact List.nil_sublist _
  · exact List.nil_sublist _
  · exact List.nil_sublist _
  · split
    · exact List.Sublist.refl _
    · exact List.nil_sublist _
  · split
    · exact List.nil_sublist _
    · next h =>
      rw [hcompares h]
      split
      · exact List.Sublist.refl _
      · exact List.Sublist.refl _
      · exact List.Sublist.refl _
      · exact List.nil_sublist _

/-- **A filter on a plain value asks for no operator twice.** -/
theorem nodup_readScalar (path : FieldPath) {v : Value} (h : v.hasDistinctNames) :
    ((readScalar path v).filterMap lone?).Nodup := by
  have hkeys : ∀ es : Record Value, ((readScalarEntries path es).filterMap lone?).Sublist
      ((Record.names es).filterMap loneKey?) := by
    intro es
    induction es with
    | nil => exact List.Sublist.refl _
    | cons e es ih =>
      have hnames : Record.names (e :: es) = [e.1] ++ Record.names es := rfl
      have hone : ([e.1].filterMap loneKey?) = (loneKey? e.1).toList := by
        cases h : loneKey? e.1 <;> simp [h]
      rw [readScalarEntries, List.flatMap_cons, List.filterMap_append, hnames,
        List.filterMap_append, hone]
      refine List.Sublist.append ?_ ih
      dsimp only
      split
      · exact List.nil_sublist _
      · exact lone?_readScalarOperator path e.1 e.2
  unfold readScalar
  split
  · exact List.nodup_nil
  · next es =>
    exact (hkeys es).nodup
      ((Value.hasDistinctNames_obj h).1.filterMap fun _ _ _ => loneKey?_injective)
  · exact List.nodup_nil

end Filter

end TypedGraph

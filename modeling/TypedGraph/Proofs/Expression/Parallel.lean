import TypedGraph.Proofs.Expression.Agreement
import TypedGraph.Proofs.Filter.Faults

/-!
# Proofs/Expression/Parallel — an expression is made of a filter where a predicate is

An expression is made of any filter that is not at fault (`parallel_expression_verdict`): to an
expression a pattern is a plain text, which no library has to accept.  Without patterns the
expression is true exactly where the predicate accepts the document
(`parallel_expression_predicate`).
-/

namespace TypedGraph

namespace Condition

mutual

/-- Whether nothing in a condition is a pattern. -/
def PatternFree : Condition → Prop
  | .matching _ _ => False
  | .elements _ _ _ inner => AllPatternFree inner
  | _ => True
termination_by structural c => c

/-- **Whether nothing in several conditions is a pattern.** -/
def AllPatternFree : List Condition → Prop
  | [] => True
  | c :: cs => PatternFree c ∧ AllPatternFree cs
termination_by structural cs => cs

end

mutual

/-- Without patterns the test of patterns does not matter. -/
theorem holdsWith_of_patternFree (search search' : String → String → Bool) :
    ∀ (c : Condition) (v : Value), c.PatternFree → c.holdsWith search v = c.holdsWith search' v
  | .present .., _, _ | .isList .., _, _ | .equals .., _, _ | .differs .., _, _
  | .compares .., _, _ | .endsWith .., _, _ | .length .., _, _ | .isEmpty .., _, _
  | .fault _, _, _ => rfl
  | .matching _ _, _, h => h.elim
  | .elements p quantifier kind inner, v, h => by
    have hinner : allHoldWith search inner = allHoldWith search' inner :=
      funext fun x => allHoldWith_of_patternFree search search' inner x h
    rw [holdsWith, holdsWith, hinner]

theorem allHoldWith_of_patternFree (search search' : String → String → Bool) :
    ∀ (cs : List Condition) (v : Value), AllPatternFree cs →
      allHoldWith search cs v = allHoldWith search' cs v
  | [], _, _ => rfl
  | c :: cs, v, h => by
    rw [allHoldWith, allHoldWith, holdsWith_of_patternFree search search' c v h.1,
      allHoldWith_of_patternFree search search' cs v h.2]

end

variable {patterns : PatternEngine}

mutual

/-- What is no pattern has none that could be refused. -/
theorem accepted_of_patternFree : ∀ {c : Condition}, c.PatternFree → c.Accepted patterns
  | .present .., _ | .isList .., _ | .equals .., _ | .differs .., _ | .compares .., _
  | .endsWith .., _ | .length .., _ | .isEmpty .., _ | .fault _, _ => trivial
  | .matching _ _, h => h.elim
  | .elements .., h => allAccepted_of_allPatternFree h

theorem allAccepted_of_allPatternFree : ∀ {cs : List Condition},
    AllPatternFree cs → AllAccepted patterns cs
  | [], _ => trivial
  | _ :: _, h => ⟨accepted_of_patternFree h.1, allAccepted_of_allPatternFree h.2⟩

end

mutual

/-- **A condition has expressions** where nothing in it is at fault. -/
theorem parallel_expressions : ∀ c : Condition,
    Parallel (fun _ _ => True) c.expressions c.verdict
  | .present .. | .isList .. | .equals .. | .differs .. | .compares .. | .matching ..
  | .endsWith .. | .length .. | .isEmpty .. => .ok trivial
  | .fault e => .error e
  | .elements _ _ _ inner =>
    (parallel_allExpressions inner).bind_left fun _ _ _ _ => ⟨_, rfl, trivial⟩

/-- **Conditions have expressions** where nothing in them is at fault, and else the verdict. -/
theorem parallel_allExpressions : ∀ cs : List Condition,
    Parallel (fun _ _ => True) (allExpressions cs) (verdictOf cs)
  | [] => .ok trivial
  | c :: cs => (parallel_expressions c).bind fun _ _ _ _ _ =>
    (parallel_allExpressions cs).bind_left fun _ _ _ _ => ⟨_, rfl, trivial⟩

end

end Condition

namespace Filter

variable {ctx : Context} {t : TypeInfo} {s : String} {filter : Value}

/-- **An expression is made of a filter** where nothing in it is at fault, and else fails with the
verdict on it. -/
theorem parallel_expression_verdict (t : TypeInfo) (path : FieldPath) (filter : Value) :
    Parallel (fun _ _ => True) (expression ctx t path filter)
      (Condition.verdictOf (read ctx t path filter)) :=
  (Condition.parallel_allExpressions _).map_left fun _ _ _ => trivial

/-- **The expression and the predicate of a filter are parallel**: they fail with the same error, or
the expression is true or false as the predicate says of the document whose fields are found under
the prefix. -/
theorem parallel_expression_predicate (hctx : ctx.WellNamed) (ht : t.WellNamed)
    (hfree : Condition.AllPatternFree (read ctx t .document filter)) :
    Parallel (fun e accepts => ∀ d v : Value, v.Storable →
        Expression.Starts d [] (dottedNames s) v .document .object →
          Expression.evaluate d e [] = some (.bool (accepts v)))
      (expression ctx t (.ofDotted s) filter) (predicate ctx t filter) := by
  have hinitial : ∀ n ∈ dottedNames s, PathName n := fun n hn => pathName_of_mem_dottedNames hn
  have hparallel : Parallel (fun _ _ => True) (expression ctx t (.ofDotted s) filter)
      (predicate ctx t filter) := by
    have hverdict : Parallel _ _ (Condition.verdictOf (read ctx t (.ofDotted s) filter)) :=
      parallel_expression_verdict t (.ofDotted s) filter
    rw [verdictOf_read_eq t _ .document,
      ← Condition.checkAll_eq_verdictOf (Condition.allAccepted_of_allPatternFree hfree)] at hverdict
    exact hverdict.map_right fun _ _ _ => trivial
  refine hparallel.refine fun e accepts hexpression hpredicate _ d v hv hstart => ?_
  obtain ⟨es, hes, rfl⟩ := map_eq_ok.1 hexpression
  obtain ⟨-, -, rfl⟩ := map_eq_ok.1 hpredicate
  rw [read_ofDotted] at hes
  have hconveys := Condition.conveys_allExpressions_of_storable _ [] _ _ _ v es hinitial hstart
    (allFit_read hctx ht filter) hv hes
  rw [Condition.allHold, Condition.allHoldWith_of_patternFree _ Condition.sameText _ v hfree]
  exact hconveys.conjunction

end Filter

end TypedGraph

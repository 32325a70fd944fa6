import TypedGraph.Proofs.Expression.Parallel
import TypedGraph.Proofs.Query.Acceptance

/-!
# Proofs/Filter/Acceptance — one verdict for the query, the expression and the predicate

A filter is made into a query, an expression and a predicate, each of which goes through its
conditions in its own way and may fail on it.  All of them fail exactly where the verdict on the
filter is a fault, and with that fault (`compiled_or_refused`).  So the faults that only a query
knows, which are about putting conditions on elements together, never arise
(`isElementFault_of_query_eq_error`): in a filter with distinct names the conditions on a plain
element are about the element itself and ask for no operator twice, and those on an object are
about its fields.
-/

namespace TypedGraph.Filter

open Condition (verdictOf checkAll_eq_verdictOf)

variable {ctx : Context} {t : TypeInfo} {filter : Value}

/-- A predicate is made of a filter whose patterns are accepted where nothing in it is at fault,
wherever the filter is read. -/
theorem predicate_eq_verdict (t : TypeInfo) (path : FieldPath)
    (hpatterns : PatternsAccepted ctx.patterns filter) : predicate ctx t filter =
      (verdictOf (read ctx t path filter)).map fun _ =>
        Condition.allHold ctx.patterns (read ctx t .document filter) := by
  rw [predicate, predicateOf, checkAll_eq_verdictOf (hpatterns.allAccepted_read t _),
    verdictOf_read_eq t .document path]

/-- **No query fails for the way conditions on elements are put together**, whatever the patterns of
the filter. -/
theorem isElementFault_of_query_eq_error (hctx : ctx.Names (· ≠ ""))
    (ht : ∀ f ∈ t.fields, f.name ≠ "") {path : FieldPath} (hnames : filter.hasDistinctNames)
    {e : Error} (h : query ctx t path filter = .error e) : e.isElementFault = false := by
  have hparallel := parallel_query_verdict hctx ht path hnames
  cases hverdict : verdictOf (read ctx t path filter) with
  | error e' =>
    rw [hverdict] at hparallel
    cases hparallel.eq_error.symm.trans h
    exact isElementFault_of_verdictOf_read hverdict
  | ok _ =>
    rw [hverdict] at hparallel
    obtain ⟨queries, hqueries, -⟩ := hparallel.exists_ok
    cases hqueries.symm.trans h

/-- **A filter is compiled by all or refused by all.**  Where no name is empty, a filter with
distinct names, all of whose patterns the library accepts, has a query, an expression and a
predicate, no condition that it is read as being a fault; or all three fail with the first fault,
which is none about putting conditions on elements together. -/
theorem compiled_or_refused (hctx : ctx.Names (· ≠ "")) (ht : ∀ f ∈ t.fields, f.name ≠ "")
    (path : FieldPath) (hnames : filter.hasDistinctNames)
    (hpatterns : PatternsAccepted ctx.patterns filter) :
    (verdictOf (read ctx t path filter) = .ok () ∧ ∃ queries e accepts,
        query ctx t path filter = .ok queries ∧ expression ctx t path filter = .ok e ∧
          predicate ctx t filter = .ok accepts) ∨
      ∃ error, verdictOf (read ctx t path filter) = .error error ∧
        query ctx t path filter = .error error ∧ expression ctx t path filter = .error error ∧
          predicate ctx t filter = .error error ∧ error.isElementFault = false := by
  have hquery := parallel_query_verdict hctx ht path hnames
  have hexpression : Parallel _ (expression ctx t path filter) _ :=
    parallel_expression_verdict t path filter
  have hpredicate : predicate ctx t filter = _ := predicate_eq_verdict t path hpatterns
  cases hverdict : verdictOf (read ctx t path filter) with
  | error error =>
    rw [hverdict] at hquery hexpression hpredicate
    exact .inr ⟨error, rfl, hquery.eq_error, hexpression.eq_error, hpredicate,
      isElementFault_of_verdictOf_read hverdict⟩
  | ok _ =>
    rw [hverdict] at hquery hexpression hpredicate
    obtain ⟨queries, hqueries, -⟩ := hquery.exists_ok
    obtain ⟨e, he, -⟩ := hexpression.exists_ok
    exact .inl ⟨rfl, queries, e, _, hqueries, he, hpredicate⟩

/-- Operators on elements are combined in front of an unknown operator on the elements of another
list, which is what all three fail with. -/
theorem compiled_or_refused_posts :
    let user := (Schema.sample.types.head (List.cons_ne_nil _ _)).2
    let filter : Value := .obj [
      ("tags", .single "some" (.obj [("matches", .str "^a"), ("ne", .strings ["ab"]),
        ("gt", .str "a")])),
      ("posts", .single "every" (.obj [("title", .single "like" (.str "b"))]))]
    let error := Error.schema (.invalidOperation "scalar filter" "like")
    query .sample user (.ofDotted "node") filter = .error error ∧
      expression .sample user (.ofDotted "node") filter = .error error ∧
        predicate .sample user filter = .error error := by
  intro user filter error
  have hquery : query .sample user (.ofDotted "node") filter = .error error := rfl
  have hpattern : Pattern.engine.accepts "^a" := by decide
  have hpatterns : PatternsAccepted Pattern.engine filter := by
    simp [filter, Value.single, Value.strings, hpattern]
  obtain ⟨-, queries, _, _, hqueries, -⟩ | ⟨e, -, he, hexpression, hpredicate, -⟩ :=
    compiled_or_refused (t := user) Context.sample_wellNamed.nonempty (by decide)
      (.ofDotted "node") (by decide : filter.hasDistinctNames) hpatterns
  · cases hquery.symm.trans hqueries
  · cases hquery.symm.trans he
    exact ⟨hquery, hexpression, hpredicate⟩

end TypedGraph.Filter

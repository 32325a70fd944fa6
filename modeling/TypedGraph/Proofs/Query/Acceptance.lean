import TypedGraph.Proofs.Filter.Ambiguity
import TypedGraph.Proofs.Filter.Faults
import TypedGraph.Proofs.Query.Agreement

/-!
# Proofs/Query/Acceptance — a query is made of a filter where a predicate is

Whatever is wrong with a filter, its query and its predicate fail alike: both go through the same
conditions in the same order and stop at the first fault.  Two kinds of error are left to one side
only, and neither arises where the filter has distinct names and patterns that can be read: a
predicate refuses a pattern, and a query refuses to ask an operator of an element twice
(`parallel_query_predicate`).

What a query does with clauses is accepted because of their form: clauses on an object have paths,
so that they can be written as documents, and clauses on a plain element have none, so that their
operators can be merged (`exists_elementOperators`).
-/

namespace TypedGraph

/-! ## Merging operators -/

namespace QueryOperator

/-- Whether an operator shares its meaning with no other. -/
def isLone : QueryOperator → Bool
  | .eq | .ne | .isIn | .notIn => false
  | _ => true

/-- The operator of an entry, where it shares its meaning with no other. -/
def loneOf? (e : String × Value) : Option QueryOperator := (ofName? e.1).filter isLone

theorem loneOf?_name (o : QueryOperator) (x : Value) :
    loneOf? (o.name, x) = if o.isLone then some o else none := by
  rw [loneOf?, ofName?_name]
  rfl

theorem isLone_of_mem {e : String × Value} {o : QueryOperator} (h : loneOf? e = some o) :
    o.isLone :=
  (Option.filter_eq_some_iff.1 h).2

end QueryOperator

namespace Clause

open QueryOperator

variable {operators : Record Value}

/-- Adding to a family writes the name of one of its members only. -/
theorem mem_names_addToFamily {single list o : QueryOperator}
    {combine : List Value → List Value → List Value} {x : Value} {name : String}
    (h : name ∈ Record.names (addToFamily operators single list combine o x)) :
    name ∈ Record.names operators ∨ name = o.name ∨ name = list.name := by
  unfold addToFamily at h
  split at h
  · exact (Record.mem_names_put_iff.1 h).symm.imp_right .inl
  · next existing y rest htake =>
    obtain ⟨-, hperm⟩ := takeEither?_some htake
    refine (Record.mem_names_put_iff.1 h).symm.imp (fun hrest => ?_) .inr
    exact (hperm.map Prod.fst).mem_iff.2 (List.mem_cons_of_mem _ hrest)

/-- **Adding an operator** is refused only to a lone one that is there already, and brings no other
lone one. -/
theorem exists_addOperator {o : QueryOperator} (x : Value)
    (hnew : o.isLone → o.name ∉ Record.names operators) :
    ∃ result, addOperator operators o.name x = .ok result ∧ ∀ p : QueryOperator, p.isLone →
      p ≠ o → p.name ∈ Record.names result → p.name ∈ Record.names operators := by
  have hfamily : ∀ (single list : QueryOperator) combine, list.isLone = false →
      ∀ p : QueryOperator, p.isLone → p ≠ o →
        p.name ∈ Record.names (addToFamily operators single list combine o x) →
          p.name ∈ Record.names operators := by
    intro single list combine hlist p hp hne hmem
    rcases mem_names_addToFamily hmem with h | h | h
    · exact h
    · exact absurd (name_inj h) hne
    · rw [name_inj h, hlist] at hp
      exact absurd hp Bool.false_ne_true
  have hlone : o.isLone → ∃ result, (if Record.has operators o.name then
        .error (.schema (.conflictingElement o.name))
      else .ok (Record.put operators o.name x) : Except Error (Record Value)) = .ok result ∧
        ∀ p : QueryOperator, p.isLone → p ≠ o → p.name ∈ Record.names result →
          p.name ∈ Record.names operators := by
    intro ho
    refine ⟨_, if_neg fun hhas => hnew ho (Record.has_iff_mem_names.1 hhas), ?_⟩
    intro p _ hne hmem
    exact (Record.mem_names_put_iff.1 hmem).resolve_left fun h => hne (name_inj h)
  rw [addOperator, ofName?_name]
  cases o with
  | eq => exact ⟨_, rfl, hfamily _ _ _ rfl⟩
  | isIn => exact ⟨_, rfl, hfamily _ _ _ rfl⟩
  | ne => exact ⟨_, rfl, hfamily _ _ _ rfl⟩
  | notIn => exact ⟨_, rfl, hfamily _ _ _ rfl⟩
  | _ => exact hlone rfl

/-- **Operators can be added** one after the other where no lone one comes twice. -/
theorem exists_foldlM_addOperator {es : Record Value}
    (hes : ∀ e ∈ es, ∃ o : QueryOperator, e.1 = o.name) (hnodup : (es.filterMap loneOf?).Nodup)
    (hnew : ∀ o ∈ es.filterMap loneOf?, o.name ∉ Record.names operators) :
    ∃ result, es.foldlM (fun acc (name, x) => addOperator acc name x) operators = .ok result := by
  induction es generalizing operators with
  | nil => exact ⟨operators, rfl⟩
  | cons e es ih =>
    obtain ⟨name, x⟩ := e
    obtain ⟨o, rfl⟩ := hes _ List.mem_cons_self
    have hrest : ∀ p ∈ es.filterMap loneOf?, p ∈ ((o.name, x) :: es).filterMap loneOf? := by
      intro p hp
      rw [List.filterMap_cons]
      split
      · exact hp
      · exact List.mem_cons_of_mem _ hp
    have hfirst : o.isLone → ((o.name, x) :: es).filterMap loneOf? = o :: es.filterMap loneOf? :=
      fun h => List.filterMap_cons_some ((loneOf?_name o x).trans (if_pos h))
    obtain ⟨next, hnext, hnames⟩ := exists_addOperator x fun h =>
      hnew o (by rw [hfirst h]; exact List.mem_cons_self)
    have hnodup' : (es.filterMap loneOf?).Nodup := by
      refine hnodup.sublist ?_
      exact (List.sublist_cons_self _ _).filterMap _
    obtain ⟨result, hresult⟩ := ih (fun f hf => hes f (List.mem_cons_of_mem _ hf)) hnodup' (by
      intro p hp hmem
      obtain ⟨f, -, hf⟩ := List.mem_filterMap.1 hp
      have hlone := isLone_of_mem hf
      refine hnew p (hrest p hp) (hnames p hlone ?_ hmem)
      rintro rfl
      rw [hfirst hlone] at hnodup
      exact (List.nodup_cons.1 hnodup).1 hp)
    exact ⟨result, List.foldlM_cons.trans (bind_eq_ok.2 ⟨next, hnext, hresult⟩)⟩

/-- Adding clauses is adding the operators that they ask. -/
theorem foldlM_addClause_eq {cs : List Clause} {asked : List (Record Value)}
    (hok : cs.mapM onElement = .ok asked) : cs.foldlM addClause operators =
      asked.flatten.foldlM (fun acc (name, x) => addOperator acc name x) operators := by
  induction cs generalizing asked operators with
  | nil =>
    cases hok
    rfl
  | cons c cs ih =>
    obtain ⟨es, rest, hes, hrest, rfl⟩ := mapM_cons_eq_ok.1 hok
    rw [List.foldlM_cons, List.flatten_cons, List.foldlM_append, addClause, hes]
    exact congrArg _ (funext fun _ => ih hrest)

/-- **The operators of clauses can be merged** where no lone one comes twice. -/
theorem exists_elementOperators {cs : List Clause} {asked : List (Record Value)}
    (hok : cs.mapM onElement = .ok asked)
    (hasked : ∀ e ∈ asked.flatten, ∃ o : QueryOperator, e.1 = o.name)
    (hnodup : (asked.flatten.filterMap loneOf?).Nodup) :
    ∃ result, elementOperators cs = .ok result := by
  rw [elementOperators, foldlM_addClause_eq hok]
  exact exists_foldlM_addOperator hasked hnodup fun _ _ => nofun

/-! ## Writing clauses -/

/-- **A clause can be written** as a query document. -/
def Writable (c : Clause) : Prop := ∃ query, c.toDocument = .ok query

/-- What is asked at a path that has a text can be written. -/
theorem writable_field {path : String} (h : path ≠ "") (operators : Record Value) :
    (field path operators).Writable :=
  ⟨_, if_neg h⟩

/-- **The clauses of a quantifier** can be made where those on an element can be combined, and can
be written where its list has a path. -/
theorem exists_quantified {p : FieldPath} (hp : p.dotted ≠ "") (quantifier : Quantifier)
    {kind : ElementKind} {inner : List Clause}
    (hcondition : ∃ condition, elementCondition kind inner = .ok condition)
    (hscalar : kind = .scalar → ∃ asked, inner.mapM onElement = .ok asked) :
    ∃ cs, quantified p quantifier kind inner = .ok cs ∧ ∀ c ∈ cs, c.Writable := by
  obtain ⟨condition, hcondition⟩ := hcondition
  have hone : ∀ operators, ∀ c ∈ [field p.dotted operators], c.Writable := fun operators =>
    List.forall_mem_singleton.2 (writable_field hp operators)
  unfold quantified
  split
  · cases quantifier with
    | any => exact ⟨_, rfl, hone _⟩
    | all => exact ⟨_, rfl, List.forall_mem_nil _⟩
    | none =>
      obtain ⟨query, hquery⟩ : (nonEmptyList p).Writable := writable_field hp _
      exact ⟨_, map_eq_ok.2 ⟨_, bind_eq_ok.2 ⟨query, hquery, rfl⟩, rfl⟩,
        List.forall_mem_singleton.2 ⟨_, rfl⟩⟩
  · split
    · exact ⟨_, map_eq_ok.2 ⟨condition, hcondition, rfl⟩, hone _⟩
    · exact ⟨_, map_eq_ok.2 ⟨condition, hcondition, rfl⟩, hone _⟩
    · obtain ⟨asked, hasked⟩ := hscalar rfl
      refine ⟨_, bind_eq_ok.2 ⟨asked, hasked, rfl⟩, fun c hc => ?_⟩
      obtain ⟨e, -, rfl⟩ := List.mem_map.1 hc
      exact writable_field hp _
    · exact ⟨_, map_eq_ok.2 ⟨condition, hcondition, rfl⟩, hone _⟩

end Clause

/-! ## The clauses of a filter -/

namespace Condition

/-- **Conditions have clauses** where each of them has, and else the fault that comes first. -/
theorem parallel_allClauses {P : Clause → Prop} : ∀ {cs : List Condition},
    (∀ c ∈ cs, Parallel (fun clauses _ => ∀ x ∈ clauses, P x) c.clauses c.verdict) →
      Parallel (fun clauses _ => ∀ x ∈ clauses, P x) (allClauses cs) (verdictOf cs)
  | [], _ => .ok (List.forall_mem_nil _)
  | c :: cs, h => by
    obtain ⟨hc, hcs⟩ := List.forall_mem_cons.1 h
    refine hc.bind fun first _ _ _ hfirst => ?_
    refine (parallel_allClauses hcs).bind_left fun rest _ _ hrest => ⟨_, rfl, fun x hx => ?_⟩
    exact (List.mem_append.1 hx).elim (hfirst x) (hrest x)

end Condition

namespace Filter

open Clause Condition QueryOperator

variable {ctx : Context} {path : FieldPath}

/-- **What is asked of a plain value** is asked of it by one operator. -/
theorem Asks.parallel {v : Value} {c : Condition} (h : Asks path v c) :
    Parallel (fun clauses _ => ∃ (o : QueryOperator) (x : Value), clauses = [.ask path o x] ∧
      loneOf? (o.name, x) = c.lone?) c.clauses c.verdict := by
  cases h with
  | present expected => exact .ok ⟨_, _, rfl, by cases expected <;> rfl⟩
  | equals => exact .ok ⟨_, _, rfl, by split <;> rfl⟩
  | differs => exact .ok ⟨_, _, rfl, by split <;> rfl⟩
  | compares => exact .ok ⟨_, _, rfl, loneOf?_name _ _⟩
  | matching => exact .ok ⟨_, _, rfl, rfl⟩
  | fault => exact .error _

theorem Asks.writable (hp : path.dotted ≠ "") {v : Value} {c : Condition} (h : Asks path v c) :
    Parallel (fun clauses _ => ∀ x ∈ clauses, x.Writable) c.clauses c.verdict := by
  refine h.parallel.refine ?_
  rintro _ _ - - ⟨o, x, rfl, -⟩
  exact List.forall_mem_singleton.2 (writable_field hp _)

/-- The operators that a filter on a plain element asks of it. -/
theorem parallel_onElement (hp : path.dotted = "") {v : Value} {cs : List Condition}
    (h : ∀ c ∈ cs, Asks path v c) :
    Parallel (fun clauses _ => ∃ asked, clauses.mapM onElement = .ok asked ∧
        (∀ e ∈ asked.flatten, ∃ o : QueryOperator, e.1 = o.name) ∧
        asked.flatten.filterMap loneOf? = cs.filterMap lone?)
      (allClauses cs) (verdictOf cs) := by
  induction cs with
  | nil => exact .ok ⟨[], rfl, nofun, rfl⟩
  | cons c cs ih =>
    obtain ⟨hc, hcs⟩ := List.forall_mem_cons.1 h
    refine hc.parallel.bind fun first _ _ _ hfirst => ?_
    refine (ih hcs).bind_left fun rest _ _ hrest => ⟨_, rfl, ?_⟩
    obtain ⟨o, x, rfl, hlone⟩ := hfirst
    obtain ⟨asked, hasked, hnames, hlones⟩ := hrest
    have hone : (Clause.ask path o x).onElement = .ok [(o.name, x)] := if_pos hp
    refine ⟨_ :: asked, mapM_cons_eq_ok.2 ⟨_, asked, hone, hasked, rfl⟩, ?_, ?_⟩
    · rw [List.flatten_cons]
      exact List.forall_mem_cons.2 ⟨⟨o, rfl⟩, hnames⟩
    · rw [List.flatten_cons, List.filterMap_append, hlones, List.filterMap_cons,
        List.filterMap_cons, hlone]
      cases c.lone? <;> rfl

/-- What is asked of the type of an object is asked of a field of it. -/
theorem parallel_typeCondition (hid : ctx.config.idField ≠ "") (htype : ctx.config.typeField ≠ "")
    (t : TypeInfo) (path : FieldPath) (names : List String) (negated : Bool) :
    Parallel (fun clauses _ => ∀ x ∈ clauses, x.Writable)
      (typeCondition ctx t path names negated).clauses
      (typeCondition ctx t path names negated).verdict := by
  have hchild : ∀ {name : String}, name ≠ "" → (path.child name).dotted ≠ "" :=
    FieldPath.dotted_ne_empty_of_mem (List.mem_append_right _ List.mem_cons_self)
  refine typeCondition_cases (.ok ?_)
    (.ok (List.forall_mem_singleton.2 (writable_field (hchild htype) _)))
    (.ok (List.forall_mem_singleton.2 (writable_field (hchild htype) _)))
  unfold suffixClauses
  split
  · intro x hx
    obtain ⟨s, -, rfl⟩ := List.mem_map.1 hx
    exact writable_field (hchild hid) _
  · split <;> exact List.forall_mem_singleton.2 (writable_field (hchild hid) _)

/-- **A quantifier over plain values** has clauses: their operators are merged, and none of them is
asked for twice. -/
theorem parallel_values (hp : path.dotted ≠ "") (quantifier : Quantifier) (depth : Nat) {v : Value}
    (hnames : v.hasDistinctNames) :
    Parallel (fun clauses _ => ∀ x ∈ clauses, x.Writable)
      (Condition.elements path quantifier .scalar (readScalar (.element depth) v)).clauses
      (Condition.elements path quantifier .scalar (readScalar (.element depth) v)).verdict := by
  refine (parallel_onElement rfl fun c hc => asks_of_mem_readScalar hc).bind_left
    fun inner _ _ hinner => ?_
  obtain ⟨asked, hasked, hoperators, hlones⟩ := hinner
  have hnodup := nodup_readScalar (.element depth) hnames
  exact exists_quantified hp quantifier
    (exists_elementOperators hasked hoperators (hlones ▸ hnodup)) fun _ => ⟨asked, hasked⟩

/-- **A quantifier over objects** has clauses where those on an object can be written. -/
theorem parallel_objects (hp : path.dotted ≠ "") (quantifier : Quantifier) {inner : List Condition}
    (hinner : Parallel (fun clauses _ => ∀ x ∈ clauses, x.Writable) (allClauses inner)
      (verdictOf inner)) :
    Parallel (fun clauses _ => ∀ x ∈ clauses, x.Writable)
      (Condition.elements path quantifier .object inner).clauses
      (Condition.elements path quantifier .object inner).verdict := by
  refine hinner.bind_left fun clauses _ _ hclauses => ?_
  obtain ⟨queries, hqueries⟩ := exists_mapM_eq_ok hclauses
  exact exists_quantified hp quantifier ⟨_, map_eq_ok.2 ⟨queries, hqueries, rfl⟩⟩ nofun

/-- **A filter has clauses that can be written**, or its verdict says why not. -/
theorem parallel_allClauses_read (hctx : ctx.Names (· ≠ "")) (t : TypeInfo)
    (ht : ∀ f ∈ t.fields, f.name ≠ "") (path : FieldPath) (filter : Value)
    (hnames : filter.hasDistinctNames) :
    Parallel (fun clauses _ => ∀ x ∈ clauses, x.Writable) (allClauses (read ctx t path filter))
      (verdictOf (read ctx t path filter)) := by
  refine parallel_allClauses fun c hc => ?_
  obtain ⟨c', hreads⟩ := exists_reads hctx ht hc
  clear hc
  cases hreads with
  | value hne hchain _ hc =>
    exact (asks_of_mem_readScalar (placed_mem_readScalar hc _)).writable
      (hchain.dotted_ne_empty hne path)
  | type => exact parallel_typeCondition hctx.idField hctx.typeField _ _ _ _
  | present hne hchain =>
    have hpath := hchain.dotted_ne_empty hne path
    exact .ok (List.forall_mem_singleton.2 (writable_field hpath _))
  | isList hne hchain expected =>
    have hpath := hchain.dotted_ne_empty hne path
    refine .ok (List.forall_mem_singleton.2 ?_)
    split <;> exact writable_field hpath _
  | isEmpty hne hchain expected =>
    have hpath := hchain.dotted_ne_empty hne path
    refine .ok (List.forall_mem_singleton.2 ?_)
    split <;> exact writable_field hpath _
  | length hne hchain =>
    have hpath := hchain.dotted_ne_empty hne path
    exact .ok (List.forall_mem_singleton.2 (writable_field hpath _))
  | values hne hchain quantifier hv =>
    exact parallel_values (hchain.dotted_ne_empty hne path) quantifier _
      (Value.hasDistinctNames_of_within hv.within hnames)
  | objects hne hchain quantifier hnested hv =>
    exact parallel_objects (hchain.dotted_ne_empty hne path) quantifier
      (parallel_allClauses_read hctx _ hnested _ _
        (Value.hasDistinctNames_of_within hv.within hnames))
  | fault => exact .error _
termination_by sizeOf filter
decreasing_by exact hv.sizeOf_lt

/-- **A query is made of a filter** where nothing in it is at fault, and else fails with the verdict
on it. -/
theorem parallel_query_verdict {t : TypeInfo} (hctx : ctx.Names (· ≠ ""))
    (ht : ∀ f ∈ t.fields, f.name ≠ "") (path : FieldPath) {filter : Value}
    (hnames : filter.hasDistinctNames) :
    Parallel (fun _ _ => True) (query ctx t path filter) (verdictOf (read ctx t path filter)) :=
  (parallel_allClauses_read hctx t ht path filter hnames).bind_left fun _ _ _ hclauses =>
    (exists_mapM_eq_ok hclauses).imp fun _ h => ⟨h, trivial⟩

/-! ## The query and the predicate of a filter -/

variable {t : TypeInfo} {filter : Value} {s : String}

/-- **A query is made of a filter where a predicate is**, and else both fail with the same error. -/
theorem parallel_accepted (hctx : ctx.Names (· ≠ "")) (ht : ∀ f ∈ t.fields, f.name ≠ "")
    (path : FieldPath) (hnames : filter.hasDistinctNames)
    (hpatterns : AllAccepted ctx.patterns (read ctx t .document filter)) :
    Parallel (fun _ _ => True) (query ctx t path filter) (predicate ctx t filter) := by
  have hquery := parallel_query_verdict hctx ht path hnames
  rw [verdictOf_read_eq t path .document, ← checkAll_eq_verdictOf hpatterns] at hquery
  exact hquery.map_right fun _ _ _ => trivial

/-- **What a filter needs to be decided alike** on some documents, by its query and by its
predicate: distinct names, patterns that the library accepts, and an equality that is transitive
among the values that are compared. -/
structure Clear (ctx : Context) (t : TypeInfo) (docs : List Value) (filter : Value) : Prop where
  names : filter.hasDistinctNames
  patterns : Condition.AllAccepted ctx.patterns (read ctx t .document filter)
  equal : ∀ d ∈ docs, Value.EqualTransitive (Compared ctx t filter d)

/-- **The query and the predicate of a filter are parallel**: they fail with the same error, or the
documents that the queries hold of under the prefix are those that the predicate accepts. -/
theorem parallel_query_predicate {docs : List Value} (hsearch : SuffixSearch ctx.patterns.search)
    (hctx : ctx.WellNamed) (ht : t.WellNamed) (h : Clear ctx t docs filter) :
    Parallel (fun queries accepts => ∀ d ∈ docs, (queries.all fun q =>
        Query.holds ctx.patterns (.obj q) (Value.nest (dottedNames s) d)) = accepts d)
      (query ctx t (.ofDotted s) filter) (predicate ctx t filter) := by
  refine (parallel_accepted hctx.nonempty (fun f hf => (ht f hf).nonempty) (.ofDotted s) h.names
    h.patterns).refine
    fun queries accepts hquery hpredicate _ d hd => ?_
  obtain ⟨-, -, rfl⟩ := map_eq_ok.1 hpredicate
  exact (Clause.entriesHold_conjunction _ _).symm.trans
    (holds_query hsearch hctx ht (h.equal d hd) hquery)

end Filter

end TypedGraph

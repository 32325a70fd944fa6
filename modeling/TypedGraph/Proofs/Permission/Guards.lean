import TypedGraph.Proofs.Permission.Acceptance
import TypedGraph.Proofs.Permission.Parallel

/-!
# Proofs/Permission/Guards — an identifier passes one guard at most

The guard of a member of an abstract node type asks whether the identifier ends with the suffix of
the member (`holdsWith_guardCondition_node`), and so do the predicate and the query that it is
compiled to (`AsksFor`).  A text ends with one standard suffix at most, so that two guards never let
the same document pass (`AsksFor.exclude`).
-/

namespace TypedGraph

namespace TypeSuffix

variable {name other : String}

/-- **The standard suffixes of two types exclude each other.** -/
theorem not_hasEnding_standard (hne : name ≠ other) (s : String) :
    ¬(hasEnding s (standard name) = true ∧ hasEnding s (standard other) = true) :=
  fun ⟨hname, hother⟩ => hne (eq_of_hasEnding_standard hname hother)

/-- Every text ends with itself. -/
theorem hasEnding_self (s : String) : hasEnding s s = true :=
  (hasEnding_iff s s).2 (List.suffix_refl _)

/-- **No standard suffix ends with the one of another type.** -/
theorem hasEnding_standard_eq_false (hne : name ≠ other) :
    hasEnding (standard name) (standard other) = false := by
  rw [Bool.eq_false_iff]
  intro hother
  exact not_hasEnding_standard hne _ ⟨hasEnding_self _, hother⟩

end TypeSuffix

namespace Permission

variable {ctx : Context} {t : TypeInfo} {name other : String}

/-! ## The guards of node types -/

/-- The text of the identifier of a document. -/
def identifierOf (ctx : Context) (d : Value) : String :=
  identifierText (d.lookup? [ctx.config.idField])

/-- **The guard of a member of a node type asks for its suffix** at the end of the identifier. -/
theorem holdsWith_guardCondition_node (hnode : t.isNode = true) (search : String → String → Bool)
    (other : String) (d : Value) : (guardCondition ctx t other).holdsWith search d =
      hasEnding (identifierOf ctx d) (ctx.suffix other) := by
  rw [guardCondition, Filter.typeCondition, if_pos hnode, Condition.holdsWith,
    if_neg Bool.false_ne_true, List.map_cons, List.map_nil, List.any_cons, List.any_nil,
    Bool.or_false]
  rfl

/-- **A compiled guard asks for an ending** of the identifier, and for nothing else. -/
def AsksFor {α : Type} (ctx : Context) (test : α → Value → Bool) (ending : String)
    (result : Except Error α) : Prop :=
  ∃ compiled, result = .ok compiled ∧
    ∀ d, test compiled d = hasEnding (identifierOf ctx d) ending

/-- The predicate of a guard asks for the suffix, whatever the document. -/
theorem asksFor_predicate (ctx : Context) (habstract : t.isAbstract = true)
    (hnode : t.isNode = true) (hother : other ∈ t.possibleTypes) :
    AsksFor ctx (fun accepts d => accepts d) (ctx.suffix other)
      (Filter.predicate ctx t (guard other)) := by
  have hok : ∃ accepts, Filter.predicate ctx t (guard other) = .ok accepts :=
    exists_predicate_guard habstract hother
  obtain ⟨accepts, haccepts⟩ := hok
  refine ⟨accepts, haccepts, fun d => ?_⟩
  obtain ⟨-, -, rfl⟩ := map_eq_ok.1 haccepts
  dsimp only
  rw [read_guard habstract hother, Condition.allHold, Condition.allHoldWith,
    Condition.allHoldWith, Bool.and_true, holdsWith_guardCondition_node hnode]

/-- The query of a guard asks for the suffix, under whatever prefix the document lies. -/
theorem asksFor_query (hsearch : SuffixSearch ctx.patterns.search) (hctx : ctx.WellNamed)
    (ht : t.WellNamed) (habstract : t.isAbstract = true) (hnode : t.isNode = true)
    (hother : other ∈ t.possibleTypes) (s : String) :
    AsksFor ctx (fun queries d => holdUnder ctx.patterns s d queries) (ctx.suffix other)
      (Filter.query ctx t (.ofDotted s) (guard other)) := by
  obtain ⟨queries, hqueries⟩ := exists_query_guard hctx.idField.nonempty hctx.typeField.nonempty
    habstract hother (.ofDotted s)
  refine ⟨queries, hqueries, fun d => ?_⟩
  dsimp only [holdUnder]
  rw [all_query_guard hsearch hctx ht habstract hother hqueries,
    holdsWith_guardCondition_node hnode]

/-! ## Guards that exclude each other -/

/-- **Two guards exclude each other**: both are compiled, and no document passes both. -/
def Exclude {α : Type} (test : α → Value → Bool) (first second : Except Error α) : Prop :=
  ∃ a b, first = .ok a ∧ second = .ok b ∧ ∀ d, ¬(test a d = true ∧ test b d = true)

/-- Guards that ask for the standard suffixes of two types exclude each other. -/
theorem AsksFor.exclude {α : Type} {test : α → Value → Bool} {first second : Except Error α}
    (hne : name ≠ other) (hfirst : AsksFor ctx test (TypeSuffix.standard name) first)
    (hsecond : AsksFor ctx test (TypeSuffix.standard other) second) :
    Exclude test first second := by
  obtain ⟨a, ha, hname⟩ := hfirst
  obtain ⟨b, hb, hother⟩ := hsecond
  refine ⟨a, b, ha, hb, fun d => ?_⟩
  rw [hname, hother]
  exact TypeSuffix.not_hasEnding_standard hne _

/-- **An identifier passes the guard of one type at most.**  No text ends with the standard suffixes
of two types, and neither of them ends with the other.  So of an abstract node type the guards of
two members are compiled, in memory and for the store, and exclude each other. -/
theorem passes_one_guard (hne : name ≠ other) :
    (∀ s, ¬(hasEnding s (TypeSuffix.standard name) = true ∧
      hasEnding s (TypeSuffix.standard other) = true)) ∧
    hasEnding (TypeSuffix.standard name) (TypeSuffix.standard other) = false ∧
    hasEnding (TypeSuffix.standard other) (TypeSuffix.standard name) = false ∧
    ∀ (ctx : Context) (t : TypeInfo), ctx.suffix = .standard → t.isAbstract = true →
      t.isNode = true → name ∈ t.possibleTypes → other ∈ t.possibleTypes →
        Exclude (fun accepts d => accepts d) (Filter.predicate ctx t (guard name))
          (Filter.predicate ctx t (guard other)) ∧
        (SuffixSearch ctx.patterns.search → ctx.WellNamed → t.WellNamed → ∀ s,
          Exclude (fun queries d => holdUnder ctx.patterns s d queries)
            (Filter.query ctx t (.ofDotted s) (guard name))
            (Filter.query ctx t (.ofDotted s) (guard other))) := by
  refine ⟨TypeSuffix.not_hasEnding_standard hne, TypeSuffix.hasEnding_standard_eq_false hne,
    TypeSuffix.hasEnding_standard_eq_false hne.symm, ?_⟩
  intro ctx t hsuffix habstract hnode hname hother
  refine ⟨?_, fun hsearch hctx ht s => ?_⟩
  · have hfirst := asksFor_predicate ctx habstract hnode hname
    have hsecond := asksFor_predicate ctx habstract hnode hother
    rw [hsuffix] at hfirst hsecond
    exact hfirst.exclude hne hsecond
  · have hfirst := asksFor_query hsearch hctx ht habstract hnode hname s
    have hsecond := asksFor_query hsearch hctx ht habstract hnode hother s
    rw [hsuffix] at hfirst hsecond
    exact hfirst.exclude hne hsecond

/-- A user is no bot, whatever the identifier. -/
theorem passes_one_guard_actors :
    let actor : TypeInfo := ⟨"Actor", .union, [], ["User", "Bot"], true⟩
    "User" ≠ "Bot" ∧
      Exclude (fun accepts d => accepts d) (Filter.predicate .sample actor (guard "User"))
        (Filter.predicate .sample actor (guard "Bot")) ∧
      Exclude (fun queries d => holdUnder Pattern.engine "node" d queries)
        (Filter.query .sample actor (.ofDotted "node") (guard "User"))
        (Filter.query .sample actor (.ofDotted "node") (guard "Bot")) := by
  intro actor
  have hne : "User" ≠ "Bot" := by decide
  have hguards := (passes_one_guard hne).2.2.2 .sample actor rfl rfl rfl (by decide) (by decide)
  exact ⟨hne, hguards.1, hguards.2 Pattern.suffixSearch_engine Context.sample_wellNamed
    (List.forall_mem_nil _) "node"⟩

end Permission

end TypedGraph

import TypedGraph.Proofs.Update.ListUpdate

/-!
# Proofs/Update/Deletion — what is deleted in memory is what a store pulls

A store that is given an object pulls the elements that satisfy it, and those that are equal to any
other operand (`Query.pulls`).  A deletion compiles to an operand that selects the elements that it
deletes in memory (`pulls_pullOperand`): literals by equality, one alone or several in a list, and a
filter by its condition.

Two things come between.  One literal that is an object is taken for a condition, not for a value;
and operands of inequalities are merged as if equality were transitive.
-/

namespace TypedGraph

namespace Query

/-- **Whether a store pulls an element**: an object asks for it as for an element of a list, and any
other operand by equality. -/
def pulls (patterns : PatternEngine) (operand x : Value) : Bool :=
  match operand with
  | .obj condition => operatorHolds patterns.search .elemMatch (.obj condition) (some (.arr [x]))
  | literal => Value.equal x literal

variable {patterns : PatternEngine}

theorem pulls_obj (condition : Record Value) (x : Value) :
    pulls patterns (.obj condition) x = Clause.holdsOfElement patterns.search condition x := by
  rw [pulls, Clause.operatorHolds_elemMatch]
  exact Bool.or_false _

theorem pulls_literal {literal : Value} (h : literal.isObject = false) (x : Value) :
    pulls patterns literal x = Value.equal x literal := by
  cases literal with
  | obj es => cases h
  | _ => rfl

/-- A list of literals is asked for by equality with one of them. -/
theorem pulls_isIn (values : List Value) (x : Value) :
    pulls patterns (.single QueryOperator.isIn.name (.arr values)) x = Value.among x values := by
  rw [Value.single, pulls_obj, Clause.holdsOfElement,
    if_pos (QueryOperator.isOperatorMap_single .isIn _), operatorsHold_single]
  rfl

end Query

namespace Update

open Query (pulls pulls_obj pulls_literal pulls_isIn)

variable {patterns : PatternEngine} {ctx : Context} {t : TypeInfo} {path : FieldPath}
  {field : FieldInfo}

/-- **Literals are pulled by equality**, unless there is one only and it is an object. -/
theorem pulls_pullOperand_literals {values : List Value} (h : ∀ es, values ≠ [.obj es])
    {operand : Value} (hoperand : pullOperand ctx field (.literals values) = .ok operand)
    (x : Value) : pulls patterns operand x = Value.among x values := by
  match values, h, hoperand with
  | [], _, hoperand =>
    cases hoperand
    exact pulls_isIn [] x
  | [_], h, hoperand =>
    cases hoperand
    have hliteral : operand.isObject = false := by
      cases operand with
      | obj es => exact absurd rfl (h es)
      | _ => rfl
    rw [pulls_literal hliteral]
    exact (Bool.or_false _).symm
  | v :: w :: values, _, hoperand =>
    cases hoperand
    exact pulls_isIn (v :: w :: values) x

/-- **What is deleted is what is pulled**, in the order of the list. -/
theorem remove_eq_filter_pulls (hsearch : SuffixSearch ctx.patterns.search)
    (hctx : ctx.WellNamed) {target : DeleteTarget} {list kept : List Value} {operand : Value}
    (hliteral : ∀ es, target ≠ .literals [.obj es])
    (hequal : ∀ filter, target = .filter filter →
      ∀ x ∈ list, Value.EqualTransitive (ComparedIn ctx field filter x))
    (hoperand : pullOperand ctx field target = .ok operand)
    (hkept : target.remove ctx field list = .ok kept) :
    kept = list.filter fun x => !pulls ctx.patterns operand x := by
  cases target with
  | literals values =>
    cases hkept
    have hvalues : ∀ es, values ≠ [.obj es] := fun es heq => hliteral es (heq ▸ rfl)
    refine List.filter_congr fun x _ => ?_
    rw [pulls_pullOperand_literals hvalues hoperand]
  | filter filter =>
    obtain ⟨condition, hcondition, rfl⟩ := map_eq_ok.1 hoperand
    obtain ⟨accepts, haccepts, hkept⟩ := bind_eq_ok.1 hkept
    cases hkept
    refine List.filter_congr fun x hx => ?_
    rw [pulls_obj, holdsOfElement_elementFilter hsearch hctx (hequal filter rfl x hx) hcondition
      haccepts]

/-- **A deletion removes what the store pulls.**  Where it is accepted by both, the list keeps the
elements that the compiled operand does not select, in their order, unless the deletion gives one
object in a list; for a filter, equality has to be transitive among what is compared with each
element. -/
theorem applyListUpdate_delete (hsearch : SuffixSearch ctx.patterns.search)
    (hctx : ctx.WellNamed) (hkind : t.kind.hasFields = true)
    (hfield : t.field field.name = .ok field) (hlist : field.category.isList = true)
    {es : Record Value} {doc : UpdateDocument} {current result : Option (List Value)}
    (hcompile : compile ctx t path (.obj [(field.name, .obj es)]) = .ok doc)
    (happly : applyListUpdate ctx field current (.obj es) = .ok result) {v : Value}
    (hclear : clearRequested es = false) (hinsert : Record.get? es "insert" = none)
    (hdelete : Record.get? es "delete" = some v) (hliteral : ∀ literal, v ≠ .arr [.obj literal])
    (hequal : v.isObject = true →
      ∀ x ∈ current.getD [], Value.EqualTransitive (ComparedIn ctx field v x)) :
    ∃ operand, doc = change .pull (path.child field.name) operand ∧
      result = some ((current.getD []).filter fun x => !pulls ctx.patterns operand x) := by
  have hread : ListEdit.read field (.obj es) = .ok (.delete (DeleteTarget.read v)) := by
    rw [ListEdit.read, ListEdit.readObject, hclear, hinsert, hdelete]
    rfl
  rw [compile_single_list hkind hfield hlist, list_eq, hread] at hcompile
  rw [applyListUpdate_of_read ctx hlist hread] at happly
  obtain ⟨operand, hoperand, rfl⟩ := map_eq_ok.1 hcompile
  obtain ⟨kept, hkept, rfl⟩ := map_eq_ok.1 happly
  refine ⟨operand, rfl, congrArg some (remove_eq_filter_pulls hsearch hctx ?_ ?_ hoperand hkept)⟩
  · intro literal htarget
    cases v with
    | arr items => exact hliteral literal (congrArg Value.arr (DeleteTarget.literals.inj htarget))
    | _ => cases htarget
  · intro filter htarget
    obtain ⟨rfl, hobject⟩ := DeleteTarget.eq_of_read_eq_filter htarget
    exact hequal hobject

/-- Two inequalities, one of them with null, are merged into one and stand beside an order: of the
scores the nine is deleted. -/
theorem applyListUpdate_delete_scores :
    let user := (Schema.sample.types.head (List.cons_ne_nil _ _)).2
    let scores : FieldInfo := ⟨"scores", "Int", .scalarList⟩
    let filter : Value := .obj [("ne", .arr [.int 5, .int 7]), ("exists", .bool true),
      ("gt", .int 3)]
    let update : Value := .single "delete" filter
    let list : List Value := [.int 1, .null, .int 9, .int 5]
    ∃ operand, compile .sample user .document (.obj [("scores", update)]) =
        .ok (change .pull (.child .document "scores") operand) ∧
      applyListUpdate .sample scores (some list) update = .ok (some [.int 1, .null, .int 5]) ∧
      [.int 1, .null, .int 5] = list.filter fun x => !pulls Pattern.engine operand x := by
  intro user scores filter update list
  have hcompile : compile .sample user .document (.obj [(scores.name, update)]) =
      .ok (change .pull (.child .document "scores")
        (.obj [("$nin", .arr [.int 5, .int 7, .null]), ("$gt", .int 3)])) := rfl
  have happly : applyListUpdate .sample scores (some list) update =
      .ok (some [.int 1, .null, .int 5]) := rfl
  have hfilter : ∀ literal, filter ≠ .arr [.obj literal] := fun _ h =>
    absurd (congrArg Value.isArray h) Bool.false_ne_true
  have hexact : list.all Value.isExact = true := by decide
  have hequal : ∀ x ∈ list, Value.EqualTransitive (ComparedIn .sample scores filter x) :=
    fun x hx => equalTransitive_comparedIn rfl rfl (List.all_eq_true.1 hexact x hx)
  obtain ⟨operand, hdoc, hkept⟩ := applyListUpdate_delete (t := user) Pattern.suffixSearch_engine
    Context.sample_wellNamed rfl rfl rfl hcompile happly rfl rfl rfl hfilter fun _ => hequal
  exact ⟨operand, hdoc ▸ hcompile, happly, Option.some_inj.1 hkept⟩

/-- **A store may pull more than is deleted.**  One object in a list is deleted by equality and
pulled as a condition, which a post with another entry satisfies too.  And of two inequalities with
numbers that are equal only as doubles the store knows one. -/
theorem applyListUpdate_delete_pulls_more :
    let user := (Schema.sample.types.head (List.cons_ne_nil _ _)).2
    let posts : FieldInfo := ⟨"posts", "Post", .objectList⟩
    let scores : FieldInfo := ⟨"scores", "Int", .scalarList⟩
    let bare : Value := .obj [("title", .str "a")]
    let liked : Value := .obj [("title", .str "a"), ("likes", .int 1)]
    let even : Int := 9007199254740992
    let float : Value := .num (.float (.ofInt even))
    let others : Value := .obj [("exists", .bool true), ("ne", .arr [.int even, float])]
    let rest : Value := .single "$nin" (.arr [.null, .int even])
    (compile .sample user .document (.obj [("posts", .single "delete" (.arr [bare]))]) =
        .ok (change .pull (.child .document "posts") bare) ∧
      applyListUpdate .sample posts (some [liked, bare]) (.single "delete" (.arr [bare])) =
        .ok (some [liked]) ∧
      pulls Pattern.engine bare liked = true) ∧
    compile .sample user .document (.obj [("scores", .single "delete" others)]) =
        .ok (change .pull (.child .document "scores") rest) ∧
      applyListUpdate .sample scores (some [.int (even + 1)]) (.single "delete" others) =
        .ok (some [.int (even + 1)]) ∧
      pulls Pattern.engine rest (.int (even + 1)) = true := by
  intro user posts scores bare liked even float others rest
  have hfloat : Value.equal float (.int even) = true := by decide +kernel
  have hnext : Value.equal (.int (even + 1)) float = true := by decide +kernel
  have hunite : Clause.unite [.null] [.int even, float] = [.null, .int even] := by
    have hnull : Value.equal (.int even) .null = false := rfl
    simp [Clause.unite, Value.among, hfloat, hnull]
  have hcompile : compile .sample user .document (.obj [("scores", .single "delete" others)]) =
      .ok (change .pull (.child .document "scores")
        (.single "$nin" (.arr (Clause.unite [.null] [.int even, float])))) := rfl
  have happly : applyListUpdate .sample scores (some [.int (even + 1)]) (.single "delete" others) =
      .ok (some ([.int (even + 1)].filter fun x =>
        !Condition.allHold Pattern.engine (Filter.readScalar (.element 0) others) x)) := rfl
  have hkept : Condition.allHold Pattern.engine (Filter.readScalar (.element 0) others)
      (.int (even + 1)) =
        (true && (!Value.among (.int (even + 1)) [.int even, float] && true)) := rfl
  refine ⟨⟨rfl, rfl, rfl⟩, hcompile.trans (by rw [hunite]), happly.trans ?_, rfl⟩
  simp [hkept, Value.among, hnext]

end Update

end TypedGraph

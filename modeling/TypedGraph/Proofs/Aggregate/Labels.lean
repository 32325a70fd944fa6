import TypedGraph.Aggregate.Request
import TypedGraph.Proofs.Outcome

/-!
# Proofs/Aggregate/Labels — the result under a label

Several requests may have one label.  Results are written one after the other, so that a label holds
the result of the last request that has it (`IsLast`): in memory (`get?_collect`), and in the row of
a group (`ofRow_rows`), where the identifier of the row is the one name that is no label.
-/

namespace TypedGraph

namespace AggregateRequest

/-- **The last request of a label.** -/
def IsLast (a : AggregateRequest) (requests : List AggregateRequest) : Prop :=
  ∃ before after, requests = before ++ a :: after ∧ ∀ b ∈ after, b.label ≠ a.label

theorem IsLast.mem {a : AggregateRequest} {requests : List AggregateRequest}
    (h : a.IsLast requests) : a ∈ requests := by
  obtain ⟨before, after, rfl, -⟩ := h
  exact List.mem_append_right _ List.mem_cons_self

/-- Every label has a last request. -/
theorem exists_isLast {b : AggregateRequest} : ∀ {requests : List AggregateRequest},
    b ∈ requests → ∃ a : AggregateRequest, a.IsLast requests ∧ a.label = b.label
  | [], h => nomatch h
  | c :: requests, h => by
    by_cases hlater : ∃ x ∈ requests, x.label = b.label
    · obtain ⟨x, hx, hlabel⟩ := hlater
      obtain ⟨a, ⟨before, after, rfl, hafter⟩, ha⟩ := exists_isLast hx
      exact ⟨a, ⟨c :: before, after, rfl, hafter⟩, ha.trans hlabel⟩
    · obtain rfl : b = c := (List.mem_cons.1 h).resolve_right fun hb => hlater ⟨b, hb, rfl⟩
      exact ⟨b, ⟨[], requests, rfl, fun x hx hlabel => hlater ⟨x, hx, hlabel⟩⟩, rfl⟩

/-- The filter of a request as an expression on edges, where there is one. -/
def condition (ctx : Context) (t : TypeInfo) (a : AggregateRequest) :
    Except Error (Option Value) :=
  match a.filter with
  | some f => (Filter.expression ctx t (FieldPath.ofDotted ctx.config.nodePath) f).map some
  | none => .ok none

/-- The expression that a request reduces. -/
def operand (config : Config) (a : AggregateRequest) (condition : Option Value) : Value :=
  match a.function, condition with
  | .count, _ => Expression.call .cond
    [Expression.conjunction (condition.toList ++
      [Expression.call .ne [Expression.valueOrNull (a.path config), .null]]), .int 1, .int 0]
  | _, some c => Expression.call .cond [c, Expression.pathReference (a.path config), .null]
  | _, none => Expression.pathReference (a.path config)

/-- **An accumulator** reduces the expression of its request. -/
theorem accumulator_eq (ctx : Context) (t : TypeInfo) (a : AggregateRequest) :
    a.accumulator ctx t = a.validate t >>= fun _ => (a.condition ctx t).map fun condition =>
      .single a.function.reducer.name (a.operand ctx.config condition) := by
  unfold accumulator condition
  cases a.validate t with
  | error e => rfl
  | ok =>
    cases a.filter with
    | none => rfl
    | some f =>
      dsimp only [bind, Except.bind]
      cases Filter.expression ctx t (FieldPath.ofDotted ctx.config.nodePath) f <;> rfl

end AggregateRequest

namespace Aggregate

open AggregateRequest (IsLast)

variable {requests : List AggregateRequest} {a : AggregateRequest}

/-! ## Results in memory -/

/-- The results of requests, each with its label. -/
def labelled (result : AggregateRequest → Except Error Value)
    (requests : List AggregateRequest) : Except Error (Record Value) :=
  requests.mapM fun a => (result a).map fun v => (a.label, v)

/-- **Results are collected by writing them** under their labels. -/
theorem collect_eq (requests : List AggregateRequest)
    (result : AggregateRequest → Except Error Value) (start : Record Value) :
    collect requests result start = (labelled result requests).map (Record.putAll start) := by
  induction requests generalizing start with
  | nil => rfl
  | cons a requests ih =>
    rw [collect, List.foldlM_cons, labelled, List.mapM_cons]
    cases result a with
    | error e => rfl
    | ok v =>
      refine (ih (Record.put start a.label v)).trans ?_
      rw [labelled]
      cases (requests.mapM fun a => (result a).map fun v => (a.label, v)) <;> rfl

theorem names_labelled {result : AggregateRequest → Except Error Value} :
    ∀ {requests : List AggregateRequest} {results : Record Value},
      labelled result requests = .ok results →
        Record.names results = requests.map AggregateRequest.label
  | [], _, h => by cases h; rfl
  | a :: requests, _, h => by
    obtain ⟨c, cs, hc, hcs, rfl⟩ := mapM_cons_eq_ok.1 h
    obtain ⟨v, -, rfl⟩ := map_eq_ok.1 hc
    exact congrArg (a.label :: ·) (names_labelled hcs)

/-- What is collected is what was there and the results of the labels. -/
theorem mem_names_collect {result : AggregateRequest → Except Error Value}
    {start results : Record Value} (h : collect requests result start = .ok results) {name : String}
    (hname : name ∈ Record.names results) :
    name ∈ Record.names start ∨ ∃ a ∈ requests, a.label = name := by
  rw [collect_eq] at h
  obtain ⟨entries, hentries, rfl⟩ := map_eq_ok.1 h
  refine (Record.mem_names_putAll hname).imp_right fun hmem => ?_
  rw [names_labelled hentries] at hmem
  exact List.mem_map.1 hmem

theorem nodup_collect {result : AggregateRequest → Except Error Value}
    {start results : Record Value} (h : collect requests result start = .ok results)
    (hstart : (Record.names start).Nodup) : (Record.names results).Nodup := by
  rw [collect_eq] at h
  obtain ⟨entries, -, rfl⟩ := map_eq_ok.1 h
  exact Record.nodup_names_putAll hstart entries

/-- **A label holds the result of its last request.** -/
theorem get?_collect {result : AggregateRequest → Except Error Value}
    {start results : Record Value} (h : collect requests result start = .ok results)
    (ha : a.IsLast requests) :
    ∃ v, result a = .ok v ∧ Record.get? results a.label = some v := by
  obtain ⟨before, after, rfl, hafter⟩ := ha
  rw [collect_eq, labelled, List.mapM_append] at h
  obtain ⟨entries, hentries, rfl⟩ := map_eq_ok.1 h
  obtain ⟨first, -, hentries⟩ := bind_eq_ok.1 hentries
  obtain ⟨rest, hrest, hentries⟩ := bind_eq_ok.1 hentries
  obtain ⟨c, last, hc, hlast, rfl⟩ := mapM_cons_eq_ok.1 hrest
  obtain ⟨v, hv, rfl⟩ := map_eq_ok.1 hc
  cases hentries
  refine ⟨v, hv, Record.get?_putAll_last start first ?_ v⟩
  rw [names_labelled hlast]
  rintro hmem
  obtain ⟨b, hb, hlabel⟩ := List.mem_map.1 hmem
  exact hafter b hb hlabel

end Aggregate

/-! ## Results of a group -/

namespace Group

/-- What a group holds under a name. -/
theorem get?_row (docs : List Value) (name : String) : ∀ group : Record Value,
    Record.get? (row docs group) name = (Record.get? group name).map fun accumulator =>
      if name = "_id" then .null else accumulate docs accumulator
  | [] => rfl
  | (k, accumulator) :: group => by
    have hcons : row docs ((k, accumulator) :: group) =
        (k, if k = "_id" then .null else accumulate docs accumulator) :: row docs group := rfl
    rw [hcons, Record.get?, Record.get?]
    by_cases hk : k = name
    · rw [if_pos hk, if_pos hk, hk]
      rfl
    · rw [if_neg hk, if_neg hk, get?_row docs name group]

end Group

namespace Aggregate

variable {ctx : Context} {t : TypeInfo} {requests : List AggregateRequest} {a : AggregateRequest}

/-- What a request reads of an accumulator: its default where that has no value. -/
def valueOver (a : AggregateRequest) (docs : List Value) (accumulator : Value) : Value :=
  (Value.present? (Group.accumulate docs accumulator)).getD a.function.emptyValue

/-- Over no documents a request has its default. -/
theorem valueOver_nil {accumulator : Value} (h : a.accumulator ctx t = .ok accumulator) :
    valueOver a [] accumulator = a.function.emptyValue := by
  rw [AggregateRequest.accumulator_eq] at h
  obtain ⟨-, -, h⟩ := bind_eq_ok.1 h
  obtain ⟨condition, -, rfl⟩ := map_eq_ok.1 h
  unfold valueOver
  cases a.function <;> rfl

/-- **In the row of its group stage** a label holds the value of its last request over the
documents, unless it is the identifier of the row. -/
theorem ofRow_rows {stage : Record Value} (h : groupStage ctx t requests = .ok stage)
    (ha : a.IsLast requests) (hlabel : a.label ≠ "_id") (docs : List Value) :
    ∃ accumulator, a.accumulator ctx t = .ok accumulator ∧
      ofRow ((Group.rows stage docs).headD []) a = valueOver a docs accumulator := by
  obtain ⟨group, hgroup, rfl⟩ := map_eq_ok.1 h
  obtain ⟨accumulator, haccumulator, hfound⟩ := get?_collect hgroup ha
  refine ⟨accumulator, haccumulator, ?_⟩
  cases docs with
  | nil => exact (valueOver_nil haccumulator).symm
  | cons d ds =>
    have hrows : (Group.rows [("$group", .obj group)] (d :: ds)).headD [] =
        Group.row (d :: ds) group := rfl
    rw [hrows, ofRow, Group.get?_row, hfound, Option.map_some, if_neg hlabel]
    rfl

/-- The results that are read out of rows, with their labels. -/
theorem get?_ofRows (ha : a.IsLast requests) (rows : List (Record Value)) :
    Record.get? (ofRows requests rows) a.label = some (ofRow (rows.headD []) a) := by
  obtain ⟨before, after, rfl, hafter⟩ := ha
  rw [ofRows, List.map_append, List.map_cons]
  refine Record.get?_putAll_last [] _ ?_ _
  rw [Record.names, List.map_map]
  intro hmem
  obtain ⟨b, hb, hlabel⟩ := List.mem_map.1 hmem
  exact hafter b hb hlabel

theorem mem_names_ofRows {rows : List (Record Value)} {name : String}
    (h : name ∈ Record.names (ofRows requests rows)) : ∃ a ∈ requests, a.label = name := by
  have hmem := (Record.mem_names_putAll h).resolve_left List.not_mem_nil
  rw [Record.names, List.map_map] at hmem
  exact List.mem_map.1 hmem

theorem nodup_ofRows (rows : List (Record Value)) :
    (Record.names (ofRows requests rows)).Nodup :=
  Record.nodup_names_putAll (r := []) List.nodup_nil _

end Aggregate

end TypedGraph

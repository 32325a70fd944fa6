import TypedGraph.Proofs.Outcome
import TypedGraph.Proofs.Value.Equality
import TypedGraph.Query.Clause
import TypedGraph.Query.Evaluator

/-!
# Proofs/Query/Element — one map of operators means all that was merged into it

The operators that the clauses on a plain element ask are merged into one map, in which no operator
may come twice: two equalities intersect their operands and two inequalities unite them.  The map
holds of an element exactly where each operator holds that was merged into it
(`addOperator_spec`, `elementOperators_spec`).  Where an equality has met another, this rests on
equality being transitive among the operands and the element; that two members of a family never
stand side by side in the map is the invariant (`Merged`).
-/

namespace TypedGraph

/-! ## Taking entries out and putting them in -/

namespace Record

variable {α : Type} {r rest : Record α} {name : String} {x : α}

theorem eq_of_split? : ∀ {r before after : Record α}, split? r name = some (before, x, after) →
    r = before ++ (name, x) :: after
  | [], _, _, h => nomatch h
  | (k, v) :: r, before, after, h => by
    rw [split?] at h
    split at h
    · next hk =>
      cases h
      rw [hk, List.nil_append]
    · cases hs : split? r name with
      | none => simp [hs] at h
      | some parts =>
        obtain ⟨b, y, a⟩ := parts
        rw [hs] at h
        cases h
        rw [eq_of_split? hs, List.cons_append]

theorem names_ne_of_split? : ∀ {r : Record α}, split? r name = none → ∀ e ∈ r, e.1 ≠ name
  | [], _, _, he => nomatch he
  | (k, v) :: r, h, e, he => by
    rw [split?] at h
    split at h
    · exact nomatch h
    · next hk =>
      rcases List.mem_cons.1 he with rfl | he
      · exact hk
      · exact names_ne_of_split? (Option.map_eq_none_iff.1 h) e he

/-- **What is taken out and the rest** are the entries of the record. -/
theorem perm_of_swapRemove? (h : swapRemove? r name = some (x, rest)) :
    r.Perm ((name, x) :: rest) := by
  rw [swapRemove?] at h
  obtain ⟨⟨before, y, after⟩, hs, hrest⟩ := Option.map_eq_some_iff.1 h
  rw [eq_of_split? hs]
  refine List.perm_middle.trans ?_
  dsimp only at hrest
  split at hrest
  · next hlast =>
    cases hrest
    rw [List.getLast?_eq_none_iff.1 hlast, List.append_nil]
  · next last hlast =>
    cases hrest
    obtain ⟨init, rfl⟩ := List.getLast?_eq_some_iff.1 hlast
    rw [List.dropLast_concat]
    exact ((List.perm_append_singleton last init).append_left before).cons _

theorem names_ne_of_swapRemove? (h : swapRemove? r name = none) : ∀ e ∈ r, e.1 ≠ name :=
  names_ne_of_split? (Option.map_eq_none_iff.1 h)

theorem names_ne_of_has : ∀ {r : Record α}, has r name = false → ∀ e ∈ r, e.1 ≠ name
  | [], _, _, he => nomatch he
  | (k, v) :: r, h, e, he => by
    rw [has, get?] at h
    split at h
    · cases h
    · next hk =>
      rcases List.mem_cons.1 he with rfl | he
      · exact hk
      · exact names_ne_of_has h e he

end Record

/-! ## Maps of operators -/

namespace Query

variable (search : String → String → Bool)

/-- Whether the operator of an entry holds of a value. -/
def entryHolds (v : Option Value) (e : String × Value) : Bool :=
  match QueryOperator.ofName? e.1 with
  | some operator => operatorHolds search operator e.2 v
  | none => false

theorem operatorsHold_eq_all (v : Option Value) :
    ∀ es : Record Value, operatorsHold search es v = es.all (entryHolds search v)
  | [] => rfl
  | (name, operand) :: es => by
    rw [operatorsHold, operatorsHold_eq_all v es, List.all_cons]
    rfl

theorem operatorsHold_cons (v : Option Value) (e : String × Value) (es : Record Value) :
    operatorsHold search (e :: es) v = (entryHolds search v e && operatorsHold search es v) := by
  rw [operatorsHold_eq_all, operatorsHold_eq_all, List.all_cons]

theorem operatorsHold_append (v : Option Value) (es fs : Record Value) :
    operatorsHold search (es ++ fs) v =
      (operatorsHold search es v && operatorsHold search fs v) := by
  rw [operatorsHold_eq_all, operatorsHold_eq_all, operatorsHold_eq_all, List.all_append]

theorem operatorsHold_perm {v : Option Value} {es fs : Record Value} (h : es.Perm fs) :
    operatorsHold search es v = operatorsHold search fs v := by
  rw [operatorsHold_eq_all, operatorsHold_eq_all, Bool.eq_iff_iff, List.all_eq_true,
    List.all_eq_true]
  exact forall_congr' fun e => by rw [h.mem_iff]

@[simp] theorem entryHolds_name (v : Option Value) (o : QueryOperator) (x : Value) :
    entryHolds search v (o.name, x) = operatorHolds search o x v := by
  rw [entryHolds, QueryOperator.ofName?_name]

theorem operatorsHold_single (o : QueryOperator) (x : Value) (v : Option Value) :
    operatorsHold search [(o.name, x)] v = operatorHolds search o x v := by
  rw [operatorsHold_cons, entryHolds_name, operatorsHold, Bool.and_true]

theorem operatorHolds_not_single (o : QueryOperator) (x : Value) (v : Option Value) :
    operatorHolds search .not (.single o.name x) v = !operatorHolds search o x v := by
  rw [Value.single, operatorHolds, operatorsHold_single]

end Query

namespace QueryOperator

theorem name_inj {o p : QueryOperator} (h : o.name = p.name) : o = p := by
  have := congrArg ofName? h
  rw [ofName?_name, ofName?_name] at this
  exact Option.some.inj this

/-- No operator is a connective. -/
theorem isOperatorMap_single (o : QueryOperator) (x : Value) :
    isOperatorMap [(o.name, x)] = true := by
  cases o with
  | compare c => cases c <;> rfl
  | _ => rfl

/-- The operator of one operand in whose family an operator is. -/
def family : QueryOperator → QueryOperator
  | .isIn => .eq
  | .notIn => .ne
  | o => o

/-- The family of an entry's operator. -/
def familyOf? (e : String × Value) : Option QueryOperator := (ofName? e.1).map family

theorem familyOf?_eq {e : String × Value} {o : QueryOperator} (h : e.1 = o.name) :
    familyOf? e = some o.family := by
  rw [familyOf?, h, ofName?_name]
  rfl

/-- Whether an operator of one operand and one of several share a meaning. -/
structure IsFamily (single list : QueryOperator) : Prop where
  family_eq : ∀ o : QueryOperator, o.family = single ↔ o = single ∨ o = list

theorem isFamily_eq : IsFamily .eq .isIn := ⟨fun o => by cases o <;> simp [family]⟩

theorem isFamily_ne : IsFamily .ne .notIn := ⟨fun o => by cases o <;> simp [family]⟩

end QueryOperator

namespace Clause

open Query QueryOperator

variable {S : Value → Prop}

/-- The operands that an operator may have: values of a set for equalities and inequalities, and a
map of operators to negate. -/
def IsOperand (S : Value → Prop) : QueryOperator → Value → Prop
  | .eq, x | .ne, x => S x
  | .isIn, x | .notIn, x => ∃ xs, x = .arr xs ∧ ∀ y ∈ xs, S y
  | .not, x => ∃ inner, x = .obj inner ∧ isOperatorMap inner
  | _, _ => True

/-- **An entry of a map of operators.** -/
def Asked (S : Value → Prop) (e : String × Value) : Prop :=
  ∃ o : QueryOperator, e.1 = o.name ∧ IsOperand S o e.2

/-- **A merged map**: its entries are operators, no two of one family. -/
structure Merged (S : Value → Prop) (operators : Record Value) : Prop where
  asked : ∀ e ∈ operators, Asked S e
  apart : (operators.map familyOf?).Nodup

theorem merged_nil : Merged S [] := ⟨nofun, List.nodup_nil⟩

theorem Merged.perm {operators other : Record Value} (h : Merged S operators)
    (hp : operators.Perm other) : Merged S other where
  asked e he := h.asked e (hp.mem_iff.2 he)
  apart := (hp.map _).nodup h.apart

theorem Merged.tail {e : String × Value} {operators : Record Value}
    (h : Merged S (e :: operators)) : Merged S operators where
  asked f hf := h.asked f (List.mem_cons_of_mem _ hf)
  apart := (List.nodup_cons.1 h.apart).2

/-- The other entries of a merged map are of other families. -/
theorem Merged.family_ne {o : QueryOperator} {x : Value} {operators : Record Value}
    (h : Merged S ((o.name, x) :: operators)) :
    ∀ e ∈ operators, ∀ p : QueryOperator, e.1 = p.name → p.family ≠ o.family := by
  intro e he p hp hfamily
  refine (List.nodup_cons.1 h.apart).1 (List.mem_map.2 ⟨e, he, ?_⟩)
  rw [familyOf?_eq hp, familyOf?_eq rfl, hfamily]

/-- An operator of a new family may be added. -/
theorem Merged.concat {o : QueryOperator} {x : Value} {operators : Record Value}
    (h : Merged S operators) (hx : IsOperand S o x)
    (hnew : ∀ e ∈ operators, ∀ p : QueryOperator, e.1 = p.name → p.family ≠ o.family) :
    Merged S (operators ++ [(o.name, x)]) := by
  refine Merged.perm ?_ (List.perm_append_singleton _ _).symm
  refine ⟨fun e he => ?_, List.nodup_cons.2 ⟨fun hmem => ?_, h.apart⟩⟩
  · rcases List.mem_cons.1 he with rfl | he
    · exact ⟨o, rfl, hx⟩
    · exact h.asked e he
  · obtain ⟨e, he, heq⟩ := List.mem_map.1 hmem
    obtain ⟨p, hp, -⟩ := h.asked e he
    rw [familyOf?_eq hp, familyOf?_eq rfl] at heq
    exact hnew e he p hp (Option.some.inj heq)

theorem takeEither?_some {operators rest : Record Value} {a b o : QueryOperator} {x : Value}
    (h : takeEither? operators a b = some (o, x, rest)) :
    (o = a ∨ o = b) ∧ operators.Perm ((o.name, x) :: rest) := by
  rw [takeEither?] at h
  split at h
  · next ha =>
    cases h
    exact ⟨.inl rfl, Record.perm_of_swapRemove? ha⟩
  · obtain ⟨⟨y, r⟩, hb, heq⟩ := Option.map_eq_some_iff.1 h
    cases heq
    exact ⟨.inr rfl, Record.perm_of_swapRemove? hb⟩

theorem takeEither?_none {operators : Record Value} {a b : QueryOperator}
    (h : takeEither? operators a b = none) : ∀ e ∈ operators, e.1 ≠ a.name ∧ e.1 ≠ b.name := by
  rw [takeEither?] at h
  split at h
  · exact nomatch h
  · next ha =>
    exact fun e he => ⟨Record.names_ne_of_swapRemove? ha e he,
      Record.names_ne_of_swapRemove? (Option.map_eq_none_iff.1 h) e he⟩

/-! ## Adding an operator -/

theorem Merged.add (search : String → String → Bool) (v : Option Value) {o : QueryOperator}
    {x : Value} {operators : Record Value} (h : Merged S operators) (hx : IsOperand S o x)
    (hnew : ∀ e ∈ operators, ∀ p : QueryOperator, e.1 = p.name → p.family ≠ o.family) :
    Merged S (Record.put operators o.name x) ∧
      operatorsHold search (Record.put operators o.name x) v =
        (operatorsHold search operators v && operatorHolds search o x v) := by
  have hput : Record.put operators o.name x = operators ++ [(o.name, x)] :=
    Record.put_of_names_ne fun e he hname => hnew e he o hname rfl
  rw [hput]
  refine ⟨h.concat hx hnew, ?_⟩
  rw [operatorsHold_append, operatorsHold_single]

/-- Two operators of one family mean what the combination of their operands means. -/
structure Combines (S : Value → Prop) (search : String → String → Bool) (v : Option Value)
    (single list : QueryOperator) (combine : List Value → List Value → List Value) : Prop
    extends IsFamily single list where
  operands_mem : ∀ {o : QueryOperator} {x : Value}, o = single ∨ o = list → IsOperand S o x →
    ∀ y ∈ operands o x, S y
  isOperand : ∀ {xs : List Value}, (∀ y ∈ xs, S y) → IsOperand S list (.arr xs)
  combine_mem : ∀ {xs ys : List Value}, ∀ y ∈ combine xs ys, y ∈ xs ∨ y ∈ ys
  holds : ∀ {o : QueryOperator} {x : Value}, o = single ∨ o = list → IsOperand S o x →
    operatorHolds search o x v = operatorHolds search list (.arr (operands o x)) v
  holds_combine : ∀ {xs ys : List Value}, (∀ y ∈ xs, S y) → (∀ y ∈ ys, S y) →
    operatorHolds search list (.arr (combine xs ys)) v =
      (operatorHolds search list (.arr xs) v && operatorHolds search list (.arr ys) v)

/-- **Adding an operator to its family** adds its meaning. -/
theorem addToFamily_spec {search : String → String → Bool} {v : Option Value}
    {single list o : QueryOperator} {combine : List Value → List Value → List Value} {x : Value}
    {ops : Record Value} (hc : Combines S search v single list combine)
    (ho : o = single ∨ o = list) (hx : IsOperand S o x) (h : Merged S ops) :
    Merged S (addToFamily ops single list combine o x) ∧
      operatorsHold search (addToFamily ops single list combine o x) v =
        (operatorsHold search ops v && operatorHolds search o x v) := by
  have hfamily : o.family = single := (hc.family_eq o).2 ho
  unfold addToFamily
  split
  · next hnone =>
    refine h.add search v hx fun e he p hp heq => ?_
    have hnames := takeEither?_none hnone e he
    rcases (hc.family_eq p).1 (heq.trans hfamily) with rfl | rfl
    · exact hnames.1 hp
    · exact hnames.2 hp
  · next existing y rest hsome =>
    obtain ⟨hexisting, hperm⟩ := takeEither?_some hsome
    have htaken : Merged S ((existing.name, y) :: rest) := h.perm hperm
    have hy : IsOperand S existing y := by
      obtain ⟨p, hp, hy⟩ := htaken.asked _ List.mem_cons_self
      exact name_inj hp ▸ hy
    have hxs := hc.operands_mem hexisting hy
    have hys := hc.operands_mem ho hx
    have hcombined : IsOperand S list (.arr (combine (operands existing y) (operands o x))) :=
      hc.isOperand fun z hz => (hc.combine_mem z hz).elim (hxs z) (hys z)
    have hlist : existing.family = list.family := by
      rw [(hc.family_eq existing).2 hexisting, (hc.family_eq list).2 (.inr rfl)]
    obtain ⟨hmerged, hholds⟩ := htaken.tail.add search v hcombined
      (hlist ▸ htaken.family_ne)
    refine ⟨hmerged, ?_⟩
    rw [hholds, hc.holds_combine hxs hys, ← hc.holds hexisting hy, ← hc.holds ho hx,
      operatorsHold_perm search hperm, operatorsHold_cons, entryHolds_name]
    exact (Bool.and_left_comm _ _ _).trans (Bool.and_assoc _ _ _).symm

/-! ## Equalities and inequalities -/

/-- Whether an element equals one of some operands. -/
def accepts (xs : List Value) (v : Value) : Bool := xs.any (Value.equal v)

variable {v : Value}

/-- **Equalities to some of two lists each** are an equality to what is in both. -/
theorem accepts_intersection (hS : Value.EqualTransitive S) (hv : S v) {xs ys : List Value}
    (hxs : ∀ x ∈ xs, S x) (hys : ∀ y ∈ ys, S y) :
    accepts (intersection xs ys) v = (accepts xs v && accepts ys v) := by
  rw [Bool.eq_iff_iff, Bool.and_eq_true]
  simp only [accepts, intersection, Value.among, List.any_eq_true, List.mem_filter]
  constructor
  · rintro ⟨x, ⟨hx, y, hy, hxy⟩, hvx⟩
    exact ⟨⟨x, hx, hvx⟩, y, hy, hS hv (hxs x hx) (hys y hy) hvx hxy⟩
  · rintro ⟨⟨x, hx, hvx⟩, y, hy, hvy⟩
    have hxv : Value.equal x v := Value.equal_comm v x ▸ hvx
    exact ⟨x, ⟨hx, y, hy, hS (hxs x hx) hv (hys y hy) hxv hvy⟩, hvx⟩

theorem mem_unite : ∀ (ys : List Value) {xs : List Value}, ∀ z ∈ unite xs ys, z ∈ xs ∨ z ∈ ys
  | [], _, _, hz => .inl hz
  | y :: ys, xs, z, hz => by
    rcases mem_unite ys z hz with hz | hz
    · dsimp only at hz
      split at hz
      · exact .inl hz
      · rcases List.mem_append.1 hz with hz | hz
        · exact .inl hz
        · exact .inr (List.mem_cons.2 (.inl (List.mem_singleton.1 hz)))
    · exact .inr (List.mem_cons_of_mem _ hz)

/-- **An equality to one of two lists** is an equality to one of their union. -/
theorem accepts_unite (hS : Value.EqualTransitive S) (hv : S v) :
    ∀ {ys xs : List Value}, (∀ x ∈ xs, S x) → (∀ y ∈ ys, S y) →
      accepts (unite xs ys) v = (accepts xs v || accepts ys v)
  | [], xs, _, _ => by simp [unite, accepts]
  | y :: ys, xs, hxs, hys => by
    have hy : S y := hys y List.mem_cons_self
    have hys' : ∀ z ∈ ys, S z := fun z hz => hys z (List.mem_cons_of_mem _ hz)
    rw [unite, List.foldl_cons, ← unite, accepts_unite hS hv ?_ hys']
    · split
      · next hamong =>
        obtain ⟨x, hx, hyx⟩ := List.any_eq_true.1 hamong
        have habsorb : Value.equal v y → accepts xs v := fun hvy =>
          List.any_eq_true.2 ⟨x, hx, hS hv hy (hxs x hx) hvy hyx⟩
        simp only [accepts, List.any_cons] at habsorb ⊢
        cases h : Value.equal v y with
        | false => rw [Bool.false_or]
        | true => rw [habsorb h, Bool.true_or, Bool.true_or]
      · simp [accepts, List.any_append, Bool.or_assoc]
    · intro x hx
      split at hx
      · exact hxs x hx
      · rcases List.mem_append.1 hx with hx | hx
        · exact hxs x hx
        · exact List.mem_singleton.1 hx ▸ hy

theorem combines_eq (search : String → String → Bool) (hS : Value.EqualTransitive S) (hv : S v) :
    Combines S search (some v) .eq .isIn intersection where
  toIsFamily := isFamily_eq
  operands_mem ho hx := by
    rcases ho with rfl | rfl
    · simpa [operands, IsOperand] using hx
    · obtain ⟨xs, rfl, hxs⟩ := hx
      exact hxs
  isOperand hxs := ⟨_, rfl, hxs⟩
  combine_mem y hy := .inl (List.mem_filter.1 hy).1
  holds ho hx := by
    rcases ho with rfl | rfl
    · simp [operands, operatorHolds]
    · obtain ⟨xs, rfl, -⟩ := hx
      rfl
  holds_combine hxs hys := accepts_intersection hS hv hxs hys

theorem combines_ne (search : String → String → Bool) (hS : Value.EqualTransitive S) (hv : S v) :
    Combines S search (some v) .ne .notIn unite where
  toIsFamily := isFamily_ne
  operands_mem ho hx := by
    rcases ho with rfl | rfl
    · simpa [operands, IsOperand] using hx
    · obtain ⟨xs, rfl, hxs⟩ := hx
      exact hxs
  isOperand hxs := ⟨_, rfl, hxs⟩
  combine_mem := mem_unite _
  holds ho hx := by
    rcases ho with rfl | rfl
    · simp [operands, operatorHolds]
    · obtain ⟨xs, rfl, -⟩ := hx
      rfl
  holds_combine hxs hys :=
    (congrArg not (accepts_unite hS hv hxs hys)).trans (Bool.not_or _ _)

/-! ## Merging -/

/-- An operator that shares its meaning with no other may come once. -/
theorem Merged.addOther {search : String → String → Bool} {o : QueryOperator} {x : Value}
    {ops result : Record Value} (h : Merged S ops) (hx : IsOperand S o x)
    (ho : ∀ p : QueryOperator, p.family = o.family → p = o)
    (hok : (if Record.has ops o.name then .error (.schema (.conflictingElement o.name))
      else .ok (Record.put ops o.name x) : Except Error (Record Value)) = .ok result) :
    Merged S result ∧ operatorsHold search result (some v) =
      (operatorsHold search ops (some v) && operatorHolds search o x (some v)) := by
  split at hok
  · cases hok
  · next hhas =>
    cases hok
    refine h.add search (some v) hx fun e he p hp hfamily => ?_
    exact Record.names_ne_of_has (Bool.eq_false_iff.2 hhas) e he (ho p hfamily ▸ hp)

/-- **Adding an operator** to a merged map adds its meaning. -/
theorem addOperator_spec (search : String → String → Bool) (hS : Value.EqualTransitive S)
    (hv : S v) {ops result : Record Value} {e : String × Value} (h : Merged S ops)
    (he : Asked S e) (hok : addOperator ops e.1 e.2 = .ok result) :
    Merged S result ∧ operatorsHold search result (some v) =
      (operatorsHold search ops (some v) && entryHolds search (some v) e) := by
  obtain ⟨name, x⟩ := e
  obtain ⟨o, rfl, hx⟩ := he
  dsimp only at hok hx
  rw [entryHolds_name]
  rw [addOperator, ofName?_name] at hok
  cases o with
  | eq =>
    cases hok
    exact addToFamily_spec (combines_eq search hS hv) (.inl rfl) hx h
  | isIn =>
    cases hok
    exact addToFamily_spec (combines_eq search hS hv) (.inr rfl) hx h
  | ne =>
    cases hok
    exact addToFamily_spec (combines_ne search hS hv) (.inl rfl) hx h
  | notIn =>
    cases hok
    exact addToFamily_spec (combines_ne search hS hv) (.inr rfl) hx h
  | _ => exact h.addOther hx (fun p hp => by cases p <;> simp_all [family]) hok

theorem addOperator_ne_nil {ops result : Record Value} {name : String} {x : Value}
    (hok : addOperator ops name x = .ok result) : result ≠ [] := by
  have hadd : ∀ (a b : QueryOperator) f o, addToFamily ops a b f o x ≠ [] := by
    intro a b f o
    unfold addToFamily
    split <;> exact Record.put_ne_nil _ _ _
  unfold addOperator at hok
  split at hok
  · cases hok; exact hadd _ _ _ _
  · cases hok; exact hadd _ _ _ _
  · cases hok; exact hadd _ _ _ _
  · cases hok; exact hadd _ _ _ _
  · split at hok
    · cases hok
    · cases hok; exact Record.put_ne_nil _ _ _

/-- **Adding several operators** one after the other. -/
theorem foldlM_addOperator_spec (search : String → String → Bool) (hS : Value.EqualTransitive S)
    (hv : S v) : ∀ {es ops result : Record Value}, Merged S ops → (∀ e ∈ es, Asked S e) →
      es.foldlM (fun acc (name, x) => addOperator acc name x) ops = .ok result →
      Merged S result ∧ (ops ≠ [] ∨ es ≠ [] → result ≠ []) ∧
        operatorsHold search result (some v) =
          (operatorsHold search ops (some v) && operatorsHold search es (some v))
  | [], ops, result, h, _, hok => by
    cases hok
    exact ⟨h, by simp, by simp [operatorsHold]⟩
  | e :: es, ops, result, h, hes, hok => by
    rw [List.foldlM_cons] at hok
    obtain ⟨next, hnext, hok⟩ := bind_eq_ok.1 hok
    obtain ⟨hmerged, hholds⟩ := addOperator_spec search hS hv h
      (hes e List.mem_cons_self) hnext
    obtain ⟨hmerged', hne, hholds'⟩ := foldlM_addOperator_spec search hS hv hmerged
      (fun f hf => hes f (List.mem_cons_of_mem _ hf)) hok
    refine ⟨hmerged', fun _ => hne (.inl (addOperator_ne_nil hnext)), ?_⟩
    rw [hholds', hholds, operatorsHold_cons, Bool.and_assoc]

/-- **Adding several clauses** one after the other adds all that they ask. -/
theorem foldlM_addClause_spec (search : String → String → Bool) (hS : Value.EqualTransitive S)
    (hv : S v) : ∀ {cs : List Clause} {ops result : Record Value}, Merged S ops →
      (∀ c ∈ cs, ∀ es, c.onElement = .ok es → ∀ e ∈ es, Asked S e) →
      cs.foldlM addClause ops = .ok result → ∃ asked, cs.mapM onElement = .ok asked ∧
        Merged S result ∧ (ops ≠ [] ∨ asked.flatten ≠ [] → result ≠ []) ∧
        operatorsHold search result (some v) =
          (operatorsHold search ops (some v) && operatorsHold search asked.flatten (some v))
  | [], ops, result, h, _, hok => by
    cases hok
    exact ⟨[], rfl, h, by simp, by simp [operatorsHold]⟩
  | c :: cs, ops, result, h, hcs, hok => by
    rw [List.foldlM_cons] at hok
    obtain ⟨next, hadd, hok⟩ := bind_eq_ok.1 hok
    obtain ⟨es, hes, hnext⟩ := bind_eq_ok.1 hadd
    obtain ⟨hmerged, hne, hholds⟩ := foldlM_addOperator_spec search hS hv h
      (hcs c List.mem_cons_self es hes) hnext
    obtain ⟨asked, hasked, hmerged', hne', hholds'⟩ := foldlM_addClause_spec search
      hS hv hmerged (fun d hd => hcs d (List.mem_cons_of_mem _ hd)) hok
    refine ⟨es :: asked, ?_, hmerged', fun hsome => ?_, ?_⟩
    · rw [List.mapM_cons, hes, hasked]
      rfl
    · by_cases hnext : ops ≠ [] ∨ es ≠ []
      · exact hne' (.inl (hne hnext))
      · refine hne' (.inr fun hnil => ?_)
        simp_all
    · rw [hholds', hholds, List.flatten_cons, operatorsHold_append, Bool.and_assoc]

theorem isOperatorMap_of_asked {es : Record Value} (hne : es ≠ []) (h : ∀ e ∈ es, Asked S e) :
    isOperatorMap es := by
  simp only [isOperatorMap, Bool.and_eq_true, Bool.not_eq_true', List.isEmpty_eq_false_iff,
    List.all_eq_true]
  refine ⟨hne, fun e he => ?_⟩
  obtain ⟨o, ho, -⟩ := h e he
  have := isOperatorMap_single o e.2
  simp_all [isOperatorMap]

/-- **The merged map of clauses on a plain element** holds of the element where all operators of
the clauses do. -/
theorem elementOperators_spec (search : String → String → Bool) (hS : Value.EqualTransitive S)
    (hv : S v) {cs : List Clause} {ops : Record Value}
    (hcs : ∀ c ∈ cs, ∀ es, c.onElement = .ok es → ∀ e ∈ es, Asked S e)
    (hok : elementOperators cs = .ok ops) : ∃ asked, cs.mapM onElement = .ok asked ∧
      (asked.flatten ≠ [] → isOperatorMap ops) ∧
      operatorsHold search ops (some v) = operatorsHold search asked.flatten (some v) := by
  obtain ⟨asked, hasked, hmerged, hne, hholds⟩ :=
    foldlM_addClause_spec search hS hv merged_nil hcs hok
  refine ⟨asked, hasked, fun hsome => ?_, by simpa [operatorsHold] using hholds⟩
  exact isOperatorMap_of_asked (hne (.inr hsome)) hmerged.asked

/-- **A negated operator** holds where the operator does not. -/
theorem negated_spec {e : String × Value} (he : Asked S e) :
    ∃ inner, negated e.1 e.2 = .obj inner ∧ isOperatorMap inner ∧
      ∀ search v, operatorsHold search inner v = !entryHolds search v e := by
  obtain ⟨name, x⟩ := e
  obtain ⟨o, rfl, hx⟩ := he
  simp only [negated, ofName?_name, entryHolds_name]
  cases o with
  | eq | ne =>
    refine ⟨_, rfl, isOperatorMap_single _ x, fun search v => ?_⟩
    rw [operatorsHold_single]
    simp [operatorHolds]
  | isIn | notIn =>
    obtain ⟨xs, rfl, -⟩ := hx
    refine ⟨_, rfl, isOperatorMap_single _ _, fun search v => ?_⟩
    rw [operatorsHold_single]
    simp [operatorHolds]
  | not =>
    obtain ⟨inner, rfl, hinner⟩ := hx
    exact ⟨inner, rfl, hinner, fun search v => by simp [operatorHolds]⟩
  | _ =>
    refine ⟨_, rfl, isOperatorMap_single _ _, fun search v => ?_⟩
    rw [operatorsHold_single, operatorHolds_not_single]

end Clause

end TypedGraph

import TypedGraph.Proofs.Filter.Fitting
import TypedGraph.Proofs.Pattern.Suffix
import TypedGraph.Proofs.Query.Element

/-!
# Proofs/Query/Agreement — the query of a filter finds what its predicate accepts

A filter is read once, as conditions, and decided twice: the conditions are tested on a document in
memory, and they are written as clauses of a query that the store evaluates.  Each clause holds of a
document nested under the prefix exactly where its condition holds of the document
(`holdsOn_clauses`), and so do the queries (`holds_query`).

Paths agree because names survive their dotted text, suffixes because their patterns match at the
end only, and conditions on plain elements because merging keeps their meaning.  The remaining
argument is about quantifiers: a value that is no list, a list without items and an element without
conditions each mean the same on both sides (`quantified_spec`).
-/

namespace TypedGraph

/-! ## The dotted texts of paths -/

namespace FieldPath

variable {root : PathRoot} {kind : ElementKind} {p : FieldPath} {initial : List String}

theorem Fits.pathName (hp : p.Fits root kind) : ∀ n ∈ p.segments, PathName n := fun n hn =>
  (hp.plain n hn).toPathName

/-- The names of a path are read back from its dotted text. -/
theorem dottedNames_dotted (hinitial : ∀ n ∈ initial, PathName n) (hp : p.Fits root kind) :
    dottedNames (p.under initial).dotted = initial ++ p.segments :=
  dottedNames_intercalate fun n hn =>
    (List.mem_append.1 hn).elim (hinitial n) (hp.pathName n)

/-- A path to a field has a text, whatever the prefix. -/
theorem dotted_ne_empty (initial : List String) (hp : p.Fits root .object) :
    (p.under initial).dotted ≠ "" := by
  have hne : p.segments ≠ [] := fun h => nomatch hp.start_iff.1 h
  obtain ⟨name, hname⟩ := List.exists_mem_of_ne_nil _ hne
  exact dotted_ne_empty_of_mem (List.mem_append_right _ hname) (hp.plain name hname).nonempty

/-- No path to a field is the name of a connective. -/
theorem ofName?_dotted (hinitial : ∀ n ∈ initial, PathName n) (hp : p.Fits root .object) :
    Connective.ofName? (p.under initial).dotted = none := by
  have hnames := dottedNames_dotted hinitial hp
  have hplain : ∀ n, dottedNames (p.under initial).dotted = [n] →
      isDollarName n = true → False := by
    intro n hn hdollar
    rw [hnames] at hn
    have hne : p.segments ≠ [] := by
      intro h
      cases hp.start_iff.1 h
    have : n ∈ p.segments := by
      cases initial with
      | nil => simp_all
      | cons m ms => simp_all
    exact Bool.false_ne_true ((hp.plain n this).undollared.symm.trans hdollar)
  unfold Connective.ofName?
  split
  · next h => exact (hplain "$and" (by rw [h]; rfl) rfl).elim
  · next h => exact (hplain "$or" (by rw [h]; rfl) rfl).elim
  · next h => exact (hplain "$nor" (by rw [h]; rfl) rfl).elim
  · rfl

/-- A path to a field of an element does not begin with a dollar sign. -/
theorem isDollarName_dotted (hp : p.Fits root .object) : isDollarName p.dotted = false :=
  isDollarName_intercalate hp.pathName fun n hn => (hp.plain n (List.mem_of_head? hn)).undollared

end FieldPath

/-! ## What clauses hold of -/

namespace Clause

open Query

variable {search : String → String → Bool} {S : Value → Prop} {initial : List String}
  {kind : ElementKind} {root : PathRoot} {p : FieldPath}

/-- **Whether a clause holds of a value**, which an empty path leads back to. -/
def holdsOn (search : String → String → Bool) : Clause → Value → Bool
  | .field path operators, v => operatorsHold search operators (v.dotted? path)
  | .document query, v => entriesHold search query v

/-- **The form of a clause** of a condition: operators at a path behind the prefix, or a query
under a connective. -/
def Fits (S : Value → Prop) (initial : List String) (kind : ElementKind) : Clause → Prop
  | .field path operators =>
    (∃ root p, FieldPath.Fits root kind p ∧ path = (p.under initial).dotted) ∧
      operators ≠ [] ∧ ∀ e ∈ operators, Asked S e
  | .document query => kind = .object ∧ ∃ x, query = [(Connective.nor.name, x)]

theorem fits_ask {o : QueryOperator} {x : Value} (hp : p.Fits root kind) (hx : IsOperand S o x) :
    (ask (p.under initial) o x).Fits S initial kind :=
  ⟨⟨root, p, hp, rfl⟩, List.cons_ne_nil _ _, fun e he => by
    rw [List.mem_singleton.1 he]
    exact ⟨o, rfl, hx⟩⟩

/-- An operator at a path behind the prefix is asked of the value at the path. -/
theorem holdsOn_ask (hinitial : ∀ n ∈ initial, PathName n) (hp : p.Fits root kind)
    (o : QueryOperator) (x v : Value) :
    (ask (p.under initial) o x).holdsOn search (Value.nest initial v) =
      operatorHolds search o x (p.valueIn? v) := by
  rw [ask, holdsOn, Value.dotted?_nest hinitial hp.pathName, operatorsHold_single]

theorem fits_nonEmptyList (S : Value → Prop) (hp : p.Fits root kind) :
    (nonEmptyList (p.under initial)).Fits S initial kind :=
  ⟨⟨root, p, hp, rfl⟩, List.cons_ne_nil _ _, fun e he => by
    rcases List.mem_cons.1 he with rfl | he
    · exact ⟨.type, rfl, trivial⟩
    · rw [List.mem_singleton.1 he]
      exact ⟨.not, rfl, _, rfl, QueryOperator.isOperatorMap_single .size _⟩⟩

/-! ## Conjunctions -/

theorem everyHolds_map_obj (d : Value) : ∀ qs : List (Record Value),
    everyHolds search (qs.map .obj) d = qs.all (entriesHold search · d)
  | [] => rfl
  | q :: qs => by
    rw [List.map_cons, everyHolds, everyHolds_map_obj d qs]
    rfl

/-- **A conjunction holds where all its queries do.** -/
theorem entriesHold_conjunction (d : Value) : ∀ qs : List (Record Value),
    entriesHold search (conjunction qs) d = qs.all (entriesHold search · d)
  | [] => rfl
  | [q] => by simp [conjunction]
  | q :: r :: qs => by
    rw [conjunction, entriesHold, Connective.ofName?_name]
    · dsimp only
      rw [connectiveHolds, everyHolds_map_obj, entriesHold, Bool.and_true]
    all_goals simp

/-- A query document holds where its clause does. -/
theorem entriesHold_toDocument (hinitial : ∀ n ∈ initial, PathName n) {c : Clause}
    {query : Record Value} (hc : c.Fits S initial .object) (hok : c.toDocument = .ok query)
    (d : Value) : entriesHold search query d = c.holdsOn search d := by
  cases c with
  | field path operators =>
    obtain ⟨⟨root, p, hp, rfl⟩, hne, hasked⟩ := hc
    rw [toDocument, if_neg (FieldPath.dotted_ne_empty _ hp)] at hok
    cases hok
    rw [entriesHold, FieldPath.ofName?_dotted hinitial hp]
    dsimp only
    rw [fieldHolds, if_pos (isOperatorMap_of_asked hne hasked), entriesHold, Bool.and_true]
    rfl
  | document q =>
    cases hok
    rfl

theorem all_toDocument (hinitial : ∀ n ∈ initial, PathName n) (d : Value) :
    ∀ {cs : List Clause} {queries : List (Record Value)},
      (∀ c ∈ cs, c.Fits S initial .object) → cs.mapM toDocument = .ok queries →
        queries.all (entriesHold search · d) = cs.all (holdsOn search · d)
  | [], _, _, hok => by
    cases hok
    rfl
  | c :: cs, _, hcs, hok => by
    obtain ⟨query, queries, hquery, hqueries, rfl⟩ := mapM_cons_eq_ok.1 hok
    rw [List.all_cons, List.all_cons,
      entriesHold_toDocument hinitial (hcs c List.mem_cons_self) hquery,
      all_toDocument hinitial d (fun c hc => hcs c (List.mem_cons_of_mem _ hc)) hqueries]

/-! ## Conditions on an element -/

/-- The value that an element is asked for: a map of operators or a query. -/
def holdsOfElement (search : String → String → Bool) (condition : Record Value) (v : Value) :
    Bool :=
  if isOperatorMap condition then operatorsHold search condition (some v)
  else entriesHold search condition v

theorem operatorHolds_elemMatch (condition : Record Value) (v : Option Value) :
    operatorHolds search .elemMatch (.obj condition) v =
      (Value.itemsOf v).any (holdsOfElement search condition) := by
  rcases v with _ | (_ | _ | _ | _ | xs | _) <;> rfl

/-- A clause on a plain element is about the element itself. -/
theorem onElement_eq_ok {c : Clause} {es : Record Value} (hc : c.Fits S [] .scalar)
    (hok : c.onElement = .ok es) : c = .field "" es ∧ es ≠ [] ∧ ∀ e ∈ es, Asked S e := by
  cases c with
  | document query => exact nomatch hok
  | field path operators =>
    rw [onElement] at hok
    split at hok
    · next hpath =>
      cases hok
      exact ⟨by rw [hpath], hc.2⟩
    · cases hok

theorem ne_nil_of_mapM_onElement {cs : List Clause} {asked : List (Record Value)}
    (hcs : ∀ c ∈ cs, c.Fits S [] .scalar) (hok : cs.mapM onElement = .ok asked) (hne : cs ≠ []) :
    asked.flatten ≠ [] := by
  obtain ⟨c, cs, rfl⟩ := List.exists_cons_of_ne_nil hne
  obtain ⟨es, asked, hes, -, rfl⟩ := mapM_cons_eq_ok.1 hok
  obtain ⟨-, hne, -⟩ := onElement_eq_ok (hcs c List.mem_cons_self) hes
  rw [List.flatten_cons]
  exact List.append_ne_nil_of_left_ne_nil hne _

theorem asked_of_mapM_onElement : ∀ {cs : List Clause} {asked : List (Record Value)},
    (∀ c ∈ cs, c.Fits S [] .scalar) → cs.mapM onElement = .ok asked →
      ∀ e ∈ asked.flatten, Asked S e
  | [], _, _, hok, e, he => by
    cases hok
    exact nomatch he
  | c :: cs, _, hcs, hok, e, he => by
    obtain ⟨es, asked, hes, hasked, rfl⟩ := mapM_cons_eq_ok.1 hok
    rw [List.flatten_cons] at he
    rcases List.mem_append.1 he with he | he
    · exact (onElement_eq_ok (hcs c List.mem_cons_self) hes).2.2 e he
    · exact asked_of_mapM_onElement (fun c hc => hcs c (List.mem_cons_of_mem _ hc)) hasked e he

/-- The operators of clauses on a plain element hold of it where the clauses do. -/
theorem operatorsHold_mapM_onElement (v : Value) :
    ∀ {cs : List Clause} {asked : List (Record Value)}, (∀ c ∈ cs, c.Fits S [] .scalar) →
      cs.mapM onElement = .ok asked →
        operatorsHold search asked.flatten (some v) = cs.all (holdsOn search · v)
  | [], _, _, hok => by
    cases hok
    rfl
  | c :: cs, _, hcs, hok => by
    obtain ⟨es, asked, hes, hasked, rfl⟩ := mapM_cons_eq_ok.1 hok
    obtain ⟨rfl, -, -⟩ := onElement_eq_ok (hcs c List.mem_cons_self) hes
    have ih := operatorsHold_mapM_onElement v
      (fun c hc => hcs c (List.mem_cons_of_mem _ hc)) hasked
    rw [List.flatten_cons, operatorsHold_append, ih]
    rfl

/-- A query document on an element is no map of operators. -/
theorem isOperatorMap_toDocument {c : Clause} {query : Record Value}
    (hc : c.Fits S [] .object) (hok : c.toDocument = .ok query) : isOperatorMap query = false := by
  cases c with
  | field path operators =>
    obtain ⟨⟨root, p, hp, rfl⟩, -, -⟩ := hc
    rw [toDocument, if_neg (FieldPath.dotted_ne_empty [] hp)] at hok
    cases hok
    simp [isOperatorMap, FieldPath.isDollarName_dotted hp]
  | document q =>
    obtain ⟨-, x, rfl⟩ := hc
    cases hok
    rfl

theorem isOperatorMap_conjunction {cs : List Clause} {queries : List (Record Value)}
    (hcs : ∀ c ∈ cs, c.Fits S [] .object) (hok : cs.mapM toDocument = .ok queries) :
    isOperatorMap (conjunction queries) = false := by
  match queries, hok with
  | [], _ => rfl
  | _ :: _ :: _, _ => rfl
  | [query], hok =>
    cases cs with
    | nil => cases hok
    | cons c cs =>
      obtain ⟨q, rest, hq, -, heq⟩ := mapM_cons_eq_ok.1 hok
      cases heq
      exact isOperatorMap_toDocument (hcs c List.mem_cons_self) hq

/-- **The condition of clauses on an element** holds of it where all the clauses do. -/
theorem elementCondition_spec (hS : Value.EqualTransitive S) {v : Value} (hv : S v)
    {cs : List Clause} {condition : Record Value} (hcs : ∀ c ∈ cs, c.Fits S [] kind)
    (hne : cs ≠ []) (hok : elementCondition kind cs = .ok condition) :
    holdsOfElement search condition v = cs.all (holdsOn search · v) := by
  cases kind with
  | scalar =>
    obtain ⟨asked, hasked, hmap, hholds⟩ := elementOperators_spec search hS hv
      (fun c hc es hes => (onElement_eq_ok (hcs c hc) hes).2.2) hok
    have hne' := ne_nil_of_mapM_onElement hcs hasked hne
    rw [holdsOfElement, if_pos (hmap hne'), hholds, operatorsHold_mapM_onElement v hcs hasked]
  | object =>
    rw [elementCondition] at hok
    obtain ⟨queries, hqueries, rfl⟩ := map_eq_ok.1 hok
    rw [holdsOfElement, isOperatorMap_conjunction hcs hqueries]
    exact (entriesHold_conjunction v queries).trans
      (all_toDocument (List.forall_mem_nil _) v hcs hqueries)

/-! ## Quantifiers -/

/-- A value is a list that has items. -/
theorem holdsOn_nonEmptyList (hinitial : ∀ n ∈ initial, PathName n) (hp : p.Fits root kind)
    (v : Value) : (nonEmptyList (p.under initial)).holdsOn search (Value.nest initial v) =
      !(Value.itemsOf (p.valueIn? v)).isEmpty := by
  rw [nonEmptyList, holdsOn, Value.dotted?_nest hinitial hp.pathName, operatorsHold_cons,
    operatorsHold_single, entryHolds_name, operatorHolds_not_single]
  rcases p.valueIn? v with _ | (_ | _ | n | _ | xs | _)
  case some.num => cases n <;> rfl
  case some.arr => cases xs <;> rfl
  all_goals rfl

/-- Some element satisfies a condition. -/
theorem holdsOn_someElement (hinitial : ∀ n ∈ initial, PathName n) (hp : p.Fits root kind)
    (condition : Record Value) (v : Value) :
    (someElement (p.under initial) (.obj condition)).holdsOn search (Value.nest initial v) =
      (Value.itemsOf (p.valueIn? v)).any (holdsOfElement search condition) := by
  rw [someElement, holdsOn_ask hinitial hp, operatorHolds_elemMatch]

/-- No element satisfies a condition. -/
theorem holdsOn_noElement (hinitial : ∀ n ∈ initial, PathName n) (hp : p.Fits root kind)
    (condition : Record Value) (v : Value) :
    (noElement (p.under initial) (.obj condition)).holdsOn search (Value.nest initial v) =
      !(Value.itemsOf (p.valueIn? v)).any (holdsOfElement search condition) := by
  rw [noElement, holdsOn_ask hinitial hp, operatorHolds_not_single, operatorHolds_elemMatch]

/-- A negated query holds where the query does not. -/
theorem entriesHold_nor (query : Record Value) (v : Value) :
    entriesHold search [(Connective.nor.name, .arr [.obj query])] v =
      !entriesHold search query v := by
  rw [entriesHold, Connective.ofName?_name]
  simp [connectiveHolds, someHolds, holdsWith, entriesHold]

theorem holdsOfElement_nor (query : Record Value) (v : Value) :
    holdsOfElement search [(Connective.nor.name, .arr [.obj query])] v =
      !entriesHold search query v := by
  have h : isOperatorMap [(Connective.nor.name, Value.arr [.obj query])] = false := rfl
  rw [holdsOfElement, h]
  exact entriesHold_nor query v

theorem any_holdsOfElement (hS : Value.EqualTransitive S) {cs : List Clause}
    {condition : Record Value} (hcs : ∀ c ∈ cs, c.Fits S [] kind) (hne : cs ≠ [])
    (hok : elementCondition kind cs = .ok condition) {items : List Value}
    (hitems : ∀ x ∈ items, S x) : items.any (holdsOfElement search condition) =
      items.any fun x => cs.all (holdsOn search · x) := by
  rw [Bool.eq_iff_iff, List.any_eq_true, List.any_eq_true]
  refine exists_congr fun x => and_congr_right fun hx => ?_
  rw [elementCondition_spec hS (hitems x hx) hcs hne hok]

/-- **A quantifier over no conditions** asks whether there are elements. -/
theorem quantified_nil_spec (hinitial : ∀ n ∈ initial, PathName n) (hp : p.Fits root .object)
    (v : Value) {quantifier : Quantifier} {cs : List Clause}
    (hok : quantified (p.under initial) quantifier kind [] = .ok cs) :
    cs.all (holdsOn search · (Value.nest initial v)) =
      quantifier.holds (Value.itemsOf (p.valueIn? v)) fun _ => true := by
  have hany : ∀ items : List Value, (items.any fun _ => true) = !items.isEmpty := fun items => by
    cases items <;> rfl
  cases quantifier with
  | any =>
    cases hok
    rw [List.all_cons, holdsOn_nonEmptyList hinitial hp, Quantifier.holds, hany, List.all_nil,
      Bool.and_true]
  | all =>
    cases hok
    simp [Quantifier.holds]
  | none =>
    obtain ⟨c, hc, rfl⟩ := map_eq_ok.1 hok
    obtain ⟨query, hquery, hc⟩ := bind_eq_ok.1 hc
    cases hc
    have hquery : entriesHold search query (Value.nest initial v) = _ :=
      entriesHold_toDocument hinitial (fits_nonEmptyList (fun _ => True) hp) hquery _
    rw [List.all_cons, holdsOn, entriesHold_nor, hquery, holdsOn_nonEmptyList hinitial hp,
      Quantifier.holds, hany, List.all_nil, Bool.and_true]

theorem all_all_comm {α β : Type} (xs : List α) (ys : List β) (f : α → β → Bool) :
    (xs.all fun x => ys.all (f x)) = ys.all fun y => xs.all (f · y) := by
  rw [Bool.eq_iff_iff]
  simp only [List.all_eq_true]
  exact ⟨fun h y hy x hx => h x hx y hy, fun h x hx y hy => h y hy x hx⟩

/-- No element fails an operator where all satisfy it. -/
theorem holdsOn_noElement_negated (hinitial : ∀ n ∈ initial, PathName n) (hp : p.Fits root kind)
    {e : String × Value} (he : Asked S e) (v : Value) :
    (noElement (p.under initial) (negated e.1 e.2)).holdsOn search (Value.nest initial v) =
      (Value.itemsOf (p.valueIn? v)).all fun x => entryHolds search (some x) e := by
  obtain ⟨inner, hinner, hmap, hholds⟩ := negated_spec he
  rw [hinner, holdsOn_noElement hinitial hp, List.not_any_eq_all_not]
  refine List.all_congr rfl fun x => ?_
  rw [holdsOfElement, if_pos hmap, hholds, Bool.not_not]

/-- **The clauses of a quantifier** hold of a document where the quantifier holds of the items of
the list, each of which satisfies the clauses on an element or fails one. -/
theorem quantified_spec (hinitial : ∀ n ∈ initial, PathName n) (hp : p.Fits root .object)
    (hS : Value.EqualTransitive S) {v : Value} (hv : ∀ x ∈ Value.itemsOf (p.valueIn? v), S x)
    {quantifier : Quantifier} {inner cs : List Clause} (hinner : ∀ c ∈ inner, c.Fits S [] kind)
    (hok : quantified (p.under initial) quantifier kind inner = .ok cs) :
    cs.all (holdsOn search · (Value.nest initial v)) =
      quantifier.holds (Value.itemsOf (p.valueIn? v)) fun x => inner.all (holdsOn search · x) := by
  by_cases hne : inner = []
  · subst hne
    exact quantified_nil_spec hinitial hp v hok
  · have hempty : inner.isEmpty = false := List.isEmpty_eq_false_iff.2 hne
    unfold quantified at hok
    rw [hempty, if_neg Bool.false_ne_true] at hok
    split at hok
    · obtain ⟨condition, hcondition, rfl⟩ := map_eq_ok.1 hok
      rw [List.all_cons, holdsOn_someElement hinitial hp,
        any_holdsOfElement hS hinner hne hcondition hv, List.all_nil, Bool.and_true]
      rfl
    · obtain ⟨condition, hcondition, rfl⟩ := map_eq_ok.1 hok
      rw [List.all_cons, holdsOn_noElement hinitial hp,
        any_holdsOfElement hS hinner hne hcondition hv, List.all_nil, Bool.and_true]
      rfl
    · obtain ⟨asked, hasked, hcs⟩ := bind_eq_ok.1 hok
      cases hcs
      have hall := asked_of_mapM_onElement hinner hasked
      have heach : (asked.flatten.map fun e => noElement (p.under initial) (negated e.1 e.2)).all
          (holdsOn search · (Value.nest initial v)) = asked.flatten.all fun e =>
            (Value.itemsOf (p.valueIn? v)).all fun x => entryHolds search (some x) e := by
        rw [List.all_map, Bool.eq_iff_iff, List.all_eq_true, List.all_eq_true]
        refine forall_congr' fun e => imp_congr_right fun he => ?_
        rw [Function.comp, holdsOn_noElement_negated hinitial hp (hall e he)]
      refine heach.trans ((all_all_comm _ _ _).trans (List.all_congr rfl fun x => ?_))
      rw [← operatorsHold_eq_all, operatorsHold_mapM_onElement x hinner hasked]
    · obtain ⟨condition, hcondition, rfl⟩ := map_eq_ok.1 hok
      obtain ⟨queries, hqueries, rfl⟩ := map_eq_ok.1 hcondition
      rw [List.all_cons, Value.single, holdsOn_noElement hinitial hp, List.all_nil, Bool.and_true,
        List.not_any_eq_all_not]
      refine List.all_congr rfl fun x => ?_
      rw [holdsOfElement_nor, Bool.not_not, entriesHold_conjunction,
        all_toDocument (List.forall_mem_nil _) x hinner hqueries]

theorem fits_noElement (S : Value → Prop) (hp : p.Fits root kind) (condition : Value) :
    (noElement (p.under initial) condition).Fits S initial kind :=
  fits_ask hp ⟨_, rfl, QueryOperator.isOperatorMap_single .elemMatch _⟩

/-- The clauses of a quantifier have the form of clauses on an object. -/
theorem fits_quantified (S : Value → Prop) (hp : p.Fits root .object) {quantifier : Quantifier}
    {inner cs : List Clause} (hok : quantified (p.under initial) quantifier kind inner = .ok cs) :
    ∀ c ∈ cs, c.Fits S initial .object := by
  intro c hc
  unfold quantified at hok
  split at hok
  · split at hok
    · cases hok
      rw [List.mem_singleton.1 hc]
      exact fits_nonEmptyList S hp
    · cases hok
      exact nomatch hc
    · obtain ⟨d, hd, rfl⟩ := map_eq_ok.1 hok
      obtain ⟨query, hquery, hd⟩ := bind_eq_ok.1 hd
      cases hd
      rw [List.mem_singleton.1 hc]
      exact ⟨rfl, _, rfl⟩
  · split at hok
    · obtain ⟨condition, -, rfl⟩ := map_eq_ok.1 hok
      rw [List.mem_singleton.1 hc]
      exact fits_ask hp trivial
    · obtain ⟨condition, -, rfl⟩ := map_eq_ok.1 hok
      rw [List.mem_singleton.1 hc]
      exact fits_noElement S hp _
    · obtain ⟨asked, -, hcs⟩ := bind_eq_ok.1 hok
      cases hcs
      obtain ⟨e, -, rfl⟩ := List.mem_map.1 hc
      exact fits_noElement S hp _
    · obtain ⟨condition, -, rfl⟩ := map_eq_ok.1 hok
      rw [List.mem_singleton.1 hc]
      exact fits_noElement S hp _

end Clause

/-! ## Conditions and their clauses -/

namespace Condition

open Clause

variable {search : String → String → Bool} {S : Value → Prop} {initial : List String}
  {root : PathRoot} {kind : ElementKind} {p : FieldPath}

mutual

/-- **What a condition compares values to**: the operands of its equalities and inequalities, at
any depth. -/
def comparands : Condition → List Value
  | .equals _ operand | .differs _ operand => operand.toItems
  | .elements _ _ _ inner => allComparands inner
  | _ => []
termination_by structural c => c

/-- What several conditions compare values to. -/
def allComparands : List Condition → List Value
  | [] => []
  | c :: cs => comparands c ++ allComparands cs
termination_by structural cs => cs

end

theorem fits_endsWith (hp : p.Fits root kind) {suffixes : List String} {negated : Bool} :
    ∀ c ∈ suffixClauses (p.under initial) suffixes negated, c.Fits S initial kind := by
  intro c hc
  unfold suffixClauses at hc
  split at hc
  · obtain ⟨s, -, rfl⟩ := List.mem_map.1 hc
    exact fits_ask hp ⟨_, rfl, QueryOperator.isOperatorMap_single .regex _⟩
  · split at hc
    · rw [List.mem_singleton.1 hc]
      exact fits_ask hp ⟨[], rfl, List.forall_mem_nil _⟩
    · rw [List.mem_singleton.1 hc]
      exact fits_ask hp trivial

/-- An equality or an inequality has its operands in the set. -/
theorem fits_equality (hp : p.Fits root kind) {operand : Value}
    (hoperand : ∀ x ∈ operand.toItems, S x) {single list : QueryOperator}
    (hsingle : ∀ x, S x → IsOperand S single x)
    (hlist : ∀ xs, (∀ x ∈ xs, S x) → IsOperand S list (.arr xs)) :
    (ask (p.under initial) (if operand.isArray then list else single) operand).Fits S initial
      kind := by
  cases operand with
  | arr xs => exact fits_ask hp (hlist xs hoperand)
  | _ => exact fits_ask hp (hsingle _ (hoperand _ List.mem_cons_self))

/-- **The clauses of a condition** have the form of clauses. -/
theorem fits_clauses (hnull : S .null) {c : Condition} {cs : List Clause} (hc : c.Fits root kind)
    (hS : ∀ x ∈ c.comparands, S x) (hok : (c.under initial).clauses = .ok cs) :
    ∀ d ∈ cs, d.Fits S initial kind := by
  have one : ∀ {d : Clause}, d.Fits S initial kind → ∀ e ∈ [d], e.Fits S initial kind :=
    fun h e he => List.mem_singleton.1 he ▸ h
  cases c with
  | present p expected =>
    cases hok
    cases expected
    · exact one (fits_ask hc hnull)
    · exact one (fits_ask hc hnull)
  | isList p expected =>
    cases hok
    obtain ⟨hp, rfl⟩ := hc
    cases expected
    · exact one (fits_ask hp ⟨_, rfl, QueryOperator.isOperatorMap_single .type _⟩)
    · exact one (fits_ask hp trivial)
  | equals p operand =>
    cases hok
    exact one (fits_equality hc hS (fun _ h => h) fun xs h => ⟨xs, rfl, h⟩)
  | differs p operand =>
    cases hok
    exact one (fits_equality hc hS (fun _ h => h) fun xs h => ⟨xs, rfl, h⟩)
  | compares p comparison operand =>
    cases hok
    exact one (fits_ask hc.1 trivial)
  | matching p pattern =>
    cases hok
    exact one (fits_ask hc trivial)
  | endsWith p suffixes negated =>
    cases hok
    exact fits_endsWith hc.1
  | length p n =>
    cases hok
    exact one (fits_ask hc.1 trivial)
  | isEmpty p expected =>
    cases hok
    cases expected
    · exact one (fits_nonEmptyList S hc.1)
    · exact one (fits_ask hc.1 trivial)
  | elements p quantifier inner conditions =>
    obtain ⟨hp, rfl, -⟩ := hc
    obtain ⟨ics, -, hok⟩ := bind_eq_ok.1 hok
    exact fits_quantified S hp hok
  | fault e => cases hok

theorem fits_allClauses (hnull : S .null) : ∀ {cs : List Condition} {clauses : List Clause},
    AllFit root kind cs → (∀ x ∈ allComparands cs, S x) →
      allClauses (cs.map (under initial)) = .ok clauses → ∀ d ∈ clauses, d.Fits S initial kind
  | [], _, _, _, hok, d, hd => by
    cases hok
    exact nomatch hd
  | c :: cs, _, hfit, hcomparands, hok, d, hd => by
    obtain ⟨first, hfirst, hok⟩ := bind_eq_ok.1 hok
    obtain ⟨rest, hrest, hok⟩ := bind_eq_ok.1 hok
    cases hok
    rw [allComparands] at hcomparands
    rcases List.mem_append.1 hd with hd | hd
    · exact fits_clauses hnull hfit.1 (fun x hx => hcomparands x (List.mem_append_left _ hx))
        hfirst d hd
    · exact fits_allClauses hnull hfit.2 (fun x hx => hcomparands x (List.mem_append_right _ hx))
        hrest d hd

/-! ## The meaning of a condition and of its clauses -/

theorem kindName_eq_array (v : Option Value) : (kindName v == "array") = v.any Value.isArray := by
  rcases v with _ | (_ | _ | n | _ | _ | _)
  case some.num => cases n <;> rfl
  all_goals rfl

/-- An equality with a list is an equality with one of its items. -/
theorem operatorHolds_equality (operand : Value) (v : Option Value) :
    Query.operatorHolds search (if operand.isArray then .isIn else .eq) operand v =
      equalsOperand v operand := by
  cases operand <;> rfl

theorem operatorHolds_inequality (operand : Value) (v : Option Value) :
    Query.operatorHolds search (if operand.isArray then .notIn else .ne) operand v =
      !equalsOperand v operand := by
  cases operand <;> rfl

theorem operatorHolds_size {n : Nat} (hn : (n : Int) ≤ Number.maxU64) (v : Option Value) :
    Query.operatorHolds search .size (.nat n) v =
      match v with
      | some (.arr xs) => xs.length == n
      | _ => false := by
  have hnat : (Value.nat n).asU64? = some n := by
    rw [Value.nat, Value.asU64?, Number.toU64?, if_pos ⟨Int.natCast_nonneg n, hn⟩,
      Int.toNat_natCast]
  rw [Value.nat] at hnat ⊢
  unfold Query.operatorHolds
  rw [hnat]
  rcases v with _ | (_ | _ | _ | _ | _ | _) <;> rfl

/-- A pattern at the end of an identifier: what is no string has no ending that is not empty. -/
theorem operatorHolds_regex (suffixes : List String) (hne : ∀ s ∈ suffixes, s ≠ "")
    {pattern : String} (hpattern : ∀ s, search pattern s = suffixes.any (hasEnding s))
    (v : Option Value) : Query.operatorHolds search .regex (.str pattern) v =
      suffixes.any (hasEnding (identifierText v)) := by
  have hempty : suffixes.any (hasEnding "") = false := by
    rw [List.any_eq_false]
    intro s hs
    have : s.toList ≠ [] := by simpa using hne s hs
    simpa [hasEnding, List.isSuffixOf_iff_suffix] using this
  rcases v with _ | (_ | _ | _ | s | _ | _)
  case some.str => exact hpattern s
  all_goals exact hempty.symm

theorem holdsOn_suffixClauses (hsearch : SuffixSearch search)
    (hinitial : ∀ n ∈ initial, PathName n) (hp : p.Fits root kind) {suffixes : List String}
    (hne : ∀ s ∈ suffixes, s ≠ "") (negated : Bool) (v : Value) :
    (suffixClauses (p.under initial) suffixes negated).all
        (holdsOn search · (Value.nest initial v)) =
      holdsWith search (.endsWith p suffixes negated) v := by
  have hone : ∀ s ∈ suffixes, Query.operatorHolds search .regex (.str (suffixPattern s))
      (p.valueIn? v) = hasEnding (identifierText (p.valueIn? v)) s := by
    intro s hs
    rw [operatorHolds_regex [s] (by simpa using hne s hs) fun t => by simp [hsearch.one]]
    simp
  rw [holdsWith, suffixClauses]
  cases negated with
  | true =>
    rw [if_pos rfl, if_pos rfl, List.all_map, Bool.eq_iff_iff, List.all_eq_true, List.all_eq_true]
    refine forall_congr' fun s => imp_congr_right fun hs => ?_
    rw [Function.comp, holdsOn_ask hinitial hp, Query.operatorHolds_not_single, hone s hs]
  | false =>
    rw [if_neg Bool.false_ne_true, if_neg Bool.false_ne_true]
    split
    · next hnil =>
      rw [List.isEmpty_iff.1 hnil, List.all_cons, holdsOn_ask hinitial hp]
      rfl
    · next hsome =>
      rw [List.all_cons, holdsOn_ask hinitial hp, List.all_nil, Bool.and_true]
      exact operatorHolds_regex _ hne (hsearch.any (by simpa using hsome)) _

theorem Quantifier.holds_congr {items : List Value} {f g : Value → Bool}
    (h : ∀ x ∈ items, f x = g x) (quantifier : Quantifier) :
    quantifier.holds items f = quantifier.holds items g := by
  have hany : items.any f = items.any g := by
    rw [Bool.eq_iff_iff, List.any_eq_true, List.any_eq_true]
    exact exists_congr fun x => and_congr_right fun hx => by rw [h x hx]
  have hall : items.all f = items.all g := by
    rw [Bool.eq_iff_iff, List.all_eq_true, List.all_eq_true]
    exact forall_congr' fun x => imp_congr_right fun hx => by rw [h x hx]
  cases quantifier
  · exact hany
  · exact hall
  · exact congrArg not hany

mutual

/-- **The clauses of a condition** hold of a document under the prefix where the condition holds of
the document. -/
theorem holdsOn_clauses (hsearch : SuffixSearch search) (hS : Value.EqualTransitive S)
    (hnull : S .null) : ∀ (c : Condition) (initial : List String) (root : PathRoot)
    (kind : ElementKind) (v : Value) (cs : List Clause), (∀ n ∈ initial, PathName n) →
      c.Fits root kind → (∀ x ∈ c.comparands, S x) → (∀ x, Value.Within x v → S x) →
      (c.under initial).clauses = .ok cs →
        cs.all (holdsOn search · (Value.nest initial v)) = c.holdsWith search v
  | .present p expected, _, _, _, v, _, hinitial, hp, _, _, hok => by
    cases hok
    rw [List.all_cons, holdsOn_ask hinitial hp, List.all_nil, Bool.and_true, holdsWith]
    cases expected <;>
      simp [Query.operatorHolds, Value.optionalEquals_null]
  | .isList p expected, _, _, _, v, _, hinitial, hp, _, _, hok => by
    cases hok
    have htype : Query.operatorHolds search .type (.str "array") (p.valueIn? v) =
        (p.valueIn? v).any Value.isArray := kindName_eq_array _
    rw [holdsWith]
    cases expected
    · rw [List.all_cons, if_neg Bool.false_ne_true, holdsOn_ask hinitial hp.1,
        Query.operatorHolds_not_single, htype, List.all_nil, Bool.and_true]
      exact (beq_false _).symm
    · rw [List.all_cons, if_pos rfl, holdsOn_ask hinitial hp.1, htype, List.all_nil, Bool.and_true]
      exact (beq_true _).symm
  | .equals p operand, _, _, _, v, _, hinitial, hp, _, _, hok => by
    cases hok
    rw [List.all_cons, holdsOn_ask hinitial hp, List.all_nil, Bool.and_true, holdsWith,
      operatorHolds_equality]
  | .differs p operand, _, _, _, v, _, hinitial, hp, _, _, hok => by
    cases hok
    rw [List.all_cons, holdsOn_ask hinitial hp, List.all_nil, Bool.and_true, holdsWith,
      operatorHolds_inequality]
  | .compares p comparison operand, _, _, _, v, _, hinitial, hp, _, _, hok => by
    cases hok
    rw [List.all_cons, holdsOn_ask hinitial hp.1, List.all_nil, Bool.and_true, holdsWith,
      Query.operatorHolds]
  | .matching p pattern, _, _, _, v, _, hinitial, hp, _, _, hok => by
    cases hok
    rw [List.all_cons, holdsOn_ask hinitial hp, List.all_nil, Bool.and_true, holdsWith]
    rcases p.valueIn? v with _ | (_ | _ | _ | _ | _ | _) <;> rfl
  | .endsWith p suffixes negated, _, _, _, v, _, hinitial, hp, _, _, hok => by
    cases hok
    exact holdsOn_suffixClauses hsearch hinitial hp.1 hp.2.2 negated v
  | .length p n, _, _, _, v, _, hinitial, hp, _, _, hok => by
    cases hok
    rw [List.all_cons, holdsOn_ask hinitial hp.1, List.all_nil, Bool.and_true, holdsWith]
    exact operatorHolds_size hp.2.2 _
  | .isEmpty p expected, _, _, _, v, _, hinitial, hp, _, _, hok => by
    cases hok
    rw [holdsWith]
    cases expected
    · rw [List.all_cons, if_neg Bool.false_ne_true, holdsOn_nonEmptyList hinitial hp.1,
        List.all_nil, Bool.and_true]
      rcases p.valueIn? v with _ | (_ | _ | _ | _ | _ | _) <;> simp [Value.itemsOf]
    · rw [List.all_cons, if_pos rfl, holdsOn_ask hinitial hp.1, List.all_nil, Bool.and_true,
        operatorHolds_size (by decide)]
      rcases p.valueIn? v with _ | (_ | _ | _ | _ | (_ | _) | _) <;> rfl
  | .elements p quantifier kind conditions, _, _, _, v, _, hinitial, hp, hcomparands, hv, hok => by
    obtain ⟨inner, hinner, hok⟩ := bind_eq_ok.1 hok
    obtain ⟨hpath, rfl, hconditions⟩ := hp
    have hitem : ∀ x ∈ Value.itemsOf (p.valueIn? v), ∀ y, Value.Within y x → S y :=
      fun x hx y hy => hv y (Value.within_of_mem_itemsOf hx hy)
    rw [← map_under_nil conditions] at hinner
    have hfits : ∀ d ∈ inner, d.Fits S [] kind :=
      fits_allClauses hnull hconditions hcomparands hinner
    rw [quantified_spec hinitial hpath hS (fun x hx => hitem x hx x (.self x)) hfits hok, holdsWith]
    refine Quantifier.holds_congr (fun x hx => ?_) quantifier
    exact holdsOn_allClauses hsearch hS hnull conditions [] _ kind x inner (List.forall_mem_nil _)
      hconditions hcomparands (hitem x hx) hinner
  | .fault _, _, _, _, _, _, _, _, _, _, hok => nomatch hok

/-- **The clauses of several conditions** hold where all the conditions do. -/
theorem holdsOn_allClauses (hsearch : SuffixSearch search) (hS : Value.EqualTransitive S)
    (hnull : S .null) : ∀ (cs : List Condition) (initial : List String) (root : PathRoot)
    (kind : ElementKind) (v : Value) (clauses : List Clause), (∀ n ∈ initial, PathName n) →
      AllFit root kind cs → (∀ x ∈ allComparands cs, S x) → (∀ x, Value.Within x v → S x) →
      allClauses (cs.map (under initial)) = .ok clauses →
        clauses.all (holdsOn search · (Value.nest initial v)) = allHoldWith search cs v
  | [], _, _, _, _, _, _, _, _, _, hok => by
    cases hok
    rfl
  | c :: cs, initial, root, kind, v, _, hinitial, hfit, hcomparands, hv, hok => by
    obtain ⟨first, hfirst, hok⟩ := bind_eq_ok.1 hok
    obtain ⟨rest, hrest, hok⟩ := bind_eq_ok.1 hok
    cases hok
    rw [allComparands] at hcomparands
    rw [List.all_append, allHoldWith,
      holdsOn_clauses hsearch hS hnull c initial root kind v first hinitial hfit.1
        (fun x hx => hcomparands x (List.mem_append_left _ hx)) hv hfirst,
      holdsOn_allClauses hsearch hS hnull cs initial root kind v rest hinitial hfit.2
        (fun x hx => hcomparands x (List.mem_append_right _ hx)) hv hrest]

end

end Condition

/-! ## The query of a filter -/

namespace Filter

variable {patterns : PatternEngine} {ctx : Context} {t : TypeInfo} {s : String}
  {filter d : Value} {queries : List (Record Value)}

/-- What a filter compares values to, and what lies in a document. -/
def Compared (ctx : Context) (t : TypeInfo) (filter d v : Value) : Prop :=
  v ∈ Condition.allComparands (read ctx t .document filter) ∨ v.Within d

/-- Among values all of whose numbers are integers there is no question of transitivity. -/
theorem equalTransitive_compared
    (hfilter : (Condition.allComparands (read ctx t .document filter)).all Value.isExact = true)
    (hd : d.isExact = true) : Value.EqualTransitive (Compared ctx t filter d) :=
  Value.equalTransitive_of_exact fun _ hv =>
    hv.elim (List.all_eq_true.1 hfilter _) fun h => Value.isExact_of_within h hd

/-- **The queries of a filter** hold of a document under the prefix where its conditions hold of
the document, whatever library both sides search for patterns with. -/
theorem holds_query (hsearch : SuffixSearch patterns.search) (hctx : ctx.WellNamed)
    (ht : t.WellNamed) (hequal : Value.EqualTransitive (Compared ctx t filter d))
    (hquery : query ctx t (.ofDotted s) filter = .ok queries) :
    Query.holds patterns (.obj (Clause.conjunction queries)) (Value.nest (dottedNames s) d) =
      Condition.allHold patterns (read ctx t .document filter) d := by
  have hinitial : ∀ n ∈ dottedNames s, PathName n := fun n hn => pathName_of_mem_dottedNames hn
  have hfit := allFit_read hctx ht filter
  obtain ⟨clauses, hclauses, hqueries⟩ := bind_eq_ok.1 hquery
  rw [read_ofDotted] at hclauses
  have hS := hequal.withNull
  have hcomparands : ∀ x ∈ Condition.allComparands (read ctx t .document filter),
      x = .null ∨ Compared ctx t filter d x := fun x hx => .inr (.inl hx)
  have hfits := Condition.fits_allClauses (.inl rfl) hfit hcomparands hclauses
  rw [Query.holds, Query.holdsWith, Clause.entriesHold_conjunction,
    Clause.all_toDocument hinitial _ hfits hqueries]
  exact Condition.holdsOn_allClauses hsearch hS (.inl rfl) _ _ _ _ d clauses hinitial hfit
    hcomparands (fun x hx => .inr (.inr hx)) hclauses

/-- **The match stage of a filter agrees with its predicate.**  Of a document nested under the
prefix the conjunction of the queries holds exactly where the predicate accepts the document,
whatever library the two accept and search for patterns with. -/
theorem holds_query_eq_predicate (hsearch : SuffixSearch ctx.patterns.search)
    (hctx : ctx.WellNamed) (ht : t.WellNamed)
    (hequal : Value.EqualTransitive (Compared ctx t filter d))
    (hquery : query ctx t (.ofDotted s) filter = .ok queries) {accepts : Value → Bool}
    (hpredicate : predicate ctx t filter = .ok accepts) :
    Query.holds ctx.patterns (.obj (Clause.conjunction queries)) (Value.nest (dottedNames s) d) =
      accepts d := by
  obtain ⟨-, -, rfl⟩ := map_eq_ok.1 hpredicate
  exact holds_query hsearch hctx ht hequal hquery

/-- Two equalities and two inequalities on the elements of a list are merged into one map, and a
pattern is searched for at the front of a name. -/
theorem holds_query_sample :
    let user := (Schema.sample.types.head (List.cons_ne_nil _ _)).2
    let filter : Value := .obj [("name", .single "matches" (.str "^a")), ("tags", .single "some"
      (.obj [("eq", .strings ["x", "y"]), ("ne", .str "y"), ("exists", .bool true)]))]
    let d : Value := .obj [("name", .str "ab"), ("tags", .strings ["y", "x"])]
    ∃ queries accepts, query .sample user (.ofDotted "node") filter = .ok queries ∧
      predicate .sample user filter = .ok accepts ∧ accepts d = true ∧
        Query.holds Pattern.engine (.obj (Clause.conjunction queries))
          (Value.nest (dottedNames "node") d) = accepts d := by
  intro user filter d
  have hequal : Value.EqualTransitive (Compared .sample user filter d) :=
    equalTransitive_compared rfl rfl
  have hquery : query .sample user (.ofDotted "node") filter = .ok _ := rfl
  have hpredicate : predicate .sample user filter = .ok _ := rfl
  exact ⟨_, _, hquery, hpredicate, rfl,
    holds_query_eq_predicate Pattern.suffixSearch_engine Context.sample_wellNamed (by decide) hequal
      hquery hpredicate⟩

end Filter

end TypedGraph

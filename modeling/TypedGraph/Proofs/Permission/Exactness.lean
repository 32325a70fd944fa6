import TypedGraph.Permission
import TypedGraph.Proofs.Outcome
import TypedGraph.Proofs.Query.Agreement

/-!
# Proofs/Permission/Exactness — a document is seen where its own type shows it

What may be seen of a type is put together from branches, one for each member that is not denied.
Of an abstract type each branch is guarded, by the suffix of the identifier or by the name of the
type.  A document is an instance of one member, whose guard alone it passes
(`holdsWith_guardCondition_iff`): standard suffixes exclude each other, and so do names.  Of all the
branches its own one decides, and so a document is seen exactly where the permission of its own type
shows it, in memory (`predicate_iff`) as in the store (`query_iff`).

The argument about branches is one for both compilers: `any_branch_iff` asks of a compiler that it
decides guards and the filter of the one member (`Decides`).
-/

namespace TypedGraph

namespace Permission

variable {ctx : Context} {permissions : Permissions} {t : TypeInfo} {member : String} {d : Value}

/-! ## Instances of a type -/

/-- **A document is an instance of a member of a type**: of the type itself where that is concrete,
and else of the possible type that the identifier of a node ends with, or that is named in a
document that is no node. -/
inductive IsInstance (ctx : Context) (t : TypeInfo) (d : Value) : String → Prop where
  | concrete (h : t.isAbstract = false) : IsInstance ctx t d t.name
  | node {member s : String} (habstract : t.isAbstract = true) (hnode : t.isNode = true)
      (hmember : member ∈ t.possibleTypes) (hid : d.lookup? [ctx.config.idField] = some (.str s))
      (hending : hasEnding s (ctx.suffix member)) : IsInstance ctx t d member
  | tagged {member : String} (habstract : t.isAbstract = true) (hnode : t.isNode = false)
      (hmember : member ∈ t.possibleTypes)
      (htag : d.lookup? [ctx.config.typeField] = some (.str member)) : IsInstance ctx t d member

theorem IsInstance.mem_members (h : IsInstance ctx t d member) : member ∈ members t := by
  unfold members
  cases h with
  | concrete h => rw [h]; exact List.mem_cons_self
  | node habstract _ hmember => rw [if_pos habstract]; exact hmember
  | tagged habstract _ hmember => rw [if_pos habstract]; exact hmember

/-- The only member of a concrete type is the type. -/
theorem IsInstance.eq_of_concrete (h : IsInstance ctx t d member) (hconcrete : t.isAbstract = false)
    {other : String} (hother : other ∈ members t) : other = member := by
  have hname : ∀ m ∈ members t, m = t.name := by
    intro m hm
    rw [members, hconcrete] at hm
    exact List.mem_singleton.1 hm
  rw [hname other hother, hname member h.mem_members]

/-- **The permission of a type shows a document** where it is unrestricted, or filtered and the
predicate of the filter accepts the document. -/
def Shows (ctx : Context) (permissions : Permissions) (member : String) (d : Value) : Prop :=
  match permissions member with
  | .denied => False
  | .unrestricted => True
  | .filtered f => ∃ own accepts, ctx.schema.type member = .ok own ∧
      Filter.predicate ctx own f = .ok accepts ∧ accepts d = true

/-- A filtered permission shows what the predicate of its filter accepts. -/
theorem shows_iff_of_filtered {f : Value} {own : TypeInfo} {accepts : Value → Bool}
    (hpermission : permissions member = .filtered f) (hown : ctx.schema.type member = .ok own)
    (haccepts : Filter.predicate ctx own f = .ok accepts) :
    Shows ctx permissions member d ↔ accepts d = true := by
  rw [Shows, hpermission]
  constructor
  · rintro ⟨own', accepts', hown', haccepts', hd⟩
    cases hown.symm.trans hown'
    cases haccepts.symm.trans haccepts'
    exact hd
  · intro hd
    exact ⟨own, accepts, hown, haccepts, hd⟩

/-- Where nothing is restricted, each member is unrestricted. -/
theorem unrestricted_of_isOpen (hopen : isOpen permissions t = true) {other : String}
    (hother : other ∈ members t) : permissions other = .unrestricted := by
  have hunrestricted := List.all_eq_true.1 hopen other hother
  unfold isUnrestricted at hunrestricted
  split at hunrestricted
  · next h => exact h
  · exact (Bool.false_ne_true hunrestricted).elim

/-! ## Guards -/

/-- The condition that the guard of a member is read as. -/
def guardCondition (ctx : Context) (t : TypeInfo) (other : String) : Condition :=
  Filter.typeCondition ctx t .document [other] false

/-- The guard of a possible type is read as the condition on its name, at any path. -/
theorem read_guard_eq (habstract : t.isAbstract = true) {other : String}
    (hother : other ∈ t.possibleTypes) (path : FieldPath) :
    Filter.read ctx t path (guard other) = [Filter.typeCondition ctx t path [other] false] := by
  have hstrange : Filter.strange? t (Value.strings [other]).toItems = none := by
    simp [Filter.strange?, Value.strings, Value.toItems, hother]
  have hoperator : Filter.readTypeOperator ctx t path "eq" (Value.strings [other]) =
      [Filter.typeCondition ctx t path [other] false] := by
    rw [Filter.readTypeOperator_eq, hstrange]
    rfl
  have htype : Filter.readType ctx t path (.single "eq" (Value.strings [other])) =
      [Filter.typeCondition ctx t path [other] false] := by
    unfold Filter.readType
    rw [if_pos habstract, ← hoperator]
    exact List.append_nil _
  rw [← htype]
  exact List.append_nil _

theorem read_guard (habstract : t.isAbstract = true) {other : String}
    (hother : other ∈ t.possibleTypes) :
    Filter.read ctx t .document (guard other) = [guardCondition ctx t other] :=
  read_guard_eq habstract hother .document

/-- **A document passes the guard of its own type only.** -/
theorem holdsWith_guardCondition_iff (hsuffix : ctx.suffix = .standard)
    (h : IsInstance ctx t d member) (habstract : t.isAbstract = true)
    (search : String → String → Bool) (other : String) :
    (guardCondition ctx t other).holdsWith search d = true ↔ other = member := by
  unfold guardCondition Filter.typeCondition
  cases h with
  | concrete h => exact (Bool.false_ne_true (h.symm.trans habstract)).elim
  | @node _ s _ hnode _ hid hending =>
    have hpath : (FieldPath.document.child ctx.config.idField).valueIn? d = some (.str s) := hid
    rw [if_pos hnode, Condition.holdsWith, hpath, if_neg Bool.false_ne_true, List.map_cons,
      List.map_nil, List.any_cons, List.any_nil, Bool.or_false]
    rw [hsuffix] at hending ⊢
    constructor
    · intro hother
      exact TypeSuffix.eq_of_hasEnding_standard hother hending
    · rintro rfl
      exact hending
  | tagged _ hnode _ htag =>
    have hpath : (FieldPath.document.child ctx.config.typeField).valueIn? d = some (.str member) :=
      htag
    rw [hnode, if_neg Bool.false_ne_true, if_neg Bool.false_ne_true, Condition.holdsWith, hpath]
    have hequal : equalsOperand (some (.str member)) (Value.strings [other]) =
        (member == other) := by
      rw [← Value.equal_str_str]
      exact Bool.or_false _
    rw [hequal, beq_iff_eq]
    exact eq_comm

/-! ## Branches -/

theorem mem_admitted {other : String} {filter : Option Value}
    (h : (other, filter) ∈ admitted permissions t) : other ∈ members t ∧
      ((permissions other = .unrestricted ∧ filter = none) ∨
        ∃ f, permissions other = .filtered f ∧ filter = some f) := by
  obtain ⟨m, hm, hfilter⟩ := List.mem_filterMap.1 h
  split at hfilter
  · cases hfilter
  · next hm' =>
    cases hfilter
    exact ⟨hm, .inl ⟨hm', rfl⟩⟩
  · next f hm' =>
    cases hfilter
    exact ⟨hm, .inr ⟨f, hm', rfl⟩⟩

theorem exists_mem_admitted {other : String} (hother : other ∈ members t)
    (hpermission : permissions other ≠ .denied) :
    ∃ filter, (other, filter) ∈ admitted permissions t := by
  cases h : permissions other with
  | denied => exact (hpermission h).elim
  | unrestricted => exact ⟨none, List.mem_filterMap.2 ⟨other, hother, by rw [h]⟩⟩
  | filtered f => exact ⟨some f, List.mem_filterMap.2 ⟨other, hother, by rw [h]⟩⟩

variable {α : Type} {compile : TypeInfo → Value → Except Error α} {test : α → Bool}

/-- What a branch is made of: the guard of an abstract type, and the filter of the member. -/
theorem branch_eq_ok {other : String} {filter : Option Value} {b : Option α × Option α}
    (h : branch ctx t compile (other, filter) = .ok b) :
    ((t.isAbstract = false ∧ b.1 = none) ∨
      ∃ x, t.isAbstract = true ∧ compile t (guard other) = .ok x ∧ b.1 = some x) ∧
    ((filter = none ∧ b.2 = none) ∨ ∃ f own x, filter = some f ∧
      ctx.schema.type other = .ok own ∧ compile own f = .ok x ∧ b.2 = some x) := by
  -- the guard is compiled last, whatever the filter gave
  have hguard : ∀ y, (if t.isAbstract then
        (compile t (guard other)).map some >>= fun g => pure (g, y)
      else .ok none >>= fun g => pure (g, y)) = Except.ok b →
        ((t.isAbstract = false ∧ b.1 = none) ∨
          ∃ x, t.isAbstract = true ∧ compile t (guard other) = .ok x ∧ b.1 = some x) ∧ b.2 = y := by
    intro y h
    split at h
    · next habstract =>
      obtain ⟨g, hg, hb⟩ := bind_eq_ok.1 h
      obtain ⟨x, hx, rfl⟩ := map_eq_ok.1 hg
      cases hb
      exact ⟨.inr ⟨x, habstract, hx, rfl⟩, rfl⟩
    · next hconcrete =>
      cases h
      exact ⟨.inl ⟨Bool.eq_false_iff.2 hconcrete, rfl⟩, rfl⟩
  cases filter with
  | none =>
    obtain ⟨hb, hnone⟩ := hguard none h
    exact ⟨hb, .inl ⟨rfl, hnone⟩⟩
  | some f =>
    obtain ⟨y, hy, h⟩ := bind_eq_ok.1 h
    obtain ⟨own, hown, hy⟩ := bind_eq_ok.1 hy
    obtain ⟨x, hx, rfl⟩ := map_eq_ok.1 hy
    obtain ⟨hb, hsome⟩ := hguard (some x) h
    exact ⟨hb, .inr ⟨f, own, x, rfl, hown, hx, hsome⟩⟩

/-- **A compiler decides a document** when a test of what it compiles tells whether a member is the
document's own, and whether the permission of this member shows the document. -/
structure Decides (ctx : Context) (permissions : Permissions) (t : TypeInfo) (member : String)
    (d : Value) (compile : TypeInfo → Value → Except Error α) (test : α → Bool) : Prop where
  guard : t.isAbstract = true → ∀ other ∈ t.possibleTypes, ∀ x,
    compile t (guard other) = .ok x → (test x = true ↔ other = member)
  filter : ∀ f own x, permissions member = .filtered f → ctx.schema.type member = .ok own →
    compile own f = .ok x → (test x = true ↔ Shows ctx permissions member d)

/-- A branch holds of a document where it is the one of its own type, and this shows it. -/
theorem branch_iff (h : IsInstance ctx t d member)
    (hdecides : Decides ctx permissions t member d compile test) {other : String}
    {filter : Option Value} (hadmitted : (other, filter) ∈ admitted permissions t)
    {b : Option α × Option α} (hok : branch ctx t compile (other, filter) = .ok b) :
    (b.1.all test && b.2.all test) = true ↔ other = member ∧ Shows ctx permissions member d := by
  obtain ⟨hother, hpermission⟩ := mem_admitted hadmitted
  obtain ⟨hguard, hfilter⟩ := branch_eq_ok hok
  have hguard : b.1.all test = true ↔ other = member := by
    rcases hguard with ⟨hconcrete, hnone⟩ | ⟨x, habstract, hx, hsome⟩
    · rw [hnone]
      exact iff_of_true rfl (h.eq_of_concrete hconcrete hother)
    · rw [members, if_pos habstract] at hother
      rw [hsome]
      exact hdecides.guard habstract other hother x hx
  have hfilter : other = member → (b.2.all test = true ↔ Shows ctx permissions member d) := by
    rintro rfl
    rcases hfilter with ⟨hnone, hb⟩ | ⟨f, own, x, hsome, hown, hx, hb⟩
    · rcases hpermission with ⟨hpermission, -⟩ | ⟨f, -, hf⟩
      · rw [hb, Shows, hpermission]
        exact iff_of_true rfl trivial
      · exact nomatch hnone.symm.trans hf
    · rcases hpermission with ⟨-, hnone⟩ | ⟨f', hpermission, hf⟩
      · exact nomatch hsome.symm.trans hnone
      · cases hsome.symm.trans hf
        rw [hb]
        exact hdecides.filter f own x hpermission hown hx
  rw [Bool.and_eq_true, hguard]
  exact and_congr_right hfilter

/-- **One branch decides**: some branch holds of a document where its own type shows it. -/
theorem any_branch_iff (h : IsInstance ctx t d member)
    (hdecides : Decides ctx permissions t member d compile test)
    {branches : List (Option α × Option α)}
    (hbranches : (admitted permissions t).mapM (branch ctx t compile) = .ok branches) :
    (branches.any fun b => b.1.all test && b.2.all test) = true ↔
      Shows ctx permissions member d := by
  rw [List.any_eq_true]
  constructor
  · rintro ⟨b, hb, hholds⟩
    obtain ⟨⟨other, filter⟩, hadmitted, hok⟩ := exists_of_mem_mapM hbranches b hb
    exact ((branch_iff h hdecides hadmitted hok).1 hholds).2
  · intro hshows
    have hpermission : permissions member ≠ .denied := by
      intro hdenied
      rw [Shows, hdenied] at hshows
      exact hshows
    obtain ⟨filter, hadmitted⟩ := exists_mem_admitted h.mem_members hpermission
    obtain ⟨b, hb, hok⟩ := exists_ok_of_mapM hbranches _ hadmitted
    exact ⟨b, hb, (branch_iff h hdecides hadmitted hok).2 ⟨rfl, hshows⟩⟩

/-- Where nothing is restricted, every document is shown. -/
theorem shows_of_isOpen (h : IsInstance ctx t d member) (hopen : isOpen permissions t = true) :
    Shows ctx permissions member d := by
  rw [Shows, unrestricted_of_isOpen hopen h.mem_members]
  exact trivial

/-! ## The two compilers -/

/-- **Predicates decide a document.** -/
theorem decides_predicate (hsuffix : ctx.suffix = .standard) (h : IsInstance ctx t d member) :
    Decides ctx permissions t member d (Filter.predicate ctx) (· d) where
  guard habstract other hother x hx := by
    obtain ⟨-, -, rfl⟩ := map_eq_ok.1 hx
    rw [read_guard habstract hother, Condition.allHold, Condition.allHoldWith,
      Condition.allHoldWith, Bool.and_true]
    exact holdsWith_guardCondition_iff hsuffix h habstract _ other
  filter _ _ _ hpermission hown hx := (shows_iff_of_filtered hpermission hown hx).symm

variable {patterns : PatternEngine} {s : String}

/-- The clauses of the condition of a guard hold of a document under the prefix where the condition
holds of the document. -/
theorem holdsOn_guardCondition {search : String → String → Bool} (hsearch : SuffixSearch search)
    (hctx : ctx.WellNamed) (other : String) {initial : List String}
    (hinitial : ∀ n ∈ initial, PathName n) {clauses : List Clause}
    (hok : ((guardCondition ctx t other).under initial).clauses = .ok clauses) (d : Value) :
    clauses.all (Clause.holdsOn search · (Value.nest initial d)) =
      (guardCondition ctx t other).holdsWith search d := by
  unfold guardCondition Filter.typeCondition at hok ⊢
  split at hok
  · next hnode =>
    cases hok
    have hpath := FieldPath.from_document.child hctx.idField
    rw [if_pos hnode]
    exact Condition.holdsOn_suffixClauses hsearch hinitial hpath (by simpa using hctx.suffix other)
      false d
  · next hnode =>
    cases hok
    have hpath := FieldPath.from_document.child hctx.typeField
    rw [if_neg hnode, if_neg Bool.false_ne_true, List.all_cons, List.all_nil, Bool.and_true,
      Condition.holdsWith, Clause.holdsOn_ask hinitial hpath]
    exact Condition.operatorHolds_equality _ _

/-- The query documents of the guard of a possible type hold of a document under the prefix where
its condition holds of the document. -/
theorem all_query_guard (hsearch : SuffixSearch patterns.search) (hctx : ctx.WellNamed)
    (ht : t.WellNamed) (habstract : t.isAbstract = true) {other : String}
    (hother : other ∈ t.possibleTypes) {queries : List (Record Value)}
    (hquery : Filter.query ctx t (.ofDotted s) (guard other) = .ok queries) (d : Value) :
    (queries.all fun q => Query.holds patterns (.obj q) (Value.nest (dottedNames s) d)) =
      (guardCondition ctx t other).holdsWith patterns.search d := by
  have hinitial : ∀ n ∈ dottedNames s, PathName n := fun n hn => pathName_of_mem_dottedNames hn
  obtain ⟨clauses, hclauses, hqueries⟩ := bind_eq_ok.1 hquery
  have hfit := Filter.allFit_read hctx ht (guard other)
  rw [Filter.read_ofDotted] at hclauses
  have hfits := Condition.fits_allClauses (S := fun _ => True) trivial hfit
    (fun _ _ => trivial) hclauses
  rw [read_guard habstract hother] at hclauses
  obtain ⟨first, hfirst, hrest⟩ := bind_eq_ok.1 hclauses
  cases hrest
  refine (Clause.all_toDocument hinitial _ hfits hqueries).trans ?_
  rw [List.append_nil]
  exact holdsOn_guardCondition hsearch hctx other hinitial hfirst d

/-- **Queries decide a document** that lies under a prefix, where the predicates of filters are
accepted. -/
theorem decides_query (hsuffix : ctx.suffix = .standard) (h : IsInstance ctx t d member)
    (hsearch : SuffixSearch ctx.patterns.search) (hctx : ctx.WellNamed) (ht : t.WellNamed)
    (hfilter : ∀ f own, permissions member = .filtered f → ctx.schema.type member = .ok own →
      Value.EqualTransitive (Filter.Compared ctx own f d) ∧
        ∃ accepts, Filter.predicate ctx own f = .ok accepts) :
    Decides ctx permissions t member d (fun t f => Filter.query ctx t (.ofDotted s) f)
      (·.all fun q => Query.holds ctx.patterns (.obj q) (Value.nest (dottedNames s) d)) where
  guard habstract other hother queries hquery := by
    rw [all_query_guard hsearch hctx ht habstract hother hquery]
    exact holdsWith_guardCondition_iff hsuffix h habstract _ other
  filter f own queries hpermission hown hquery := by
    obtain ⟨hequal, accepts, haccepts⟩ := hfilter f own hpermission hown
    have hholds : (queries.all fun q =>
        Query.holds ctx.patterns (.obj q) (Value.nest (dottedNames s) d)) = accepts d := by
      obtain ⟨-, -, rfl⟩ := map_eq_ok.1 haccepts
      exact (Clause.entriesHold_conjunction _ _).symm.trans
        (Filter.holds_query hsearch hctx (hctx.type hown) hequal hquery)
    rw [hholds]
    exact (shows_iff_of_filtered hpermission hown haccepts).symm

/-- The query of branches holds where that of one of them does. -/
theorem entriesHold_anyBranch {search : String → String → Bool} (d : Value) :
    ∀ qs : List (Record Value),
      Query.entriesHold search (anyBranch qs) d = qs.any (Query.entriesHold search · d)
  | [] => rfl
  | [q] => (Bool.or_false _).symm
  | q :: r :: qs => by
    have hsome : ∀ qs : List (Record Value), Query.someHolds search (qs.map .obj) d =
        qs.any (Query.entriesHold search · d) := by
      intro qs
      induction qs with
      | nil => rfl
      | cons q qs ih => rw [List.map_cons, Query.someHolds, ih]; rfl
    rw [anyBranch, Query.entriesHold, Connective.ofName?_name]
    · dsimp only
      rw [Query.connectiveHolds, Query.entriesHold, Bool.and_true]
      exact hsome _
    all_goals simp

/-! ## Exactness -/

/-- Where the predicate of a permission is accepted, the filter of each member has a predicate. -/
theorem exists_predicate_of_filtered {accepts : Option (Value → Bool)}
    (hpredicate : predicate ctx permissions t = .ok accepts) {other : String}
    (hother : other ∈ members t) {f : Value} (hpermission : permissions other = .filtered f)
    {own : TypeInfo} (hown : ctx.schema.type other = .ok own) :
    ∃ p, Filter.predicate ctx own f = .ok p := by
  unfold predicate at hpredicate
  split at hpredicate
  · next hopen => exact nomatch hpermission.symm.trans (unrestricted_of_isOpen hopen hother)
  · obtain ⟨branches, hbranches, -⟩ := bind_eq_ok.1 hpredicate
    have hadmitted : (other, some f) ∈ admitted permissions t :=
      List.mem_filterMap.2 ⟨other, hother, by rw [hpermission]⟩
    obtain ⟨b, -, hok⟩ := exists_ok_of_mapM hbranches _ hadmitted
    obtain ⟨-, ⟨hnone, -⟩ | ⟨f', own', p, hf, hown', hp, -⟩⟩ := branch_eq_ok hok
    · exact nomatch hnone
    · cases hf
      cases hown.symm.trans hown'
      exact ⟨p, hp⟩

/-- **The predicate of a permission** accepts a document where its own type shows it. -/
theorem predicate_iff (hsuffix : ctx.suffix = .standard) (h : IsInstance ctx t d member)
    {accepts : Option (Value → Bool)} (hpredicate : predicate ctx permissions t = .ok accepts) :
    accepts.all (· d) = true ↔ Shows ctx permissions member d := by
  unfold predicate at hpredicate
  split at hpredicate
  · next hopen =>
    cases hpredicate
    exact iff_of_true rfl (shows_of_isOpen h hopen)
  · obtain ⟨branches, hbranches, hsome⟩ := bind_eq_ok.1 hpredicate
    cases hsome
    exact any_branch_iff h (decides_predicate hsuffix h) hbranches

/-- **The query of a permission** holds of a document under the prefix where its own type shows
it. -/
theorem query_iff (hsuffix : ctx.suffix = .standard) (h : IsInstance ctx t d member)
    (hsearch : SuffixSearch ctx.patterns.search) (hctx : ctx.WellNamed) (ht : t.WellNamed)
    (hfilter : ∀ f own, permissions member = .filtered f → ctx.schema.type member = .ok own →
      Value.EqualTransitive (Filter.Compared ctx own f d) ∧
        ∃ accepts, Filter.predicate ctx own f = .ok accepts)
    {visible : Option (Record Value)}
    (hquery : query ctx permissions t (.ofDotted s) = .ok visible) :
    (visible.all fun q =>
        Query.holds ctx.patterns (.obj q) (Value.nest (dottedNames s) d)) = true ↔
      Shows ctx permissions member d := by
  unfold query at hquery
  split at hquery
  · next hopen =>
    cases hquery
    exact iff_of_true rfl (shows_of_isOpen h hopen)
  · obtain ⟨branches, hbranches, hsome⟩ := bind_eq_ok.1 hquery
    cases hsome
    rw [← any_branch_iff h (decides_query hsuffix h hsearch hctx ht hfilter) hbranches]
    refine Eq.congr_left ((entriesHold_anyBranch _ _).trans ?_)
    rw [List.any_map]
    refine congrArg branches.any (funext fun b => ?_)
    rw [Function.comp, Clause.entriesHold_conjunction, List.all_append]
    have hgetD : ∀ queries : Option (List (Record Value)), ((queries.getD []).all fun q =>
        Query.entriesHold ctx.patterns.search q (Value.nest (dottedNames s) d)) = queries.all
          (·.all fun q => Query.holds ctx.patterns (.obj q) (Value.nest (dottedNames s) d)) := by
      intro queries
      cases queries <;> rfl
    rw [hgetD, hgetD]

/-- **A document is seen exactly where the permission of its own type shows it**: by the predicate
of the permission, and by its query under the prefix, whatever library both search for patterns
with. -/
theorem visible_iff_shows (hsuffix : ctx.suffix = .standard) (h : IsInstance ctx t d member)
    {accepts : Option (Value → Bool)} (hpredicate : predicate ctx permissions t = .ok accepts)
    {visible : Option (Record Value)}
    (hquery : query ctx permissions t (.ofDotted s) = .ok visible) :
    (accepts.all (· d) = true ↔ Shows ctx permissions member d) ∧
      (SuffixSearch ctx.patterns.search → ctx.WellNamed → t.WellNamed →
        (∀ f own, permissions member = .filtered f → ctx.schema.type member = .ok own →
          Value.EqualTransitive (Filter.Compared ctx own f d)) →
        ((visible.all fun q =>
            Query.holds ctx.patterns (.obj q) (Value.nest (dottedNames s) d)) = true ↔
          Shows ctx permissions member d)) := by
  refine ⟨predicate_iff hsuffix h hpredicate, fun hsearch hctx ht hequal => ?_⟩
  refine query_iff hsuffix h hsearch hctx ht (fun f own hpermission hown => ?_) hquery
  exact ⟨hequal f own hpermission hown,
    exists_predicate_of_filtered hpredicate h.mem_members hpermission hown⟩

/-- Of the actors, users are filtered by a pattern for their names and bots denied; a user of such a
name is seen. -/
theorem visible_iff_shows_sample :
    let named : Value := .single "name" (.single "matches" (.str "^a"))
    let permissions : Permissions := fun name => if name = "User" then .filtered named else .denied
    let d : Value := .obj [("id", .str "1.VXNlcg"), ("name", .str "ab")]
    ∃ actor accepts visible, Schema.sample.type "Actor" = .ok actor ∧
      predicate .sample permissions actor = .ok accepts ∧
        query .sample permissions actor (.ofDotted "node") = .ok visible ∧
          accepts.all (· d) = true ∧
            (visible.all fun q =>
              Query.holds Pattern.engine (.obj q) (Value.nest (dottedNames "node") d)) = true := by
  intro named permissions d
  let actor : TypeInfo := ⟨"Actor", .union, [], ["User", "Bot"], true⟩
  have hinstance : IsInstance .sample actor d "User" :=
    .node rfl rfl List.mem_cons_self rfl (by decide +kernel)
  obtain ⟨accepts, hpredicate⟩ : ∃ accepts, predicate .sample permissions actor = .ok accepts := by
    dsimp only [permissions]
    exact ⟨_, rfl⟩
  obtain ⟨visible, hquery⟩ :
      ∃ visible, query .sample permissions actor (.ofDotted "node") = .ok visible := by
    dsimp only [permissions]
    exact ⟨_, rfl⟩
  have hshows : Shows .sample permissions "User" d := ⟨_, _, rfl, rfl, rfl⟩
  have hequal : ∀ f own, permissions "User" = .filtered f → Schema.sample.type "User" = .ok own →
      Value.EqualTransitive (Filter.Compared .sample own f d) := by
    intro f own hf hown
    cases hf
    cases hown
    exact Filter.equalTransitive_compared rfl rfl
  obtain ⟨haccepts, hvisible⟩ := visible_iff_shows rfl hinstance hpredicate hquery
  refine ⟨actor, accepts, visible, rfl, hpredicate, hquery, haccepts.2 hshows, ?_⟩
  exact (hvisible Pattern.suffixSearch_engine Context.sample_wellNamed (List.forall_mem_nil _)
    hequal).2 hshows

end Permission

end TypedGraph

import TypedGraph.Proofs.Filter.Fitting
import TypedGraph.Proofs.Order.Preorder
import TypedGraph.Proofs.Outcome
import TypedGraph.Store.Basic
import TypedGraph.Order.Sort

/-!
# Proofs/Order/SortDocument — what a sort document says

A sort document compares rows entry by entry.  It makes two rows equal where each of its entries
does (`compareRows_eq_iff`), and is a preorder of rows wherever comparison is one of the values at
each of its paths (`preorderOn_compareRows`).  The tiebreaker is a path of every sort document, be
it because the order mentions it already (`mem_names_sortDocument`).
-/

namespace TypedGraph

/-! ## Comparing rows -/

namespace Pipeline

variable {P : Value → Prop}

/-- Rows are equal to a sort document where they are to each of its entries. -/
theorem compareRows_eq_iff {document : Record Value} {a b : Value} :
    compareRows document a b = .eq ↔ ∀ e ∈ document, compareByEntry e.1 e.2 a b = .eq := by
  induction document with
  | nil => exact ⟨fun _ => List.forall_mem_nil _, fun _ => rfl⟩
  | cons e rest ih => rw [compareRows, Ordering.then_eq_eq, ih, List.forall_mem_cons]

/-- An entry makes rows equal where the values at its path are. -/
theorem compareByEntry_eq_iff {key : String} {direction a b : Value} :
    compareByEntry key direction a b = .eq ↔
      Value.compareOptional (a.dotted? key) (b.dotted? key) = .eq := by
  dsimp only [compareByEntry]
  split
  · exact Ordering.swap_eq_eq
  · rfl

theorem preorderOn_compareByEntry {key : String} (direction : Value)
    (h : PreorderOn Value.compare fun v => ∃ row, P row ∧ Value.orNull (row.dotted? key) = v) :
    PreorderOn (compareByEntry key direction) P := by
  have hrows : PreorderOn (fun a b => Value.compareOptional (a.dotted? key) (b.dotted? key)) P :=
    (h.comap fun row : Value => Value.orNull (row.dotted? key)).mono
      fun row hrow => ⟨row, hrow, rfl⟩
  by_cases hdown : direction.asI64? = some (-1)
  · have heq : compareByEntry key direction =
        fun a b => (Value.compareOptional (a.dotted? key) (b.dotted? key)).swap :=
      funext fun _ => funext fun _ => if_pos hdown
    rw [heq]
    exact hrows.reverse
  · have heq : compareByEntry key direction =
        fun a b => Value.compareOptional (a.dotted? key) (b.dotted? key) :=
      funext fun _ => funext fun _ => if_neg hdown
    rw [heq]
    exact hrows

/-- **A sort document is a preorder of rows** where comparison is one of the values at each of its
paths. -/
theorem preorderOn_compareRows : ∀ {document : Record Value},
    (∀ path ∈ document.names, PreorderOn Value.compare fun v =>
      ∃ row, P row ∧ Value.orNull (row.dotted? path) = v) →
        PreorderOn (compareRows document) P
  | [], _ => .const P
  | (_, direction) :: _, h =>
    (preorderOn_compareByEntry direction (h _ List.mem_cons_self)).andThen
      (preorderOn_compareRows fun path hpath => h path (List.mem_cons_of_mem _ hpath))

/-- Rows with different values at a path of a sort document are not equal to it. -/
theorem compareRows_ne_eq {document : Record Value} {path : String} (hpath : path ∈ document.names)
    {a b : Value} (h : Value.compareOptional (a.dotted? path) (b.dotted? path) ≠ .eq) :
    compareRows document a b ≠ .eq := by
  obtain ⟨e, he, rfl⟩ := List.mem_map.1 hpath
  exact fun heq => h (compareByEntry_eq_iff.1 (compareRows_eq_iff.1 heq e he))

end Pipeline

/-! ## The paths of a sort document -/

namespace Order

/-- An added path is one of the document, whether it was one before or not. -/
theorem mem_names_putNew (document : Record Value) (path : String) (direction : Direction) :
    path ∈ (putNew document path direction).names := by
  unfold putNew
  split
  · next h => exact Record.has_iff_mem_names.1 h
  · simp [Record.names]

/-- **The tiebreaker is a path of every sort document.** -/
theorem mem_names_sortDocument {config : Config} {path : String}
    (h : config.sortTiebreaker = some path) (clauses : List OrderClause) (root : List String) :
    path ∈ (sortDocument config clauses root).names := by
  rw [sortDocument, h]
  exact mem_names_putNew _ _ _

end Order

/-! ## The paths of clauses -/

namespace Order

section Names

variable {ctx : Context} {P : String → Prop}

/-- The names in the paths of clauses have a property. -/
def Named (P : String → Prop) (clauses : List OrderClause) : Prop :=
  ∀ c ∈ clauses, ∀ n ∈ c.path, P n

theorem named_directed {path : List String} (hpath : ∀ n ∈ path, P n) {v : Value}
    {clauses : List OrderClause} (hok : directed path v = .ok clauses) : Named P clauses := by
  obtain ⟨direction, -, rfl⟩ := map_eq_ok.1 hok
  exact List.forall_mem_singleton.2 hpath

theorem named_entryClauses (hid : P ctx.config.idField)
    (htypes : ∀ e ∈ ctx.schema.types, ∀ f ∈ e.2.fields, P f.name) {t : TypeInfo}
    (ht : ∀ f ∈ t.fields, P f.name) {parent : List String} (hparent : ∀ n ∈ parent, P n)
    {key : String} {v : Value}
    {nested : TypeInfo → List String → Except Error (List OrderClause)}
    (hnested : ∀ t path clauses, (∀ f ∈ t.fields, P f.name) → (∀ n ∈ path, P n) →
      nested t path = .ok clauses → Named P clauses)
    {clauses : List OrderClause} (hok : entryClauses ctx t parent key v nested = .ok clauses) :
    Named P clauses := by
  have hchild : ∀ {name : String}, P name → ∀ n ∈ parent ++ [name], P n := by
    intro name hname n hn
    rcases List.mem_append.1 hn with hn | hn
    · exact hparent n hn
    · exact List.mem_singleton.1 hn ▸ hname
  unfold entryClauses at hok
  split at hok
  · split at hok
    · exact named_directed (hchild hid) hok
    · cases hok
  split at hok
  · cases hok
  obtain ⟨field, hfield, hok⟩ := bind_eq_ok.1 hok
  obtain ⟨hmem, rfl⟩ := TypeInfo.mem_fields_of_field hfield
  have hpath := hchild (ht field hmem)
  dsimp only at hok
  split at hok
  · exact named_directed hpath hok
  · exact named_directed hpath hok
  · exact named_directed hpath hok
  · obtain ⟨own, hown, hok⟩ := bind_eq_ok.1 hok
    refine hnested own _ _ ?_ hpath hok
    rw [Schema.type] at hown
    split at hown
    · next found =>
      cases hown
      exact htypes _ (Record.mem_of_get? found)
    · cases hown
  · cases hok

mutual

theorem named_readEntry (hid : P ctx.config.idField)
    (htypes : ∀ e ∈ ctx.schema.types, ∀ f ∈ e.2.fields, P f.name) :
    ∀ (v : Value) (t : TypeInfo) (parent : List String) (key : String)
    (clauses : List OrderClause), (∀ f ∈ t.fields, P f.name) → (∀ n ∈ parent, P n) →
      readEntry ctx t parent key v = .ok clauses → Named P clauses
  | .obj es, _, _, _, _, ht, hparent, hok =>
    named_entryClauses hid htypes ht hparent
      (fun t path clauses ht hpath => named_readEntries hid htypes es t path clauses ht hpath) hok
  | .null, _, _, _, _, ht, hparent, hok | .bool _, _, _, _, _, ht, hparent, hok
  | .num _, _, _, _, _, ht, hparent, hok | .str _, _, _, _, _, ht, hparent, hok
  | .arr _, _, _, _, _, ht, hparent, hok => by
    rw [readEntry] at hok
    · refine named_entryClauses hid htypes ht hparent ?_ hok
      intro _ _ _ _ _ hnested
      cases hnested
    · exact fun _ => nofun

theorem named_readEntries (hid : P ctx.config.idField)
    (htypes : ∀ e ∈ ctx.schema.types, ∀ f ∈ e.2.fields, P f.name) :
    ∀ (es : Record Value) (t : TypeInfo) (parent : List String)
    (clauses : List OrderClause), (∀ f ∈ t.fields, P f.name) → (∀ n ∈ parent, P n) →
      readEntries ctx t parent es = .ok clauses → Named P clauses
  | [], _, _, _, _, _, hok => by
    cases hok
    exact List.forall_mem_nil _
  | (key, v) :: rest, t, parent, _, ht, hparent, hok => by
    obtain ⟨first, hfirst, hok⟩ := bind_eq_ok.1 hok
    obtain ⟨others, hothers, hok⟩ := bind_eq_ok.1 hok
    cases hok
    exact List.forall_mem_append.2
      ⟨named_readEntry hid htypes v t parent key first ht hparent hfirst,
        named_readEntries hid htypes rest t parent others ht hparent hothers⟩

end

/-- **The paths of an order are made of the names of fields**, the identifier's among them. -/
theorem named_read (hid : P ctx.config.idField)
    (htypes : ∀ e ∈ ctx.schema.types, ∀ f ∈ e.2.fields, P f.name) {t : TypeInfo}
    (ht : ∀ f ∈ t.fields, P f.name) {order : Value} {clauses : List OrderClause}
    (hok : read ctx t order = .ok clauses) : Named P clauses := by
  obtain ⟨entries, -, hok⟩ := bind_eq_ok.1 hok
  obtain ⟨parts, hparts, hok⟩ := bind_eq_ok.1 hok
  cases hok
  intro c hc
  obtain ⟨part, hpart, hc⟩ := List.mem_flatten.1 hc
  obtain ⟨es, -, hes⟩ := exists_of_mem_mapM hparts part hpart
  exact named_readEntries hid htypes es t [] part ht (List.forall_mem_nil _) hes c hc

end Names

end Order

/-! ## The rows of objects under a prefix -/

/-- **The object that a row holds** at a path; a missing one counts as null. -/
def Value.heldAt (row : Value) (root : List String) : Value := orNull (row.lookup? root)

@[simp] theorem Value.heldAt_nest (root : List String) (v : Value) :
    (Value.nest root v).heldAt root = v := by
  rw [heldAt, lookup?_nest]
  rfl

/-- A null holds nothing. -/
theorem Value.orNull_lookup?_null : ∀ path : List String, orNull (lookup? .null path) = .null
  | [] => rfl
  | _ :: _ => rfl

/-- Behind a prefix a row holds what its object holds. -/
theorem Value.orNull_dotted?_behind {root path : List String} (hroot : ∀ n ∈ root, PathName n)
    (hpath : ∀ n ∈ path, PathName n) (row : Value) :
    orNull (row.dotted? (".".intercalate (root ++ path))) =
      orNull ((row.heldAt root).lookup? path) := by
  rw [dotted?, dottedNames_intercalate (List.forall_mem_append.2 ⟨hroot, hpath⟩), lookup?_append,
    heldAt]
  cases row.lookup? root with
  | none => exact (orNull_lookup?_null path).symm
  | some v => rfl

/-- Comparison of two rows by a tiebreaker; without one they are equal. -/
def Order.compareTies (config : Config) (a b : Value) : Ordering :=
  match config.sortTiebreaker with
  | some path => Value.compareOptional (a.dotted? path) (b.dotted? path)
  | none => .eq

namespace Pipeline

theorem compareRows_append (a b : Value) : ∀ document rest : Record Value,
    compareRows (document ++ rest) a b =
      (compareRows document a b).then (compareRows rest a b)
  | [], _ => rfl
  | (_, _) :: document, rest => by
    rw [List.cons_append, compareRows, compareRows, compareRows_append a b document rest,
      Ordering.then_assoc]

/-- A path that a document has already decides nothing more. -/
theorem compareRows_putNew (document : Record Value) (path : String) (direction : Direction)
    (a b : Value) : compareRows (Order.putNew document path direction) a b =
      (compareRows document a b).then (compareByEntry path (.int direction.sign) a b) := by
  unfold Order.putNew
  split
  · next hhas =>
    cases hfirst : compareRows document a b with
    | eq =>
      obtain ⟨e, he, hpath⟩ := List.mem_map.1 (Record.has_iff_mem_names.1 hhas)
      have hentry := compareRows_eq_iff.1 hfirst e he
      rw [compareByEntry_eq_iff, hpath] at hentry
      exact (compareByEntry_eq_iff.2 hentry).symm
    | lt => rfl
    | gt => rfl
  · rw [compareRows_append, compareRows, compareRows]
    cases compareByEntry path (.int direction.sign) a b <;> rfl

theorem compareByEntry_sign (path : String) (direction : Direction) (a b : Value) :
    compareByEntry path (.int direction.sign) a b =
      direction.apply (Value.compareOptional (a.dotted? path) (b.dotted? path)) := by
  cases direction <;> rfl

variable {root : List String} (hroot : ∀ n ∈ root, PathName n)

include hroot

/-- The entry of a clause compares rows as the clause compares the objects that they hold. -/
theorem compareByEntry_clause {c : OrderClause} (hc : ∀ n ∈ c.path, PathName n) (a b : Value) :
    compareByEntry (".".intercalate (root ++ c.path)) (.int c.direction.sign) a b =
      Order.compareBy c (a.heldAt root) (b.heldAt root) := by
  rw [compareByEntry_sign, Order.compareBy, Value.compareOptional, Value.compareOptional,
    Value.orNull_dotted?_behind hroot hc, Value.orNull_dotted?_behind hroot hc]

variable {clauses : List OrderClause} (hclauses : Order.Named PathName clauses)

include hclauses

/-- **The document of clauses compares as the clauses do**, each of which counts where its path
comes first. -/
theorem compareRows_clausesDocument (a b : Value) :
    compareRows (Order.clausesDocument clauses root) a b =
      Order.compareObjects clauses (a.heldAt root) (b.heldAt root) := by
  -- the clauses that are still to come decide what the document has left equal
  have hstep : ∀ (document : Record Value) (cs : List OrderClause), Order.Named PathName cs →
      compareRows (cs.foldl (fun doc c =>
          Order.putNew doc (".".intercalate (root ++ c.path)) c.direction) document) a b =
        (compareRows document a b).then
          (Order.compareObjects cs (a.heldAt root) (b.heldAt root)) := by
    intro document cs hcs
    induction cs generalizing document with
    | nil =>
      rw [Order.compareObjects, Ordering.then_eq]
      rfl
    | cons c cs ih =>
      obtain ⟨hc, hcs⟩ := List.forall_mem_cons.1 hcs
      rw [List.foldl_cons, ih _ hcs, compareRows_putNew, compareByEntry_clause hroot hc,
        Order.compareObjects, Ordering.then_assoc]
  exact hstep [] clauses hclauses

/-- **The sort document compares as its clauses do**, and rows that these leave equal by the
tiebreaker, be it because a clause has its path already. -/
theorem compareRows_sortDocument_eq (config : Config) (a b : Value) :
    compareRows (Order.sortDocument config clauses root) a b =
      (Order.compareObjects clauses (a.heldAt root) (b.heldAt root)).then
        (Order.compareTies config a b) := by
  rw [← compareRows_clausesDocument hroot hclauses, Order.sortDocument, Order.compareTies]
  cases config.sortTiebreaker with
  | none => exact Ordering.then_eq.symm
  | some path => exact compareRows_putNew _ path .ascending a b

/-- **The sort document compares as its clauses do** where no row has anything at the tiebreaker. -/
theorem compareRows_sortDocument {config : Config} {a b : Value}
    (htiebreaker : ∀ path, config.sortTiebreaker = some path →
      (Value.nest root a).dotted? path = none ∧ (Value.nest root b).dotted? path = none) :
    compareRows (Order.sortDocument config clauses root) (Value.nest root a)
      (Value.nest root b) = Order.compareObjects clauses a b := by
  have hties : Order.compareTies config (Value.nest root a) (Value.nest root b) = .eq := by
    unfold Order.compareTies
    split
    · next path hpath =>
      obtain ⟨ha, hb⟩ := htiebreaker path hpath
      rw [ha, hb]
      rfl
    · rfl
  rw [compareRows_sortDocument_eq hroot hclauses, hties, Value.heldAt_nest, Value.heldAt_nest,
    Ordering.then_eq]

end Pipeline

/-! ## The documents of orders -/

namespace Pipeline

/-- **The sort document of an order compares rows as the order does** the objects that they hold at
a dotted prefix, and those that it leaves equal by the tiebreaker.  A store sorts by it so. -/
theorem compareRows_of_read {ctx : Context} (hid : PathName ctx.config.idField)
    (htypes : ∀ e ∈ ctx.schema.types, ∀ f ∈ e.2.fields, PathName f.name) {t : TypeInfo}
    (ht : ∀ f ∈ t.fields, PathName f.name) {order : Value} {clauses : List OrderClause}
    (hread : Order.read ctx t order = .ok clauses) (root : String) :
    (∀ a b : Value, compareRows (Order.sortDocument ctx.config clauses (dottedNames root)) a b =
      (Order.compareObjects clauses (a.heldAt (dottedNames root))
        (b.heldAt (dottedNames root))).then (Order.compareTies ctx.config a b)) ∧
    ∀ (patterns : PatternEngine) (rows : List Value), runStage patterns rows
        [("$sort", .obj (Order.sortDocument ctx.config clauses (dottedNames root)))] =
        .ok (stableSort (fun a b =>
          (Order.compareObjects clauses (a.heldAt (dottedNames root))
            (b.heldAt (dottedNames root))).then (Order.compareTies ctx.config a b)) rows) := by
  have hcompare := compareRows_sortDocument_eq
    (fun n (hn : n ∈ dottedNames root) => pathName_of_mem_dottedNames hn)
    (Order.named_read hid htypes ht hread) ctx.config
  refine ⟨hcompare, fun patterns rows => ?_⟩
  rw [← funext fun a => funext fun b => hcompare a b]
  rfl

/-- An order that comes back to a path in the other direction, with a tiebreaker that it has too. -/
theorem compareRows_of_read_repeated :
    let user := (Schema.sample.types.head (List.cons_ne_nil _ _)).2
    let config : Config := { Config.standard with sortTiebreaker := some "node.id" }
    let order : Value := .arr [.obj [("address", .obj [("city", .str "DESCENDING")])],
      .obj [("id", .str "DESCENDING")],
      .obj [("address", .obj [("city", .str "ASCENDING"), ("zip", .str "ASCENDING")])]]
    let clauses : List OrderClause := [⟨["address", "city"], .descending⟩, ⟨["id"], .descending⟩,
      ⟨["address", "city"], .ascending⟩, ⟨["address", "zip"], .ascending⟩]
    Order.read ⟨.sample, config, .standard, Pattern.engine⟩ user order = .ok clauses ∧
      ∀ a b : Value, compareRows [("node.address.city", .int (-1)), ("node.id", .int (-1)),
          ("node.address.zip", .int 1)] a b =
        (Order.compareObjects clauses (a.heldAt ["node"]) (b.heldAt ["node"])).then
          (Value.compareOptional (a.dotted? "node.id") (b.dotted? "node.id")) := by
  intro user config order clauses
  have hread : Order.read ⟨.sample, config, .standard, Pattern.engine⟩ user order = .ok clauses :=
    rfl
  have hdocument : Order.sortDocument config clauses (dottedNames "node") =
      [("node.address.city", .int (-1)), ("node.id", .int (-1)), ("node.address.zip", .int 1)] :=
    rfl
  have hroot : dottedNames "node" = ["node"] := by decide
  have hid : PathName config.idField := Context.sample_wellNamed.idField.toPathName
  have htypes : ∀ e ∈ Schema.sample.types, ∀ f ∈ e.2.fields, PathName f.name :=
    fun e he f hf => (Context.sample_wellNamed.types e he f hf).toPathName
  refine ⟨hread, fun a b => ?_⟩
  rw [← hdocument, ← hroot]
  exact (compareRows_of_read hid htypes (htypes _ List.mem_cons_self) hread "node").1 a b

end Pipeline

end TypedGraph

import TypedGraph.FieldPath
import TypedGraph.Proofs.Value.Equality
import TypedGraph.Query.Operator

/-!
# Proofs/FieldPath/Names — the names of a path survive its dotted text

A **plain name** is what a schema or a configuration calls a field: it is not empty, has no point
and does not begin with a dollar sign.  A chain of names without points is read back from its dotted
text (`dottedNames_intercalate`), so that a path leads to the same value whether it is followed name
by name or as a text, and a document that is nested under a prefix is found again behind it
(`dotted?_nest`).
-/

namespace TypedGraph

/-- A name that a dotted text keeps: it is not empty and has no point. -/
structure PathName (s : String) : Prop where
  nonempty : s ≠ ""
  undotted : '.' ∉ s.toList

/-- **A plain name**: a name that neither queries nor expressions take for an operator. -/
structure PlainName (s : String) : Prop extends PathName s where
  undollared : isDollarName s = false

instance (s : String) : Decidable (PlainName s) :=
  decidable_of_iff (s ≠ "" ∧ '.' ∉ s.toList ∧ isDollarName s = false)
    ⟨fun ⟨h, h', h''⟩ => ⟨⟨h, h'⟩, h''⟩, fun h => ⟨h.nonempty, h.undotted, h.undollared⟩⟩

/-! ## Splitting at points -/

theorem splitAt_eq_splitOn (separator : Char) :
    ∀ cs : List Char, splitAt separator cs = cs.splitOn separator
  | [] => rfl
  | c :: cs => by
    rw [splitAt, splitAt_eq_splitOn separator cs, List.splitOn_cons_eq_if_modifyHead]
    by_cases h : c = separator
    · simp [h]
    · cases hs : cs.splitOn separator with
      | nil => exact absurd hs (List.splitOn_ne_nil separator cs)
      | cons part parts => simp [h]

/-- No part of a split text has the separator. -/
theorem not_mem_of_mem_splitAt {separator : Char} :
    ∀ {cs part : List Char}, part ∈ splitAt separator cs → separator ∉ part
  | [], part, h => by simp_all [splitAt]
  | c :: cs, part, h => by
    rw [splitAt] at h
    split at h
    · rcases List.mem_cons.1 h with rfl | h
      · simp
      · exact not_mem_of_mem_splitAt h
    · next hc =>
      cases hs : splitAt separator cs with
      | nil => simp [splitAt_eq_splitOn, List.splitOn_ne_nil] at hs
      | cons first parts =>
        have ih : ∀ part ∈ first :: parts, separator ∉ part := fun part hp =>
          not_mem_of_mem_splitAt (hs ▸ hp)
        rw [hs] at h
        rcases List.mem_cons.1 h with rfl | h
        · simp [Ne.symm hc, ih first List.mem_cons_self]
        · exact ih part (List.mem_cons_of_mem _ h)

theorem splitNames_intercalate {names : List String} (hne : names ≠ [])
    (h : ∀ n ∈ names, '.' ∉ n.toList) : splitNames '.' (".".intercalate names) = names := by
  rw [splitNames, splitAt_eq_splitOn, String.toList_intercalate,
    show ".".toList = ['.'] from rfl, List.splitOn_intercalate]
  · simp
  · simpa using h
  · simpa using hne

/-- **A chain of names is read back from its dotted text.** -/
theorem dottedNames_intercalate {names : List String} (h : ∀ n ∈ names, PathName n) :
    dottedNames (".".intercalate names) = names := by
  by_cases hne : names = []
  · subst hne
    rfl
  · rw [dottedNames, splitNames_intercalate hne fun n hn => (h n hn).undotted,
      List.filter_eq_self]
    exact fun n hn => by simpa using (h n hn).nonempty

/-- A name is a chain of its own. -/
theorem PathName.dottedNames_eq {s : String} (h : PathName s) : dottedNames s = [s] :=
  dottedNames_intercalate (List.forall_mem_singleton.2 h)

theorem pathName_of_mem_dottedNames {s n : String} (h : n ∈ dottedNames s) : PathName n := by
  simp only [dottedNames, splitNames, List.mem_filter, List.mem_map] at h
  obtain ⟨⟨part, hpart, rfl⟩, hne⟩ := h
  exact ⟨by simpa using hne, by simpa using not_mem_of_mem_splitAt hpart⟩

/-- A dotted text begins like its first name. -/
theorem isDollarName_intercalate {names : List String} (h : ∀ n ∈ names, PathName n)
    (hhead : ∀ n, names.head? = some n → isDollarName n = false) :
    isDollarName (".".intercalate names) = false := by
  cases names with
  | nil => rfl
  | cons n names =>
    have hn : n.toList ≠ [] := by simpa using (h n List.mem_cons_self).nonempty
    have hlist : (".".intercalate (n :: names)).toList.head? = n.toList.head? := by
      obtain ⟨c, cs, hc⟩ := List.exists_cons_of_ne_nil hn
      rw [String.toList_intercalate, List.map_cons]
      cases names with
      | nil => rw [List.map_nil, List.intercalate_singleton]
      | cons m ms =>
        rw [List.map_cons, List.intercalate_cons_cons, hc]
        rfl
    rw [isDollarName, hlist, ← isDollarName]
    exact hhead n rfl

theorem splitNames_append (s t : String) :
    splitNames '.' (s ++ "." ++ t) = splitNames '.' s ++ splitNames '.' t := by
  have hlist : (s ++ "." ++ t).toList = s.toList ++ '.' :: t.toList := by simp
  simp only [splitNames, splitAt_eq_splitOn]
  rw [hlist, List.splitOn_append_cons_self, List.map_append]

/-! ## Paths that go on -/

namespace FieldPath

/-- A path with a name has a text. -/
theorem dotted_ne_empty_of_mem {p : FieldPath} {name : String} (h : name ∈ p.segments)
    (hname : name ≠ "") : p.dotted ≠ "" := by
  intro hempty
  have hlist := congrArg String.toList hempty
  rw [dotted, String.toList_intercalate] at hlist
  cases hp : p.segments with
  | nil => simp [hp] at h
  | cons first rest => cases rest with
    | nil =>
      rw [hp] at h hlist
      obtain rfl := List.mem_singleton.1 h
      exact hname (String.toList_inj.1 (by simpa using hlist))
    | cons second rest => simp [hp] at hlist

/-- The path that goes on along a chain of names. -/
def extend (p : FieldPath) (chain : List String) : FieldPath :=
  { p with segments := p.segments ++ chain }

theorem extend_child (p : FieldPath) (name : String) (chain : List String) :
    (p.child name).extend chain = p.extend (name :: chain) := by
  simp [extend, child]

/-- **The text of a path begins with the same names however it goes on**, whatever the names of the
path itself are. -/
theorem exists_splitNames_extend (p : FieldPath) :
    ∃ initial, ∀ chain, chain ≠ [] → (∀ n ∈ chain, '.' ∉ n.toList) →
      splitNames '.' (p.extend chain).dotted = initial ++ chain := by
  by_cases hstart : p.segments = []
  · refine ⟨[], fun chain hne hchain => ?_⟩
    rw [dotted, extend, hstart, List.nil_append, splitNames_intercalate hne hchain]
  · refine ⟨splitNames '.' p.dotted, fun chain hne hchain => ?_⟩
    rw [dotted, extend, String.intercalate_append_of_ne_nil hstart hne, splitNames_append,
      splitNames_intercalate hne hchain]
    rfl

end FieldPath

/-! ## Documents under a prefix -/

namespace FieldPath

/-- The path behind a prefix. -/
def under (initial : List String) (p : FieldPath) : FieldPath :=
  { p with segments := initial ++ p.segments }

@[simp] theorem under_segments (initial : List String) (p : FieldPath) :
    (p.under initial).segments = initial ++ p.segments := rfl

@[simp] theorem under_root (initial : List String) (p : FieldPath) :
    (p.under initial).root = p.root := rfl

@[simp] theorem under_nil (p : FieldPath) : p.under [] = p := rfl

theorem under_child (initial : List String) (p : FieldPath) (name : String) :
    (p.under initial).child name = (p.child name).under initial := by
  simp [under, child]

@[simp] theorem under_quantifierDepth (initial : List String) (p : FieldPath) :
    (p.under initial).quantifierDepth = p.quantifierDepth := rfl

theorem ofDotted_eq_under (s : String) : ofDotted s = document.under (dottedNames s) := by
  simp [ofDotted, under, document]

end FieldPath

namespace Value

theorem lookup?_append (v : Value) : ∀ path rest : List String,
    v.lookup? (path ++ rest) = (v.lookup? path).bind (·.lookup? rest)
  | [], _ => rfl
  | name :: path, rest => by
    rw [List.cons_append, lookup?, lookup?, Option.bind_assoc]
    exact congrArg _ (funext fun x => lookup?_append x path rest)

@[simp] theorem lookup?_nest (v : Value) : ∀ initial : List String,
    (nest initial v).lookup? initial = some v
  | [] => rfl
  | name :: initial => by
    have h : (nest (name :: initial) v).get? name = some (nest initial v) := by
      simp [nest, single, get?, Record.get?]
    rw [lookup?, h]
    exact lookup?_nest v initial

/-- **A nested document is found again behind its prefix.** -/
theorem dotted?_nest {initial : List String} (hinitial : ∀ n ∈ initial, PathName n)
    {p : FieldPath} (hp : ∀ n ∈ p.segments, PathName n) (v : Value) :
    (nest initial v).dotted? (p.under initial).dotted = p.valueIn? v := by
  have hall : ∀ n ∈ initial ++ p.segments, PathName n := fun n hn =>
    (List.mem_append.1 hn).elim (hinitial n) (hp n)
  rw [dotted?, FieldPath.dotted, FieldPath.under_segments, dottedNames_intercalate hall,
    lookup?_append, lookup?_nest]
  rfl

end Value

/-! ## What a path leads to -/

theorem Record.mem_of_get? {α : Type} {name : String} {x : α} :
    ∀ {r : Record α}, Record.get? r name = some x → (name, x) ∈ r
  | [], h => nomatch h
  | (k, v) :: rest, h => by
    rw [Record.get?] at h
    split at h
    · next hk => simp [hk, Option.some.inj h]
    · exact List.mem_cons_of_mem _ (Record.mem_of_get? h)

/-- Where no name comes twice, an entry is found under its name. -/
theorem Record.get?_of_mem {α : Type} {name : String} {x : α} :
    ∀ {r : Record α}, r.names.Nodup → (name, x) ∈ r → Record.get? r name = some x
  | (k, v) :: rest, hnodup, h => by
    obtain ⟨hk, hrest⟩ := List.nodup_cons.1 hnodup
    rw [Record.get?]
    rcases List.mem_cons.1 h with heq | h
    · cases heq
      exact if_pos rfl
    · have hname : name ∈ Record.names rest := List.mem_map_of_mem h
      rw [if_neg fun heq : k = name => hk (heq ▸ hname)]
      exact get?_of_mem hrest h

namespace Value

theorem within_of_lookup? {x w : Value} (hx : Within x w) :
    ∀ {path : List String} {v : Value}, v.lookup? path = some w → Within x v
  | [], _, h => Option.some.inj h ▸ hx
  | name :: path, v, h => by
    rw [lookup?] at h
    obtain ⟨u, hu, hrest⟩ := Option.bind_eq_some_iff.1 h
    cases v with
    | obj es => exact .entry (Record.mem_of_get? hu) (within_of_lookup? hx hrest)
    | _ => exact nomatch hu

/-- What lies in an item of a list lies in the document. -/
theorem within_of_mem_itemsOf {p : FieldPath} {v x y : Value}
    (hx : x ∈ itemsOf (p.valueIn? v)) (hy : Within y x) : Within y v := by
  unfold itemsOf at hx
  split at hx
  · next xs h => exact within_of_lookup? (.item hx hy) h
  · exact nomatch hx

end Value

end TypedGraph

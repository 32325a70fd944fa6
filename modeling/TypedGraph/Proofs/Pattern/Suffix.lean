import TypedGraph.Filter.Query
import TypedGraph.Filter.Predicate
import TypedGraph.Pattern.Parser

/-!
# Proofs/Pattern/Suffix — the patterns of suffixes match at the end only

A filter on the type of a node is written as a pattern made of escaped suffixes.  Of a library of
regular expressions it is asked that it finds such a pattern in exactly the texts that end with one
of the suffixes (`SuffixSearch`).

The library of `Pattern/Parser` does so (`suffixSearch_engine`).  Reading such a pattern gives a
sequence of literals, or alternatives of such sequences (`readAlternatives?_escaped`,
`readAlternatives?_branches`), and their matches are the places where a text goes on with the same
characters.  Behind them stands the end mark.
-/

namespace TypedGraph

/-- A search finds the patterns of suffixes in the texts that end with them, and nowhere else. -/
structure SuffixSearch (search : String → String → Bool) : Prop where
  one : ∀ ending s : String, search (Condition.suffixPattern ending) s = hasEnding s ending
  any : ∀ {endings : List String}, endings ≠ [] → ∀ s : String,
    search (Condition.anySuffixPattern endings) s = endings.any (hasEnding s)

namespace Pattern

/-! ## Reading escaped texts -/

/-- The pattern of one character. -/
def literal (c : Char) : Pattern := .one (.one c)

/-- The text that stands for one character. -/
def escapeChar (c : Char) : List Char := if special.contains c then ['\\', c] else [c]

theorem toList_escape (s : String) : (escape s).toList = s.toList.flatMap escapeChar := by
  rw [escape, String.toList_ofList]
  rfl

theorem length_le_flatMap_escapeChar (cs : List Char) :
    cs.length ≤ (cs.flatMap escapeChar).length := by
  induction cs with
  | nil => exact Nat.le_refl 0
  | cons c cs ih =>
    have : 1 ≤ (escapeChar c).length := by
      unfold escapeChar
      split <;> simp
    rw [List.flatMap_cons, List.length_append, List.length_cons]
    omega

/-- **An escaped character is read as its literal.** -/
theorem readAlternatives?_escapeChar (fuel : Nat) (r : Reading) (c : Char) (rest : List Char) :
    readAlternatives? (fuel + 1) false r (escapeChar c ++ rest) =
      readAlternatives? fuel false (r.add (some (literal c))) rest := by
  unfold escapeChar
  split
  · next h =>
    simp only [special, List.contains_iff_mem, List.mem_cons, List.not_mem_nil, or_false] at h
    rcases h with rfl | rfl | rfl | rfl | rfl | rfl | rfl | rfl | rfl | rfl | rfl | rfl | rfl |
      rfl | rfl | rfl | rfl | rfl <;> rfl
  · next h =>
    simp only [special, List.contains_iff_mem, List.mem_cons, List.not_mem_nil, or_false,
      not_or] at h
    have hq : readQuantifier? (c :: rest) = some none := by
      unfold readQuantifier?
      split <;> simp_all
    rw [List.singleton_append, readAlternatives?, hq]
    · rfl
    all_goals simp_all

namespace Reading

/-- Add parts one after the other. -/
def addAll (r : Reading) (ps : List Pattern) : Reading := ps.foldl (fun r p => r.add (some p)) r

theorem parts_addAll (ps : List Pattern) :
    ∀ r : Reading, (r.addAll ps).parts = (ps.map some).reverse ++ r.parts := by
  induction ps with
  | nil => exact fun _ => rfl
  | cons p ps ih =>
    intro r
    refine (ih (r.add (some p))).trans ?_
    simp [add]

theorem done_addAll (ps : List Pattern) : ∀ r : Reading, (r.addAll ps).done = r.done := by
  induction ps with
  | nil => exact fun _ => rfl
  | cons p ps ih => exact fun r => ih (r.add (some p))

/-- The last alternative is the sequence of the parts that were added. -/
theorem last_addAll (done : List Pattern) (ps : List Pattern) :
    (addAll ⟨done, []⟩ ps).last = sequence ps := by
  rw [last, parts_addAll]
  simp [List.filterMap_map]

end Reading

/-- **An escaped text is read as its literals.** -/
theorem readAlternatives?_escaped (rest : List Char) : ∀ (cs : List Char) (fuel : Nat)
    (r : Reading), readAlternatives? (fuel + cs.length) false r (cs.flatMap escapeChar ++ rest) =
      readAlternatives? fuel false (r.addAll (cs.map literal)) rest
  | [], _, _ => rfl
  | c :: cs, fuel, r => by
    rw [List.flatMap_cons, List.append_assoc, List.length_cons, ← Nat.add_assoc,
      readAlternatives?_escapeChar]
    exact readAlternatives?_escaped rest cs fuel _

/-- The end of a group closes its alternatives. -/
theorem readAlternatives?_closing (fuel : Nat) (r : Reading) (rest : List Char) :
    readAlternatives? (fuel + 1) false r (')' :: rest) = some (r.close, ')' :: rest) := rfl

/-- A bar begins another alternative. -/
theorem readAlternatives?_bar (fuel : Nat) (r : Reading) (rest : List Char) :
    readAlternatives? (fuel + 1) false r ('|' :: rest) =
      readAlternatives? fuel false r.branch rest := rfl

/-- The end mark at the end of the text. -/
theorem readAlternatives?_finish (fuel : Nat) (r : Reading) :
    readAlternatives? (fuel + 2) false r ['$'] =
      some ((r.add (some .finish)).close, []) := rfl

/-- A group that is not captured. -/
theorem readAlternatives?_group (fuel : Nat) (r : Reading) (rest : List Char) :
    readAlternatives? (fuel + 1) false r ('(' :: '?' :: ':' :: rest) =
      match readAlternatives? fuel false ⟨[], []⟩ rest with
      | some (p, ')' :: rest) => readAlternatives? fuel false (r.add (some p)) rest
      | _ => none := rfl

/-- The sequence of the literals of a text. -/
def literals (cs : List Char) : Pattern := sequence (cs.map literal)

/-- **Escaped texts with bars between them are read as alternatives**, up to the end of their
group. -/
theorem readAlternatives?_branches (rest : List Char) : ∀ (texts : List (List Char)) (fuel : Nat)
    (done : List Pattern), texts ≠ [] →
    (['|'].intercalate (texts.map (List.flatMap escapeChar))).length < fuel →
    readAlternatives? fuel false ⟨done, []⟩
        (['|'].intercalate (texts.map (List.flatMap escapeChar)) ++ ')' :: rest) =
      some (oneOf (done.reverse ++ texts.map literals), ')' :: rest)
  | [], _, _, hne, _ => absurd rfl hne
  | [cs], fuel, done, _, hfuel => by
    rw [List.map_singleton, List.intercalate_singleton] at hfuel ⊢
    have hlen := length_le_flatMap_escapeChar cs
    obtain ⟨k, rfl⟩ : ∃ k, fuel = k + 1 + cs.length := ⟨fuel - cs.length - 1, by omega⟩
    rw [readAlternatives?_escaped, readAlternatives?_closing, Reading.close, Reading.last_addAll,
      Reading.done_addAll, List.reverse_cons]
    rfl
  | cs :: ds :: texts, fuel, done, _, hfuel => by
    rw [List.map_cons, List.map_cons, List.intercalate_cons_cons] at hfuel ⊢
    rw [← List.map_cons] at hfuel ⊢
    simp only [List.length_append, List.length_singleton] at hfuel
    have hlen := length_le_flatMap_escapeChar cs
    obtain ⟨k, rfl⟩ : ∃ k, fuel = k + 1 + cs.length := ⟨fuel - cs.length - 1, by omega⟩
    rw [List.append_assoc, List.append_assoc, List.singleton_append, readAlternatives?_escaped,
      readAlternatives?_bar, Reading.branch, Reading.last_addAll, Reading.done_addAll,
      readAlternatives?_branches rest (ds :: texts) k _ (List.cons_ne_nil _ _) (by omega)]
    simp [literals]

/-! ## What they match -/

variable {text : List Char} {i j : Nat}

theorem holds_one (c d : Char) : (CharSet.one c).holds d = (c == d) := by
  rw [Bool.eq_iff_iff, beq_iff_eq, ← Char.toNat_inj]
  simp only [CharSet.one, CharSet.holds, Bool.and_eq_true, decide_eq_true_eq]
  omega

theorem mem_ends_literal {c : Char} :
    j ∈ ends text (literal c) i ↔ text[i]? = some c ∧ j = i + 1 := by
  simp only [literal, ends]
  cases text[i]? with
  | none => simp
  | some d =>
    rw [Option.any_some, holds_one, Option.some.injEq]
    by_cases h : c = d
    · simp [h]
    · simp [h, Ne.symm h]

theorem mem_ends_finish : j ∈ ends text .finish i ↔ i = text.length ∧ j = i := by
  rw [ends]
  split <;> simp_all

theorem mem_ends_seq {p q : Pattern} :
    j ∈ ends text (.seq p q) i ↔ ∃ k ∈ ends text p i, j ∈ ends text q k := by
  rw [ends, List.mem_eraseDups, List.mem_flatMap]

theorem mem_ends_alt {p q : Pattern} :
    j ∈ ends text (.alt p q) i ↔ j ∈ ends text p i ∨ j ∈ ends text q i := by
  rw [ends, List.mem_eraseDups, List.mem_append]

theorem mem_ends_sequence_cons {p : Pattern} : ∀ {ps : List Pattern},
    j ∈ ends text (sequence (p :: ps)) i ↔ ∃ k ∈ ends text p i, j ∈ ends text (sequence ps) k
  | [] => by simp [sequence, ends]
  | _ :: _ => mem_ends_seq

theorem mem_ends_sequence_append : ∀ (ps : List Pattern) {qs : List Pattern} {i : Nat},
    j ∈ ends text (sequence (ps ++ qs)) i ↔
      ∃ k ∈ ends text (sequence ps) i, j ∈ ends text (sequence qs) k
  | [], _, _ => by simp [sequence, ends]
  | p :: ps, qs, i => by
    simp only [List.cons_append, mem_ends_sequence_cons, mem_ends_sequence_append ps]
    exact ⟨fun ⟨k, hk, l, hl, h⟩ => ⟨l, ⟨k, hk, hl⟩, h⟩,
      fun ⟨l, ⟨k, hk, hl⟩, h⟩ => ⟨k, hk, l, hl, h⟩⟩

/-- The end mark keeps the matches that end with the text. -/
theorem mem_ends_append_finish {ps : List Pattern} :
    j ∈ ends text (sequence (ps ++ [.finish])) i ↔
      text.length ∈ ends text (sequence ps) i ∧ j = text.length := by
  rw [mem_ends_sequence_append]
  simp only [sequence, mem_ends_finish]
  constructor
  · rintro ⟨_, hk, rfl, rfl⟩
    exact ⟨hk, rfl⟩
  · rintro ⟨hk, rfl⟩
    exact ⟨_, hk, rfl, rfl⟩

theorem mem_ends_oneOf : ∀ {ps : List Pattern}, ps ≠ [] →
    (j ∈ ends text (oneOf ps) i ↔ ∃ p ∈ ps, j ∈ ends text p i)
  | [], h => absurd rfl h
  | [p], _ => by simp [oneOf]
  | p :: q :: ps, _ => by
    rw [oneOf, mem_ends_alt, mem_ends_oneOf (List.cons_ne_nil q ps)]
    · simp
    · exact List.cons_ne_nil q ps

/-- **Literals match where the text goes on with the same characters.** -/
theorem mem_ends_literals : ∀ (cs : List Char) {i : Nat},
    j ∈ ends text (literals cs) i ↔ cs <+: text.drop i ∧ j = i + cs.length
  | [], _ => by simp [literals, sequence, ends]
  | c :: cs, i => by
    have ih : ∀ k, j ∈ ends text (sequence (cs.map literal)) k ↔
        cs <+: text.drop k ∧ j = k + cs.length := fun k => mem_ends_literals cs
    simp only [literals, List.map_cons, mem_ends_sequence_cons, mem_ends_literal, ih]
    cases h : text[i]? with
    | none => simp [List.drop_eq_nil_of_le (List.getElem?_eq_none_iff.1 h)]
    | some d =>
      obtain ⟨hi, rfl⟩ := List.getElem?_eq_some_iff.1 h
      rw [List.drop_eq_getElem_cons hi, List.cons_prefix_cons, List.length_cons]
      constructor
      · rintro ⟨k, ⟨hd, rfl⟩, hcs, rfl⟩
        exact ⟨⟨(Option.some.inj hd).symm, hcs⟩, by omega⟩
      · rintro ⟨⟨rfl, hcs⟩, rfl⟩
        exact ⟨i + 1, ⟨rfl, rfl⟩, hcs, by omega⟩

theorem foundIn_iff (p : Pattern) (s : String) :
    p.foundIn s ↔ ∃ i ≤ s.toList.length, ∃ j, j ∈ ends s.toList p i := by
  simp only [foundIn, List.any_eq_true, List.mem_range, Nat.lt_succ_iff, Bool.not_eq_true',
    List.isEmpty_eq_false_iff_exists_mem]

theorem isSuffixOf_iff_drop (cs text : List Char) : cs.isSuffixOf text ↔
    ∃ i ≤ text.length, cs <+: text.drop i ∧ i + cs.length = text.length := by
  rw [List.isSuffixOf_iff_suffix]
  constructor
  · rintro ⟨before, rfl⟩
    exact ⟨before.length, by simp, by simp, by simp⟩
  · rintro ⟨i, hi, hcs, hlen⟩
    have : cs = text.drop i := hcs.eq_of_length (by rw [List.length_drop]; omega)
    exact this ▸ List.drop_suffix i text

/-- **A pattern that matches certain texts, and these at the end only,** is found in the texts that
end with one of them. -/
theorem foundIn_eq_any {p : Pattern} {s : String} (endings : List String)
    (h : ∀ i j, j ∈ ends s.toList p i ↔ ∃ e ∈ endings,
      (e.toList <+: s.toList.drop i ∧ i + e.toList.length = s.toList.length) ∧
        j = s.toList.length) :
    p.foundIn s = endings.any (hasEnding s) := by
  rw [Bool.eq_iff_iff, foundIn_iff, List.any_eq_true]
  simp only [h, hasEnding, isSuffixOf_iff_drop]
  constructor
  · rintro ⟨i, hi, j, e, he, hend, -⟩
    exact ⟨e, he, i, hi, hend⟩
  · rintro ⟨e, he, i, hi, hend⟩
    exact ⟨i, hi, _, e, he, hend, rfl⟩

/-! ## Patterns of suffixes -/

open Condition (suffixPattern anySuffixPattern)

theorem ofText?_suffixPattern (ending : String) : ofText? (suffixPattern ending) =
    some (sequence (ending.toList.map literal ++ [.finish])) := by
  have htext : (suffixPattern ending).toList = ending.toList.flatMap escapeChar ++ ['$'] := by
    rw [suffixPattern, String.toList_append, toList_escape]
    rfl
  have hlen := length_le_flatMap_escapeChar ending.toList
  obtain ⟨k, hk⟩ : ∃ k, (suffixPattern ending).toList.length + 1 = k + 2 + ending.toList.length :=
    ⟨(suffixPattern ending).toList.length - 1 - ending.toList.length, by
      rw [htext, List.length_append, List.length_singleton]; omega⟩
  unfold ofText?
  dsimp only
  rw [hk, htext, readAlternatives?_escaped, readAlternatives?_finish]
  simp [Reading.close, Reading.last, Reading.add, Reading.parts_addAll, Reading.done_addAll, oneOf,
    List.filterMap_map, Function.comp_def]

theorem ofText?_anySuffixPattern {endings : List String} (hne : endings ≠ []) :
    ofText? (anySuffixPattern endings) =
      some (sequence [oneOf (endings.map fun e => literals e.toList), .finish]) := by
  have htext : (anySuffixPattern endings).toList = '(' :: '?' :: ':' ::
      (['|'].intercalate ((endings.map String.toList).map (List.flatMap escapeChar)) ++
        ')' :: ['$']) := by
    rw [anySuffixPattern, String.toList_append, String.toList_append, String.toList_intercalate]
    simp [toList_escape, Function.comp_def]
  obtain ⟨k, hk⟩ : ∃ k, (anySuffixPattern endings).toList.length + 1 = k + 2 + 1 :=
    ⟨(anySuffixPattern endings).toList.length - 2, by rw [htext]; simp⟩
  have hfuel : (['|'].intercalate ((endings.map String.toList).map
      (List.flatMap escapeChar))).length < k + 2 := by
    rw [htext] at hk
    simp only [List.length_cons, List.length_append] at hk
    omega
  unfold ofText?
  dsimp only
  rw [hk, htext, readAlternatives?_group,
    readAlternatives?_branches ['$'] _ (k + 2) [] (by simpa using hne) hfuel]
  simp [readAlternatives?_finish, Reading.close, Reading.last, Reading.add, oneOf,
    Function.comp_def]

/-- **The pattern of a suffix** is found in the texts that end with it. -/
theorem search_suffixPattern (ending s : String) :
    search (suffixPattern ending) s = hasEnding s ending := by
  rw [search, ofText?_suffixPattern]
  refine (foundIn_eq_any [ending] fun i j => ?_).trans (by simp)
  rw [mem_ends_append_finish, ← literals, mem_ends_literals]
  simp [eq_comm]

/-- **The pattern of several suffixes** is found in the texts that end with one of them. -/
theorem search_anySuffixPattern {endings : List String} (hne : endings ≠ []) (s : String) :
    search (anySuffixPattern endings) s = endings.any (hasEnding s) := by
  have hne' : endings.map (fun e => literals e.toList) ≠ [] := by simpa using hne
  rw [search, ofText?_anySuffixPattern hne]
  refine foundIn_eq_any endings fun i j => ?_
  rw [← List.singleton_append, mem_ends_append_finish, sequence, mem_ends_oneOf hne']
  constructor
  · rintro ⟨⟨p, hp, hj⟩, hlast⟩
    obtain ⟨e, he, rfl⟩ := List.mem_map.1 hp
    rw [mem_ends_literals] at hj
    exact ⟨e, he, ⟨hj.1, hj.2.symm⟩, hlast⟩
  · rintro ⟨e, he, ⟨hcs, hlen⟩, hlast⟩
    exact ⟨⟨_, List.mem_map_of_mem he, (mem_ends_literals _).2 ⟨hcs, hlen.symm⟩⟩, hlast⟩

/-- **The patterns of suffixes match at the end only.** -/
theorem suffixSearch_engine : SuffixSearch engine.search :=
  ⟨search_suffixPattern, search_anySuffixPattern⟩

end Pattern

end TypedGraph

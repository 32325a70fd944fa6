import TypedGraph.Filter.Predicate
import TypedGraph.Proofs.Text.Base64
import TypedGraph.Proofs.Text.Utf8

/-!
# Proofs/Schema/Suffix — an identifier ends with one standard suffix

The standard suffix of a type is a point and letters, none of which is a point.  An identifier that
ends with it has its last point there, so that the suffix can be read off the identifier, and the
name of the type off the suffix.
-/

namespace TypedGraph

theorem hasEnding_iff (s ending : String) : hasEnding s ending ↔ ending.toList <:+ s.toList :=
  List.isSuffixOf_iff_suffix

/-- What follows the last occurrence of a character is determined. -/
theorem eq_of_cons_suffix {c : Char} {as bs cs : List Char} (has : c ∉ as) (hbs : c ∉ bs)
    (ha : c :: as <:+ cs) (hb : c :: bs <:+ cs) : as = bs := by
  -- the shorter of the two is an ending of the other, and cannot lie behind its first character
  rcases List.suffix_or_suffix_of_suffix ha hb with h | h
  · rcases List.suffix_cons_iff.1 h with h | h
    · exact (List.cons.inj h).2
    · exact (hbs (h.mem List.mem_cons_self)).elim
  · rcases List.suffix_cons_iff.1 h with h | h
    · exact (List.cons.inj h).2.symm
    · exact (has (h.mem List.mem_cons_self)).elim

namespace TypeSuffix

theorem toList_standard (name : String) :
    (standard name).toList = '.' :: Base64.encode .urlSafe (Utf8.encode name) := by
  simp [standard]

theorem standard_ne_empty (name : String) : standard name ≠ "" := by
  intro h
  have hlist := congrArg String.toList h
  rw [toList_standard] at hlist
  exact nomatch hlist

/-- **No identifier ends with the standard suffixes of two types.** -/
theorem eq_of_hasEnding_standard {s name other : String} (hname : hasEnding s (standard name))
    (hother : hasEnding s (standard other)) : name = other := by
  rw [hasEnding_iff, toList_standard] at hname hother
  have hletters := eq_of_cons_suffix (Base64.point_notMem_encode _) (Base64.point_notMem_encode _)
    hname hother
  have hbytes := Base64.encode_injective Base64.Alphabet.faithful_urlSafe rfl hletters
  exact Utf8.encode_injective hbytes

end TypeSuffix

end TypedGraph

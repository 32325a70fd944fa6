import Mathlib.Algebra.Group.Nat.Defs
import TypedGraph.Number.Basic

/-!
# Proofs/Number/Binary64 — how far rounding goes

A magnitude grows by `2 ^ 52` with each binade, so that it tells the binade of the number that was
rounded to it (`le_nearest`, `nearest_le`).  Integers that lie far enough apart are therefore told
apart after rounding.  The lengths of lists are compared like this with a length that a filter asks
for: beyond the signed 64-bit integers, that one is compared as a double, and no list has as many
items (`compare_int`).

Integers that lie close to each other may become the same double, but never change places
(`key_ofInt_mono`); up to `2 ^ 53` they stay different (`eq_of_key_ofInt_eq`).
-/

namespace TypedGraph

namespace Binary64

theorem roundHalfEven_le (num den : Nat) : roundHalfEven num den ≤ num / den + 1 := by
  unfold roundHalfEven
  dsimp only
  split <;> omega

theorem le_roundHalfEven (num den : Nat) : num / den ≤ roundHalfEven num den := by
  unfold roundHalfEven
  dsimp only
  split <;> omega

/-- **A number of a binade** is rounded to a magnitude of the binade at least. -/
theorem le_nearest {num k : Nat} (h : 2 ^ k ≤ num) :
    (k - 52) * leadingBit ≤ nearest num 1 := by
  have hnum : num ≠ 0 := fun h0 => by
    have := Nat.two_pow_pos k
    omega
  have hlog : k ≤ num.log2 := (Nat.le_log2 hnum).2 h
  unfold nearest
  dsimp only
  rw [Nat.div_one]
  refine Nat.le_trans (Nat.mul_le_mul_right leadingBit (Nat.sub_le_sub_right hlog 52)) ?_
  exact Nat.le_add_right _ _

/-- **A number up to a binade** is rounded to a magnitude of the next one at most. -/
theorem nearest_le {num k : Nat} (h : num < 2 ^ (k + 1)) :
    nearest num 1 ≤ (k - 52) * leadingBit + 2 ^ 53 := by
  have hlog : num.log2 ≤ k := by
    by_cases h0 : num = 0
    · rw [h0]
      exact Nat.zero_le k
    · exact Nat.le_of_lt_succ ((Nat.log2_lt h0).2 h)
  have hround : roundHalfEven num (2 ^ (num.log2 - 52)) ≤ 2 ^ 53 := by
    refine Nat.le_trans (roundHalfEven_le _ _) (Nat.succ_le_of_lt ?_)
    rw [Nat.div_lt_iff_lt_mul (Nat.two_pow_pos _), ← Nat.pow_add]
    refine Nat.lt_of_lt_of_le Nat.lt_log2_self (Nat.pow_le_pow_right (by decide) ?_)
    omega
  unfold nearest
  dsimp only
  rw [Nat.div_one, Nat.one_mul]
  exact Nat.add_le_add (Nat.mul_le_mul_right leadingBit (Nat.sub_le_sub_right hlog 52)) hround

/-! ## The order of integers -/

/-- Rounding a quotient keeps order. -/
theorem roundHalfEven_mono {num num' den : Nat} (h : num ≤ num') :
    roundHalfEven num den ≤ roundHalfEven num' den := by
  have hquotient : num / den ≤ num' / den := Nat.div_le_div_right h
  rcases Nat.lt_or_eq_of_le hquotient with hlt | heq
  · exact Nat.le_trans (roundHalfEven_le num den) (Nat.le_trans hlt (le_roundHalfEven num' den))
  · have hremainder : num % den ≤ num' % den := by
      have hnum := Nat.div_add_mod num den
      have hnum' := Nat.div_add_mod num' den
      rw [heq] at hnum
      omega
    unfold roundHalfEven
    dsimp only
    rw [heq]
    split
    · split <;> omega
    · split <;> omega

theorem nearest_one (num : Nat) : nearest num 1 =
    (num.log2 - 52) * leadingBit + roundHalfEven num (2 ^ (num.log2 - 52)) := by
  unfold nearest
  dsimp only
  rw [Nat.div_one, Nat.one_mul]
  rfl

/-- A number that loses bits keeps its leading one. -/
theorem leadingBit_le_nearest {num : Nat} (h : 52 ≤ num.log2) :
    (num.log2 - 52) * leadingBit + leadingBit ≤ nearest num 1 := by
  have hnum : num ≠ 0 := fun hzero => by
    rw [hzero] at h
    exact absurd h (by decide)
  have hbits : leadingBit * 2 ^ (num.log2 - 52) = 2 ^ num.log2 := by
    change 2 ^ 52 * 2 ^ (num.log2 - 52) = 2 ^ num.log2
    rw [← Nat.pow_add, Nat.add_sub_cancel' h]
  rw [nearest_one]
  refine Nat.add_le_add_left (Nat.le_trans ?_ (le_roundHalfEven _ _)) _
  rw [Nat.le_div_iff_mul_le (Nat.two_pow_pos _), hbits]
  exact Nat.log2_self_le hnum

theorem log2_mono {num num' : Nat} (h : num ≤ num') : num.log2 ≤ num'.log2 := by
  by_cases hzero : num = 0
  · rw [hzero]
    exact Nat.zero_le _
  · exact (Nat.le_log2 (by omega)).2 (Nat.le_trans (Nat.log2_self_le hzero) h)

/-- **Rounding keeps order.** -/
theorem nearest_mono {num num' : Nat} (h : num ≤ num') : nearest num 1 ≤ nearest num' 1 := by
  have hlog := log2_mono h
  rcases Nat.lt_or_ge (num.log2 - 52) (num'.log2 - 52) with hlt | hge
  · have hlower : (num'.log2 - 52) * leadingBit + leadingBit ≤ nearest num' 1 :=
      leadingBit_le_nearest (by omega)
    have hupper : nearest num 1 ≤ (num.log2 - 52) * leadingBit + 2 ^ 53 :=
      nearest_le Nat.lt_log2_self
    have hdrop : (num.log2 - 52 + 1) * leadingBit ≤ (num'.log2 - 52) * leadingBit :=
      Nat.mul_le_mul_right _ hlt
    simp only [leadingBit] at hlower hupper hdrop ⊢
    omega
  · have heq : num'.log2 - 52 = num.log2 - 52 := by omega
    rw [nearest_one, nearest_one, heq]
    exact Nat.add_le_add_left (roundHalfEven_mono h) _

theorem roundHalfEven_of_dvd {num den : Nat} (hden : 0 < den) (h : den ∣ num) :
    roundHalfEven num den = num / den := by
  obtain ⟨q, rfl⟩ := h
  unfold roundHalfEven
  dsimp only
  rw [Nat.mul_mod_right]
  exact if_neg (by omega)

/-- **Numbers that lose no bits stay different.** -/
theorem nearest_lt {num num' : Nat} (h : num < num') (hexact : 2 ^ (num.log2 - 52) ∣ num)
    (hexact' : 2 ^ (num'.log2 - 52) ∣ num') : nearest num 1 < nearest num' 1 := by
  have hlog := log2_mono (Nat.le_of_lt h)
  rcases Nat.lt_or_ge (num.log2 - 52) (num'.log2 - 52) with hlt | hge
  · have hlower : (num'.log2 - 52) * leadingBit + leadingBit ≤ nearest num' 1 :=
      leadingBit_le_nearest (by omega)
    have hupper : num / 2 ^ (num.log2 - 52) < 2 ^ 53 := by
      rw [Nat.div_lt_iff_lt_mul (Nat.two_pow_pos _), ← Nat.pow_add]
      refine Nat.lt_of_lt_of_le Nat.lt_log2_self (Nat.pow_le_pow_right (by decide) ?_)
      omega
    have hdrop : (num.log2 - 52 + 1) * leadingBit ≤ (num'.log2 - 52) * leadingBit :=
      Nat.mul_le_mul_right _ hlt
    rw [nearest_one num, roundHalfEven_of_dvd (Nat.two_pow_pos _) hexact]
    simp only [leadingBit] at hlower hdrop ⊢
    omega
  · have heq : num'.log2 - 52 = num.log2 - 52 := by omega
    rw [heq] at hexact'
    rw [nearest_one, nearest_one, heq, roundHalfEven_of_dvd (Nat.two_pow_pos _) hexact,
      roundHalfEven_of_dvd (Nat.two_pow_pos _) hexact']
    exact Nat.add_lt_add_left (Nat.div_lt_div_of_lt_of_dvd hexact' h) _

/-- The magnitude that a natural number is rounded to, bounded by the finite ones. -/
def magnitudeOf (n : Nat) : Nat := min (nearest (n * one) 1) (limit - 1)

theorem magnitudeOf_mono {m n : Nat} (h : m ≤ n) : magnitudeOf m ≤ magnitudeOf n := by
  have hnearest := nearest_mono (Nat.mul_le_mul_right one h)
  exact Nat.le_min.2 ⟨Nat.le_trans (Nat.min_le_left _ _) hnearest, Nat.min_le_right _ _⟩

/-- An integer has the magnitude of its absolute value and its own sign. -/
theorem key_ofInt (n : Int) : (ofInt n).key =
    if n < 0 then -(magnitudeOf n.natAbs : Int) else magnitudeOf n.natAbs := by
  unfold ofInt ofRatio? key magnitudeOf limit
  generalize n.natAbs * one = num
  by_cases hsign : n < 0 <;> by_cases hfinite : nearest num 1 < 0x7FF0000000000000
  · simp [hsign, hfinite]
    omega
  · simp [hsign, hfinite, largest, limit]
    omega
  · simp [hsign, hfinite]
    omega
  · simp [hsign, hfinite, largest, limit]
    omega

theorem key_ofInt_natCast (n : Nat) : (ofInt n).key = magnitudeOf n := by
  rw [key_ofInt, if_neg (Int.not_lt.2 (Int.natCast_nonneg n)), Int.natAbs_natCast]

/-- **Integers keep their order as doubles.** -/
theorem key_ofInt_mono {m n : Int} (h : m ≤ n) : (ofInt m).key ≤ (ofInt n).key := by
  rw [key_ofInt, key_ofInt]
  split
  · next hm =>
    split
    · next hn => exact Int.neg_le_neg (Int.ofNat_le.2 (magnitudeOf_mono (by omega)))
    · omega
  · next hm =>
    rw [if_neg (by omega)]
    exact Int.ofNat_le.2 (magnitudeOf_mono (by omega))

/-! ## Integers up to `2 ^ 53` -/

/-- One is so many units as a power of two says. -/
theorem exists_one_eq : ∃ e ≤ 1074, one = Nat.pow 2 e := by
  have h : ∀ k, ∃ e ≤ k, Nat.pow 2 k = Nat.pow 2 e := fun k => ⟨k, Nat.le_refl k, rfl⟩
  unfold one
  exact h 1074

/-- An integer up to `2 ^ 53` loses no bits. -/
theorem dvd_mul_one {n : Nat} (h : n ≤ 2 ^ 53) : 2 ^ ((n * one).log2 - 52) ∣ n * one := by
  obtain ⟨e, -, hone⟩ := exists_one_eq
  rw [hone, Nat.pow_eq]
  rcases Nat.lt_or_eq_of_le h with hlt | rfl
  · have hlog : (n * 2 ^ e).log2 - 52 ≤ e := by
      have hbound : n * 2 ^ e < 2 ^ (53 + e) := by
        rw [Nat.pow_add]
        exact Nat.mul_lt_mul_of_pos_right hlt (Nat.two_pow_pos e)
      by_cases hzero : n * 2 ^ e = 0
      · rw [hzero]
        exact Nat.zero_le _
      · have := (Nat.log2_lt hzero).2 hbound
        omega
    exact Nat.dvd_mul_left_of_dvd (Nat.pow_dvd_pow 2 hlog) n
  · rw [← Nat.pow_add]
    refine Nat.pow_dvd_pow 2 ?_
    rw [Nat.log2_two_pow]
    exact Nat.sub_le _ _

theorem magnitudeOf_lt {m n : Nat} (h : m < n) (hn : n ≤ 2 ^ 53) :
    magnitudeOf m < magnitudeOf n := by
  obtain ⟨e, he, hone⟩ := exists_one_eq
  have hfinite : n * one < 2 ^ (53 + e + 1) := by
    rw [hone, Nat.pow_eq, Nat.add_right_comm, Nat.pow_add]
    exact Nat.mul_lt_mul_of_pos_right (Nat.lt_of_le_of_lt hn (by decide)) (Nat.two_pow_pos e)
  have hone' : 0 < one := by
    rw [hone, Nat.pow_eq]
    exact Nat.two_pow_pos e
  have hlt := nearest_lt (Nat.mul_lt_mul_of_pos_right h hone')
    (dvd_mul_one (Nat.le_trans (Nat.le_of_lt h) hn)) (dvd_mul_one hn)
  have hbound := nearest_le hfinite
  rw [magnitudeOf, magnitudeOf]
  generalize nearest (m * one) 1 = x at hlt ⊢
  generalize nearest (n * one) 1 = y at hlt hbound ⊢
  simp only [leadingBit, limit] at hbound ⊢
  omega

/-- **Integers up to `2 ^ 53` are told apart as doubles.** -/
theorem eq_of_key_ofInt_eq {m n : Int} (hm : m.natAbs ≤ 2 ^ 53) (hn : n.natAbs ≤ 2 ^ 53)
    (h : (ofInt m).key = (ofInt n).key) : m = n := by
  have hpos : ∀ {k : Int}, k < 0 → k.natAbs ≤ 2 ^ 53 → 0 < magnitudeOf k.natAbs := fun hk hle =>
    Nat.lt_of_le_of_lt (Nat.zero_le _) (magnitudeOf_lt (m := 0) (by omega) hle)
  have hnatAbs : magnitudeOf m.natAbs = magnitudeOf n.natAbs → m.natAbs = n.natAbs := by
    intro hmn
    rcases Nat.lt_trichotomy m.natAbs n.natAbs with hlt | heq | hgt
    · exact absurd hmn (Nat.ne_of_lt (magnitudeOf_lt hlt hn))
    · exact heq
    · exact absurd hmn (Nat.ne_of_gt (magnitudeOf_lt hgt hm))
  rw [key_ofInt, key_ofInt] at h
  split at h <;> split at h
  · next hm' hn' => have := hnatAbs (by omega); omega
  · next hm' _ => have := hpos hm' hm; omega
  · next _ hn' => have := hpos hn' hn; omega
  · next hm' hn' => have := hnatAbs (by omega); omega

/-! ## Integers that lie far apart -/

/-- What lies below `2 ^ 61` stays below what lies from `2 ^ 63` on. -/
theorem key_ofInt_lt {m n : Nat} (hm : m < 2 ^ 61) (hn : 2 ^ 63 ≤ n) :
    (ofInt m).key < (ofInt n).key := by
  obtain ⟨e, he, hone⟩ := exists_one_eq
  have hsmall : m * one < 2 ^ (60 + e + 1) := by
    rw [hone, Nat.pow_eq, Nat.add_right_comm, Nat.pow_add]
    exact Nat.mul_lt_mul_of_pos_right hm (Nat.two_pow_pos e)
  have hlarge : 2 ^ (63 + e) ≤ n * one := by
    rw [hone, Nat.pow_eq, Nat.pow_add]
    exact Nat.mul_le_mul_right _ hn
  have hsmall' := nearest_le hsmall
  have hlarge' := le_nearest hlarge
  rw [key_ofInt_natCast, key_ofInt_natCast, magnitudeOf, magnitudeOf]
  generalize nearest (m * one) 1 = x at hsmall' ⊢
  generalize nearest (n * one) 1 = y at hlarge' ⊢
  simp only [leadingBit, limit] at hsmall' hlarge' ⊢
  omega

end Binary64

namespace Number

theorem compare_natCast (m n : Nat) : Ord.compare (m : Int) n = Ord.compare m n := by
  rcases Nat.lt_trichotomy m n with h | h | h
  · rw [Nat.compare_eq_lt.2 h, Int.compare_eq_lt.2 (Int.ofNat_lt.2 h)]
  · rw [Nat.compare_eq_eq.2 h, Int.compare_eq_eq.2 (congrArg _ h)]
  · rw [Nat.compare_eq_gt.2 h, Int.compare_eq_gt.2 (Int.ofNat_lt.2 h)]

/-- **A length is compared exactly** with whatever length is asked for. -/
theorem compare_int {m : Nat} (hm : m < 2 ^ 61) (n : Nat) :
    (Number.int m).compare (.int n) = Ord.compare m n := by
  have hm' : (Number.int m).toI64? = some (m : Int) := by
    rw [toI64?, if_pos]
    simp only [minI64, maxI64]
    omega
  rw [compare, hm']
  by_cases hn' : (n : Int) ≤ maxI64
  · rw [toI64?, if_pos ⟨by simp only [minI64]; omega, hn'⟩]
    exact compare_natCast m n
  · have hlarge : 2 ^ 63 ≤ n := by
      simp only [maxI64] at hn'
      omega
    have hkey := Binary64.key_ofInt_lt hm hlarge
    have hmn : m < n := Nat.lt_of_lt_of_le hm (Nat.le_trans (by decide) hlarge)
    rw [toI64?, if_neg fun h => hn' h.2]
    exact (Int.compare_eq_lt.2 hkey).trans (Nat.compare_eq_lt.2 hmn).symm

end Number

end TypedGraph

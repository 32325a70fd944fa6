import Mathlib.Data.List.Induction
import TypedGraph.Proofs.Page.Cursor

/-!
# Proofs/Page/Spelling — which texts are read as cursors

A cursor is read out of exactly the letters of the label and of a **spelling** of a signed 64-bit
integer: a sign that suits it, any number of zeros, and its digits.  Each integer has many
spellings, and only one of them, without a sign and without zeros in front, is what a cursor is
issued with.  So a text that is read as an offset is the cursor of the offset exactly where its
spelling is the plain one (`offset?_eq_some_iff`); a sign or a zero in front are read, too
(`offset?_unissued`).
-/

namespace TypedGraph

/-- Bytes whose numbers are those of characters below 128 are the bytes of these characters. -/
theorem Utf8.encode_map {bytes : List UInt8}
    (h : ∀ c ∈ bytes.map (fun b => Char.ofNat b.toNat), c.toNat < 0x80) :
    encode (String.ofList (bytes.map fun b => Char.ofNat b.toNat)) = bytes := by
  have hone : ∀ b : UInt8, (Char.ofNat b.toNat).toNat < 0x80 →
      String.utf8EncodeChar (Char.ofNat b.toNat) = [b] := by
    intro b hb
    have hvalid : b.toNat.isValidChar := .inl (Nat.lt_trans b.toNat_lt (by decide))
    have hchar : (Char.ofNat b.toNat).toNat = b.toNat := by
      rw [Char.ofNat, dif_pos hvalid]
      rfl
    have hbyte : String.utf8EncodeChar (Char.ofNat b.toNat) =
        [UInt8.ofNat (Char.ofNat b.toNat).toNat] := if_pos (Nat.le_of_lt_succ hb)
    rw [hbyte, hchar, UInt8.ofNat_toNat]
  rw [encode, String.toList_ofList]
  induction bytes with
  | nil => rfl
  | cons b bytes ih =>
    obtain ⟨hb, hbytes⟩ := List.forall_mem_cons.1 h
    rw [List.map_cons, List.flatMap_cons, hone b hb, ih hbytes]
    rfl

namespace Cursor

/-! ## Spellings -/

/-- How a sign is written: not at all, or as one of two characters. -/
inductive Sign where
  | none | plus | minus
deriving DecidableEq

/-- The characters of a sign. -/
def Sign.chars : Sign → List Char
  | .none => []
  | .plus => ['+']
  | .minus => ['-']

/-- A sign suits an integer; zero takes either. -/
def Sign.Suits : Sign → Int → Prop
  | .none, n | .plus, n => 0 ≤ n
  | .minus, n => n ≤ 0

/-- A way to write integers: with a sign, and with zeros in front of the digits. -/
structure Spelling where
  sign : Sign
  zeros : Nat
deriving DecidableEq

namespace Spelling

/-- The spelling of issued cursors. -/
def plain : Spelling := ⟨.none, 0⟩

/-- An integer in a spelling. -/
def text (sp : Spelling) (n : Int) : List Char :=
  sp.sign.chars ++ (List.replicate sp.zeros '0' ++ (toString n.natAbs).toList)

/-- A sign or a zero in front shows. -/
theorem eq_plain_of_text_eq {sp : Spelling} {n : Int} (h : sp.text n = plain.text n) :
    sp = plain := by
  have hdigit : ∀ c ∈ sp.text n, c.isDigit := by
    rw [h]
    exact isDigit_toString
  have hlength := congrArg List.length h
  obtain ⟨sign, zeros⟩ := sp
  cases sign with
  | none =>
    simp only [text, plain, Sign.chars, List.nil_append, List.length_append, List.length_replicate]
      at hlength
    obtain rfl : zeros = 0 := by omega
    rfl
  | plus => exact absurd (hdigit '+' List.mem_cons_self) (by decide)
  | minus => exact absurd (hdigit '-' List.mem_cons_self) (by decide)

/-- Spellings are characters below 128. -/
theorem toNat_lt_of_mem_text {sp : Spelling} {n : Int} : ∀ c ∈ sp.text n, c.toNat < 0x80 := by
  intro c hc
  rcases List.mem_append.1 hc with hc | hc
  · obtain ⟨sign, zeros⟩ := sp
    cases sign with
    | none => exact absurd hc List.not_mem_nil
    | plus => exact (List.mem_singleton.1 hc) ▸ by decide
    | minus => exact (List.mem_singleton.1 hc) ▸ by decide
  rcases List.mem_append.1 hc with hc | hc
  · exact (List.eq_of_mem_replicate hc) ▸ by decide
  · exact toNat_lt_of_isDigit (isDigit_toString c hc)

end Spelling

/-! ## Reading a spelling -/

/-- A digit is that of a number below ten. -/
theorem exists_eq_digitChar {c : Char} (h : c.isDigit) : ∃ d < 10, c = Nat.digitChar d := by
  rw [Char.isDigit, Bool.and_eq_true, decide_eq_true_eq, decide_eq_true_eq] at h
  have hzero : '0'.toNat ≤ c.toNat := h.1
  have hnine : c.toNat ≤ '9'.toNat := h.2
  have h0 : '0'.toNat = 48 := rfl
  have h9 : '9'.toNat = 57 := rfl
  refine ⟨c.toNat - 48, by omega, Char.toNat_inj.1 ?_⟩
  rw [Nat.toNat_digitChar_of_lt_ten (by omega)]
  omega

/-- **Digits are those of their number**, behind zeros.  The last digit is that of the remainder by
ten; in front of it are zeros only where the number is below ten. -/
theorem exists_eq_replicate_append {ds : List Char} (hne : ds ≠ []) (hdigit : ∀ c ∈ ds, c.isDigit) :
    ∃ zeros, ds = List.replicate zeros '0' ++ Nat.toDigits 10 (Nat.ofDigitChars 10 ds 0) := by
  induction ds using List.reverseRecOn with
  | nil => exact absurd rfl hne
  | append_singleton ds c ih =>
    obtain ⟨d, hd, rfl⟩ := exists_eq_digitChar (hdigit c (by simp))
    have hvalue : Nat.ofDigitChars 10 (ds ++ [d.digitChar]) 0 =
        10 * Nat.ofDigitChars 10 ds 0 + d := by
      rw [Nat.ofDigitChars_append, Nat.ofDigitChars_cons_digitChar_of_lt_ten hd,
        Nat.ofDigitChars_nil]
    have hlast : [d.digitChar] = Nat.toDigits 10 d := (Nat.toDigits_of_lt_base hd).symm
    rw [hvalue, hlast]
    rcases eq_or_ne ds [] with rfl | hds
    · exact ⟨0, by rw [Nat.ofDigitChars_nil]; simp⟩
    obtain ⟨zeros, hzeros⟩ := ih hds fun c hc => hdigit c (List.mem_append_left _ hc)
    generalize Nat.ofDigitChars 10 ds 0 = m at hzeros ⊢
    rcases Nat.eq_zero_or_pos m with rfl | hm
    · refine ⟨zeros + 1, ?_⟩
      rw [hzeros, Nat.toDigits_zero, ← List.replicate_succ', Nat.mul_zero, Nat.zero_add]
    · refine ⟨zeros, ?_⟩
      rw [hzeros, List.append_assoc, Nat.toDigits_append_toDigits (by decide) hm hd]

/-- A text is read as a number exactly where it is some zeros and the digits of the number. -/
theorem digits?_eq_some_iff {cs : List Char} {n : Nat} : digits? cs = some n ↔
    ∃ zeros, cs = List.replicate zeros '0' ++ (toString n).toList := by
  rw [digits?_eq_some_iff_ofDigitChars, Nat.toString_eq_ofList_toDigits, String.toList_ofList]
  constructor
  · rintro ⟨hne, hdigit, rfl⟩
    exact exists_eq_replicate_append hne hdigit
  · rintro ⟨zeros, rfl⟩
    refine ⟨List.append_ne_nil_of_right_ne_nil _ Nat.toDigits_ne_nil, fun c hc => ?_, ?_⟩
    · rcases List.mem_append.1 hc with hc | hc
      · exact (List.eq_of_mem_replicate hc) ▸ by decide
      · exact Nat.isDigit_of_mem_toDigits (by decide) (by decide) hc
    · rw [Nat.ofDigitChars_append, Nat.ofDigitChars_replicate_zero, Nat.mul_zero,
        Nat.ofDigitChars_ten_toDigits]

/-- What is read as an integer is a spelling of it, with the sign that stands in front. -/
theorem exists_text_of_signed? {cs : List Char} {n : Int} (h : signed? cs = some n) :
    ∃ sp : Spelling, sp.sign.Suits n ∧ cs = sp.text n := by
  unfold signed? at h
  split at h
  all_goals
    obtain ⟨m, hm, rfl⟩ := Option.map_eq_some_iff.1 h
    obtain ⟨zeros, rfl⟩ := digits?_eq_some_iff.1 hm
  · refine ⟨⟨.minus, zeros⟩, Int.neg_nonpos_of_nonneg (Int.natCast_nonneg m), ?_⟩
    rw [Spelling.text, Int.natAbs_neg]
    rfl
  · exact ⟨⟨.plus, zeros⟩, Int.natCast_nonneg m, rfl⟩
  · exact ⟨⟨.none, zeros⟩, Int.natCast_nonneg m, rfl⟩

/-- A spelling of an integer is read as the integer. -/
theorem signed?_text {sp : Spelling} {n : Int} (hsuits : sp.sign.Suits n) :
    signed? (sp.text n) = some n := by
  obtain ⟨sign, zeros⟩ := sp
  have hread := digits?_eq_some_iff.2 ⟨zeros, Eq.refl (_ ++ (toString n.natAbs).toList)⟩
  cases sign with
  | none =>
    have hdigit := (digits?_eq_some_iff_ofDigitChars.1 hread).2.1
    have hn : Int.ofNat n.natAbs = n := Int.natAbs_of_nonneg hsuits
    rw [Spelling.text, Sign.chars, List.nil_append, signed?_of_isDigit hdigit, hread,
      Option.map_some, hn]
  | plus =>
    have hn : Int.ofNat n.natAbs = n := Int.natAbs_of_nonneg hsuits
    exact (congrArg (Option.map Int.ofNat) hread).trans (congrArg some hn)
  | minus =>
    have hn : -Int.ofNat n.natAbs = n := by
      have hneg : (n.natAbs : Int) = -n := Int.ofNat_natAbs_of_nonpos hsuits
      rw [Int.ofNat_eq_natCast, hneg, Int.neg_neg]
    exact (congrArg (Option.map fun m => -Int.ofNat m) hread).trans (congrArg some hn)

/-- **A text is read as an integer exactly where it is a spelling of it.** -/
theorem signed?_eq_some_iff {cs : List Char} {n : Int} : signed? cs = some n ↔
    ∃ sp : Spelling, sp.sign.Suits n ∧ cs = sp.text n := by
  constructor
  · exact exists_text_of_signed?
  · rintro ⟨sp, hsuits, rfl⟩
    exact signed?_text hsuits

/-! ## Reading a cursor -/

theorem eq_append_of_afterStart? : ∀ {start cs rest : List Char},
    afterStart? start cs = some rest → cs = start ++ rest
  | [], _, _, h => Option.some_inj.1 h
  | c :: start, d :: cs, rest, h => by
    rw [afterStart?] at h
    split at h
    · next hc => rw [hc, List.cons_append, eq_append_of_afterStart? h]
    · cases h
  | _ :: _, [], _, h => nomatch h

/-- A text that is read as an integer that fits. -/
theorem integer?_eq_some_iff {cs : List Char} {n : Int} : integer? cs = some n ↔
    (Number.minI64 ≤ n ∧ n ≤ Number.maxI64) ∧
      ∃ sp : Spelling, sp.sign.Suits n ∧ cs = sp.text n := by
  rw [integer?_eq, Option.bind_eq_some_iff, ← signed?_eq_some_iff]
  constructor
  · rintro ⟨m, hm, hfits⟩
    unfold Number.checkedI64 at hfits
    split at hfits
    · next hrange =>
      cases hfits
      exact ⟨hrange, hm⟩
    · cases hfits
  · rintro ⟨hrange, hn⟩
    exact ⟨n, hn, if_pos hrange⟩

/-- **What is read as an offset is the letters of a spelling of it.** -/
theorem offset?_eq_some_iff_ofText {s : String} {n : Int} : offset? s = some n ↔
    (Number.minI64 ≤ n ∧ n ≤ Number.maxI64) ∧
      ∃ sp : Spelling, sp.sign.Suits n ∧ s = ofText (sp.text n) := by
  constructor
  · intro h
    obtain ⟨bytes, hbytes, h⟩ := Option.bind_eq_some_iff.1 h
    obtain ⟨rest, hrest, h⟩ := Option.bind_eq_some_iff.1 h
    obtain ⟨hrange, sp, hsuits, rfl⟩ := integer?_eq_some_iff.1 h
    have hchars := eq_append_of_afterStart? hrest
    have hencode : Utf8.encode (String.ofList (label ++ sp.text n)) = bytes := by
      rw [← hchars]
      refine Utf8.encode_map fun c hc => ?_
      rw [hchars] at hc
      exact (List.mem_append.1 hc).elim (toNat_lt_of_mem_label c)
        (Spelling.toNat_lt_of_mem_text c)
    refine ⟨hrange, sp, hsuits, ?_⟩
    rw [ofText, hencode, ← Base64.eq_encode_of_decode? hbytes, String.ofList_toList]
  · rintro ⟨hrange, sp, hsuits, rfl⟩
    rw [offset?_ofText Spelling.toNat_lt_of_mem_text]
    exact integer?_eq_some_iff.2 ⟨hrange, sp, hsuits, rfl⟩

/-- **Cursors and what is read as one.**  A text is read as an integer exactly where it is the
letters of the label and of a spelling of the integer, which has to fit; and then it is the cursor
of a row at that offset exactly where the spelling is the plain one. -/
theorem offset?_eq_some_iff {s : String} {n : Int} : offset? s = some n ↔
    (Number.minI64 ≤ n ∧ n ≤ Number.maxI64) ∧
      ∃ sp : Spelling, sp.sign.Suits n ∧ s = ofText (sp.text n) ∧
        (0 ≤ n ∧ s = ofOffset n.toNat ↔ sp = .plain) := by
  rw [offset?_eq_some_iff_ofText]
  refine and_congr_right fun _ => exists_congr fun sp => and_congr_right fun hsuits => ?_
  refine ⟨fun hs => ⟨hs, ?_, ?_⟩, And.left⟩
  · rintro ⟨hn, hissued⟩
    have htext : sp.text n = Spelling.plain.text n := by
      have habs : n.toNat = n.natAbs := by omega
      rw [hs, ofOffset_eq, habs] at hissued
      exact ofText_injective hissued
    exact Spelling.eq_plain_of_text_eq htext
  · rintro rfl
    have habs : n.natAbs = n.toNat := by
      have hn : 0 ≤ n := hsuits
      omega
    refine ⟨hsuits, ?_⟩
    rw [hs, ofOffset_eq, ← habs]
    rfl

/-- Signs and zeros in front are read, too: three texts that are no cursors of a row. -/
theorem offset?_unissued :
    (offset? "Y29ubmVjdGlvbjorNQ==" = some 5 ∧ "Y29ubmVjdGlvbjorNQ==" ≠ ofOffset 5) ∧
    (offset? "Y29ubmVjdGlvbjowNQ==" = some 5 ∧ "Y29ubmVjdGlvbjowNQ==" ≠ ofOffset 5) ∧
    offset? "Y29ubmVjdGlvbjotMg==" = some (-2) := by
  refine ⟨⟨rfl, ?_⟩, ⟨rfl, ?_⟩, rfl⟩
  · decide +kernel
  · decide +kernel

end Cursor

end TypedGraph

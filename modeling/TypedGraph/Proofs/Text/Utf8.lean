import TypedGraph.Text.Utf8

/-!
# Proofs/Text/Utf8 — the end of a string, cut out by bytes

The bytes of a character begin with one that announces how many follow, and each of these is a
**continuation**, which starts no character.  So decoding undoes encoding
(`decodeLossy_encodeChars_append`), and a string that is cut inside a character decodes to
replacement characters before what is left of it (`drop_encodeChars`).  A replacement character has
more bytes than the continuation that it stands for; hence the last bytes of a string decode to a
text of the same number of bytes exactly where the string ends with that text
(`decodeLossy_drop_eq_iff`).
-/

namespace TypedGraph

namespace Utf8

/-- A byte that goes on with a character. -/
def IsContinuation (b : UInt8) : Prop := 0x80 ≤ b.toNat ∧ b.toNat ≤ 0xBF

/-! ## Decoding a character -/

theorem decodeLossy_one {a : UInt8} (ha : a.toNat < 0x80) (rest : List UInt8) :
    decodeLossy (a :: rest) = Char.ofNat a.toNat :: decodeLossy rest := by
  rw [decodeLossy.eq_def]
  dsimp only
  rw [if_pos ha]

theorem decodeLossy_two {a b : UInt8} {bits lo hi : Nat} (ha : ¬ a.toNat < 0x80)
    (hlead : lead? a.toNat = some (1, bits, lo, hi)) (hb : ¬ (b.toNat < lo ∨ hi < b.toNat))
    (rest : List UInt8) : decodeLossy (a :: b :: rest) =
      Char.ofNat (bits * 64 + (b.toNat - 0x80)) :: decodeLossy rest := by
  rw [decodeLossy.eq_def]
  dsimp only
  rw [if_neg ha, hlead]
  dsimp only
  rw [if_neg hb, if_pos rfl]

theorem continuation?_eq {b : UInt8} (hb : IsContinuation b) :
    continuation? b = some (b.toNat - 0x80) := if_pos hb

theorem decodeLossy_three {a b c : UInt8} {bits lo hi : Nat} (ha : ¬ a.toNat < 0x80)
    (hlead : lead? a.toNat = some (2, bits, lo, hi)) (hb : ¬ (b.toNat < lo ∨ hi < b.toNat))
    (hc : IsContinuation c) (rest : List UInt8) : decodeLossy (a :: b :: c :: rest) =
      Char.ofNat ((bits * 64 + (b.toNat - 0x80)) * 64 + (c.toNat - 0x80)) ::
        decodeLossy rest := by
  rw [decodeLossy.eq_def]
  dsimp only
  rw [if_neg ha, hlead]
  dsimp only
  rw [if_neg hb, if_neg (by decide), continuation?_eq hc]
  dsimp only
  rw [if_pos rfl]

theorem decodeLossy_four {a b c d : UInt8} {bits lo hi : Nat} (ha : ¬ a.toNat < 0x80)
    (hlead : lead? a.toNat = some (3, bits, lo, hi)) (hb : ¬ (b.toNat < lo ∨ hi < b.toNat))
    (hc : IsContinuation c) (hd : IsContinuation d) (rest : List UInt8) :
    decodeLossy (a :: b :: c :: d :: rest) =
      Char.ofNat (((bits * 64 + (b.toNat - 0x80)) * 64 + (c.toNat - 0x80)) * 64 +
        (d.toNat - 0x80)) :: decodeLossy rest := by
  rw [decodeLossy.eq_def]
  dsimp only
  rw [if_neg ha, hlead]
  dsimp only
  rw [if_neg hb, if_neg (by decide), continuation?_eq hc]
  dsimp only
  rw [if_neg (by decide), continuation?_eq hd]

/-- A continuation on its own is no character. -/
theorem decodeLossy_continuation {b : UInt8} (hb : IsContinuation b) (rest : List UInt8) :
    decodeLossy (b :: rest) = replacement :: decodeLossy rest := by
  have hlead : lead? b.toNat = none := if_pos (by have := hb.2; omega)
  rw [decodeLossy.eq_def]
  dsimp only
  rw [if_neg (by have := hb.1; omega), hlead]

/-! ## The bytes of a character -/

theorem toNat_ofNat {n : Nat} (h : n < 256) : (UInt8.ofNat n).toNat = n := by
  rw [UInt8.toNat_ofNat', Nat.mod_eq_of_lt h]

theorem isContinuation_ofNat (n : Nat) : IsContinuation (UInt8.ofNat (n % 64 + 0x80)) := by
  rw [IsContinuation, toNat_ofNat (by omega)]
  omega

theorem lead?_two {n : Nat} (h : 0xC2 ≤ n) (h' : n < 0xE0) :
    lead? n = some (1, n - 0xC0, 0x80, 0xBF) := by
  rw [lead?, if_neg (by omega), if_pos h']

/-- The second of three bytes is neither overlong nor a surrogate. -/
theorem lead?_three {n b : Nat} (h : 0xE0 ≤ n) (h' : n < 0xF0) (hb : 0x80 ≤ b) (hb' : b ≤ 0xBF)
    (hlong : n = 0xE0 → 0xA0 ≤ b) (hsurrogate : n = 0xED → b ≤ 0x9F) :
    ∃ lo hi, lead? n = some (2, n - 0xE0, lo, hi) ∧ ¬ (b < lo ∨ hi < b) := by
  rw [lead?, if_neg (by omega), if_neg (by omega)]
  split
  · next h0 =>
    have := hlong h0
    exact ⟨_, _, by rw [h0], by omega⟩
  split
  · next h0 =>
    have := hsurrogate h0
    exact ⟨_, _, by rw [h0], by omega⟩
  · exact ⟨_, _, rfl, by omega⟩

/-- The second of four bytes is neither overlong nor beyond the last character. -/
theorem lead?_four {n b : Nat} (h : 0xF0 ≤ n) (h' : n ≤ 0xF4) (hb : 0x80 ≤ b) (hb' : b ≤ 0xBF)
    (hlong : n = 0xF0 → 0x90 ≤ b) (hlast : n = 0xF4 → b ≤ 0x8F) :
    ∃ lo hi, lead? n = some (3, n - 0xF0, lo, hi) ∧ ¬ (b < lo ∨ hi < b) := by
  rw [lead?, if_neg (by omega), if_neg (by omega), if_neg (by omega), if_neg (by omega),
    if_neg (by omega)]
  split
  · next h0 =>
    have := hlong h0
    exact ⟨_, _, by rw [h0], by omega⟩
  split
  · exact ⟨_, _, rfl, by omega⟩
  · have h0 : n = 0xF4 := by omega
    have := hlast h0
    rw [if_pos h0]
    exact ⟨_, _, by rw [h0], by omega⟩

/-- The first byte of a character is followed by continuations only. -/
theorem utf8EncodeChar_eq_cons (c : Char) :
    ∃ a bs, String.utf8EncodeChar c = a :: bs ∧ ∀ b ∈ bs, IsContinuation b := by
  have hcons : ∀ (n : Nat) {bs : List UInt8}, (∀ b ∈ bs, IsContinuation b) →
      ∀ b ∈ UInt8.ofNat (n % 64 + 0x80) :: bs, IsContinuation b := fun n _ h =>
    List.forall_mem_cons.2 ⟨isContinuation_ofNat n, h⟩
  unfold String.utf8EncodeChar
  dsimp only
  split
  · exact ⟨_, [], rfl, List.forall_mem_nil _⟩
  split
  · exact ⟨_, _, rfl, hcons _ (List.forall_mem_nil _)⟩
  split
  · exact ⟨_, _, rfl, hcons _ (hcons _ (List.forall_mem_nil _))⟩
  · exact ⟨_, _, rfl, hcons _ (hcons _ (hcons _ (List.forall_mem_nil _)))⟩

/-- **The bytes of a character decode to it.** -/
theorem decodeLossy_utf8EncodeChar (c : Char) (rest : List UInt8) :
    decodeLossy (String.utf8EncodeChar c ++ rest) = c :: decodeLossy rest := by
  have hvalid : c.toNat < 0xD800 ∨ 0xDFFF < c.toNat ∧ c.toNat < 0x110000 := c.valid
  have hc : ∀ n, n = c.toNat → Char.ofNat n = c := fun n hn => by rw [hn, Char.ofNat_toNat]
  have hnat : c.val.toNat = c.toNat := rfl
  unfold String.utf8EncodeChar
  dsimp only
  rw [hnat]
  split
  · next h =>
    have ha := toNat_ofNat (n := c.toNat) (by omega)
    rw [List.singleton_append, decodeLossy_one (by omega), hc _ ha]
  split
  · next h h' =>
    have ha := toNat_ofNat (n := c.toNat / 64 % 32 + 0xC0) (by omega)
    have hb := toNat_ofNat (n := c.toNat % 64 + 0x80) (by omega)
    rw [List.cons_append, List.singleton_append, decodeLossy_two (by omega)
      (lead?_two (by omega) (by omega)) (by omega), hc _ (by omega)]
  split
  · next h h' h'' =>
    have ha := toNat_ofNat (n := c.toNat / 4096 % 16 + 0xE0) (by omega)
    have hb := toNat_ofNat (n := c.toNat / 64 % 64 + 0x80) (by omega)
    have hd := toNat_ofNat (n := c.toNat % 64 + 0x80) (by omega)
    obtain ⟨lo, hi, hlead, hrange⟩ := lead?_three (n := c.toNat / 4096 % 16 + 0xE0)
      (b := c.toNat / 64 % 64 + 0x80) (by omega) (by omega) (by omega) (by omega) (by omega)
      (by omega)
    rw [List.cons_append, List.cons_append, List.singleton_append, decodeLossy_three (by omega)
      (ha ▸ hlead) (by rw [hb]; exact hrange) (isContinuation_ofNat _), hc _ (by omega)]
  · next h h' h'' =>
    have ha := toNat_ofNat (n := c.toNat / 262144 % 8 + 0xF0) (by omega)
    have hb := toNat_ofNat (n := c.toNat / 4096 % 64 + 0x80) (by omega)
    have hd := toNat_ofNat (n := c.toNat / 64 % 64 + 0x80) (by omega)
    have he := toNat_ofNat (n := c.toNat % 64 + 0x80) (by omega)
    obtain ⟨lo, hi, hlead, hrange⟩ := lead?_four (n := c.toNat / 262144 % 8 + 0xF0)
      (b := c.toNat / 4096 % 64 + 0x80) (by omega) (by omega) (by omega) (by omega) (by omega)
      (by omega)
    rw [List.cons_append, List.cons_append, List.cons_append, List.singleton_append,
      decodeLossy_four (by omega) (ha ▸ hlead) (by rw [hb]; exact hrange) (isContinuation_ofNat _)
      (isContinuation_ofNat _), hc _ (by omega)]

/-! ## The bytes of a string -/

/-- The bytes of several characters. -/
def encodeChars (cs : List Char) : List UInt8 := cs.flatMap String.utf8EncodeChar

theorem encodeChars_append (cs ds : List Char) :
    encodeChars (cs ++ ds) = encodeChars cs ++ encodeChars ds := List.flatMap_append

theorem decodeLossy_encodeChars_append (rest : List UInt8) : ∀ cs : List Char,
    decodeLossy (encodeChars cs ++ rest) = cs ++ decodeLossy rest
  | [] => rfl
  | c :: cs => by
    rw [encodeChars, List.flatMap_cons, List.append_assoc, decodeLossy_utf8EncodeChar,
      List.cons_append, ← encodeChars, decodeLossy_encodeChars_append rest cs]

/-- **Decoding undoes encoding.** -/
theorem decodeLossy_encodeChars (cs : List Char) : decodeLossy (encodeChars cs) = cs := by
  have h := decodeLossy_encodeChars_append [] cs
  rwa [List.append_nil, decodeLossy, List.append_nil] at h

theorem encode_injective {s t : String} (h : encode s = encode t) : s = t := by
  have hlist : s.toList = t.toList := by
    rw [← decodeLossy_encodeChars s.toList, ← decodeLossy_encodeChars t.toList]
    exact congrArg decodeLossy h
  exact String.toList_inj.1 hlist

theorem length_encodeChars : ∀ cs : List Char,
    (encodeChars cs).length = (String.ofList cs).utf8ByteSize
  | [] => rfl
  | c :: cs => by
    have ih := length_encodeChars cs
    rw [encodeChars, List.flatMap_cons, List.length_append, ← encodeChars, ih,
      String.length_utf8EncodeChar, ← List.singleton_append, String.ofList_append,
      String.utf8ByteSize_append, ← String.singleton_eq_ofList, String.utf8ByteSize_singleton]

theorem length_encode (s : String) : (encode s).length = s.utf8ByteSize := by
  rw [encode, ← encodeChars, length_encodeChars, String.ofList_toList]

/-! ## Cutting a string -/

/-- **A string that is cut somewhere** goes on with what is left of a character, and with whole
characters behind it. -/
theorem drop_encodeChars : ∀ (cs : List Char) (n : Nat), n ≤ (encodeChars cs).length →
    ∃ bs rest, (encodeChars cs).drop n = bs ++ encodeChars rest ∧
      (∀ b ∈ bs, IsContinuation b) ∧ rest <:+ cs
  | cs, 0, _ => ⟨[], cs, rfl, nofun, List.suffix_refl cs⟩
  | [], n + 1, h => absurd h (by simp [encodeChars])
  | c :: cs, n + 1, h => by
    obtain ⟨a, bs, hbytes, hbs⟩ := utf8EncodeChar_eq_cons c
    have hcons : encodeChars (c :: cs) = a :: (bs ++ encodeChars cs) := by
      rw [encodeChars, List.flatMap_cons, hbytes]
      rfl
    rw [hcons] at h ⊢
    rw [List.drop_succ_cons]
    by_cases hn : n ≤ bs.length
    · refine ⟨bs.drop n, cs, ?_, fun b hb => hbs b (List.mem_of_mem_drop hb), ?_⟩
      · rw [List.drop_append_of_le_length hn]
      · exact List.suffix_cons c cs
    · obtain ⟨bs', rest, hdrop, hbs', hrest⟩ := drop_encodeChars cs (n - bs.length) (by
        simp only [List.length_cons, List.length_append] at h
        omega)
      refine ⟨bs', rest, ?_, hbs', hrest.trans (List.suffix_cons c cs)⟩
      rw [List.drop_append, List.drop_eq_nil_of_le (by omega), List.nil_append, hdrop]

theorem decodeLossy_continuations_append (rest : List UInt8) : ∀ {bs : List UInt8},
    (∀ b ∈ bs, IsContinuation b) →
      decodeLossy (bs ++ rest) = List.replicate bs.length replacement ++ decodeLossy rest
  | [], _ => rfl
  | b :: bs, h => by
    rw [List.cons_append, decodeLossy_continuation (h b List.mem_cons_self),
      decodeLossy_continuations_append rest fun c hc => h c (List.mem_cons_of_mem _ hc)]
    rfl

theorem length_encodeChars_replicate (n : Nat) :
    (encodeChars (List.replicate n replacement)).length = 3 * n := by
  induction n with
  | zero => rfl
  | succ n ih =>
    have hone : (String.utf8EncodeChar replacement).length = 3 := rfl
    rw [List.replicate_succ, encodeChars, List.flatMap_cons, List.length_append, ← encodeChars, ih,
      hone]
    omega

/-- **The last bytes of a text** decode to a text of as many bytes exactly where it ends with that
text. -/
theorem decodeLossy_drop_eq_iff {cs ending : List Char}
    (h : (encodeChars ending).length ≤ (encodeChars cs).length) :
    decodeLossy ((encodeChars cs).drop ((encodeChars cs).length - (encodeChars ending).length)) =
      ending ↔ ending <:+ cs := by
  constructor
  · intro heq
    obtain ⟨bs, rest, hdrop, hbs, hrest⟩ := drop_encodeChars cs _ (Nat.sub_le _ _)
    have hlength := congrArg List.length hdrop
    rw [List.length_drop, List.length_append] at hlength
    rw [hdrop, decodeLossy_continuations_append _ hbs, decodeLossy_encodeChars] at heq
    have hbytes := congrArg (List.length ∘ encodeChars) heq
    rw [Function.comp, Function.comp, encodeChars_append, List.length_append,
      length_encodeChars_replicate] at hbytes
    have hnil : bs = [] := List.eq_nil_of_length_eq_zero (by omega)
    subst hnil
    exact heq ▸ hrest
  · rintro ⟨before, rfl⟩
    rw [encodeChars_append, List.length_append, Nat.add_sub_cancel, List.drop_left,
      decodeLossy_encodeChars]

end Utf8

end TypedGraph

import Mathlib.Data.List.Basic
import Mathlib.Data.Option.Basic
import TypedGraph.Text.Base64

/-!
# Proofs/Text/Base64 — bytes are read off their letters

Every group of up to three bytes is a number, and its letters stand for the **digits** of the number
at base 64.  The digits determine the bytes (`digits_injective`), and in a **faithful** alphabet the
letters determine the digits.  Without filling, the length of the last group shows in the number of
letters, so that different bytes are written in different letters (`encode_injective`).  With
filling, decoding reads back what was written (`decode?_encode`), and reads nothing else: letters
and filling are those of the bytes that were read (`decode?_eq_some_iff`).
-/

namespace TypedGraph

namespace Base64

/-! ## Letters -/

/-- The number of each letter is read off it. -/
def Alphabet.Faithful (a : Alphabet) : Prop := ∀ n < 64, a.value? (a.letter n) = some n

theorem Alphabet.faithful_urlSafe : Alphabet.urlSafe.Faithful := by
  unfold Alphabet.Faithful
  decide +kernel

theorem Alphabet.faithful_standard : Alphabet.standard.Faithful := by
  unfold Alphabet.Faithful
  decide +kernel

/-- No letter of the standard alphabet is a filling. -/
theorem Alphabet.letter_standard_ne : ∀ n < 64, Alphabet.standard.letter n ≠ '=' := by
  decide +kernel

/-- No letter that is safe in addresses is a point. -/
theorem Alphabet.letter_urlSafe_ne (n : Nat) : Alphabet.urlSafe.letter n ≠ '.' := by
  have hsmall : ∀ n < 62, Alphabet.urlSafe.letter n ≠ '.' := by decide +kernel
  rcases Nat.lt_or_ge n 62 with h | h
  · exact hsmall n h
  · unfold Alphabet.letter
    rw [if_neg (by omega), if_neg (by omega), if_neg (by omega)]
    split <;> decide

/-! ## Digits -/

/-- The numbers that the letters of bytes stand for. -/
def digits : List UInt8 → List Nat
  | [] => []
  | [x] => [x.toNat / 4, x.toNat % 4 * 16]
  | [x, y] =>
    let n := x.toNat * 256 + y.toNat
    [n / 1024, n / 16 % 64, n % 16 * 4]
  | x :: y :: z :: rest =>
    let n := (x.toNat * 256 + y.toNat) * 256 + z.toNat
    n / 262144 :: n / 4096 % 64 :: n / 64 % 64 :: n % 64 :: digits rest

theorem digits_lt : ∀ (bs : List UInt8), ∀ n ∈ digits bs, n < 64
  | [] => List.forall_mem_nil _
  | [x] => by
    have hx := x.toNat_lt
    simp only [digits, List.forall_mem_cons]
    exact ⟨by omega, by omega, List.forall_mem_nil _⟩
  | [x, y] => by
    have hx := x.toNat_lt
    have hy := y.toNat_lt
    simp only [digits, List.forall_mem_cons]
    exact ⟨by omega, by omega, by omega, List.forall_mem_nil _⟩
  | x :: y :: z :: rest => by
    have hx := x.toNat_lt
    have hy := y.toNat_lt
    have hz := z.toNat_lt
    simp only [digits, List.forall_mem_cons]
    exact ⟨by omega, by omega, by omega, by omega, digits_lt rest⟩

/-- **The digits determine the bytes**: their number tells the length of the last group, and each
group is the number that it has at base 64. -/
theorem digits_injective : ∀ {bs cs : List UInt8}, digits bs = digits cs → bs = cs
  | [], [], _ => rfl
  | [x], [x'], h => by
    simp only [digits, List.cons.injEq] at h
    obtain ⟨h₁, h₂, -⟩ := h
    have hx : x = x' := UInt8.toNat_inj.1 (by omega)
    rw [hx]
  | [x, y], [x', y'], h => by
    have hy := y.toNat_lt
    have hy' := y'.toNat_lt
    simp only [digits, List.cons.injEq] at h
    obtain ⟨h₁, h₂, h₃, -⟩ := h
    have hx : x = x' := UInt8.toNat_inj.1 (by omega)
    have hy : y = y' := UInt8.toNat_inj.1 (by omega)
    rw [hx, hy]
  | x :: y :: z :: bs, x' :: y' :: z' :: cs, h => by
    have hy := y.toNat_lt
    have hy' := y'.toNat_lt
    have hz := z.toNat_lt
    have hz' := z'.toNat_lt
    simp only [digits, List.cons.injEq] at h
    obtain ⟨h₁, h₂, h₃, h₄, h⟩ := h
    have hx : x = x' := UInt8.toNat_inj.1 (by omega)
    have hy : y = y' := UInt8.toNat_inj.1 (by omega)
    have hz : z = z' := UInt8.toNat_inj.1 (by omega)
    rw [hx, hy, hz, digits_injective h]
  | [], [_], h | [], [_, _], h | [], _ :: _ :: _ :: _, h => nomatch h
  | [_], [], h | [_, _], [], h | _ :: _ :: _ :: _, [], h => nomatch h
  | [_], [_, _], h | [_], _ :: _ :: _ :: _, h | [_, _], [_], h | [_, _], _ :: _ :: _ :: _, h => by
    simp [digits] at h
  | _ :: _ :: _ :: _, [_], h | _ :: _ :: _ :: _, [_, _], h => by simp [digits] at h

/-! ## Bytes and their letters -/

variable {a : Alphabet}

/-- Without filling, the letters are those of the digits. -/
theorem encode_eq_map (hpadded : a.padded = false) : ∀ bs : List UInt8,
    encode a bs = (digits bs).map a.letter
  | [] => rfl
  | [_] | [_, _] => by simp [encode, digits, Alphabet.padding, hpadded]
  | x :: y :: z :: rest => by
    rw [encode, digits, encode_eq_map hpadded rest]
    rfl

/-- **Different bytes are written in different letters.** -/
theorem encode_injective (ha : a.Faithful) (hpadded : a.padded = false) {bs cs : List UInt8}
    (h : encode a bs = encode a cs) : bs = cs := by
  have hread : ∀ bs, (encode a bs).map a.value? = (digits bs).map some := by
    intro bs
    rw [encode_eq_map hpadded, List.map_map]
    exact List.map_congr_left fun n hn => ha n (digits_lt bs n hn)
  have hdigits := congrArg (List.map a.value?) h
  rw [hread, hread] at hdigits
  exact digits_injective (List.map_injective_iff.2 (fun _ _ => Option.some.inj) hdigits)

/-- What is written in letters that are safe in addresses has no point. -/
theorem point_notMem_encode (bs : List UInt8) : '.' ∉ encode .urlSafe bs := by
  intro h
  rw [encode_eq_map rfl] at h
  obtain ⟨n, -, hn⟩ := List.mem_map.1 h
  exact Alphabet.letter_urlSafe_ne n hn

/-! ## Reading padded letters -/

theorem ofNat_eq {n : Nat} {x : UInt8} (h : n = x.toNat) : UInt8.ofNat n = x := by
  rw [h, UInt8.ofNat_toNat]

/-- A last group of one byte. -/
theorem decode?_filled_two {p q : Char} {m n : Nat} (hp : Alphabet.standard.value? p = some m)
    (hq : Alphabet.standard.value? q = some n) (hn : n % 16 = 0) :
    decode? .standard [p, q, '=', '='] = some [UInt8.ofNat (m * 4 + n / 16)] := by
  rw [decode?, hp, hq]
  simp [hn]

/-- A last group of two bytes. -/
theorem decode?_filled_one {p q r : Char} {m n k : Nat} (hr : r ≠ '=')
    (hp : Alphabet.standard.value? p = some m) (hq : Alphabet.standard.value? q = some n)
    (hk : Alphabet.standard.value? r = some k) (hn : k % 4 = 0) :
    decode? .standard [p, q, r, '='] =
      some [UInt8.ofNat (((m * 64 + n) * 16 + k / 4) / 256),
        UInt8.ofNat (((m * 64 + n) * 16 + k / 4) % 256)] := by
  rw [decode?, hp, hq, hk]
  · simp [hn]
  · exact hr

/-- A full group is no filled one, as its last letter shows. -/
theorem decode?_group {p q r s : Char} {m n k l : Nat} {rest : List Char} {bytes : List UInt8}
    (hs : s ≠ '=') (hp : Alphabet.standard.value? p = some m)
    (hq : Alphabet.standard.value? q = some n) (hr : Alphabet.standard.value? r = some k)
    (hl : Alphabet.standard.value? s = some l) (hrest : decode? .standard rest = some bytes) :
    decode? .standard (p :: q :: r :: s :: rest) =
      some (UInt8.ofNat ((((m * 64 + n) * 64 + k) * 64 + l) / 65536) ::
        UInt8.ofNat ((((m * 64 + n) * 64 + k) * 64 + l) / 256 % 256) ::
        UInt8.ofNat ((((m * 64 + n) * 64 + k) * 64 + l) % 256) :: bytes) := by
  rw [decode?, hp, hq, hr, hl, hrest]
  · rfl
  · exact fun _ h _ => hs h
  · exact fun h _ => hs h

/-- **What is written in padded letters is read again.** -/
theorem decode?_encode : ∀ bs : List UInt8, decode? .standard (encode .standard bs) = some bs
  | [] => rfl
  | [x] => by
    have hx := x.toNat_lt
    have hread := decode?_filled_two
      (Alphabet.faithful_standard (x.toNat / 4) (by omega))
      (Alphabet.faithful_standard (x.toNat % 4 * 16) (by omega)) (by omega)
    refine hread.trans ?_
    rw [ofNat_eq (x := x) (by omega)]
  | [x, y] => by
    have hx := x.toNat_lt
    have hy := y.toNat_lt
    have hread := decode?_filled_one
      (Alphabet.letter_standard_ne ((x.toNat * 256 + y.toNat) % 16 * 4) (by omega))
      (Alphabet.faithful_standard ((x.toNat * 256 + y.toNat) / 1024) (by omega))
      (Alphabet.faithful_standard ((x.toNat * 256 + y.toNat) / 16 % 64) (by omega))
      (Alphabet.faithful_standard ((x.toNat * 256 + y.toNat) % 16 * 4) (by omega)) (by omega)
    refine hread.trans ?_
    rw [ofNat_eq (x := x) (by omega), ofNat_eq (x := y) (by omega)]
  | x :: y :: z :: rest => by
    have hx := x.toNat_lt
    have hy := y.toNat_lt
    have hz := z.toNat_lt
    have hletter : ∀ m, m < 64 → Alphabet.standard.value? (Alphabet.standard.letter m) = some m :=
      Alphabet.faithful_standard
    obtain ⟨n, hn⟩ : ∃ n, n = (x.toNat * 256 + y.toNat) * 256 + z.toNat := ⟨_, rfl⟩
    have hread := decode?_group (Alphabet.letter_standard_ne (n % 64) (by omega))
      (hletter (n / 262144) (by omega)) (hletter (n / 4096 % 64) (by omega))
      (hletter (n / 64 % 64) (by omega)) (hletter (n % 64) (by omega)) (decode?_encode rest)
    rw [encode, ← hn]
    refine hread.trans ?_
    rw [ofNat_eq (x := x) (by omega), ofNat_eq (x := y) (by omega), ofNat_eq (x := z) (by omega)]

/-! ## Nothing else is read

A letter is determined by its number, and the bits that a short group leaves unused have to be zero.
So each of the three kinds of groups that are read is what its own bytes are written as. -/

/-- The letter of the number of a letter is that letter. -/
theorem Alphabet.letter_of_value? {c : Char} {n : Nat} (h : a.value? c = some n) :
    n < 64 ∧ a.letter n = c := by
  have hle : ∀ d e : Char, d ≤ e ↔ d.toNat ≤ e.toNat := fun _ _ => Iff.rfl
  have hchar : ∀ m, m = c.toNat → Char.ofNat m = c := fun m hm => by rw [hm, Char.ofNat_toNat]
  have hA : 'A'.toNat = 65 := rfl
  have hZ : 'Z'.toNat = 90 := rfl
  have ha : 'a'.toNat = 97 := rfl
  have hz : 'z'.toNat = 122 := rfl
  have h0 : '0'.toNat = 48 := rfl
  have h9 : '9'.toNat = 57 := rfl
  unfold Alphabet.value? at h
  simp only [hle] at h
  unfold Alphabet.letter
  split at h
  · cases h
    refine ⟨by omega, ?_⟩
    rw [if_pos (by omega)]
    exact hchar _ (by omega)
  split at h
  · cases h
    refine ⟨by omega, ?_⟩
    rw [if_neg (by omega), if_pos (by omega)]
    exact hchar _ (by omega)
  split at h
  · cases h
    refine ⟨by omega, ?_⟩
    rw [if_neg (by omega), if_neg (by omega), if_pos (by omega)]
    exact hchar _ (by omega)
  split at h
  · next hplus =>
    cases h
    exact ⟨by omega, hplus.symm⟩
  split at h
  · next hslash =>
    cases h
    exact ⟨by omega, hslash.symm⟩
  · cases h

/-- One byte fills a last group of two letters. -/
theorem encode_filled_two {m n : Nat} (hm : m < 64) (hn : n < 64) (hzero : n % 16 = 0) :
    encode .standard [UInt8.ofNat (m * 4 + n / 16)] =
      [Alphabet.standard.letter m, Alphabet.standard.letter n, '=', '='] := by
  have hx : (UInt8.ofNat (m * 4 + n / 16)).toNat = m * 4 + n / 16 := by
    rw [UInt8.toNat_ofNat']
    omega
  have hm' : (m * 4 + n / 16) / 4 = m := by omega
  have hn' : (m * 4 + n / 16) % 4 * 16 = n := by omega
  rw [encode, hx, hm', hn']
  rfl

/-- Two bytes fill a last group of three letters. -/
theorem encode_filled_one {m n k : Nat} (hm : m < 64) (hn : n < 64) (hk : k < 64)
    (hzero : k % 4 = 0) :
    encode .standard [UInt8.ofNat (((m * 64 + n) * 16 + k / 4) / 256),
        UInt8.ofNat (((m * 64 + n) * 16 + k / 4) % 256)] =
      [Alphabet.standard.letter m, Alphabet.standard.letter n, Alphabet.standard.letter k,
        '='] := by
  obtain ⟨l, hl⟩ : ∃ l, l = (m * 64 + n) * 16 + k / 4 := ⟨_, rfl⟩
  have hx : (UInt8.ofNat (l / 256)).toNat = l / 256 := by
    rw [UInt8.toNat_ofNat']
    omega
  have hy : (UInt8.ofNat (l % 256)).toNat = l % 256 := by
    rw [UInt8.toNat_ofNat']
    omega
  have hm' : l / 1024 = m := by omega
  have hn' : l / 16 % 64 = n := by omega
  have hk' : l % 16 * 4 = k := by omega
  rw [← hl, encode, hx, hy, Nat.div_add_mod', hm', hn', hk']
  rfl

/-- Three bytes fill a group of four letters. -/
theorem encode_group {m n k l : Nat} (hm : m < 64) (hn : n < 64) (hk : k < 64) (hl : l < 64)
    (bytes : List UInt8) :
    encode a (UInt8.ofNat ((((m * 64 + n) * 64 + k) * 64 + l) / 65536) ::
        UInt8.ofNat ((((m * 64 + n) * 64 + k) * 64 + l) / 256 % 256) ::
        UInt8.ofNat ((((m * 64 + n) * 64 + k) * 64 + l) % 256) :: bytes) =
      a.letter m :: a.letter n :: a.letter k :: a.letter l :: encode a bytes := by
  obtain ⟨i, hi⟩ : ∃ i, i = ((m * 64 + n) * 64 + k) * 64 + l := ⟨_, rfl⟩
  have hx : (UInt8.ofNat (i / 65536)).toNat = i / 65536 := by
    rw [UInt8.toNat_ofNat']
    omega
  have hy : (UInt8.ofNat (i / 256 % 256)).toNat = i / 256 % 256 := by
    rw [UInt8.toNat_ofNat']
    omega
  have hz : (UInt8.ofNat (i % 256)).toNat = i % 256 := by
    rw [UInt8.toNat_ofNat']
    omega
  have hsum : (i / 65536 * 256 + i / 256 % 256) * 256 + i % 256 = i := by omega
  have hm' : i / 262144 = m := by omega
  have hn' : i / 4096 % 64 = n := by omega
  have hk' : i / 64 % 64 = k := by omega
  have hl' : i % 64 = l := by omega
  rw [← hi, encode, hx, hy, hz, hsum, hm', hn', hk', hl']
  rfl

/-- **What is read in padded letters was written so.** -/
theorem eq_encode_of_decode? {cs : List Char} {bytes : List UInt8}
    (h : decode? .standard cs = some bytes) : cs = encode .standard bytes := by
  fun_induction decode? .standard cs generalizing bytes with
  | case1 =>
    cases h
    rfl
  | case2 p q =>
    obtain ⟨m, hp, h⟩ := Option.bind_eq_some_iff.1 h
    obtain ⟨n, hq, h⟩ := Option.bind_eq_some_iff.1 h
    obtain ⟨_, hzero, h⟩ := Option.bind_eq_some_iff.1 h
    cases h
    obtain ⟨hm, rfl⟩ := Alphabet.letter_of_value? hp
    obtain ⟨hn, rfl⟩ := Alphabet.letter_of_value? hq
    exact (encode_filled_two hm hn ((Option.guard_eq_some' _).1 hzero)).symm
  | case3 p q r =>
    obtain ⟨m, hp, h⟩ := Option.bind_eq_some_iff.1 h
    obtain ⟨n, hq, h⟩ := Option.bind_eq_some_iff.1 h
    obtain ⟨k, hr, h⟩ := Option.bind_eq_some_iff.1 h
    obtain ⟨_, hzero, h⟩ := Option.bind_eq_some_iff.1 h
    cases h
    obtain ⟨hm, rfl⟩ := Alphabet.letter_of_value? hp
    obtain ⟨hn, rfl⟩ := Alphabet.letter_of_value? hq
    obtain ⟨hk, rfl⟩ := Alphabet.letter_of_value? hr
    exact (encode_filled_one hm hn hk ((Option.guard_eq_some' _).1 hzero)).symm
  | case4 p q r s rest _ _ ih =>
    obtain ⟨m, hp, h⟩ := Option.bind_eq_some_iff.1 h
    obtain ⟨n, hq, h⟩ := Option.bind_eq_some_iff.1 h
    obtain ⟨k, hr, h⟩ := Option.bind_eq_some_iff.1 h
    obtain ⟨l, hs, h⟩ := Option.bind_eq_some_iff.1 h
    obtain ⟨bytes', hrest, h⟩ := Option.bind_eq_some_iff.1 h
    cases h
    obtain ⟨hm, rfl⟩ := Alphabet.letter_of_value? hp
    obtain ⟨hn, rfl⟩ := Alphabet.letter_of_value? hq
    obtain ⟨hk, rfl⟩ := Alphabet.letter_of_value? hr
    obtain ⟨hl, rfl⟩ := Alphabet.letter_of_value? hs
    rw [encode_group hm hn hk hl, ← ih hrest]
  | case5 => cases h

/-- **Padded letters are read as bytes exactly where they are what the bytes are written as.** -/
theorem decode?_eq_some_iff {cs : List Char} {bytes : List UInt8} :
    decode? .standard cs = some bytes ↔ cs = encode .standard bytes :=
  ⟨eq_encode_of_decode?, fun h => h ▸ decode?_encode bytes⟩

end Base64

end TypedGraph

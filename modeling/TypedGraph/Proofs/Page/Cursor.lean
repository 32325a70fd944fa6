import TypedGraph.Page.Cursor
import TypedGraph.Proofs.Text.Base64
import TypedGraph.Proofs.Text.Utf8

/-!
# Proofs/Page/Cursor — a cursor is read back

A text behind the label is read out of its letters wherever it is one of characters below 128
(`offset?_ofText`), and no two texts have the same letters (`ofText_injective`).  The text of a
cursor is the digits of its offset, and digits are read as their number, as far as it fits.  Hence
the **round trip** (`ofOffset_round_trip`): the cursor of an offset is read as the offset where that
is a signed 64-bit integer, and not at all elsewhere, so that a result of a length that fits takes
the cursor of each of its rows for the row.

Where a cursor **leads** in a result is said apart from how it is read (`leads_iff`).
-/

namespace TypedGraph

/-- The bytes of characters below 128 are their numbers. -/
theorem Utf8.map_encode {cs : List Char} (h : ∀ c ∈ cs, c.toNat < 0x80) :
    (encode (String.ofList cs)).map (fun b => Char.ofNat b.toNat) = cs := by
  have hone : ∀ c : Char, c.toNat < 0x80 →
      (String.utf8EncodeChar c).map (fun b => Char.ofNat b.toNat) = [c] := by
    intro c hc
    have hbyte : String.utf8EncodeChar c = [UInt8.ofNat c.toNat] :=
      if_pos (Nat.le_of_lt_succ hc)
    have hread : (UInt8.ofNat c.toNat).toNat = c.toNat := by
      rw [UInt8.toNat_ofNat']
      omega
    rw [hbyte, List.map_singleton, hread, Char.ofNat_toNat]
  rw [encode, String.toList_ofList]
  induction cs with
  | nil => rfl
  | cons c cs ih =>
    obtain ⟨hc, hcs⟩ := List.forall_mem_cons.1 h
    rw [List.flatMap_cons, List.map_append, hone c hc, ih hcs]
    rfl

namespace Cursor

/-! ## Digits -/

theorem isDigit_toString {n : Nat} : ∀ c ∈ (toString n).toList, c.isDigit := by
  rw [Nat.toString_eq_ofList_toDigits, String.toList_ofList]
  exact fun c hc => Nat.isDigit_of_mem_toDigits (by decide) (by decide) hc

/-- Digits are characters below 128. -/
theorem toNat_lt_of_isDigit {c : Char} (h : c.isDigit) : c.toNat < 0x80 := by
  rw [Char.isDigit, Bool.and_eq_true, decide_eq_true_eq, decide_eq_true_eq] at h
  have hnine : c.toNat ≤ '9'.toNat := h.2
  exact Nat.lt_of_le_of_lt hnine (by decide)

/-- Digits are read as their number at base ten. -/
theorem digits?_eq_some_iff_ofDigitChars {cs : List Char} {n : Nat} : digits? cs = some n ↔
    cs ≠ [] ∧ (∀ c ∈ cs, c.isDigit) ∧ Nat.ofDigitChars 10 cs 0 = n := by
  have hread : ¬(cs.isEmpty ∨ !cs.all Char.isDigit) ↔ cs ≠ [] ∧ ∀ c ∈ cs, c.isDigit := by
    simp
  rw [digits?, ← Nat.ofDigitChars_eq_foldl]
  split
  · next h => exact iff_of_false nofun fun hcs => hread.2 ⟨hcs.1, hcs.2.1⟩ h
  · next h =>
    rw [Option.some_inj]
    exact ⟨fun hn => ⟨(hread.1 h).1, (hread.1 h).2, hn⟩, fun hcs => hcs.2.2⟩

/-- **The digits of a number are read as the number.** -/
theorem digits?_toString (n : Nat) : digits? (toString n).toList = some n := by
  rw [digits?_eq_some_iff_ofDigitChars]
  refine ⟨?_, isDigit_toString, ?_⟩
  · rw [Nat.toString_eq_ofList_toDigits, String.toList_ofList]
    exact Nat.toDigits_ne_nil
  · rw [Nat.toString_eq_ofList_toDigits, String.toList_ofList, Nat.ofDigitChars_ten_toDigits]

/-! ## Integers -/

/-- The integer that a text is read as, whether it fits or not. -/
def signed? : List Char → Option Int
  | '-' :: ds => (digits? ds).map fun n => -Int.ofNat n
  | '+' :: ds => (digits? ds).map Int.ofNat
  | ds => (digits? ds).map Int.ofNat

theorem integer?_eq (cs : List Char) : integer? cs = (signed? cs).bind Number.checkedI64 := by
  have hguard : ∀ n : Int, (do
      guard (Number.minI64 ≤ n ∧ n ≤ Number.maxI64)
      return n) = Number.checkedI64 n := by
    intro n
    unfold Number.checkedI64 guard
    split <;> rfl
  have hread : ∀ {o o' : Option Int}, o = o' → (do
      let n ← o
      guard (Number.minI64 ≤ n ∧ n ≤ Number.maxI64)
      return n) = o'.bind Number.checkedI64 := by
    rintro o _ rfl
    exact congrArg o.bind (funext hguard)
  unfold integer?
  split
  · next ds =>
    refine hread ?_
    rw [signed?]
    cases digits? ds <;> rfl
  · exact hread rfl
  · next hminus hplus =>
    refine hread ?_
    rw [signed?]
    · exact hminus
    · exact hplus

/-- Digits without a sign are read as their number. -/
theorem signed?_of_isDigit {ds : List Char} (h : ∀ c ∈ ds, c.isDigit) :
    signed? ds = (digits? ds).map Int.ofNat := by
  rw [signed?]
  · rintro ds rfl
    exact absurd (h '-' List.mem_cons_self) (by decide)
  · rintro ds rfl
    exact absurd (h '+' List.mem_cons_self) (by decide)

/-- The digits of a number are read as the number, as far as it fits. -/
theorem integer?_toString (n : Nat) : integer? (toString n).toList = Number.checkedI64 n := by
  rw [integer?_eq, signed?_of_isDigit isDigit_toString, digits?_toString]
  rfl

/-! ## Texts behind the label -/

/-- The letters of a text behind the label. -/
def ofText (text : List Char) : String :=
  String.ofList (Base64.encode .standard (Utf8.encode (String.ofList (label ++ text))))

theorem ofOffset_eq (n : Nat) : ofOffset n = ofText (toString n).toList := by
  rw [ofOffset, ofText, String.ofList_append, String.ofList_toList]

/-- Different texts have different letters. -/
theorem ofText_injective : Function.Injective ofText := by
  intro s t h
  have hbytes := congrArg (Base64.decode? .standard ∘ String.toList) h
  simp only [Function.comp, ofText, String.toList_ofList, Base64.decode?_encode,
    Option.some_inj] at hbytes
  exact List.append_cancel_left (String.ofList_inj.1 (Utf8.encode_injective hbytes))

theorem afterStart?_append : ∀ start cs : List Char, afterStart? start (start ++ cs) = some cs
  | [], _ => rfl
  | c :: start, cs => by rw [List.cons_append, afterStart?, if_pos rfl, afterStart?_append]

theorem toNat_lt_of_mem_label : ∀ c ∈ label, c.toNat < 0x80 := by
  have hlabel : label.all (fun c => decide (c.toNat < 0x80)) = true := rfl
  exact fun c hc => of_decide_eq_true (List.all_eq_true.1 hlabel c hc)

/-- A text of characters below 128 is read out of its letters. -/
theorem offset?_ofText {text : List Char} (h : ∀ c ∈ text, c.toNat < 0x80) :
    offset? (ofText text) = integer? text := by
  have hascii : ∀ c ∈ label ++ text, c.toNat < 0x80 := fun c hc =>
    (List.mem_append.1 hc).elim (toNat_lt_of_mem_label c) (h c)
  rw [offset?, ofText, String.toList_ofList, Base64.decode?_encode]
  dsimp only [Option.bind_eq_bind, Option.bind_some]
  rw [Utf8.map_encode hascii, afterStart?_append]
  rfl

/-! ## Cursors -/

/-- **A cursor is read as its offset**, as far as that fits. -/
theorem offset?_ofOffset (n : Nat) : offset? (ofOffset n) = Number.checkedI64 n := by
  rw [ofOffset_eq, offset?_ofText fun c hc => toNat_lt_of_isDigit (isDigit_toString c hc),
    integer?_toString]

/-- A cursor of a row of a result stands for the row. -/
theorem offsetOr_ofOffset {n length : Nat} (h : n < length) (hfits : (length : Int) ≤ Number.maxI64)
    (default : Int) : offsetOr (some (ofOffset n)) length default = n := by
  have hn : Number.checkedI64 n = some (n : Int) := by
    refine if_pos ⟨?_, by omega⟩
    rw [Number.minI64]
    omega
  rw [offsetOr, Option.bind_some, offset?_ofOffset, hn]
  exact if_pos ⟨Int.natCast_nonneg n, by omega⟩

/-- Different offsets have different cursors. -/
theorem ofOffset_injective : Function.Injective ofOffset := by
  intro m n h
  rw [ofOffset_eq, ofOffset_eq] at h
  have hdigits := congrArg digits? (ofText_injective h)
  rw [digits?_toString, digits?_toString] at hdigits
  exact Option.some_inj.1 hdigits

/-- **The round trip of a cursor.**  The cursor of an offset is read as the offset where that is a
signed 64-bit integer, and is read as nothing elsewhere.  So in a result of a length that fits, the
cursor of the offset of a row stands for the row, whatever the default; and no two offsets have one
cursor. -/
theorem ofOffset_round_trip :
    (∀ n : Nat, offset? (ofOffset n) =
      if (n : Int) ≤ Number.maxI64 then some (n : Int) else none) ∧
    (∀ (n length : Nat) (default : Int), (length : Int) ≤ Number.maxI64 → n < length →
      offsetOr (some (ofOffset n)) length default = n) ∧
    ∀ m n : Nat, ofOffset m = ofOffset n → m = n := by
  refine ⟨fun n => ?_, fun n length default hfits h => offsetOr_ofOffset h hfits default,
    fun _ _ h => ofOffset_injective h⟩
  have hmin : Number.minI64 ≤ (n : Int) := by
    rw [Number.minI64]
    omega
  rw [offset?_ofOffset, Number.checkedI64]
  simp only [hmin, true_and]

/-- The last offset that fits, as the last row of the longest result that does. -/
theorem ofOffset_round_trip_last :
    offset? (ofOffset 0x7FFFFFFFFFFFFFFF) = some 0x7FFFFFFFFFFFFFFF ∧
    offset? (ofOffset 0x8000000000000000) = none ∧
    (0x7FFFFFFFFFFFFFFF : Int) ≤ Number.maxI64 ∧
    offsetOr (some (ofOffset 0x7FFFFFFFFFFFFFFE)) 0x7FFFFFFFFFFFFFFF (-1) =
      0x7FFFFFFFFFFFFFFE ∧
    ofOffset 9 ≠ ofOffset 10 :=
  ⟨ofOffset_round_trip.1 _, ofOffset_round_trip.1 _, by decide,
    ofOffset_round_trip.2.1 _ _ _ (by decide) (by decide),
    fun h => absurd (ofOffset_round_trip.2.2 _ _ h) (by decide)⟩

/-! ## Where a cursor leads -/

/-- **Where a cursor leads** in a result of some length: to the row whose offset it is read as; to a
default, where it is missing or is not read as the offset of a row. -/
inductive Leads (cursor : Option String) (length : Nat) (default : Int) : Int → Prop where
  | row {s : String} {n : Int} (hgiven : cursor = some s) (hread : offset? s = some n)
      (hrow : 0 ≤ n ∧ n < length) : Leads cursor length default n
  | default (hnone : ∀ s n, cursor = some s → offset? s = some n → ¬(0 ≤ n ∧ n < length)) :
      Leads cursor length default default

variable {cursor : Option String} {length : Nat} {default n : Int}

theorem leads_offsetOr : Leads cursor length default (offsetOr cursor length default) := by
  unfold offsetOr
  split
  · next n hread =>
    obtain ⟨s, hgiven, hs⟩ := Option.bind_eq_some_iff.1 hread
    split
    · next hrow => exact .row hgiven hs hrow
    · next hrow =>
      refine .default fun s' n' hs' hn' => ?_
      obtain rfl := Option.some_inj.1 (hgiven.symm.trans hs')
      obtain rfl := Option.some_inj.1 (hs.symm.trans hn')
      exact hrow
  · next hread =>
    refine .default fun s n hs hn => ?_
    subst hs
    exact absurd (hread.symm.trans hn) nofun

theorem Leads.offsetOr_eq (h : Leads cursor length default n) :
    offsetOr cursor length default = n := by
  cases h with
  | row hgiven hread hrow =>
    rw [hgiven, offsetOr, Option.bind_some, hread]
    exact if_pos hrow
  | default hnone =>
    unfold offsetOr
    split
    · next m hread =>
      obtain ⟨s, hgiven, hs⟩ := Option.bind_eq_some_iff.1 hread
      exact if_neg (hnone s m hgiven hs)
    · rfl

/-- **A cursor leads to one offset**, the one that it is taken for. -/
theorem leads_iff : Leads cursor length default n ↔ offsetOr cursor length default = n :=
  ⟨Leads.offsetOr_eq, fun h => h ▸ leads_offsetOr⟩

end Cursor

end TypedGraph

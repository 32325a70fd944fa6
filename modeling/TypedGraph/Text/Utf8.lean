/-!
# Text/Utf8 — strings as bytes

The bytes of a string are those of its characters, one after the other.  A run of bytes that was
cut out of a string need not be the bytes of another one: `decodeLossy` writes the replacement
character for each longest start of a character that does not go on, and for each byte that starts
none.
-/

namespace TypedGraph

namespace Utf8

/-- The bytes of a string. -/
def encode (s : String) : List UInt8 := s.toList.flatMap String.utf8EncodeChar

/-- What stands for bytes that are no character. -/
def replacement : Char := Char.ofNat 0xFFFD

/-- What a first byte announces: how many bytes follow, the bits it carries itself, and the range
of the second byte, which excludes overlong forms and surrogates. -/
def lead? (b : Nat) : Option (Nat × Nat × Nat × Nat) :=
  if b < 0xC2 then none
  else if b < 0xE0 then some (1, b - 0xC0, 0x80, 0xBF)
  else if b = 0xE0 then some (2, 0, 0xA0, 0xBF)
  else if b = 0xED then some (2, 0xD, 0x80, 0x9F)
  else if b < 0xF0 then some (2, b - 0xE0, 0x80, 0xBF)
  else if b = 0xF0 then some (3, 0, 0x90, 0xBF)
  else if b < 0xF4 then some (3, b - 0xF0, 0x80, 0xBF)
  else if b = 0xF4 then some (3, 4, 0x80, 0x8F)
  else none

/-- The low bits of a byte that goes on with a character. -/
def continuation? (b : UInt8) : Option Nat :=
  if 0x80 ≤ b.toNat ∧ b.toNat ≤ 0xBF then some (b.toNat - 0x80) else none

/-- Read bytes as characters, with the replacement character where they are none. -/
def decodeLossy : List UInt8 → List Char
  | [] => []
  | a :: rest =>
    if a.toNat < 0x80 then Char.ofNat a.toNat :: decodeLossy rest
    else match lead? a.toNat with
      | none => replacement :: decodeLossy rest
      | some (more, bits, lo, hi) => match rest with
        | [] => [replacement]
        | b :: rest₂ =>
          if b.toNat < lo ∨ hi < b.toNat then replacement :: decodeLossy (b :: rest₂)
          else
            let bits := bits * 64 + (b.toNat - 0x80)
            if more = 1 then Char.ofNat bits :: decodeLossy rest₂
            else match rest₂ with
              | [] => [replacement]
              | c :: rest₃ => match continuation? c with
                | none => replacement :: decodeLossy (c :: rest₃)
                | some low =>
                  let bits := bits * 64 + low
                  if more = 2 then Char.ofNat bits :: decodeLossy rest₃
                  else match rest₃ with
                    | [] => [replacement]
                    | d :: rest₄ => match continuation? d with
                      | none => replacement :: decodeLossy (d :: rest₄)
                      | some low => Char.ofNat (bits * 64 + low) :: decodeLossy rest₄

/-- The part of a string from one byte to another, read as characters. -/
def slice (s : String) (start stop : Nat) : String :=
  String.ofList (decodeLossy (((encode s).drop start).take (stop - start)))

end Utf8

end TypedGraph

/-!
UTF-8. `encode` and `decode?` convert between text and bytes without loss; `decodeLossy` reads any
bytes and writes U+FFFD for each maximal part of an ill-formed sequence.
-/

namespace Graft.Text

abbrev Bytes := List UInt8

def encode (text : String) : Bytes := text.toByteArray.data.toList

/-- The text that the bytes write, if they are well formed. -/
def decode? (bytes : Bytes) : Option String := String.fromUTF8? ⟨bytes.toArray⟩

theorem decode?_encode (text : String) : decode? (encode text) = some text := by
  have valid : ByteArray.IsValidUTF8 ⟨text.toByteArray.data⟩ := text.isValidUTF8
  simp only [decode?, encode, Array.toArray_toList, String.fromUTF8?]
  simp only [valid, ↓reduceDIte]
  rfl

theorem encode_injective {a b : String} (h : encode a = encode b) : a = b := by
  have ha := decode?_encode a
  rw [h, decode?_encode] at ha
  exact (Option.some.inj ha).symm

/-- What the first byte of a sequence asks for: how many continuation bytes follow, the least and
greatest value of the next one, and the bits that it carries itself. -/
structure Lead where
  following : Nat
  least : UInt8
  greatest : UInt8
  bits : Nat

/-- The rule for a first byte; nothing for a byte that cannot start a sequence. -/
def Lead.ofByte? (b : UInt8) : Option Lead :=
  if b < 0x80 then some ⟨0, 0, 0, b.toNat⟩
  else if 0xC2 ≤ b ∧ b ≤ 0xDF then some ⟨1, 0x80, 0xBF, b.toNat % 0x20⟩
  else if b = 0xE0 then some ⟨2, 0xA0, 0xBF, b.toNat % 0x10⟩
  else if b = 0xED then some ⟨2, 0x80, 0x9F, b.toNat % 0x10⟩
  else if 0xE1 ≤ b ∧ b ≤ 0xEF then some ⟨2, 0x80, 0xBF, b.toNat % 0x10⟩
  else if b = 0xF0 then some ⟨3, 0x90, 0xBF, b.toNat % 0x08⟩
  else if 0xF1 ≤ b ∧ b ≤ 0xF3 then some ⟨3, 0x80, 0xBF, b.toNat % 0x08⟩
  else if b = 0xF4 then some ⟨3, 0x80, 0x8F, b.toNat % 0x08⟩
  else none

def replacement : Char := '\uFFFD'

/-- The text that the bytes write, read in the middle of a sequence that `pending` describes. -/
def decodeFrom : Option Lead → Bytes → List Char
  | none, [] => []
  | some _, [] => [replacement]
  | none, b :: rest =>
      match Lead.ofByte? b with
      | none => replacement :: decodeFrom none rest
      | some lead =>
          if lead.following = 0 then Char.ofNat lead.bits :: decodeFrom none rest
          else decodeFrom (some lead) rest
  | some lead, b :: rest =>
      if lead.least ≤ b ∧ b ≤ lead.greatest then
        let bits := lead.bits * 0x40 + b.toNat % 0x40
        if lead.following = 1 then Char.ofNat bits :: decodeFrom none rest
        else decodeFrom (some ⟨lead.following - 1, 0x80, 0xBF, bits⟩) rest
      else
        match Lead.ofByte? b with
        | none => replacement :: replacement :: decodeFrom none rest
        | some next =>
            if next.following = 0 then replacement :: Char.ofNat next.bits :: decodeFrom none rest
            else replacement :: decodeFrom (some next) rest

/-- The text that the bytes write, with U+FFFD for what is ill formed. -/
def decodeLossy (bytes : Bytes) : String := String.ofList (decodeFrom none bytes)

end Graft.Text

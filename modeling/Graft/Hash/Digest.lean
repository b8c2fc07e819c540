import Graft.Hash.Sha256
import Graft.Text.Numeral

/-!
Digests: the 32 bytes that SHA-256 gives for a content, and their hexadecimal text.
`ofHex?_toHex` says that the text of a digest reads back as that digest.
-/

namespace Graft.Hash

open Graft.Text

structure Digest where
  bytes : Vector UInt8 32
  deriving DecidableEq, Inhabited

namespace Digest

def compute (content : Bytes) : Digest :=
  let s := absorbAll content
  let words := #v[s.a, s.b, s.c, s.d, s.e, s.f, s.g, s.h]
  ⟨Vector.ofFn fun (i : Fin 32) =>
    (words.get ⟨i.val / 4, by omega⟩ >>> (8 * (3 - (i.val % 4).toUInt32))).toUInt8⟩

def ofText (text : String) : Digest := compute (encode text)

/-- The bytes of several texts, a zero byte between any two. -/
def separated (texts : List String) : Bytes := [0].intercalate (texts.map encode)

def ofTexts (texts : List String) : Digest := compute (separated texts)

end Digest

/-- Two lower-case hexadecimal digits for each byte. -/
def hexOf : Bytes → List Char
  | [] => []
  | b :: rest => hexDigit (b.toNat / 16) :: hexDigit (b.toNat % 16) :: hexOf rest

def bytesOfHex? : List Char → Option Bytes
  | [] => some []
  | high :: low :: rest => do
      let high ← hexDigit? high
      let low ← hexDigit? low
      return UInt8.ofNat (16 * high + low) :: (← bytesOfHex? rest)
  | [_] => none

theorem exists_of_mem_hexOf {bytes : Bytes} {c : Char} (h : c ∈ hexOf bytes) :
    ∃ n : Fin 16, c = hexDigit n := by
  induction bytes with
  | nil => cases h
  | cons b rest ih =>
      have small := b.toNat_lt
      simp only [hexOf, List.mem_cons] at h
      obtain rfl | rfl | later := h
      · exact ⟨⟨b.toNat / 16, by omega⟩, rfl⟩
      · exact ⟨⟨b.toNat % 16, by omega⟩, rfl⟩
      · exact ih later

theorem hexDigit?_hexDigit (n : Nat) (h : n < 16) : hexDigit? (hexDigit n) = some n := by
  have all : ∀ k : Fin 16, hexDigit? (hexDigit k.val) = some k.val := by decide
  exact all ⟨n, h⟩

theorem bytesOfHex?_hexOf (bytes : Bytes) : bytesOfHex? (hexOf bytes) = some bytes := by
  induction bytes with
  | nil => rfl
  | cons b rest ih =>
      have hb := b.toNat_lt
      simp only [hexOf, bytesOfHex?, hexDigit?_hexDigit _ (show b.toNat / 16 < 16 by omega),
        hexDigit?_hexDigit _ (show b.toNat % 16 < 16 by omega), ih, Option.bind_eq_bind,
        Option.bind_some, Option.pure_def, Option.some.injEq, List.cons.injEq, and_true]
      rw [Nat.div_add_mod]
      simp

namespace Digest

def toHex (digest : Digest) : String := String.ofList (hexOf digest.bytes.toList)

/-- The digest that 64 hexadecimal digits of either case write. -/
def ofHex? (text : String) : Option Digest := do
  let bytes ← bytesOfHex? text.toList
  if h : bytes.toArray.size = 32 then some ⟨⟨bytes.toArray, h⟩⟩ else none

/-- The first twelve digits, by which a person tells digests apart. -/
def abbreviation (digest : Digest) : String := String.ofList (digest.toHex.toList.take 12)

theorem ofHex?_toHex (digest : Digest) : ofHex? digest.toHex = some digest := by
  obtain ⟨⟨bytes, size⟩⟩ := digest
  simp [ofHex?, toHex, bytesOfHex?_hexOf, Vector.toList, size]

theorem toHex_injective {a b : Digest} (h : a.toHex = b.toHex) : a = b := by
  have ha := ofHex?_toHex a
  rw [h, ofHex?_toHex] at ha
  exact (Option.some.inj ha).symm

end Digest

end Graft.Hash

import Graft.Code.Mask
import Graft.Proofs.Text.Lines
import Graft.Text.Utf8
import Mathlib.Data.List.Forall2

/-!
What masking keeps. Character by character masking keeps what it finds or puts a space for each of its
bytes, and every line feed stays (`masks_mask`). So a masked text has a space or the same byte at every
offset (`bytes_of_masks`), its lines are as long (`lines_of_masks`), and what else than a space stands
in it stands at the same place in the text (`Masks.exists_front`, `advance_of_masks`).
-/

namespace Graft.Text

/-! Bytes -/

theorem encode_ofList (text : List Char) :
    encode (String.ofList text) = text.flatMap String.utf8EncodeChar := by
  simp [encode, List.utf8Encode]

/-- All bytes of a character outside of ASCII have their highest bit set. -/
theorem le_of_mem_utf8EncodeChar {c : Char} {b : UInt8} (mem : b ∈ String.utf8EncodeChar c)
    (long : 0x7F < c.val.toNat) : 0x80 ≤ b.toNat := by
  unfold String.utf8EncodeChar at mem
  dsimp only at mem
  rw [if_neg (Nat.not_le.2 long)] at mem
  split at mem
  · simp only [List.mem_cons, List.not_mem_nil, or_false] at mem
    obtain rfl | rfl := mem <;> rw [UInt8.toNat_ofNat'] <;> omega
  · split at mem
    · simp only [List.mem_cons, List.not_mem_nil, or_false] at mem
      obtain rfl | rfl | rfl := mem <;> rw [UInt8.toNat_ofNat'] <;> omega
    · simp only [List.mem_cons, List.not_mem_nil, or_false] at mem
      obtain rfl | rfl | rfl | rfl := mem <;> rw [UInt8.toNat_ofNat'] <;> omega

/-- A line feed is one byte, and no other character has that byte. -/
theorem eq_lineFeed_iff {c : Char} {b : UInt8} (mem : b ∈ String.utf8EncodeChar c) :
    b = 10 ↔ c = '\n' := by
  have lineFeed : c = '\n' ↔ c.val.toNat = 10 := by
    rw [← Char.val_inj, ← UInt32.toNat_inj]
    rfl
  rw [lineFeed, ← UInt8.toNat_inj]
  have ten : (10 : UInt8).toNat = 10 := rfl
  by_cases short : c.val.toNat ≤ 0x7F
  · unfold String.utf8EncodeChar at mem
    dsimp only at mem
    rw [if_pos short] at mem
    obtain rfl := List.mem_singleton.1 mem
    rw [UInt8.toNat_ofNat']
    omega
  · have high := le_of_mem_utf8EncodeChar mem (Nat.not_le.1 short)
    omega

end Graft.Text

namespace Graft.Code

open Graft.Text

/-- What masking may make of a text: it keeps a character, or puts spaces for one that ends no line. -/
inductive Masks : List Char → List Char → Prop
  | nil : Masks [] []
  | keep (c : Char) {text masked : List Char} (rest : Masks text masked) :
      Masks (c :: text) (c :: masked)
  | blank {c : Char} (inLine : c ≠ '\n') {text masked : List Char} (rest : Masks text masked) :
      Masks (c :: text) (List.replicate c.utf8Size ' ' ++ masked)

variable {text masked : List Char}

theorem Masks.append {text' masked' : List Char} (first : Masks text masked)
    (second : Masks text' masked') : Masks (text ++ text') (masked ++ masked') := by
  induction first with
  | nil => exact second
  | keep c _ ih => exact .keep c ih
  | blank inLine _ ih =>
      rw [List.append_assoc]
      exact .blank inLine ih

theorem masks_blankOut (text : List Char) : Masks text (blankOut text) := by
  induction text with
  | nil => exact .nil
  | cons c text ih =>
      have first : blankOut (c :: text) =
          (if c = '\n' then ['\n'] else List.replicate c.utf8Size ' ') ++ blankOut text := rfl
      rw [first]
      by_cases ends : c = '\n'
      · rw [if_pos ends, ← ends]
        exact .keep c ih
      · rw [if_neg ends]
        exact .blank ends ih

theorem masks_firstPart (place : Place) (lineStart : Bool) (before : List Char) (c : Char)
    (rest : List Char) :
    Masks (firstPart place lineStart before c rest).taken
      (firstPart place lineStart before c rest).masked := by
  have one (c : Char) : Masks [c] [c] := .keep c .nil
  have between (first : Char) (content last : List Char) (same : Masks last last) :
      Masks (first :: content ++ last) (first :: blankOut content ++ last) :=
    .keep first ((masks_blankOut content).append same)
  unfold firstPart
  split
  · exact one c
  split
  · exact masks_blankOut _
  split
  · exact masks_blankOut _
  split
  · split <;> exact masks_blankOut _
  split
  · unfold rawPart
    split
    · exact one c
    · simp only
      split
      · exact between c _ ['"'] (one '"')
      · simpa using between c rest [] .nil
  split
  · split
    · exact between c _ [c] (one c)
    · next content after _ _ _ => simpa using between c content [] .nil
  · exact one c

theorem masks_maskFrom (place : Place) (lineStart : Bool) (before text : List Char) :
    Masks text (maskFrom place lineStart before text).text := by
  fun_induction maskFrom place lineStart before text with
  | case1 => exact .nil
  | case2 place lineStart before c rest part ih =>
      have whole := (masks_firstPart place lineStart before c rest).append ih
      rwa [firstPart_append] at whole

/-- Masking keeps characters or puts spaces for their bytes. -/
theorem masks_mask (text : List Char) : Masks text (mask text).text :=
  masks_maskFrom .origin true [] text

/-- What masking may make of a byte: it stays or becomes a space, and line feeds stay where they are. -/
def MasksByte (original masked : UInt8) : Prop :=
  (masked = original ∨ masked = 32) ∧ (masked = 10 ↔ original = 10)

theorem masksByte_space {c : Char} (inLine : c ≠ '\n') :
    ∀ b ∈ String.utf8EncodeChar c, MasksByte b 32 := by
  intro b mem
  refine ⟨.inr rfl, fun ends => absurd ends (by decide), fun ends => ?_⟩
  exact absurd ((eq_lineFeed_iff mem).1 ends) inLine

/-- A masked text holds as many bytes as the text, each of them masked. -/
theorem bytes_of_masks (masks : Masks text masked) :
    List.Forall₂ MasksByte (encode (String.ofList text)) (encode (String.ofList masked)) := by
  rw [encode_ofList, encode_ofList]
  induction masks with
  | nil => exact .nil
  | keep c _ ih =>
      rw [List.flatMap_cons, List.flatMap_cons]
      refine List.rel_append ?_ ih
      exact List.forall₂_same.2 fun b _ => ⟨.inl rfl, Iff.rfl⟩
  | @blank c inLine _ _ _ ih =>
      rw [List.flatMap_cons, List.flatMap_append]
      refine List.rel_append ?_ ih
      have spaces (n : Nat) :
          (List.replicate n ' ').flatMap String.utf8EncodeChar = List.replicate n 32 := by
        induction n with
        | zero => rfl
        | succ n ih =>
            rw [List.replicate_succ, List.flatMap_cons, ih]
            rfl
      rw [spaces, ← String.length_utf8EncodeChar]
      have all := masksByte_space inLine
      generalize String.utf8EncodeChar c = bytes at all
      induction bytes with
      | nil => exact .nil
      | cons b bytes ih =>
          rw [List.forall_mem_cons] at all
          exact .cons all.1 (ih all.2)

/-! Places -/

theorem advance_of_masks (masks : Masks text masked) (place : Place) :
    place.advance masked = place.advance text := by
  induction masks generalizing place with
  | nil => rfl
  | keep c _ ih => exact ih (place.step c)
  | @blank c inLine _ _ _ ih =>
      have spaces (n : Nat) : place.advance (List.replicate n ' ') =
          ⟨place.offset + n, place.line, place.column + n⟩ := by
        induction n with
        | zero => rfl
        | succ n ih =>
            rw [List.replicate_succ', Place.advance_append, ih]
            rfl
      rw [Place.advance_append, Place.advance_cons, ih, spaces, Place.step, if_neg inLine]

/-- The lines of a masked text are as long as those of the text. -/
theorem lines_of_masks (masks : Masks text masked) :
    (splitAtChar '\n' masked).map byteLength = (splitAtChar '\n' text).map byteLength := by
  have behind {front front' : List Char} (none : '\n' ∉ front) (none' : '\n' ∉ front')
      (bytes : byteLength front' = byteLength front) {text masked : List Char}
      (ih : (splitAtChar '\n' masked).map byteLength = (splitAtChar '\n' text).map byteLength) :
      (splitAtChar '\n' (front' ++ masked)).map byteLength =
        (splitAtChar '\n' (front ++ text)).map byteLength := by
    obtain ⟨piece, pieces, spelt⟩ := List.exists_cons_of_ne_nil (splitAtChar_ne_nil '\n' text)
    obtain ⟨piece', pieces', spelt'⟩ := List.exists_cons_of_ne_nil (splitAtChar_ne_nil '\n' masked)
    rw [spelt, spelt', List.map_cons, List.map_cons] at ih
    obtain ⟨first, others⟩ := List.cons.inj ih
    rw [splitAtChar_append_of_not_mem none spelt, splitAtChar_append_of_not_mem none' spelt',
      List.map_cons, List.map_cons, byteLength_append, byteLength_append, bytes, first, others]
  induction masks with
  | nil => rfl
  | @keep c text masked _ ih =>
      by_cases ends : c = '\n'
      · subst ends
        simp [splitAtChar, ih]
      · have single : '\n' ∉ [c] := by simpa using Ne.symm ends
        exact behind single single rfl ih
  | @blank c inLine text masked _ ih =>
      have single : '\n' ∉ [c] := by simpa using Ne.symm inLine
      exact behind single (by simp) (by simp [byteLength_replicate_space]) ih

/-- In front of what is no space in a masked text stands a masked text, and the character itself. -/
theorem Masks.exists_front (masks : Masks text masked) {front behind : List Char} {c : Char}
    (solid : c ≠ ' ') (spelt : masked = front ++ c :: behind) :
    ∃ front' behind', text = front' ++ c :: behind' ∧ Masks front' front := by
  induction masks generalizing front with
  | nil => simp at spelt
  | @keep d text masked _ ih =>
      cases front with
      | nil =>
          obtain ⟨rfl, -⟩ := List.cons.inj spelt
          exact ⟨[], text, rfl, .nil⟩
      | cons e front =>
          obtain ⟨rfl, later⟩ := List.cons.inj spelt
          obtain ⟨front', behind', rfl, inFront⟩ := ih later
          exact ⟨d :: front', behind', rfl, .keep d inFront⟩
  | @blank d inLine text masked _ ih =>
      -- The character stands behind all of the spaces.
      obtain ⟨between, rfl, later⟩ | ⟨between, spaces, later⟩ := List.append_eq_append_iff.1 spelt
      · obtain ⟨front', behind', rfl, inFront⟩ := ih later
        exact ⟨d :: front', behind', rfl, .blank inLine inFront⟩
      · cases between with
        | nil =>
            obtain ⟨front', behind', rfl, inFront⟩ := ih (show masked = [] ++ c :: behind from later.symm)
            refine ⟨d :: front', behind', rfl, ?_⟩
            rw [List.append_nil] at spaces
            rw [← spaces, ← List.append_nil (List.replicate d.utf8Size ' ')]
            exact .blank inLine inFront
        | cons e between =>
            obtain ⟨rfl, -⟩ := List.cons.inj later
            have mem : c ∈ List.replicate d.utf8Size ' ' := by
              rw [spaces]
              simp
            exact absurd (List.eq_of_mem_replicate mem) solid

end Graft.Code

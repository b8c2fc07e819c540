import Graft.Code.Piece
import Graft.Text.Place

/-!
Tokens with their places. The tokens of a text are its pieces without white space, comments and
directives; each keeps the place where it starts and the one where it stops. `takeGroup?` splits
the tokens behind an opening mark at the mark that closes it.
-/

namespace Graft.Code

open Graft.Text

structure Token where
  kind : Kind
  text : List Char
  start : Place
  stop : Place
  deriving Repr, DecidableEq, Inhabited

namespace Token

def isMark (token : Token) (c : Char) : Bool := token.kind == .mark c

def name (token : Token) : String := String.ofList token.text

def isOneOf (token : Token) (words : List String) : Bool :=
  token.kind == .word && words.contains token.name

end Token

def tokensFrom (place : Place) : List Piece → List Token
  | [] => []
  | piece :: rest =>
      let stop := place.advance piece.text
      match piece.role with
      | .token kind => ⟨kind, piece.text, place, stop⟩ :: tokensFrom stop rest
      | _ => tokensFrom stop rest

def tokens (text : List Char) : List Token := tokensFrom .origin (pieces text)

/-- Splits the tokens behind an opening mark after the mark that closes it. `depth` more groups of
the same kind are open. -/
def takeGroup? (opening closing : Char) : Nat → List Token → Option (List Token × List Token)
  | _, [] => none
  | depth, token :: rest =>
      let onward (depth : Nat) :=
        (takeGroup? opening closing depth rest).map fun (inside, after) => (token :: inside, after)
      if token.isMark opening then onward (depth + 1)
      else if token.isMark closing then
        match depth with
        | 0 => some ([token], rest)
        | depth + 1 => onward depth
      else onward depth

theorem eq_append_of_takeGroup? {opening closing : Char} {depth : Nat} {tokens : List Token}
    {inside after : List Token}
    (h : takeGroup? opening closing depth tokens = some (inside, after)) :
    tokens = inside ++ after ∧ inside ≠ [] := by
  induction tokens generalizing depth inside with
  | nil => simp [takeGroup?] at h
  | cons token rest ih =>
      have onward {d : Nat} (h : (takeGroup? opening closing d rest).map
          (fun (x : List Token × List Token) => (token :: x.1, x.2)) = some (inside, after)) :
          token :: rest = inside ++ after ∧ inside ≠ [] := by
        obtain ⟨⟨inner, tail⟩, hgroup, heq⟩ := Option.map_eq_some_iff.1 h
        simp only [Prod.mk.injEq] at heq
        obtain ⟨rfl, rfl⟩ := heq
        simp [(ih hgroup).1]
      unfold takeGroup? at h
      simp only at h
      split at h
      · exact onward h
      · split at h
        · split at h
          · simp only [Option.some.injEq, Prod.mk.injEq] at h
            obtain ⟨rfl, rfl⟩ := h
            simp
          · exact onward h
        · exact onward h

theorem length_lt_of_takeGroup? {opening closing : Char} {depth : Nat} {tokens : List Token}
    {inside after : List Token}
    (h : takeGroup? opening closing depth tokens = some (inside, after)) :
    after.length < tokens.length := by
  obtain ⟨rfl, hne⟩ := eq_append_of_takeGroup? h
  have := List.length_pos_iff.2 hne
  rw [List.length_append]
  omega

end Graft.Code

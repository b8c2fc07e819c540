import Graft.Code.Token

/-!
Groups of tokens. Behind the opening mark of a group the depth of its kind is positive until the group
ends, where it is zero for the first time; the marks of other kinds do not count. What
`takeGroup?` splits off behind an opening mark is such a group (`isGroup_of_takeGroup?`).
-/

namespace Graft.Code

variable {opening closing : Char} {token : Token} {rest inside after : List Token}

theorem Token.isMark_iff {c : Char} : token.isMark c ↔ token.kind = .mark c := by
  simp [Token.isMark]

def Token.weight (opening closing : Char) (token : Token) : Int :=
  if token.isMark opening then 1 else if token.isMark closing then -1 else 0

/-- How many more groups of a kind the tokens open than they close. -/
def depth (opening closing : Char) : List Token → Int
  | [] => 0
  | token :: rest => token.weight opening closing + depth opening closing rest

@[simp] theorem depth_nil (opening closing : Char) : depth opening closing [] = 0 := rfl

@[simp] theorem depth_cons (opening closing : Char) (token : Token) (rest : List Token) :
    depth opening closing (token :: rest) =
      token.weight opening closing + depth opening closing rest := rfl

/-- Tokens that open a group of a kind and close it with the last of them: the depth is positive
behind the first token and until the last one. -/
structure IsGroup (opening closing : Char) (group : List Token) : Prop where
  opens : ∃ first, group.head? = some first ∧ first.isMark opening
  closes : ∃ last, group.getLast? = some last ∧ last.isMark closing
  balanced : depth opening closing group = 0
  positive : ∀ front behind, group = front ++ behind → front ≠ [] → behind ≠ [] →
    0 < depth opening closing front

/-- The search for the end of a group stops at a closing mark when no more groups are open, and goes on
behind any other token at the depth to which that token leads. -/
theorem takeGroup?_cons {more : Nat}
    (h : takeGroup? opening closing more (token :: rest) = some (inside, after)) :
    (token.isMark closing ∧ token.weight opening closing = -1 ∧ more = 0 ∧ inside = [token] ∧
      after = rest) ∨
    ∃ (next : Nat) (inner : List Token), inside = token :: inner ∧
      (next : Int) = more + token.weight opening closing ∧
      takeGroup? opening closing next rest = some (inner, after) := by
  have onward {next : Nat} (found : (takeGroup? opening closing next rest).map
      (fun (x : List Token × List Token) => (token :: x.1, x.2)) = some (inside, after)) :
      ∃ inner, inside = token :: inner ∧
        takeGroup? opening closing next rest = some (inner, after) := by
    obtain ⟨⟨inner, tail⟩, later, same⟩ := Option.map_eq_some_iff.1 found
    obtain ⟨rfl, rfl⟩ := Prod.mk.inj same
    exact ⟨inner, rfl, later⟩
  unfold takeGroup? at h
  unfold Token.weight
  dsimp only at h
  split at h
  · next opens =>
      obtain ⟨inner, same, later⟩ := onward h
      exact .inr ⟨more + 1, inner, same, by simp [opens], later⟩
  · next other =>
      split at h
      · next closes =>
          split at h
          · obtain ⟨rfl, rfl⟩ := Prod.mk.inj (Option.some.inj h)
            exact .inl ⟨closes, by simp [other, closes], rfl, rfl, rfl⟩
          · next next =>
              obtain ⟨inner, same, later⟩ := onward h
              refine .inr ⟨next, inner, same, ?_, later⟩
              rw [if_neg other, if_pos closes]
              omega
      · next plain =>
          obtain ⟨inner, same, later⟩ := onward h
          exact .inr ⟨more, inner, same, by simp [other, plain], later⟩

/-- What the search takes ends in a closing mark and closes the group and those that were open inside it,
but no part of it does. -/
theorem depth_of_takeGroup? {more : Nat}
    (h : takeGroup? opening closing more rest = some (inside, after)) :
    (∃ last, inside.getLast? = some last ∧ last.isMark closing) ∧
      more + 1 + depth opening closing inside = 0 ∧
      ∀ front behind, inside = front ++ behind → behind ≠ [] →
        0 < more + 1 + depth opening closing front := by
  induction rest generalizing more inside with
  | nil => cases h
  | cons token rest ih =>
      obtain ⟨closes, weight, rfl, rfl, rfl⟩ | ⟨next, inner, rfl, step, later⟩ := takeGroup?_cons h
      · refine ⟨⟨token, rfl, closes⟩, by simp [weight], fun front behind whole some => ?_⟩
        have none : front = [] := by
          cases front with
          | nil => rfl
          | cons first front => simp_all
        simp [none]
      · obtain ⟨⟨last, hlast, closes⟩, balanced, positive⟩ := ih later
        refine ⟨⟨last, by simp [List.getLast?_cons, hlast], closes⟩, ?_, ?_⟩
        · rw [depth_cons]
          omega
        · intro front behind whole some
          cases front with
          | nil =>
              rw [depth_nil]
              omega
          | cons first front =>
              obtain ⟨rfl, same⟩ := List.cons.inj whole
              have bound := positive front behind same some
              rw [depth_cons]
              omega

/-- An opening mark and what the search takes behind it are a group. -/
theorem isGroup_of_takeGroup? (opens : token.isMark opening)
    (h : takeGroup? opening closing 0 rest = some (inside, after)) :
    IsGroup opening closing (token :: inside) := by
  have weight : token.weight opening closing = 1 := if_pos opens
  obtain ⟨⟨last, hlast, closes⟩, balanced, positive⟩ := depth_of_takeGroup? h
  refine ⟨⟨token, rfl, opens⟩, ⟨last, by simp [List.getLast?_cons, hlast], closes⟩, ?_, ?_⟩
  · rw [depth_cons]
    omega
  · intro front behind whole some more
    cases front with
    | nil => exact absurd rfl some
    | cons first front =>
        obtain ⟨rfl, same⟩ := List.cons.inj whole
        have bound := positive front behind same more
        rw [depth_cons]
        omega

end Graft.Code

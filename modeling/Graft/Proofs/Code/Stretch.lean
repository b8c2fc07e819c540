import Graft.Proofs.Code.Group
import Graft.Proofs.Code.Scan

/-!
Which tokens a definition takes. A definition that the scan finds reads as a stretch of the tokens: what
leads up to its name, the name, its parameter list, and its body, which ends the stretch. The stretches
of one scan lie one behind the other (`definedIn_of_scans`).
-/

namespace Graft.Code

open Graft.Text

/-- The tokens of a definition: what leads up to its name, the qualification and the last word of the
name, the opening of its parameter list, what stands from there to its body, and its body. -/
structure Parts where
  lead : List Token
  qualification : List Token
  last : Token
  opening : Token
  between : List Token
  body : List Token

namespace Parts

def name (parts : Parts) : List Token := parts.qualification ++ [parts.last]

def tokens (parts : Parts) : List Token :=
  parts.lead ++ parts.name ++ parts.opening :: parts.between ++ parts.body

end Parts

def Token.isNamePart (token : Token) : Prop :=
  token.kind = .word ∨ token.kind = .mark ':' ∨ token.kind = .mark '~'

/-- Whether a definition says of a stretch of tokens what its name is and where it starts and stops: the
name ends in a word that is not reserved, in front of the opening of a parameter list, and the body is
a group of braces. -/
structure Definition.Reads (definition : Definition) (parts : Parts) : Prop where
  named : definition.name = String.ofList (parts.name.flatMap Token.text)
  qualified : ∀ token ∈ parts.qualification, token.isNamePart
  word : parts.last.kind = .word
  free : parts.last.name ∉ reservedWords
  opens : parts.opening.isMark '('
  body : IsGroup '{' '}' parts.body
  starts : ∃ first, parts.tokens.head? = some first ∧ definition.start = first.start.offset ∧
    definition.line = first.start.line
  stops : ∃ last, parts.body.getLast? = some last ∧ last.isMark '}' ∧
    definition.stop = last.stop.offset

/-- Definitions that read as stretches of some tokens, one behind the other. -/
inductive DefinedIn : List Token → List Definition → Prop
  | none (tokens : List Token) : DefinedIn tokens []
  | next {definition : Definition} {parts : Parts} (before : List Token) {behind : List Token}
      {others : List Definition} (reads : definition.Reads parts) (later : DefinedIn behind others) :
      DefinedIn (before ++ parts.tokens ++ behind) (definition :: others)

theorem DefinedIn.behind {tokens : List Token} {definitions : List Definition} (front : List Token)
    (defined : DefinedIn tokens definitions) : DefinedIn (front ++ tokens) definitions := by
  cases defined with
  | none => exact .none _
  | @next definition parts before behind others reads later =>
      have whole := DefinedIn.next (front ++ before) reads later
      simpa using whole

/-- Each of the definitions reads as a stretch of the tokens. -/
theorem DefinedIn.exists_parts {tokens : List Token} {definitions : List Definition}
    (defined : DefinedIn tokens definitions) {definition : Definition}
    (member : definition ∈ definitions) :
    ∃ before parts behind, tokens = before ++ parts.tokens ++ behind ∧ definition.Reads parts := by
  induction defined with
  | none => cases member
  | @next first parts before behind others reads _ ih =>
      obtain rfl | later := List.mem_cons.1 member
      · exact ⟨before, parts, behind, rfl, reads⟩
      · obtain ⟨more, parts', rest, rfl, reads'⟩ := ih later
        exact ⟨before ++ parts.tokens ++ more, parts', rest, by simp, reads'⟩

/-! The parts of one definition -/

theorem exists_lead_qualifiers (before : List Token) :
    (∃ lead, before.reverse = lead ++ qualifiers before) ∧
      ∀ token ∈ qualifiers before, token.isNamePart := by
  fun_induction qualifiers before with
  | case1 second first owner before colons ih =>
      simp only [Bool.and_eq_true, beq_iff_eq] at colons
      obtain ⟨⟨hsecond, hfirst⟩, howner⟩ := colons
      obtain ⟨⟨lead, whole⟩, each⟩ := ih
      refine ⟨⟨lead, by simp [whole]⟩, fun token member => ?_⟩
      simp only [List.mem_append, List.mem_cons, List.not_mem_nil, or_false] at member
      obtain member | rfl | rfl | rfl := member
      · exact each token member
      · exact .inl howner
      · exact .inr (.inl (Token.isMark_iff.1 hfirst))
      · exact .inr (.inl (Token.isMark_iff.1 hsecond))
  | case2 | case3 => simp

/-- The name that ends in a token is made of that token and of the ones right before it. -/
theorem exists_qualification (last : Token) (before : List Token) :
    ∃ lead qualification, before.reverse = lead ++ qualification ∧
      (∀ token ∈ qualification, token.isNamePart) ∧
      qualifiedName last before = String.ofList ((qualification ++ [last]).flatMap Token.text) := by
  unfold qualifiedName
  cases before with
  | nil => exact ⟨[], [], rfl, by simp, by simp [qualifiers]⟩
  | cons token rest =>
      by_cases tilde : token.isMark '~'
      · obtain ⟨⟨lead, whole⟩, each⟩ := exists_lead_qualifiers rest
        refine ⟨lead, qualifiers rest ++ [token], by simp [whole], ?_, by simp [tilde]⟩
        intro part member
        obtain member | rfl := by simpa using member
        · exact each part member
        · exact .inr (.inr (Token.isMark_iff.1 tilde))
      · obtain ⟨⟨lead, whole⟩, each⟩ := exists_lead_qualifiers (token :: rest)
        exact ⟨lead, qualifiers (token :: rest), whole, each, by simp [tilde]⟩

theorem suffix_of_takeGroup? {opening closing : Char} {depth : Nat} {tokens inside after : List Token}
    (h : takeGroup? opening closing depth tokens = some (inside, after)) : after <:+ tokens := by
  obtain ⟨rfl, -⟩ := eq_append_of_takeGroup? h
  exact List.suffix_append inside after

/-- The opening brace of a body and what follows it end the tokens behind the parameter list. -/
theorem suffix_of_findBody {inits : Bool} {previous : Option Token} {tokens after : List Token}
    {brace : Token} (h : findBody inits previous tokens = .ok (some (brace, after))) :
    brace.kind = .mark '{' ∧ brace :: after <:+ tokens := by
  have cons {token : Token} {rest : List Token} :
      (brace.kind = .mark '{' ∧ brace :: after <:+ rest) →
        brace.kind = .mark '{' ∧ brace :: after <:+ token :: rest :=
    And.imp_right fun found => found.trans (List.suffix_cons token rest)
  have group {opening closing : Char} {token : Token} {inside behind rest : List Token}
      (hgroup : takeGroup? opening closing 0 rest = some (inside, behind)) :
      (brace.kind = .mark '{' ∧ brace :: after <:+ behind) →
        brace.kind = .mark '{' ∧ brace :: after <:+ token :: rest :=
    fun found => cons (found.imp_right fun suffix => suffix.trans (suffix_of_takeGroup? hgroup))
  fun_induction findBody inits previous tokens with
  | case8 _ _ _ _ kind =>
      simp only [Except.ok.injEq, Option.some.injEq, Prod.mk.injEq] at h
      obtain ⟨rfl, rfl⟩ := h
      exact ⟨kind, List.suffix_rfl⟩
  | case7 _ _ _ _ _ _ _ _ hgroup _ ih
  | case10 _ _ _ _ _ _ _ _ hgroup _ ih
  | case13 _ _ _ _ _ _ _ hgroup _ ih => exact group hgroup (ih h)
  | case14 _ _ _ _ _ _ _ ih => exact cons (cons (ih h))
  | case2 _ _ _ _ _ ih | case3 _ _ _ _ _ ih | case4 _ _ _ _ ih | case15 _ _ _ _ _ _ _ ih
  | case17 _ _ _ _ ih | case19 _ _ _ _ _ _ _ _ _ _ _ _ ih => exact cons (ih h)
  | _ => simp at h

/-- The definition whose parameter list has just ended reads as the tokens seen before the list, those
of the list, and the ones up to the end of its body. -/
theorem reads_of_definitionAt {seen inside after rest : List Token} {opening : Token}
    {definition : Definition} (opens : opening.isMark '(')
    (h : definitionAt seen after = .ok (some (definition, rest))) :
    ∃ parts, definition.Reads parts ∧
      seen.reverse ++ opening :: inside ++ after = parts.tokens ++ rest := by
  revert h
  fun_cases definitionAt seen after with
  | case5 last before named brace body hbody inner tail hclose =>
      intro h
      simp only [Except.ok.injEq, Option.some.injEq, Prod.mk.injEq] at h
      obtain ⟨rfl, rfl⟩ := h
      obtain ⟨lead, qualification, hbefore, qualified, hname⟩ := exists_qualification last before
      obtain ⟨mark, ahead, hahead⟩ := suffix_of_findBody hbody
      obtain ⟨hinner, -⟩ := eq_append_of_takeGroup? hclose
      refine ⟨⟨lead, qualification, last, opening, inside ++ ahead, brace :: inner⟩, ?_, ?_⟩
      · have group := isGroup_of_takeGroup? (Token.isMark_iff.2 mark) hclose
        obtain ⟨closing, hclosing, closes⟩ := group.closes
        have front : lead ++ (qualification ++ [last]) = before.reverse ++ [last] := by
          rw [hbefore, List.append_assoc]
        refine ⟨hname, qualified, named.1, named.2, opens, group,
          ⟨before.getLast?.getD last, by simp [Parts.tokens, Parts.name, front], rfl, rfl⟩,
          ⟨closing, hclosing, closes, ?_⟩⟩
        rw [List.getLast?_cons] at hclosing
        exact congrArg (·.stop.offset) (Option.some.inj hclosing)
      · simp [Parts.tokens, Parts.name, hbefore, ← hahead, hinner]
  | _ => simp

/-- The definitions that the scan finds read as stretches, one behind the other, of the tokens of the
statement and of those that are still to come. -/
theorem definedIn_of_scans {enclosing seen rest : List Token}
    {result : Except LocateError (List Definition)} (scans : Scans enclosing seen rest result)
    {definitions : List Definition} (found : result = .ok definitions) :
    DefinedIn (seen.reverse ++ rest) definitions := by
  -- A boundary drops the tokens seen; a group moves over to them as a whole.
  have dropped {seen : List Token} {token : Token} {rest : List Token} {definitions : List Definition}
      (defined : DefinedIn rest definitions) :
      DefinedIn (seen.reverse ++ token :: rest) definitions := by
    have whole := defined.behind (seen.reverse ++ [token])
    simpa using whole
  have moved {token : Token} {inside after rest : List Token} (seen : List Token)
      (hgroup : rest = inside ++ after) :
      (inside.reverse ++ token :: seen).reverse ++ after = seen.reverse ++ token :: rest := by
    simp [hgroup]
  induction scans generalizing definitions with
  | finish =>
      obtain rfl := Except.ok.inj found
      exact .none _
  | boundary _ _ ih => exact dropped (ih found)
  | leave _ _ ih => exact dropped (ih found)
  | enter _ _ _ ih => exact dropped (ih found)
  | @braces _ seen _ _ _ _ _ _ _ group _ ih =>
      rw [← moved seen (eq_append_of_takeGroup? group).1]
      exact ih found
  | @parens _ seen _ _ _ _ _ _ group _ _ ih =>
      rw [← moved seen (eq_append_of_takeGroup? group).1]
      exact ih found
  | @define _ seen _ inside _ remaining token definition result mark group defines _ ih =>
      cases result with
      | error error => cases found
      | ok others =>
          obtain rfl := Except.ok.inj found
          obtain ⟨parts, reads, whole⟩ := reads_of_definitionAt (Token.isMark_iff.2 mark) defines
          rw [(eq_append_of_takeGroup? group).1, ← List.cons_append, ← List.append_assoc, whole]
          exact .next [] reads (ih rfl)
  | pass _ _ ih => simpa using ih found
  | unclosed | unopened | endlessBraces | endlessParens | endlessBody => cases found

end Graft.Code

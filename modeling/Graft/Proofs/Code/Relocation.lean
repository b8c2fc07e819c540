import Graft.Proofs.Code.Scan

/-!
Tokens at other places. The scan for definitions reads the kinds of tokens, the texts of those that are
no literals, and whether two colons touch; what else a token holds it only passes on. So it finds the
same definitions, so many bytes and lines further on, among tokens that agree in this and stand so
much further on (`definitionsFrom_relocate`).
-/

namespace Graft.Code

def Definition.shift (bytes lines : Nat) (definition : Definition) : Definition :=
  { definition with
    start := definition.start + bytes
    stop := definition.stop + bytes
    line := definition.line + lines }

def LocateError.shift (bytes : Nat) : LocateError → LocateError
  | .unbalanced delimiter offset => .unbalanced delimiter (offset + bytes)
  | error => error

def shiftAnswer {α β : Type} (bytes : Nat) (onward : α → β) :
    Except LocateError α → Except LocateError β
  | .ok found => .ok (onward found)
  | .error error => .error (error.shift bytes)

/-- Words that can begin what opens a namespace or a linkage block. -/
def openingWords : List String := ["namespace", "inline", "extern"]

/-- A change of tokens that the scan for definitions does not see but in their places, which lie some
bytes and lines further on. -/
structure Relocation (bytes lines : Nat) where
  move : Token → Token
  kind (token : Token) : (move token).kind = token.kind
  text (token : Token) (solid : token.kind ≠ .literal) : (move token).text = token.text
  opening (token : Token) : ∀ word ∈ openingWords, (move token).name = word ↔ token.name = word
  start (token : Token) : (move token).start.offset = token.start.offset + bytes
  stop (token : Token) : (move token).stop.offset = token.stop.offset + bytes
  line (token : Token) : (move token).start.line = token.start.line + lines

namespace Relocation

variable {bytes lines : Nat} (relocation : Relocation bytes lines)

theorem isMark (token : Token) (c : Char) : (relocation.move token).isMark c = token.isMark c := by
  simp only [Token.isMark, relocation.kind]

theorem name {token : Token} (word : token.kind = .word) :
    (relocation.move token).name = token.name := by
  rw [Token.name, Token.name, relocation.text token (by simp [word])]

theorem isOneOf (token : Token) (words : List String) :
    (relocation.move token).isOneOf words = token.isOneOf words := by
  rw [Token.isOneOf, Token.isOneOf, relocation.kind]
  by_cases word : token.kind = .word
  · rw [relocation.name word]
  · rw [beq_false_of_ne word, Bool.false_and, Bool.false_and]

theorem name_beq {word : String} (opens : word ∈ openingWords) (token : Token) :
    ((relocation.move token).name == word) = (token.name == word) := by
  rw [Bool.eq_iff_iff, beq_iff_eq, beq_iff_eq]
  exact relocation.opening token word opens

theorem takeGroup?_map (opening closing : Char) (depth : Nat) (tokens : List Token) :
    takeGroup? opening closing depth (tokens.map relocation.move) =
      (takeGroup? opening closing depth tokens).map
        (Prod.map (List.map relocation.move) (List.map relocation.move)) := by
  induction tokens generalizing depth with
  | nil => rfl
  | cons token rest ih =>
      simp only [List.map_cons, takeGroup?, relocation.isMark, ih]
      split
      · simp [Function.comp_def]
      · split
        · cases depth <;> simp [Function.comp_def]
        · simp [Function.comp_def]

theorem takeGroup?_eq_some {opening closing : Char} {depth : Nat} {tokens inside after : List Token}
    (group : takeGroup? opening closing depth tokens = some (inside, after)) :
    takeGroup? opening closing depth (tokens.map relocation.move) =
      some (inside.map relocation.move, after.map relocation.move) := by
  rw [relocation.takeGroup?_map, group]
  rfl

theorem takeGroup?_eq_none {opening closing : Char} {depth : Nat} {tokens : List Token}
    (group : takeGroup? opening closing depth tokens = none) :
    takeGroup? opening closing depth (tokens.map relocation.move) = none := by
  rw [relocation.takeGroup?_map, group]
  rfl

theorem opensNamespace_map (tokens : List Token) :
    opensNamespace (tokens.map relocation.move) = opensNamespace tokens := by
  cases tokens with
  | nil => rfl
  | cons first rest =>
      have spaced := relocation.name_beq (show "namespace" ∈ openingWords by decide)
      have inlined := relocation.name_beq (show "inline" ∈ openingWords by decide)
      have linked := relocation.name_beq (show "extern" ∈ openingWords by decide)
      simp only [List.map_cons, opensNamespace, spaced, inlined, linked]
      cases rest with
      | nil => rfl
      | cons second rest =>
          simp only [List.map_cons, List.head?_cons, Option.any_some, spaced]
          cases rest with
          | nil => simp only [List.map_nil, relocation.kind]
          | cons third rest => rfl

theorem text_qualifiers_map (before : List Token) :
    (qualifiers (before.map relocation.move)).flatMap Token.text =
      (qualifiers before).flatMap Token.text := by
  induction before using qualifiers.induct with
  | case1 second first owner before reads ih =>
      simp only [List.map_cons, qualifiers, relocation.isMark, relocation.kind, if_pos reads]
      simp only [Bool.and_eq_true, beq_iff_eq, Token.isMark] at reads
      obtain ⟨⟨second_kind, first_kind⟩, owner_kind⟩ := reads
      simp only [List.flatMap_append, ih, List.flatMap_cons, List.flatMap_nil,
        relocation.text second (by simp [second_kind]), relocation.text first (by simp [first_kind]),
        relocation.text owner (by simp [owner_kind])]
  | case2 second first owner before other =>
      simp only [List.map_cons, qualifiers, relocation.isMark, relocation.kind, if_neg other]
  | case3 before few =>
      rcases before with _ | ⟨second, _ | ⟨first, _ | ⟨owner, before⟩⟩⟩
      · rfl
      · rfl
      · rfl
      · exact (few second first owner before rfl).elim

theorem qualifiedName_map {last : Token} (word : last.kind = .word) (before : List Token) :
    qualifiedName (relocation.move last) (before.map relocation.move) = qualifiedName last before := by
  have text := relocation.text last (by simp [word])
  cases before with
  | nil => simp [qualifiedName, qualifiers, text]
  | cons token rest =>
      simp only [qualifiedName, List.map_cons, relocation.isMark]
      split
      · next tilde =>
          have kind : token.kind = .mark '~' := by simpa [Token.isMark] using tilde
          simp [relocation.text_qualifiers_map, text, relocation.text token (by simp [kind])]
      · have whole := relocation.text_qualifiers_map (token :: rest)
        rw [List.map_cons] at whole
        simp [whole, text]

theorem findBody_map (inits : Bool) (previous : Option Token) (rest : List Token) :
    findBody inits (previous.map relocation.move) (rest.map relocation.move) =
      shiftAnswer bytes (Option.map (Prod.map relocation.move (List.map relocation.move)))
        (findBody inits previous rest) := by
  fun_induction findBody inits previous rest with
  | case1 => simp [findBody, shiftAnswer]
  | _ =>
      rw [List.map_cons, findBody_cons]
      simp_all [relocation.kind, relocation.isMark, relocation.isOneOf, relocation.start,
        relocation.stop, relocation.takeGroup?_map, Option.any_map, Function.comp_def, shiftAnswer,
        LocateError.shift]

theorem definitionAt_map (seen after : List Token) :
    definitionAt (seen.map relocation.move) (after.map relocation.move) =
      shiftAnswer bytes
        (Option.map (Prod.map (Definition.shift bytes lines) (List.map relocation.move)))
        (definitionAt seen after) := by
  cases seen with
  | nil => rfl
  | cons last before =>
      rw [List.map_cons, definitionAt, definitionAt, relocation.kind]
      by_cases names : last.kind = .word ∧ last.name ∉ reservedWords
      · have body := relocation.findBody_map false none after
        rw [Option.map_none] at body
        rw [relocation.name names.1, if_pos names, if_pos names, body]
        rcases findBody false none after with error | _ | ⟨brace, inner⟩
        · rfl
        · rfl
        · simp only [shiftAnswer, Option.map_some, Prod.map, relocation.takeGroup?_map]
          rcases takeGroup? '{' '}' 0 inner with _ | ⟨inside, rest⟩
          · simp [LocateError.shift, relocation.start]
          · simp [relocation.qualifiedName_map names.1, List.getLast?_map, Option.getD_map,
              relocation.start, relocation.stop, relocation.line, Definition.shift]
      · rw [if_neg names, if_neg]
        · rfl
        · rintro ⟨word, free⟩
          rw [relocation.name word] at free
          exact names ⟨word, free⟩

end Relocation

/-- What the scan derives it derives further on as well. -/
theorem Scans.relocate {bytes lines : Nat} (relocation : Relocation bytes lines)
    {enclosing seen rest : List Token} {result : Except LocateError (List Definition)}
    (scans : Scans enclosing seen rest result) :
    Scans (enclosing.map relocation.move) (seen.map relocation.move) (rest.map relocation.move)
      (shiftAnswer bytes (List.map (Definition.shift bytes lines)) result) := by
  have kind {token : Token} {c : Char} (mark : token.kind = .mark c) :
      (relocation.move token).kind = .mark c := (relocation.kind token).trans mark
  have opening (seen : List Token) :
      opensNamespace (seen.map relocation.move).reverse = opensNamespace seen.reverse := by
    rw [← List.map_reverse, relocation.opensNamespace_map]
  induction scans with
  | finish seen => exact .finish _
  | unclosed brace outer seen =>
      simp only [shiftAnswer, LocateError.shift, ← relocation.start]
      exact .unclosed _ _ _
  | boundary mark _ ih => exact .boundary (kind mark) ih
  | unopened mark =>
      simp only [shiftAnswer, LocateError.shift, ← relocation.start]
      exact .unopened (kind mark)
  | leave mark _ ih => exact .leave (kind mark) ih
  | enter mark opens _ ih => exact .enter (kind mark) ((opening _).trans opens) ih
  | endlessBraces mark opens group =>
      simp only [shiftAnswer, LocateError.shift, ← relocation.start]
      exact .endlessBraces (kind mark) ((opening _).trans opens) (relocation.takeGroup?_eq_none group)
  | braces mark opens group _ ih =>
      rw [List.map_append, List.map_reverse, List.map_cons] at ih
      exact .braces (kind mark) ((opening _).trans opens) (relocation.takeGroup?_eq_some group) ih
  | endlessParens mark group =>
      simp only [shiftAnswer, LocateError.shift, ← relocation.start]
      exact .endlessParens (kind mark) (relocation.takeGroup?_eq_none group)
  | parens mark group none _ ih =>
      rw [List.map_append, List.map_reverse, List.map_cons] at ih
      refine .parens (kind mark) (relocation.takeGroup?_eq_some group) ?_ ih
      rw [relocation.definitionAt_map, none]
      rfl
  | endlessBody mark group fails =>
      refine .endlessBody (kind mark) (relocation.takeGroup?_eq_some group) ?_
      rw [relocation.definitionAt_map, fails]
      rfl
  | @define _ _ _ _ _ _ _ _ result mark group defines _ ih =>
      have defines' := congrArg (shiftAnswer bytes
        (Option.map (Prod.map (Definition.shift bytes lines) (List.map relocation.move)))) defines
      rw [← relocation.definitionAt_map] at defines'
      have later := Scans.define (kind mark) (relocation.takeGroup?_eq_some group) defines' ih
      cases result <;> exact later
  | pass plain _ ih =>
      refine .pass ?_ ih
      intro c mem
      rw [relocation.kind]
      exact plain c mem

/-- Tokens that stand further on make the same definitions further on. -/
theorem definitionsFrom_relocate {bytes lines : Nat} (relocation : Relocation bytes lines)
    (enclosing seen rest : List Token) :
    definitionsFrom (enclosing.map relocation.move) (seen.map relocation.move)
        (rest.map relocation.move) =
      shiftAnswer bytes (List.map (Definition.shift bytes lines))
        (definitionsFrom enclosing seen rest) :=
  ((scans_definitionsFrom enclosing seen rest).relocate relocation).definitionsFrom_eq

end Graft.Code

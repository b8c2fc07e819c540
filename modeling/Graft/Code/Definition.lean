import Graft.Code.Token
import Graft.Text.Quoted

/-!
Finding the function definitions of a C-family text. The scan walks over the tokens outside of
function bodies, through namespaces and linkage blocks, and takes for a definition what reads
`name ( ... ) qualifiers {`. A definition starts at the first token after the last boundary before
its parameter list and ends with the brace that closes its body.
-/

namespace Graft.Code

open Graft.Text

inductive LocateError where
  | notFound (identifier : String)
  | ambiguous (identifier : String) (count : Nat)
  | duplicate (identifier : String)
  | outOfOrder (identifier : String)
  | unbalanced (delimiter : Char) (offset : Nat)
  | invalidIdentifier (identifier : String)
  deriving Repr, DecidableEq

def LocateError.message : LocateError → String
  | notFound identifier => s!"function not found: {identifier}"
  | ambiguous identifier count =>
      s!"function {identifier} has {count} definitions; select one with {identifier}@<n>"
  | duplicate identifier => s!"function {identifier} is selected more than once"
  | outOfOrder identifier =>
      s!"function {identifier} is defined before the function listed ahead of it"
  | unbalanced delimiter offset => s!"unbalanced '{delimiter}' at byte {offset}"
  | invalidIdentifier identifier => s!"invalid function identifier: {quoted identifier}"

/-- A function definition: its name, its first byte and the one behind its last, and the line on which it
starts, which has 32 bits in a text of less than four gibibytes (`numbers_fit`). -/
structure Definition where
  /-- The name as it is written, with its qualification. -/
  name : String
  start : Nat
  stop : Nat
  line : Nat
  deriving Repr, DecidableEq, Inhabited

/-- Words that may call something between a parameter list and a body. -/
def suffixCalls : List String :=
  ["noexcept", "throw", "__attribute__", "__declspec", "alignas", "decltype", "requires"]

/-- Words in front of a parenthesis that name no function. -/
def reservedWords : List String :=
  ["if", "while", "for", "switch", "return", "sizeof", "alignof", "alignas", "decltype", "typeof",
   "__typeof__", "catch", "static_assert", "_Static_assert", "__attribute__", "__declspec",
   "defined", "noexcept", "throw"]

/-- Whether the tokens in front of an opening brace open a namespace or a linkage block. -/
def opensNamespace : List Token → Bool
  | [] => false
  | first :: rest =>
      first.name == "namespace" ||
        (first.name == "inline" && (rest.head?.any fun second => second.name == "namespace")) ||
        (first.name == "extern" && (match rest with
          | [second] => second.kind == .literal
          | _ => false))

/-- The tokens that qualify a name, nearest first, put in the order of the text. -/
def qualifiers : List Token → List Token
  | second :: first :: owner :: before =>
      if second.isMark ':' && first.isMark ':' && owner.kind == .word then
        qualifiers before ++ [owner, first, second]
      else []
  | _ => []

/-- The name that ends in a token, given the tokens of the statement before it, nearest first. -/
def qualifiedName (last : Token) (before : List Token) : String :=
  let (tilde, before) := match before with
    | token :: rest => if token.isMark '~' then ([token], rest) else ([], token :: rest)
    | [] => ([], [])
  String.ofList ((qualifiers before ++ tilde ++ [last]).flatMap Token.text)

/-- The opening brace of a body behind a parameter list, and the tokens after it; none when what
follows is no definition. `inits` says that a list of member initializers has begun, `previous` is
the token before, if there is one behind the parameter list. -/
def findBody (inits : Bool) (previous : Option Token) (rest : List Token) :
    Except LocateError (Option (Token × List Token)) :=
  match rest with
  | [] => .ok none
  | token :: rest =>
      match token.kind with
      | .word | .literal => findBody inits (some token) rest
      | .number => if inits then findBody inits (some token) rest else .ok none
      | .mark '{' =>
          if inits && previous.any (fun p => p.kind == .word || p.isMark '>') then
            match h : takeGroup? '{' '}' 0 rest with
            | none => .error (.unbalanced '{' token.start.offset)
            | some (inside, after) =>
                have := length_lt_of_takeGroup? h
                findBody inits inside.getLast? after
          else .ok (some (token, rest))
      | .mark '(' =>
          if inits || previous.any (·.isOneOf suffixCalls) then
            match h : takeGroup? '(' ')' 0 rest with
            | none => .error (.unbalanced '(' token.start.offset)
            | some (inside, after) =>
                have := length_lt_of_takeGroup? h
                findBody inits inside.getLast? after
          else .ok none
      | .mark '[' =>
          match h : takeGroup? '[' ']' 0 rest with
          | none => .error (.unbalanced '[' token.start.offset)
          | some (inside, after) =>
              have := length_lt_of_takeGroup? h
              findBody inits inside.getLast? after
      | .mark ':' =>
          match rest with
          | next :: after =>
              if next.isMark ':' && next.start.offset == token.stop.offset then
                findBody inits (some next) after
              else findBody true (some token) (next :: after)
          | [] => .ok none
      | .mark ',' => if inits then findBody inits (some token) rest else .ok none
      | .mark c =>
          if c ∈ ['&', '*', '-', '>', '<', '.', '~'] then findBody inits (some token) rest
          else .ok none
termination_by rest.length
decreasing_by all_goals (simp only [List.length_cons]; omega)

/-- What `findBody` finds lies behind what it was given. -/
theorem length_lt_of_findBody {inits : Bool} {previous : Option Token} {tokens : List Token}
    {brace : Token} {after : List Token}
    (h : findBody inits previous tokens = .ok (some (brace, after))) :
    after.length < tokens.length := by
  fun_induction findBody inits previous tokens <;>
    first
      | (simp at h; done)
      | (simp only [Except.ok.injEq, Option.some.injEq, Prod.mk.injEq] at h
         obtain ⟨rfl, rfl⟩ := h
         simp)
      | (rename_i ih
         have := ih h
         simp only [List.length_cons] at *
         omega)

/-- The definition whose parameter list has just ended, and the tokens behind its body; none when the
statement defines no function. `seen` are the tokens of the statement in front of the parameter
list, nearest first. -/
def definitionAt (seen after : List Token) : Except LocateError (Option (Definition × List Token)) :=
  match seen with
  | [] => .ok none
  | last :: before =>
      if last.kind = .word ∧ last.name ∉ reservedWords then
        match findBody false none after with
        | .error error => .error error
        | .ok none => .ok none
        | .ok (some (brace, body)) =>
            match takeGroup? '{' '}' 0 body with
            | none => .error (.unbalanced '{' brace.start.offset)
            | some (inside, rest) =>
                let start := (before.getLast?.getD last).start
                let stop := (inside.getLast?.getD brace).stop
                .ok (some (⟨qualifiedName last before, start.offset, stop.offset, start.line⟩, rest))
      else .ok none

theorem length_lt_of_definitionAt {seen after rest : List Token} {definition : Definition}
    (h : definitionAt seen after = .ok (some (definition, rest))) : rest.length < after.length := by
  unfold definitionAt at h
  split at h
  · simp at h
  · split at h
    · split at h
      · simp at h
      · simp at h
      · next brace body hbody =>
          split at h
          · simp at h
          · next inside tail hclose =>
              simp only [Except.ok.injEq, Option.some.injEq, Prod.mk.injEq] at h
              have := length_lt_of_findBody hbody
              have := length_lt_of_takeGroup? hclose
              rw [← h.2]
              omega
    · simp at h

/-- The definitions among the tokens that are still to come. `enclosing` are the braces of the
namespaces around them, innermost first, and `seen` the tokens since the last boundary, nearest
first. -/
def definitionsFrom (enclosing seen : List Token) (rest : List Token) :
    Except LocateError (List Definition) :=
  match rest with
  | [] =>
      match enclosing with
      | [] => .ok []
      | brace :: _ => .error (.unbalanced '{' brace.start.offset)
  | token :: rest =>
      match token.kind with
      | .mark ';' => definitionsFrom enclosing [] rest
      | .mark '}' =>
          match enclosing with
          | [] => .error (.unbalanced '}' token.start.offset)
          | _ :: outer => definitionsFrom outer [] rest
      | .mark '{' =>
          if opensNamespace seen.reverse then definitionsFrom (token :: enclosing) [] rest
          else
            match h : takeGroup? '{' '}' 0 rest with
            | none => .error (.unbalanced '{' token.start.offset)
            | some (inside, after) =>
                have := length_lt_of_takeGroup? h
                definitionsFrom enclosing (inside.reverse ++ token :: seen) after
      | .mark '(' =>
          match h : takeGroup? '(' ')' 0 rest with
          | none => .error (.unbalanced '(' token.start.offset)
          | some (inside, after) =>
              have := length_lt_of_takeGroup? h
              match hdef : definitionAt seen after with
              | .error error => .error error
              | .ok none => definitionsFrom enclosing (inside.reverse ++ token :: seen) after
              | .ok (some (definition, after)) =>
                  have := length_lt_of_definitionAt hdef
                  (definitionsFrom enclosing [] after).map (definition :: ·)
      | _ => definitionsFrom enclosing (token :: seen) rest
termination_by rest.length
decreasing_by all_goals (simp only [List.length_cons]; omega)

/-- The function definitions of a text, in the order of the text. -/
def discover (text : String) : Except LocateError (List Definition) :=
  definitionsFrom [] [] (tokens text.toList)

end Graft.Code

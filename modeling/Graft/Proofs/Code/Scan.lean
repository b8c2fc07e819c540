import Graft.Code.Definition

/-!
The scan for definitions, rule by rule. What the scan answers is what the rules of `Scans` derive
(`scans_definitionsFrom`), and nothing else (`Scans.definitionsFrom_eq`), so a fact about every scan is
shown once for each rule.
-/

namespace Graft.Code

/-- One step of the search for a body. -/
theorem findBody_cons (inits : Bool) (previous : Option Token) (token : Token) (rest : List Token) :
    findBody inits previous (token :: rest) =
      let behind (opening closing : Char) :=
        (takeGroup? opening closing 0 rest).elim (.error (.unbalanced opening token.start.offset))
          fun group => findBody inits group.1.getLast? group.2
      match token.kind with
      | .word | .literal => findBody inits (some token) rest
      | .number => if inits then findBody inits (some token) rest else .ok none
      | .mark '{' =>
          if inits && previous.any (fun p => p.kind == .word || p.isMark '>') then behind '{' '}'
          else .ok (some (token, rest))
      | .mark '(' =>
          if inits || previous.any (·.isOneOf suffixCalls) then behind '(' ')' else .ok none
      | .mark '[' => behind '[' ']'
      | .mark ':' =>
          rest.head?.elim (.ok none) fun next =>
            if next.isMark ':' && next.start.offset == token.stop.offset then
              findBody inits (some next) rest.tail
            else findBody true (some token) rest
      | .mark ',' => if inits then findBody inits (some token) rest else .ok none
      | .mark c =>
          if c ∈ ['&', '*', '-', '>', '<', '.', '~'] then findBody inits (some token) rest
          else .ok none := by
  rw [findBody.eq_def]
  simp only
  split <;> try simp only [*]
  · split
    · split <;> simp [*]
    · rfl
  · split
    · split <;> simp [*]
    · rfl
  · split <;> simp [*]
  · cases rest <;> rfl

/-- What the scan answers for the tokens still to come, behind the tokens seen since the last boundary
and inside the braces of some namespaces. -/
inductive Scans : List Token → List Token → List Token → Except LocateError (List Definition) → Prop
  | finish (seen : List Token) : Scans [] seen [] (.ok [])
  | unclosed (brace : Token) (outer seen : List Token) :
      Scans (brace :: outer) seen [] (.error (.unbalanced '{' brace.start.offset))
  | boundary {enclosing seen rest : List Token} {token : Token}
      {result : Except LocateError (List Definition)} (mark : token.kind = .mark ';')
      (later : Scans enclosing [] rest result) : Scans enclosing seen (token :: rest) result
  | unopened {seen rest : List Token} {token : Token} (mark : token.kind = .mark '}') :
      Scans [] seen (token :: rest) (.error (.unbalanced '}' token.start.offset))
  | leave {outer seen rest : List Token} {brace token : Token}
      {result : Except LocateError (List Definition)} (mark : token.kind = .mark '}')
      (later : Scans outer [] rest result) : Scans (brace :: outer) seen (token :: rest) result
  | enter {enclosing seen rest : List Token} {token : Token}
      {result : Except LocateError (List Definition)} (mark : token.kind = .mark '{')
      (opens : opensNamespace seen.reverse = true)
      (later : Scans (token :: enclosing) [] rest result) : Scans enclosing seen (token :: rest) result
  | endlessBraces {enclosing seen rest : List Token} {token : Token} (mark : token.kind = .mark '{')
      (opens : opensNamespace seen.reverse = false) (group : takeGroup? '{' '}' 0 rest = none) :
      Scans enclosing seen (token :: rest) (.error (.unbalanced '{' token.start.offset))
  | braces {enclosing seen rest inside after : List Token} {token : Token}
      {result : Except LocateError (List Definition)} (mark : token.kind = .mark '{')
      (opens : opensNamespace seen.reverse = false)
      (group : takeGroup? '{' '}' 0 rest = some (inside, after))
      (later : Scans enclosing (inside.reverse ++ token :: seen) after result) :
      Scans enclosing seen (token :: rest) result
  | endlessParens {enclosing seen rest : List Token} {token : Token} (mark : token.kind = .mark '(')
      (group : takeGroup? '(' ')' 0 rest = none) :
      Scans enclosing seen (token :: rest) (.error (.unbalanced '(' token.start.offset))
  | parens {enclosing seen rest inside after : List Token} {token : Token}
      {result : Except LocateError (List Definition)} (mark : token.kind = .mark '(')
      (group : takeGroup? '(' ')' 0 rest = some (inside, after))
      (none : definitionAt seen after = .ok none)
      (later : Scans enclosing (inside.reverse ++ token :: seen) after result) :
      Scans enclosing seen (token :: rest) result
  | endlessBody {enclosing seen rest inside after : List Token} {token : Token} {error : LocateError}
      (mark : token.kind = .mark '(') (group : takeGroup? '(' ')' 0 rest = some (inside, after))
      (fails : definitionAt seen after = .error error) :
      Scans enclosing seen (token :: rest) (.error error)
  | define {enclosing seen rest inside after remaining : List Token} {token : Token}
      {definition : Definition} {result : Except LocateError (List Definition)}
      (mark : token.kind = .mark '(') (group : takeGroup? '(' ')' 0 rest = some (inside, after))
      (defines : definitionAt seen after = .ok (some (definition, remaining)))
      (later : Scans enclosing [] remaining result) :
      Scans enclosing seen (token :: rest) (result.map (definition :: ·))
  | pass {enclosing seen rest : List Token} {token : Token}
      {result : Except LocateError (List Definition)}
      (plain : ∀ c ∈ [';', '}', '{', '('], token.kind ≠ .mark c)
      (later : Scans enclosing (token :: seen) rest result) : Scans enclosing seen (token :: rest) result

/-- The scan answers what the rules derive. -/
theorem scans_definitionsFrom (enclosing seen rest : List Token) :
    Scans enclosing seen rest (definitionsFrom enclosing seen rest) := by
  fun_induction definitionsFrom enclosing seen rest with
  | case1 seen => exact .finish seen
  | case2 seen brace outer => exact .unclosed brace outer seen
  | case3 _ _ _ _ mark ih => exact .boundary mark ih
  | case4 _ _ _ mark => exact .unopened mark
  | case5 _ _ _ mark _ _ ih => exact .leave mark ih
  | case6 _ seen _ _ mark opens ih =>
      have opens : opensNamespace seen.reverse = true := by simpa using opens
      rw [if_pos opens]
      exact .enter mark opens ih
  | case7 _ seen _ _ mark opens group =>
      have opens : opensNamespace seen.reverse = false := by simpa using opens
      rw [if_neg (by simp [opens])]
      split
      · exact .endlessBraces mark opens group
      · simp_all
  | case8 _ seen _ _ mark opens inside after group _ ih =>
      have opens : opensNamespace seen.reverse = false := by simpa using opens
      rw [if_neg (by simp [opens])]
      split
      · simp_all
      · next other =>
          obtain ⟨rfl, rfl⟩ := Prod.mk.inj (Option.some.inj (other.symm.trans group))
          exact .braces mark opens group ih
  | case9 _ _ _ _ mark group => exact .endlessParens mark group
  | case10 _ _ _ _ mark _ _ group _ _ fails => exact .endlessBody mark group fails
  | case11 _ _ _ _ mark _ _ group _ none ih => exact .parens mark group none ih
  | case12 _ _ _ _ mark _ _ group _ _ _ defines _ ih => exact .define mark group defines ih
  | case13 _ _ _ _ notStop notClose notOpen notParen ih =>
      refine .pass ?_ ih
      simp only [List.forall_mem_cons, List.not_mem_nil, false_implies, implies_true, and_true]
      exact ⟨notStop, notClose, notOpen, notParen⟩

/-- What the rules derive is what the scan answers. -/
theorem Scans.definitionsFrom_eq {enclosing seen rest : List Token}
    {result : Except LocateError (List Definition)} (scans : Scans enclosing seen rest result) :
    definitionsFrom enclosing seen rest = result := by
  induction scans with
  | finish | unclosed => simp [definitionsFrom]
  | boundary mark _ ih | leave mark _ ih =>
      rw [definitionsFrom.eq_def]
      simp only [mark]
      exact ih
  | unopened mark =>
      rw [definitionsFrom.eq_def]
      simp only [mark]
  | enter mark opens _ ih =>
      rw [definitionsFrom.eq_def]
      simp only [mark, opens]
      exact ih
  | endlessBraces mark opens group =>
      rw [definitionsFrom.eq_def]
      simp only [mark, opens, Bool.false_eq_true, if_false]
      split <;> simp_all
  | braces mark opens group _ ih =>
      rw [definitionsFrom.eq_def]
      simp only [mark, opens, Bool.false_eq_true, if_false]
      split <;> simp_all
  | endlessParens mark group =>
      rw [definitionsFrom.eq_def]
      simp only [mark]
      split <;> simp_all
  | parens mark group none _ ih =>
      rw [definitionsFrom.eq_def]
      simp only [mark]
      split
      · simp_all
      · split <;> simp_all
  | endlessBody mark group fails =>
      rw [definitionsFrom.eq_def]
      simp only [mark]
      split
      · simp_all
      · split <;> simp_all
  | define mark group defines _ ih =>
      rw [definitionsFrom.eq_def]
      simp only [mark]
      split
      · simp_all
      · split <;> simp_all
  | pass plain _ ih =>
      rw [definitionsFrom.eq_def]
      simp only
      split <;> simp_all

end Graft.Code

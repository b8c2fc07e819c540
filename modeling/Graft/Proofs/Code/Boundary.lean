import Graft.Proofs.Code.Anatomy
import Mathlib.Data.List.Pairwise
import Mathlib.Logic.Relation
import Mathlib.Order.Lattice.Nat

/-!
Where definitions start. At the top level a statement begins anew behind a semicolon, a brace of a
namespace or linkage block, and the body of a definition. A definition starts with the first token
behind the last of these boundaries before its parameter list (`start_of_discover`). A directive is
no boundary to the scan, so the start is also the first token behind the last directive before the
parameter list exactly when no directive stands between the two.
-/

namespace Graft.Code

open Graft.Text

/-! The steps of a scan -/

/-- Where a scan for definitions stands: the tokens up to and with the last boundary, the braces of the
namespaces around, innermost first, the tokens since the boundary, nearest first, and the ones still
to come. -/
structure Scan where
  passed : List Token
  enclosing : List Token
  seen : List Token
  rest : List Token

theorem suffix_of_definitionAt {seen after rest : List Token} {definition : Definition}
    (h : definitionAt seen after = .ok (some (definition, rest))) : rest <:+ after := by
  revert h
  fun_cases definitionAt seen after with
  | case5 last before named brace body hbody inner tail hclose =>
      intro h
      simp only [Except.ok.injEq, Option.some.injEq, Prod.mk.injEq] at h
      obtain ⟨-, rfl⟩ := h
      have inBody := (suffix_of_takeGroup? hclose).trans (List.suffix_cons brace body)
      exact inBody.trans (suffix_of_findBody hbody).2
  | _ => simp

/-- A definition starts with the first token of its statement, and ends behind its parameter list. -/
theorem ends_of_definitionAt {seen after rest : List Token} {definition : Definition}
    (h : definitionAt seen after = .ok (some (definition, rest))) :
    (∃ first, seen.reverse.head? = some first ∧ definition.start = first.start.offset) ∧
      ∃ last ∈ after, definition.stop = last.stop.offset := by
  revert h
  fun_cases definitionAt seen after with
  | case5 last before named brace body hbody inner tail hclose =>
      intro h
      simp only [Except.ok.injEq, Option.some.injEq, Prod.mk.injEq] at h
      obtain ⟨rfl, rfl⟩ := h
      refine ⟨⟨before.getLast?.getD last, by simp, rfl⟩, ⟨inner.getLast?.getD brace, ?_, rfl⟩⟩
      have inAfter := (suffix_of_findBody hbody).2.subset
      rw [(eq_append_of_takeGroup? hclose).1] at inAfter
      apply inAfter
      cases hinner : inner.getLast? with
      | none => simp
      | some final => simp [List.mem_of_getLast? hinner]
  | _ => simp

namespace Scan

def start (tokens : List Token) : Scan := ⟨[], [], [], tokens⟩

def all (scan : Scan) : List Token := scan.passed ++ scan.seen.reverse ++ scan.rest

def answer (scan : Scan) : Except LocateError (List Definition) :=
  definitionsFrom scan.enclosing scan.seen scan.rest

def bound (scan : Scan) : Nat := (scan.passed.getLast?.map fun last => last.stop.offset).getD 0

/-- How a scan goes on: over a boundary, or over a token or a group that belongs to the statement. -/
inductive Step : Scan → Scan → Prop
  | stop {passed enclosing seen rest : List Token} {token : Token} (mark : token.kind = .mark ';') :
      Step ⟨passed, enclosing, seen, token :: rest⟩
        ⟨passed ++ seen.reverse ++ [token], enclosing, [], rest⟩
  | leave {passed outer seen rest : List Token} {brace token : Token} (mark : token.kind = .mark '}') :
      Step ⟨passed, brace :: outer, seen, token :: rest⟩
        ⟨passed ++ seen.reverse ++ [token], outer, [], rest⟩
  | enter {passed enclosing seen rest : List Token} {token : Token} (mark : token.kind = .mark '{')
      (opens : opensNamespace seen.reverse = true) :
      Step ⟨passed, enclosing, seen, token :: rest⟩
        ⟨passed ++ seen.reverse ++ [token], token :: enclosing, [], rest⟩
  | braces {passed enclosing seen rest inside after : List Token} {token : Token}
      (mark : token.kind = .mark '{') (opens : opensNamespace seen.reverse = false)
      (group : takeGroup? '{' '}' 0 rest = some (inside, after)) :
      Step ⟨passed, enclosing, seen, token :: rest⟩
        ⟨passed, enclosing, inside.reverse ++ token :: seen, after⟩
  | parens {passed enclosing seen rest inside after : List Token} {token : Token}
      (mark : token.kind = .mark '(') (group : takeGroup? '(' ')' 0 rest = some (inside, after))
      (none : definitionAt seen after = .ok none) :
      Step ⟨passed, enclosing, seen, token :: rest⟩
        ⟨passed, enclosing, inside.reverse ++ token :: seen, after⟩
  | define {passed enclosing seen rest inside after taken remaining : List Token} {token : Token}
      {definition : Definition} (mark : token.kind = .mark '(')
      (group : takeGroup? '(' ')' 0 rest = some (inside, after))
      (defines : definitionAt seen after = .ok (some (definition, remaining)))
      (whole : seen.reverse ++ token :: rest = taken ++ remaining) :
      Step ⟨passed, enclosing, seen, token :: rest⟩ ⟨passed ++ taken, enclosing, [], remaining⟩
  | pass {passed enclosing seen rest : List Token} {token : Token}
      (plain : ∀ c ∈ [';', '}', '{', '('], token.kind ≠ .mark c) :
      Step ⟨passed, enclosing, seen, token :: rest⟩ ⟨passed, enclosing, token :: seen, rest⟩

/-- Whether the next token of a scan is a mark that ends a statement: a semicolon, or a brace that opens
or closes a namespace or a linkage block. -/
inductive Bounds : Scan → Token → Prop
  | stop {passed enclosing seen rest : List Token} {token : Token} (mark : token.kind = .mark ';') :
      Bounds ⟨passed, enclosing, seen, token :: rest⟩ token
  | leave {passed outer seen rest : List Token} {brace token : Token} (mark : token.kind = .mark '}') :
      Bounds ⟨passed, brace :: outer, seen, token :: rest⟩ token
  | enter {passed enclosing seen rest : List Token} {token : Token} (mark : token.kind = .mark '{')
      (opens : opensNamespace seen.reverse = true) :
      Bounds ⟨passed, enclosing, seen, token :: rest⟩ token

def ReachedIn (scan : Scan) (text : String) : Prop :=
  Relation.ReflTransGen Step (start (tokens text.toList)) scan

variable {scan next other : Scan}

theorem Step.rightUnique : Relator.RightUnique Step := by
  intro scan first second hfirst hsecond
  cases hfirst <;> cases hsecond <;> simp_all

theorem Step.all_eq (step : Step scan next) : next.all = scan.all := by
  cases step with
  | stop | leave | enter | pass => simp [all]
  | braces _ _ group | parens _ group => simp [all, (eq_append_of_takeGroup? group).1]
  | define _ _ _ whole => simp [all, whole]

theorem Step.passed_prefix (step : Step scan next) : scan.passed <+: next.passed := by
  cases step with
  | stop | leave | enter =>
      rw [List.append_assoc]
      exact List.prefix_append _ _
  | define => exact List.prefix_append _ _
  | braces | parens | pass => exact List.prefix_rfl

/-- A step goes over the first of the tokens still to come. -/
theorem Step.rest_suffix (step : Step scan next) {token : Token} {rest : List Token}
    (head : scan.rest = token :: rest) : next.rest <:+ rest := by
  cases step with
  | stop | leave | enter | pass =>
      obtain ⟨rfl, rfl⟩ := List.cons.inj head
      exact List.suffix_rfl
  | braces _ _ group | parens _ group =>
      obtain ⟨rfl, rfl⟩ := List.cons.inj head
      exact suffix_of_takeGroup? group
  | define _ group defines =>
      obtain ⟨rfl, rfl⟩ := List.cons.inj head
      exact (suffix_of_definitionAt defines).trans (suffix_of_takeGroup? group)

/-- A step over the end of a statement leaves it behind. -/
theorem Step.mem_passed (step : Step scan next) {token : Token} (bounds : scan.Bounds token) :
    token ∈ next.passed := by
  cases bounds <;> cases step <;> simp_all

theorem Bounds.head {token : Token} (bounds : scan.Bounds token) :
    token.kind ≠ .mark '(' ∧ ∃ rest, scan.rest = token :: rest := by
  cases bounds with
  | stop mark | leave mark | enter mark => exact ⟨by simp [mark], _, rfl⟩

/-- A step changes nothing of what a scan answers, and takes the scan over a mark or goes on in the same
statement; or it takes the scan over a definition, which stands in front of what is answered then. -/
theorem Step.answer_cases (step : Step scan next) :
    (scan.answer = next.answer ∧
      (next.bound = scan.bound ∨ ∃ token, scan.Bounds token ∧ next.bound = token.stop.offset)) ∨
    ∃ definition, scan.answer = next.answer.map (definition :: ·) ∧ next.bound = definition.stop := by
  have later := scans_definitionsFrom next.enclosing next.seen next.rest
  cases step with
  | stop mark =>
      exact .inl ⟨(Scans.boundary mark later).definitionsFrom_eq, .inr ⟨_, .stop mark, by simp [bound]⟩⟩
  | leave mark =>
      exact .inl ⟨(Scans.leave mark later).definitionsFrom_eq, .inr ⟨_, .leave mark, by simp [bound]⟩⟩
  | enter mark opens =>
      exact .inl ⟨(Scans.enter mark opens later).definitionsFrom_eq,
        .inr ⟨_, .enter mark opens, by simp [bound]⟩⟩
  | braces mark opens group =>
      exact .inl ⟨(Scans.braces mark opens group later).definitionsFrom_eq, .inl rfl⟩
  | parens mark group none =>
      exact .inl ⟨(Scans.parens mark group none later).definitionsFrom_eq, .inl rfl⟩
  | @define _ _ _ _ inside after _ _ token definition mark group defines whole =>
      refine .inr ⟨definition, (Scans.define mark group defines later).definitionsFrom_eq, ?_⟩
      obtain ⟨parts, reads, same⟩ := reads_of_definitionAt (Token.isMark_iff.2 mark) defines
      obtain ⟨last, hlast, -, hstop⟩ := reads.getLast?_tokens
      rw [List.append_assoc, List.cons_append, ← (eq_append_of_takeGroup? group).1, whole] at same
      simp [bound, List.append_cancel_right same, hlast, hstop]
  | pass plain => exact .inl ⟨(Scans.pass plain later).definitionsFrom_eq, .inl rfl⟩

/-! Points that a scan comes to -/

variable {text : String}

theorem ReachedIn.all_eq (reached : scan.ReachedIn text) : scan.all = tokens text.toList := by
  induction reached with
  | refl => rfl
  | tail _ step ih => exact step.all_eq.trans ih

/-- Of two points that a scan comes to it comes to one from the other. -/
theorem ReachedIn.chain (reached : scan.ReachedIn text) (reached' : other.ReachedIn text) :
    Relation.ReflTransGen Step scan other ∨ Relation.ReflTransGen Step other scan :=
  Relation.ReflTransGen.total_of_right_unique Step.rightUnique reached reached'

theorem passed_prefix_of_steps (steps : Relation.ReflTransGen Step scan next) :
    scan.passed <+: next.passed := by
  induction steps with
  | refl => exact List.prefix_rfl
  | tail _ step ih => exact ih.trans step.passed_prefix

theorem rest_suffix_of_steps (steps : Relation.ReflTransGen Step scan next) :
    next.rest <:+ scan.rest := by
  induction steps with
  | refl => exact List.suffix_rfl
  | @tail middle next _ step ih =>
      obtain ⟨token, rest, head⟩ : ∃ token rest, middle.rest = token :: rest := by
        cases step <;> exact ⟨_, _, rfl⟩
      have later := (step.rest_suffix head).trans (List.suffix_cons token rest)
      exact (head ▸ later).trans ih

theorem ReachedIn.mem_tokens (reached : scan.ReachedIn text) {token : Token}
    (member : token ∈ scan.all) : token ∈ tokens text.toList :=
  reached.all_eq ▸ member

theorem ReachedIn.ordered (reached : scan.ReachedIn text) :
    scan.all.Pairwise fun first second => first.stop.offset ≤ second.start.offset :=
  reached.all_eq ▸ (placedIn_tokens text.toList).ordered

/-- The tokens up to the last boundary lie in front of it. -/
theorem ReachedIn.stop_le_bound (reached : scan.ReachedIn text) {token : Token}
    (member : token ∈ scan.passed) : token.stop.offset ≤ scan.bound := by
  obtain ⟨front, last, whole⟩ := List.eq_nil_or_concat scan.passed |>.resolve_left
    (List.ne_nil_of_mem member)
  have ordered := reached.ordered
  have forwards : last.start.offset < last.stop.offset := by
    apply start_lt_stop_of_mem_tokens
    apply reached.mem_tokens
    simp [all, whole]
  rw [all, whole] at ordered
  rw [whole, List.concat_eq_append, List.mem_append, List.mem_singleton] at member
  simp only [bound, whole, List.concat_eq_append, List.getLast?_append, List.getLast?_singleton,
    Option.some_or, Option.map_some, Option.getD_some]
  obtain early | rfl := member
  · have between : token.stop.offset ≤ last.start.offset := by
      simp only [List.concat_eq_append, List.append_assoc, List.singleton_append] at ordered
      exact (List.pairwise_append.1 ordered).2.2 token early last List.mem_cons_self
    omega
  · exact Nat.le_refl _

/-- The tokens behind the last boundary lie behind it. -/
theorem ReachedIn.bound_le_start (reached : scan.ReachedIn text) {token : Token}
    (member : token ∈ scan.seen.reverse ++ scan.rest) : scan.bound ≤ token.start.offset := by
  have ordered := reached.ordered
  rw [all, List.append_assoc] at ordered
  cases hlast : scan.passed.getLast? with
  | none => simp [bound, hlast]
  | some last =>
      simp only [bound, hlast, Option.map_some, Option.getD_some]
      exact (List.pairwise_append.1 ordered).2.2 last (List.mem_of_getLast? hlast) token member

/-- A token behind the next one ends behind the start of that. -/
theorem ReachedIn.start_lt_stop (reached : scan.ReachedIn text) {first token : Token}
    {rest : List Token} (head : scan.rest = first :: rest) (member : token ∈ rest) :
    first.start.offset < token.stop.offset := by
  have ordered := reached.ordered
  rw [all, head] at ordered
  have between := (List.pairwise_cons.1 (List.pairwise_append.1 ordered).2.1).1 token member
  have inText : ∀ other ∈ first :: rest, other ∈ tokens text.toList := by
    intro other mem
    apply reached.mem_tokens
    rw [all, head]
    exact List.mem_append_right _ mem
  have firstForwards := start_lt_stop_of_mem_tokens (inText first List.mem_cons_self)
  have forwards := start_lt_stop_of_mem_tokens (inText token (List.mem_cons_of_mem first member))
  omega

/-- The first token of the statement starts in front of all others behind the last boundary. -/
theorem ReachedIn.first_le_start (reached : scan.ReachedIn text) {first token : Token}
    (head : scan.seen.reverse.head? = some first) (member : token ∈ scan.seen.reverse ++ scan.rest) :
    first.start.offset ≤ token.start.offset := by
  obtain ⟨others, whole⟩ := List.head?_eq_some_iff.1 head
  have ordered := reached.ordered
  rw [all, List.append_assoc, whole] at ordered
  rw [whole] at member
  obtain rfl | later := List.mem_cons.1 member
  · exact Nat.le_refl _
  · have between := (List.pairwise_cons.1 (List.pairwise_append.1 ordered).2.1).1 token later
    have forwards : first.start.offset < first.stop.offset := by
      apply start_lt_stop_of_mem_tokens
      apply reached.mem_tokens
      simp [all, whole]
    omega

end Scan

/-! Boundaries -/

/-- The offsets behind the boundaries of statements at the top level of a text: its start, the marks that
end a statement, and the bodies of its definitions. -/
inductive StatementBoundary (text : String) (definitions : List Definition) : Nat → Prop
  | start : StatementBoundary text definitions 0
  | mark {scan : Scan} {token : Token} (reached : scan.ReachedIn text) (bounds : scan.Bounds token) :
      StatementBoundary text definitions token.stop.offset
  | body {definition : Definition} (member : definition ∈ definitions) :
      StatementBoundary text definitions definition.stop

def IsDirectiveEnd (text : String) (offset : Nat) : Prop :=
  ∃ before directive behind, pieces text.toList = before ++ directive :: behind ∧
    directive.role = .directive ∧ byteLength ((before ++ [directive]).flatMap Piece.text) = offset

/-- Whether the parameter list of a definition in a text opens at an offset: the scan comes to a
parenthesis there, and finds the definition at the end of its group. -/
inductive Definition.HasParametersAt (text : String) (definition : Definition) : Nat → Prop
  | intro {passed enclosing seen rest inside after remaining : List Token} {opening : Token}
      (reached : Scan.ReachedIn ⟨passed, enclosing, seen, opening :: rest⟩ text)
      (mark : opening.kind = .mark '(') (group : takeGroup? '(' ')' 0 rest = some (inside, after))
      (defines : definitionAt seen after = .ok (some (definition, remaining))) :
      HasParametersAt text definition opening.start.offset

/-- Whether an offset is that of the first token of a text behind the last of some boundaries in front of
another offset. -/
def StartsBehind (text : String) (boundary : Nat → Prop) (before start : Nat) : Prop :=
  ∃ last, IsGreatest {offset | boundary offset ∧ offset ≤ before} last ∧
    IsLeast {offset | last ≤ offset ∧ ∃ token ∈ tokens text.toList, token.start.offset = offset} start

section

variable {text : String} {definitions : List Definition} {definition : Definition} {scan : Scan}

theorem exists_eq_ok_of_map {ε α β : Type} {f : α → β} {result : Except ε α} {b : β}
    (h : result.map f = .ok b) : ∃ a, result = .ok a ∧ f a = b := by
  cases result with
  | error error => cases h
  | ok a => exact ⟨a, rfl, Except.ok.inj h⟩

/-- The scan of a text with definitions comes from boundary to boundary, and has some of the definitions
behind it and answers the others. -/
theorem boundary_of_reached (found : discover text = .ok definitions)
    (reached : scan.ReachedIn text) :
    StatementBoundary text definitions scan.bound ∧
      ∃ earlier later, definitions = earlier ++ later ∧ scan.answer = .ok later := by
  induction reached with
  | refl => exact ⟨.start, [], definitions, rfl, found⟩
  | @tail middle next reached step ih =>
      obtain ⟨boundary, earlier, later, whole, answer⟩ := ih
      obtain ⟨same, hbound⟩ | ⟨definition, same, hbound⟩ := step.answer_cases
      · refine ⟨?_, earlier, later, whole, same ▸ answer⟩
        obtain still | ⟨token, bounds, behind⟩ := hbound
        · rwa [still]
        · rw [behind]
          exact .mark reached bounds
      · obtain ⟨others, hnext, rfl⟩ := exists_eq_ok_of_map (same.symm.trans answer)
        refine ⟨?_, earlier ++ [definition], others, by simp [whole], hnext⟩
        rw [hbound]
        exact .body (by simp [whole])

/-- The scan comes to the parameter list of each definition that it is to answer. -/
theorem exists_hasParametersAt {enclosing seen rest : List Token}
    {result : Except LocateError (List Definition)} (scans : Scans enclosing seen rest result)
    {passed : List Token} (reached : Scan.ReachedIn ⟨passed, enclosing, seen, rest⟩ text)
    {remaining : List Definition} (answers : result = .ok remaining) :
    ∀ definition ∈ remaining, ∃ offset, definition.HasParametersAt text offset := by
  induction scans generalizing passed remaining with
  | finish =>
      obtain rfl := Except.ok.inj answers
      simp
  | boundary mark _ ih => exact ih (reached.tail (.stop mark)) answers
  | leave mark _ ih => exact ih (reached.tail (.leave mark)) answers
  | enter mark opens _ ih => exact ih (reached.tail (.enter mark opens)) answers
  | braces mark opens group _ ih => exact ih (reached.tail (.braces mark opens group)) answers
  | parens mark group none _ ih => exact ih (reached.tail (.parens mark group none)) answers
  | pass plain _ ih => exact ih (reached.tail (.pass plain)) answers
  | @define _ seen _ _ _ behind token first result mark group defines _ ih =>
      obtain ⟨parts, -, same⟩ := reads_of_definitionAt (Token.isMark_iff.2 mark) defines
      rw [List.append_assoc, List.cons_append, ← (eq_append_of_takeGroup? group).1] at same
      obtain ⟨others, answered, rfl⟩ := exists_eq_ok_of_map answers
      intro definition member
      obtain rfl | later := List.mem_cons.1 member
      · exact ⟨_, .intro reached mark group defines⟩
      · exact ih (reached.tail (.define mark group defines same)) answered definition later
  | unclosed | unopened | endlessBraces | endlessParens | endlessBody => cases answers

/-- A mark that ends a statement in front of a parenthesis that the scan comes to lies in front of the last
boundary there. -/
theorem stop_le_bound_of_mark {opening token : Token} {rest : List Token} {other : Scan}
    (reached : scan.ReachedIn text) (head : scan.rest = opening :: rest)
    (paren : opening.kind = .mark '(') (reached' : other.ReachedIn text) (bounds : other.Bounds token)
    (before : token.stop.offset ≤ opening.start.offset) : token.stop.offset ≤ scan.bound := by
  obtain ⟨noParen, rest', head'⟩ := bounds.head
  rcases reached.chain reached' with steps | steps
  · have member : token ∈ opening :: rest := by
      rw [← head]
      apply (Scan.rest_suffix_of_steps steps).subset
      simp [head']
    obtain rfl | later := List.mem_cons.1 member
    · exact absurd paren noParen
    · have behind := reached.start_lt_stop head later
      omega
  · rcases steps.cases_head with rfl | ⟨next, step, steps⟩
    · obtain ⟨rfl, -⟩ := List.cons.inj (head.symm.trans head')
      exact absurd paren noParen
    · apply reached.stop_le_bound
      exact (Scan.passed_prefix_of_steps steps).subset (step.mem_passed bounds)

/-- Of two definitions of a text that differ one precedes the other. -/
theorem InOrder.eq_or_precedes (ordered : InOrder definitions) {first second : Definition}
    (hfirst : first ∈ definitions) (hsecond : second ∈ definitions) :
    first = second ∨ first.Precedes second ∨ second.Precedes first := by
  let related (first second : Definition) : Prop :=
    first = second ∨ first.Precedes second ∨ second.Precedes first
  have symm : Std.Symm related := ⟨fun first second => by
    rintro (same | before | after)
    · exact .inl same.symm
    · exact .inr (.inr before)
    · exact .inr (.inl after)⟩
  have pairwise : definitions.Pairwise related := ordered.ordered.imp fun before => .inr (.inl before)
  exact pairwise.forall_of_forall (fun _ _ => .inl rfl) hfirst hsecond

section Parameters

variable {passed enclosing seen rest inside after remaining : List Token} {opening : Token}

/-- A definition that the scan finds at the end of a parameter list is one of the text. -/
theorem mem_of_definitionAt (found : discover text = .ok definitions)
    (reached : Scan.ReachedIn ⟨passed, enclosing, seen, opening :: rest⟩ text)
    (mark : opening.kind = .mark '(') (group : takeGroup? '(' ')' 0 rest = some (inside, after))
    (defines : definitionAt seen after = .ok (some (definition, remaining))) :
    definition ∈ definitions := by
  obtain ⟨-, earlier, later, whole, answer⟩ := boundary_of_reached found reached
  have scans := Scans.define mark group defines (scans_definitionsFrom enclosing [] remaining)
  obtain ⟨others, -, same⟩ := exists_eq_ok_of_map (scans.definitionsFrom_eq.symm.trans answer)
  simp [whole, ← same]

/-- A definition that ends in front of the parameter list of another one lies in front of the last
boundary there. -/
theorem stop_le_bound_of_body (found : discover text = .ok definitions)
    (reached : Scan.ReachedIn ⟨passed, enclosing, seen, opening :: rest⟩ text)
    (mark : opening.kind = .mark '(') (group : takeGroup? '(' ')' 0 rest = some (inside, after))
    (defines : definitionAt seen after = .ok (some (definition, remaining))) {other : Definition}
    (member : other ∈ definitions) (before : other.stop ≤ opening.start.offset) :
    other.stop ≤ Scan.bound ⟨passed, enclosing, seen, opening :: rest⟩ := by
  have inText := mem_of_definitionAt found reached mark group defines
  obtain ⟨⟨first, hfirst, hstart⟩, last, hlast, hstop⟩ := ends_of_definitionAt defines
  have ends := reached.start_lt_stop rfl ((suffix_of_takeGroup? group).subset hlast)
  obtain rfl | precedes | precedes := (inOrder_of_discover found).eq_or_precedes member inText
  · omega
  · obtain ⟨front, parts, behind, whole, reads⟩ := (definedIn_of_discover found).exists_parts member
    obtain ⟨final, hfinal, -, hother⟩ := reads.getLast?_tokens
    have finalInText : final ∈ tokens text.toList := by
      rw [whole]
      simp [List.mem_of_getLast? hfinal]
    have finalInScan := finalInText
    rw [← reached.all_eq, Scan.all, List.append_assoc, List.mem_append] at finalInScan
    rw [hother]
    obtain early | late := finalInScan
    · exact reached.stop_le_bound early
    · have apart := precedes.apart
      have firstBefore := reached.first_le_start hfirst late
      have forwards := start_lt_stop_of_mem_tokens finalInText
      omega
  · have forwards := (inOrder_of_discover found).forwards other member
    have apart := precedes.apart
    omega

/-- Where a definition starts and its parameter list opens, the last boundary in front of the list lies
in front of the definition, and no token stands between the two. -/
theorem startsBehind_of_reached (found : discover text = .ok definitions)
    (reached : Scan.ReachedIn ⟨passed, enclosing, seen, opening :: rest⟩ text)
    (mark : opening.kind = .mark '(') (group : takeGroup? '(' ')' 0 rest = some (inside, after))
    (defines : definitionAt seen after = .ok (some (definition, remaining))) :
    StartsBehind text (StatementBoundary text definitions) opening.start.offset definition.start := by
  obtain ⟨⟨first, hfirst, hstart⟩, -⟩ := ends_of_definitionAt defines
  have inStatement : first ∈ seen.reverse ++ opening :: rest :=
    List.mem_append_left _ (List.mem_of_head? hfirst)
  refine ⟨_, ⟨⟨(boundary_of_reached found reached).1, ?_⟩, ?_⟩, ⟨?_, first, ?_, hstart.symm⟩, ?_⟩
  · exact reached.bound_le_start (List.mem_append_right _ List.mem_cons_self)
  · rintro offset ⟨boundary, before⟩
    cases boundary with
    | start => exact Nat.zero_le _
    | mark reached' bounds => exact stop_le_bound_of_mark reached rfl mark reached' bounds before
    | body member => exact stop_le_bound_of_body found reached mark group defines member before
  · rw [hstart]
    exact reached.bound_le_start inStatement
  · apply reached.mem_tokens
    rw [Scan.all, List.append_assoc]
    exact List.mem_append_right _ inStatement
  · rintro offset ⟨behind, token, member, rfl⟩
    rw [hstart]
    apply reached.first_le_start hfirst
    have inScan := member
    rw [← reached.all_eq, Scan.all, List.append_assoc, List.mem_append] at inScan
    refine inScan.resolve_left fun early => ?_
    have stops := reached.stop_le_bound early
    have forwards := start_lt_stop_of_mem_tokens member
    omega

end Parameters

/-- With the ends of directives among the boundaries the start is the same exactly when no directive ends
between it and the offset in front of which the boundaries are taken. -/
theorem StartsBehind.or_iff {boundary other : Nat → Prop} {before start : Nat}
    (starts : StartsBehind text boundary before start) :
    StartsBehind text (fun offset => boundary offset ∨ other offset) before start ↔
      ∀ offset, other offset → offset ≤ before → offset ≤ start := by
  obtain ⟨last, greatest, least⟩ := starts
  constructor
  · rintro ⟨last', greatest', least'⟩ offset holds inFront
    exact Nat.le_trans (greatest'.2 ⟨.inr holds, inFront⟩) least'.1.1
  · intro early
    let all := {offset | (boundary offset ∨ other offset) ∧ offset ≤ before}
    have bounded : BddAbove all := ⟨before, fun _ mem => mem.2⟩
    have some : all.Nonempty := ⟨last, .inl greatest.1.1, greatest.1.2⟩
    have greatest' : IsGreatest all (sSup all) :=
      ⟨Nat.sSup_mem some bounded, fun _ mem => le_csSup bounded mem⟩
    have later : last ≤ sSup all := greatest'.2 ⟨.inl greatest.1.1, greatest.1.2⟩
    have inFront : sSup all ≤ start := by
      obtain ⟨holds | holds, le⟩ := greatest'.1
      · exact Nat.le_trans (greatest.2 ⟨holds, le⟩) least.1.1
      · exact early _ holds le
    refine ⟨sSup all, greatest', ⟨inFront, least.1.2⟩, ?_⟩
    rintro offset ⟨behind, token⟩
    exact least.2 ⟨Nat.le_trans later behind, token⟩

end

/-- Every definition of a text has a parameter list. It starts with the first token behind the last boundary
in front of that list: the start of the text, a semicolon, a brace that opens or closes a namespace or
a linkage block, or the body of a definition. The end of a directive may be counted among the
boundaries exactly when no directive ends between the start of the definition and its list. -/
theorem start_of_discover {text : String} {definitions : List Definition}
    (found : discover text = .ok definitions) :
    ∀ definition ∈ definitions,
      (∃ parameters, definition.HasParametersAt text parameters) ∧
      ∀ parameters, definition.HasParametersAt text parameters →
        StartsBehind text (StatementBoundary text definitions) parameters definition.start ∧
        (StartsBehind text
            (fun offset => StatementBoundary text definitions offset ∨ IsDirectiveEnd text offset)
            parameters definition.start ↔
          ¬∃ offset, IsDirectiveEnd text offset ∧ definition.start < offset ∧ offset ≤ parameters) := by
  intro definition member
  have scans := scans_definitionsFrom [] [] (tokens text.toList)
  refine ⟨exists_hasParametersAt scans .refl found definition member, fun parameters opens => ?_⟩
  obtain ⟨reached, mark, group, defines⟩ := opens
  have starts := startsBehind_of_reached found reached mark group defines
  refine ⟨starts, starts.or_iff.trans ?_⟩
  simp only [not_exists, not_and]
  constructor
  · intro early offset ends later inFront
    exact absurd (early offset ends inFront) (Nat.not_le.2 later)
  · intro none offset ends inFront
    by_contra later
    exact none offset ends (Nat.not_le.1 later) inFront

/-- A function behind a declaration and a directive, inside of a namespace. -/
theorem start_of_discover_in_namespace :
    let text := "namespace n \x7b\nint x;\n#define A\nstatic int f(void) \x7b\x7d\n\x7d\n"
    let function : Definition := ⟨"f", 31, 52, 4⟩
    discover text = .ok [function] ∧ ∃ parameters, function.HasParametersAt text parameters ∧
      StartsBehind text (StatementBoundary text [function]) parameters 31 := by
  intro text function
  have found : discover text = .ok [function] := by decide +kernel
  obtain ⟨⟨parameters, opens⟩, starts⟩ := start_of_discover found function List.mem_cons_self
  exact ⟨found, parameters, opens, (starts parameters opens).1⟩

def guardedText : String := "#if A\nDECLARE(a)\n#endif\nint f() {}\n"

def guardedHead : List Token :=
  [⟨.word, "DECLARE".toList, ⟨6, 2, 1⟩, ⟨13, 2, 8⟩⟩, ⟨.mark '(', ['('], ⟨13, 2, 8⟩, ⟨14, 2, 9⟩⟩,
    ⟨.word, ['a'], ⟨14, 2, 9⟩, ⟨15, 2, 10⟩⟩, ⟨.mark ')', [')'], ⟨15, 2, 10⟩, ⟨16, 2, 11⟩⟩,
    ⟨.word, "int".toList, ⟨24, 4, 1⟩, ⟨27, 4, 4⟩⟩, ⟨.word, ['f'], ⟨28, 4, 5⟩, ⟨29, 4, 6⟩⟩]

def guardedRest : List Token :=
  [⟨.mark '(', ['('], ⟨29, 4, 6⟩, ⟨30, 4, 7⟩⟩, ⟨.mark ')', [')'], ⟨30, 4, 7⟩, ⟨31, 4, 8⟩⟩,
    ⟨.mark '{', ['{'], ⟨32, 4, 9⟩, ⟨33, 4, 10⟩⟩, ⟨.mark '}', ['}'], ⟨33, 4, 10⟩, ⟨34, 4, 11⟩⟩]

/-- The function takes the directive between the macro call and it along: it starts with the call. -/
theorem not_always_behind_directives :
    ¬∀ (text : String) (definitions : List Definition), discover text = .ok definitions →
      ∀ definition ∈ definitions, ∀ parameters, definition.HasParametersAt text parameters →
        StartsBehind text
          (fun offset => StatementBoundary text definitions offset ∨ IsDirectiveEnd text offset)
          parameters definition.start := by
  intro claimed
  have found : discover guardedText = .ok [⟨"f", 6, 34, 2⟩] := by decide +kernel
  have all : tokens guardedText.toList = guardedHead ++ guardedRest := by decide +kernel
  have passes {token : Token} (word : token.kind = .word) :
      ∀ c ∈ [';', '}', '{', '('], token.kind ≠ .mark c := by
    rintro c - mark
    rw [word] at mark
    cases mark
  have reached : Scan.ReachedIn ⟨[], [], guardedHead.reverse, guardedRest⟩ guardedText := by
    rw [Scan.ReachedIn, all]
    refine .tail (.tail (.tail (.tail .refl (.pass ?_)) (.parens rfl rfl ?_)) (.pass ?_)) (.pass ?_)
    · exact passes rfl
    · decide +kernel
    · exact passes rfl
    · exact passes rfl
  have defines : definitionAt guardedHead.reverse (guardedRest.drop 2) =
      .ok (some (⟨"f", 6, 34, 2⟩, [])) := by decide +kernel
  have opens : Definition.HasParametersAt guardedText ⟨"f", 6, 34, 2⟩ 29 :=
    .intro reached rfl rfl defines
  obtain ⟨last, greatest, least⟩ := claimed guardedText _ found _ List.mem_cons_self 29 opens
  have directive : IsDirectiveEnd guardedText 23 :=
    ⟨(pieces guardedText.toList).take 7, ⟨.directive, "#endif".toList⟩,
      (pieces guardedText.toList).drop 8, by decide +kernel⟩
  have behind := greatest.2 ⟨.inr directive, by decide⟩
  have inFront : last ≤ 6 := least.1.1
  omega

end Graft.Code

import Graft.Code.Delimiters
import Graft.Proofs.Code.Group
import Graft.Proofs.Code.Scan

/-!
Well-nested texts. A word of delimiters is well-nested exactly when a stack of the open ones closes
them all (`wellNested_iff_closes`). When the delimiters among the tokens of a text are well-nested,
every group ends, whatever stands between its delimiters, so the scan for definitions comes to its
end (`discover_of_wellNested`).
-/

namespace Graft.Code

/-! Words of delimiters -/

/-- A word in which every opening delimiter is closed by one of its own kind, with well-nested words
inside and behind. -/
inductive WellNested : List Char → Prop
  | empty : WellNested []
  | group (kind : Delimiter) {inside behind : List Char} (inner : WellNested inside)
      (later : WellNested behind) : WellNested (kind.opening :: inside ++ kind.closing :: behind)

/-- Whether a word closes the delimiters that are open, innermost first, and all that it opens. -/
def closes : List Delimiter → List Char → Bool
  | opened, [] => opened.isEmpty
  | opened, c :: rest =>
      match Delimiter.ofOpening? c, Delimiter.ofClosing? c, opened with
      | some kind, _, opened => closes (kind :: opened) rest
      | none, some kind, top :: outer => top == kind && closes outer rest
      | _, _, _ => false

variable {opened : List Delimiter} {word rest : List Char}

theorem closes_opening (kind : Delimiter) :
    closes opened (kind.opening :: rest) = closes (kind :: opened) rest := by
  simp [closes]

theorem closes_closing (kind : Delimiter) :
    closes (kind :: opened) (kind.closing :: rest) = closes opened rest := by
  simp [closes]

/-- A word that closes what is open starts with an opening delimiter or closes the innermost one. -/
theorem closes_cons {c : Char} (h : closes opened (c :: rest)) :
    (∃ kind, c = kind.opening ∧ closes (kind :: opened) rest) ∨
      ∃ kind outer, c = kind.closing ∧ opened = kind :: outer ∧ closes outer rest := by
  unfold closes at h
  split at h
  · next kind hopen => exact .inl ⟨kind, Delimiter.eq_of_ofOpening? hopen, h⟩
  · next kind top outer _ hclose =>
      simp only [Bool.and_eq_true, beq_iff_eq] at h
      exact .inr ⟨kind, outer, Delimiter.eq_of_ofClosing? hclose, by rw [h.1], h.2⟩
  · cases h

/-- A well-nested word in front changes nothing of what is open. -/
theorem closes_append (nested : WellNested word) (opened : List Delimiter) (rest : List Char) :
    closes opened (word ++ rest) = closes opened rest := by
  induction nested generalizing opened rest with
  | empty => rfl
  | group kind _ _ inner later =>
      rw [List.cons_append, List.cons_append, List.append_assoc, closes_opening, inner,
        List.cons_append, closes_closing, later]

/-- A word that consists of a well-nested one for each open delimiter, with the delimiter's closing
behind it, and a well-nested one at the end. -/
def Unwinds : List Delimiter → List Char → Prop
  | [], word => WellNested word
  | kind :: opened, word =>
      ∃ inside behind, word = inside ++ kind.closing :: behind ∧ WellNested inside ∧
        Unwinds opened behind

theorem Unwinds.group {kind : Delimiter} (unwinds : Unwinds (kind :: opened) rest) :
    Unwinds opened (kind.opening :: rest) := by
  obtain ⟨inside, behind, rfl, inner, later⟩ := unwinds
  cases opened with
  | nil => exact .group kind inner later
  | cons outer opened =>
      obtain ⟨next, tail, rfl, following, last⟩ := later
      exact ⟨kind.opening :: inside ++ kind.closing :: next, tail, by simp,
        .group kind inner following, last⟩

theorem unwinds_of_closes (h : closes opened word) : Unwinds opened word := by
  induction word generalizing opened with
  | nil =>
      obtain rfl := List.isEmpty_iff.1 h
      exact .empty
  | cons c rest ih =>
      obtain ⟨kind, rfl, inner⟩ | ⟨kind, outer, rfl, rfl, later⟩ := closes_cons h
      · exact (ih inner).group
      · exact ⟨[], rest, rfl, .empty, ih later⟩

/-- A word is well-nested exactly when a stack of the open delimiters closes them all. -/
theorem wellNested_iff_closes : WellNested word ↔ closes [] word := by
  constructor
  · intro nested
    rw [← List.append_nil word, closes_append nested]
    rfl
  · exact unwinds_of_closes

instance : DecidablePred WellNested := fun _ => decidable_of_iff _ wellNested_iff_closes.symm

/-! Delimiters among tokens -/

def Kind.delimiter? : Kind → Option Char
  | .mark c => if (Delimiter.ofOpening? c).isSome || (Delimiter.ofClosing? c).isSome then some c else none
  | _ => none

def delimitersOf (tokens : List Token) : List Char := tokens.filterMap (·.kind.delimiter?)

theorem Kind.eq_of_delimiter? {kind : Kind} {c : Char} (h : kind.delimiter? = some c) :
    kind = .mark c := by
  unfold Kind.delimiter? at h
  split at h
  · obtain ⟨-, same⟩ := Option.ite_none_right_eq_some.1 h
    exact congrArg _ (Option.some.inj same)
  · cases h

theorem Kind.delimiter?_of_known {c : Char} {kind : Delimiter}
    (known : c = kind.opening ∨ c = kind.closing) : (Kind.mark c).delimiter? = some c := by
  unfold Kind.delimiter?
  obtain rfl | rfl := known <;> simp

theorem delimitersOf_cons_none {token : Token} (tokens : List Token)
    (plain : token.kind.delimiter? = none) : delimitersOf (token :: tokens) = delimitersOf tokens := by
  simp [delimitersOf, plain]

theorem delimitersOf_cons_some {token : Token} (tokens : List Token) {c : Char}
    (known : token.kind.delimiter? = some c) :
    delimitersOf (token :: tokens) = c :: delimitersOf tokens := by
  simp [delimitersOf, known]

/-- A token in front of tokens that close what is open opens a group, closes the innermost one, or is no
delimiter. -/
theorem closes_delimitersOf_cons {token : Token} {tokens : List Token}
    (h : closes opened (delimitersOf (token :: tokens))) :
    (∃ kind : Delimiter, token.kind = .mark kind.opening ∧
        closes (kind :: opened) (delimitersOf tokens)) ∨
      (∃ (kind : Delimiter) (outer : List Delimiter), token.kind = .mark kind.closing ∧
        opened = kind :: outer ∧ closes outer (delimitersOf tokens)) ∨
      (token.kind.delimiter? = none ∧ closes opened (delimitersOf tokens)) := by
  cases hdelimiter : token.kind.delimiter? with
  | none =>
      rw [delimitersOf_cons_none tokens hdelimiter] at h
      exact .inr (.inr ⟨rfl, h⟩)
  | some c =>
      rw [delimitersOf_cons_some tokens hdelimiter] at h
      have mark := Kind.eq_of_delimiter? hdelimiter
      obtain ⟨kind, rfl, inner⟩ | ⟨kind, outer, rfl, rfl, later⟩ := closes_cons h
      · exact .inl ⟨kind, mark, inner⟩
      · exact .inr (.inl ⟨kind, outer, mark, rfl, later⟩)

theorem exists_closes_of_append {front tokens : List Token}
    (h : closes opened (delimitersOf (front ++ tokens))) :
    ∃ opened, closes opened (delimitersOf tokens) := by
  induction front generalizing opened with
  | nil => exact ⟨opened, h⟩
  | cons token front ih =>
      obtain ⟨_, -, inner⟩ | ⟨_, _, -, -, later⟩ | ⟨-, later⟩ := closes_delimitersOf_cons h
      · exact ih inner
      · exact ih later
      · exact ih later

/-! The search for the end of a group, by what the next token is to the stack of open delimiters -/

section Search

variable {kind other : Delimiter} {within : List Delimiter} {token : Token}
  {tokens inside after : List Token}

theorem takeGroup?_of_opening (mark : token.kind = .mark other.opening)
    (found : takeGroup? kind.opening kind.closing ((other :: within).count kind) tokens =
      some (inside, after)) :
    takeGroup? kind.opening kind.closing (within.count kind) (token :: tokens) =
      some (token :: inside, after) := by
  by_cases same : other = kind
  · subst same
    rw [List.count_cons_self] at found
    simp [takeGroup?, Token.isMark, mark, found]
  · rw [List.count_cons_of_ne same] at found
    simp [takeGroup?, Token.isMark, mark, same, found]

theorem takeGroup?_of_inner (mark : token.kind = .mark other.closing)
    (found : takeGroup? kind.opening kind.closing (within.count kind) tokens = some (inside, after)) :
    takeGroup? kind.opening kind.closing ((other :: within).count kind) (token :: tokens) =
      some (token :: inside, after) := by
  by_cases same : other = kind
  · subst same
    rw [List.count_cons_self]
    simp [takeGroup?, Token.isMark, mark, (Delimiter.opening_ne_closing _ _).symm, found]
  · rw [List.count_cons_of_ne same]
    simp [takeGroup?, Token.isMark, mark, (Delimiter.opening_ne_closing _ _).symm, same, found]

theorem takeGroup?_of_closing (mark : token.kind = .mark kind.closing) :
    takeGroup? kind.opening kind.closing 0 (token :: tokens) = some ([token], tokens) := by
  simp [takeGroup?, Token.isMark, mark, (Delimiter.opening_ne_closing _ _).symm]

theorem takeGroup?_of_plain {more : Nat} (plain : token.kind.delimiter? = none)
    (found : takeGroup? kind.opening kind.closing more tokens = some (inside, after)) :
    takeGroup? kind.opening kind.closing more (token :: tokens) = some (token :: inside, after) := by
  have other {c : Char} (known : c = kind.opening ∨ c = kind.closing) : ¬ token.isMark c := by
    intro mark
    rw [Token.isMark_iff.1 mark, Kind.delimiter?_of_known known] at plain
    cases plain
  simp [takeGroup?, other (.inl rfl), other (.inr rfl), found]

end Search

/-- A group that is open ends in well-nested tokens, whatever is open inside it: the groups of its own
kind are those that the search counts. -/
theorem exists_takeGroup?_of_closes {kind : Delimiter} {within : List Delimiter} {tokens : List Token}
    (h : closes (within ++ kind :: opened) (delimitersOf tokens)) :
    ∃ inside after, takeGroup? kind.opening kind.closing (within.count kind) tokens =
      some (inside, after) ∧ closes opened (delimitersOf after) := by
  induction tokens generalizing within with
  | nil => simp [delimitersOf, closes] at h
  | cons token rest ih =>
      obtain ⟨other, mark, inner⟩ | ⟨other, outer, mark, same, later⟩ | ⟨plain, later⟩ :=
        closes_delimitersOf_cons h
      · obtain ⟨inside, after, found, closed⟩ := @ih (other :: within) inner
        exact ⟨token :: inside, after, takeGroup?_of_opening mark found, closed⟩
      · cases within with
        | nil =>
            obtain ⟨rfl, rfl⟩ := List.cons.inj same
            exact ⟨[token], rest, takeGroup?_of_closing mark, later⟩
        | cons top within =>
            obtain ⟨rfl, rfl⟩ := List.cons.inj same
            obtain ⟨inside, after, found, closed⟩ := ih later
            exact ⟨token :: inside, after, takeGroup?_of_inner mark found, closed⟩
      · obtain ⟨inside, after, found, closed⟩ := ih later
        exact ⟨token :: inside, after, takeGroup?_of_plain plain found, closed⟩

section Step

variable {token : Token} {tokens inside after : List Token}

theorem closes_of_plain (plain : token.kind.delimiter? = none)
    (h : closes opened (delimitersOf (token :: tokens))) : closes opened (delimitersOf tokens) := by
  rwa [delimitersOf_cons_none tokens plain] at h

theorem closes_of_opening (kind : Delimiter) (mark : token.kind = .mark kind.opening)
    (h : closes opened (delimitersOf (token :: tokens))) :
    closes (kind :: opened) (delimitersOf tokens) := by
  have known : token.kind.delimiter? = some kind.opening :=
    mark ▸ Kind.delimiter?_of_known (.inl rfl)
  rwa [delimitersOf_cons_some tokens known, closes_opening] at h

theorem closes_of_closing (kind : Delimiter) (mark : token.kind = .mark kind.closing)
    (h : closes opened (delimitersOf (token :: tokens))) :
    ∃ outer, opened = kind :: outer ∧ closes outer (delimitersOf tokens) := by
  have known : token.kind.delimiter? = some kind.closing :=
    mark ▸ Kind.delimiter?_of_known (.inr rfl)
  rw [delimitersOf_cons_some tokens known] at h
  obtain ⟨other, same, -⟩ | ⟨other, outer, same, rfl, later⟩ := closes_cons h
  · exact absurd same.symm (Delimiter.opening_ne_closing other kind)
  · obtain rfl := Delimiter.closing_inj.1 same
    exact ⟨outer, rfl, later⟩

/-- A group that an opening mark opens in front of well-nested tokens ends in them. -/
theorem exists_takeGroup? (kind : Delimiter) (mark : token.kind = .mark kind.opening)
    (h : closes opened (delimitersOf (token :: tokens))) :
    ∃ inside after, takeGroup? kind.opening kind.closing 0 tokens = some (inside, after) ∧
      closes opened (delimitersOf after) :=
  @exists_takeGroup?_of_closes opened kind [] tokens (closes_of_opening kind mark h)

theorem takeGroup?_ne_none (kind : Delimiter) (mark : token.kind = .mark kind.opening)
    (h : closes opened (delimitersOf (token :: tokens))) :
    takeGroup? kind.opening kind.closing 0 tokens ≠ none := by
  obtain ⟨inside, after, found, -⟩ := exists_takeGroup? kind mark h
  simp [found]

theorem closes_of_takeGroup? (kind : Delimiter) (mark : token.kind = .mark kind.opening)
    (h : closes opened (delimitersOf (token :: tokens)))
    (group : takeGroup? kind.opening kind.closing 0 tokens = some (inside, after)) :
    closes opened (delimitersOf after) := by
  obtain ⟨_, _, found, closed⟩ := exists_takeGroup? kind mark h
  obtain ⟨rfl, rfl⟩ := Prod.mk.inj (Option.some.inj (found.symm.trans group))
  exact closed

end Step

/-- Behind a parameter list in well-nested tokens the search for a body comes to its end, and the rest of
the tokens closes the body that it finds. -/
theorem exists_findBody_of_closes {inits : Bool} {previous : Option Token} {tokens : List Token}
    (h : closes opened (delimitersOf tokens)) :
    ∃ found, findBody inits previous tokens = .ok found ∧
      ∀ brace body, found = some (brace, body) →
        brace.kind = .mark '{' ∧ closes opened (delimitersOf (brace :: body)) := by
  fun_induction findBody inits previous tokens with
  | case1 | case5 | case11 | case16 | case18 | case20 => exact ⟨none, rfl, by simp⟩
  | case2 _ _ _ _ kind ih | case3 _ _ _ _ kind ih | case4 _ _ _ kind ih
  | case15 _ _ _ kind _ _ _ ih | case17 _ _ _ kind ih =>
      exact ih (closes_of_plain (by rw [kind]; rfl) h)
  | case6 _ _ _ _ kind _ none => exact absurd none (takeGroup?_ne_none .brace kind h)
  | case7 _ _ _ _ kind _ _ _ group _ ih => exact ih (closes_of_takeGroup? .brace kind h group)
  | case8 _ _ brace body kind =>
      refine ⟨some (brace, body), rfl, fun _ _ same => ?_⟩
      obtain ⟨rfl, rfl⟩ := Prod.mk.inj (Option.some.inj same)
      exact ⟨kind, h⟩
  | case9 _ _ _ _ kind _ none => exact absurd none (takeGroup?_ne_none .paren kind h)
  | case10 _ _ _ _ kind _ _ _ group _ ih => exact ih (closes_of_takeGroup? .paren kind h group)
  | case12 _ _ _ _ kind none => exact absurd none (takeGroup?_ne_none .bracket kind h)
  | case13 _ _ _ _ kind _ _ group _ ih => exact ih (closes_of_takeGroup? .bracket kind h group)
  | case14 _ _ _ kind next _ double ih =>
      have colon : next.kind = .mark ':' := Token.isMark_iff.1 (Bool.and_eq_true_iff.1 double).1
      exact ih (closes_of_plain (by rw [colon]; rfl) (closes_of_plain (by rw [kind]; rfl) h))
  | case19 _ _ _ _ c _ _ _ _ _ kind known ih =>
      have plain : ['&', '*', '-', '>', '<', '.', '~'].all fun c => (Kind.mark c).delimiter?.isNone := by
        decide
      have noDelimiter := Option.isNone_iff_eq_none.1 (List.all_eq_true.1 plain c known)
      exact ih (closes_of_plain (kind ▸ noDelimiter) h)

/-- In well-nested tokens the definition at the end of a parameter list, if there is one, ends before what
was open does. -/
theorem exists_definitionAt_of_closes {seen after : List Token}
    (h : closes opened (delimitersOf after)) :
    ∃ found, definitionAt seen after = .ok found ∧
      ∀ definition rest, found = some (definition, rest) → closes opened (delimitersOf rest) := by
  obtain ⟨body?, hbody, behind⟩ := @exists_findBody_of_closes opened false none after h
  fun_cases definitionAt seen after with
  | case1 | case3 | case6 => exact ⟨none, rfl, by simp⟩
  | case2 _ _ _ _ fails => cases hbody.symm.trans fails
  | case4 _ _ _ brace body found group =>
      obtain rfl := Except.ok.inj (hbody.symm.trans found)
      obtain ⟨mark, closed⟩ := behind brace body rfl
      exact absurd group (takeGroup?_ne_none .brace mark closed)
  | case5 _ _ _ brace body found inside rest group =>
      obtain rfl := Except.ok.inj (hbody.symm.trans found)
      obtain ⟨mark, closed⟩ := behind brace body rfl
      refine ⟨_, rfl, fun definition remaining same => ?_⟩
      obtain ⟨-, rfl⟩ := Prod.mk.inj (Option.some.inj same)
      exact closes_of_takeGroup? .brace mark closed group

/-- The scan of well-nested tokens comes to its end when the braces that are open are those of the
namespaces around: every other group it passes as a whole, but for brackets, whose inside it walks
through. -/
theorem exists_definitions_of_scans {enclosing seen tokens : List Token}
    {result : Except LocateError (List Definition)} (scans : Scans enclosing seen tokens result)
    (h : closes opened (delimitersOf tokens)) (same : opened.count .brace = enclosing.length) :
    ∃ definitions, result = .ok definitions := by
  induction scans generalizing opened with
  | finish => exact ⟨[], rfl⟩
  | unclosed =>
      obtain rfl := List.isEmpty_iff.1 h
      cases same
  | boundary mark _ ih => exact ih (closes_of_plain (by rw [mark]; rfl) h) same
  | unopened mark =>
      obtain ⟨outer, rfl, -⟩ := closes_of_closing .brace mark h
      simp at same
  | leave mark _ ih =>
      obtain ⟨outer, rfl, later⟩ := closes_of_closing .brace mark h
      exact ih later (by simpa using same)
  | enter mark _ _ ih =>
      have inner := closes_of_opening .brace mark h
      exact ih inner (by simpa using same)
  | endlessBraces mark _ group => exact absurd group (takeGroup?_ne_none .brace mark h)
  | braces mark _ group _ ih => exact ih (closes_of_takeGroup? .brace mark h group) same
  | endlessParens mark group => exact absurd group (takeGroup?_ne_none .paren mark h)
  | parens mark group _ _ ih => exact ih (closes_of_takeGroup? .paren mark h group) same
  | @endlessBody _ seen _ _ after _ _ mark group fails =>
      have behind := closes_of_takeGroup? .paren mark h group
      obtain ⟨found, ends, -⟩ := @exists_definitionAt_of_closes opened seen after behind
      cases ends.symm.trans fails
  | @define _ seen _ _ after remaining _ definition _ mark group defines _ ih =>
      have behind := closes_of_takeGroup? .paren mark h group
      obtain ⟨found, ends, later⟩ := @exists_definitionAt_of_closes opened seen after behind
      obtain rfl := Except.ok.inj (ends.symm.trans defines)
      obtain ⟨definitions, rfl⟩ := ih (later definition remaining rfl) same
      exact ⟨definition :: definitions, rfl⟩
  | pass plain _ ih =>
      obtain ⟨kind, mark, inner⟩ | ⟨kind, outer, mark, rfl, later⟩ | ⟨-, later⟩ :=
        closes_delimitersOf_cons h
      · have other : kind ≠ .brace := by
          rintro rfl
          exact plain '{' (by decide) mark
        refine ih inner ?_
        rwa [List.count_cons_of_ne other]
      · have other : kind ≠ .brace := by
          rintro rfl
          exact plain '}' (by decide) mark
        refine ih later ?_
        rwa [List.count_cons_of_ne other] at same
      · exact ih later same

/-- When the parentheses, brackets and braces among the tokens of a text form a well-nested word, its
definitions are found, and every group that opens among the tokens ends: the search for its end
finds it, and until there the count of the open groups of its kind stays positive. -/
theorem discover_of_wellNested {text : String}
    (nested : WellNested (delimitersOf (tokens text.toList))) :
    (∃ definitions, discover text = .ok definitions) ∧
      ∀ (kind : Delimiter) (front rest : List Token) (token : Token),
        tokens text.toList = front ++ token :: rest → token.isMark kind.opening →
        ∃ inside after, takeGroup? kind.opening kind.closing 0 rest = some (inside, after) ∧
          IsGroup kind.opening kind.closing (token :: inside) := by
  have closed := wellNested_iff_closes.1 nested
  refine ⟨?_, fun kind front rest token whole opens => ?_⟩
  · exact exists_definitions_of_scans (scans_definitionsFrom [] [] (tokens text.toList)) closed rfl
  · rw [whole] at closed
    obtain ⟨opened, later⟩ := exists_closes_of_append closed
    obtain ⟨inside, after, group, -⟩ := exists_takeGroup? kind (Token.isMark_iff.1 opens) later
    exact ⟨inside, after, group, isGroup_of_takeGroup? opens group⟩

/-- A constructor with member initializers in braces and in parentheses, inside of a namespace. -/
theorem discover_of_nested_initializers :
    let text := "namespace n { P::P(int a[2]) : x_{a[0]}, y_(1) { f({1}); } }"
    WellNested (delimitersOf (tokens text.toList)) ∧ ∃ definitions, discover text = .ok definitions := by
  intro text
  have nested : WellNested (delimitersOf (tokens text.toList)) := by decide +kernel
  exact ⟨nested, (discover_of_wellNested nested).1⟩

end Graft.Code

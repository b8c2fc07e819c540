import Graft.Proofs.Code.Lookahead
import Graft.Proofs.Code.Placed
import Graft.Proofs.Code.Relocation

/-!
Namespaces around a text. A text whose last line ends outside of comments, literals and directives has
the same definitions behind the line that opens a namespace or linkage block and in front of the brace
that closes it, so many bytes and one line further on (`discover_of_wrapped`). The look-ahead for a body
can run from the end of the text into that brace, but no further, and the brace ends a search just as
the end of the text does (`findBody_append`).
-/

namespace Graft.Code

open Graft.Text

/-! In front of a closing brace -/

/-- What closes a group closes it whatever follows. -/
theorem takeGroup?_append {opening closing : Char} {depth : Nat} {tokens inside after : List Token}
    (group : takeGroup? opening closing depth tokens = some (inside, after)) (tail : List Token) :
    takeGroup? opening closing depth (tokens ++ tail) = some (inside, after ++ tail) := by
  induction tokens generalizing depth inside with
  | nil => cases group
  | cons token rest ih =>
      have onward {depth : Nat}
          (later : (takeGroup? opening closing depth rest).map
            (fun (group : List Token × List Token) => (token :: group.1, group.2)) = some (inside, after)) :
          (takeGroup? opening closing depth (rest ++ tail)).map
            (fun (group : List Token × List Token) => (token :: group.1, group.2)) =
              some (inside, after ++ tail) := by
        obtain ⟨⟨inner, behind⟩, found, same⟩ := Option.map_eq_some_iff.1 later
        obtain ⟨rfl, rfl⟩ := Prod.mk.inj same
        rw [ih found]
        rfl
      rw [takeGroup?.eq_def] at group ⊢
      simp only [List.cons_append] at group ⊢
      split at group
      · next opens =>
          rw [if_pos opens]
          exact onward group
      · next noOpening =>
          rw [if_neg noOpening]
          split at group
          · next closes =>
              rw [if_pos closes]
              cases depth with
              | zero =>
                  obtain ⟨rfl, rfl⟩ := Prod.mk.inj (Option.some.inj group)
                  rfl
              | succ depth => exact onward group
          · next noClosing =>
              rw [if_neg noClosing]
              exact onward group

variable {close : Token}

/-- The search for a body ends at a closing brace as it does at the end of the text. -/
theorem findBody_append (closes : close.kind = .mark '}') {inits : Bool} {previous : Option Token}
    {rest : List Token} {found : Option (Token × List Token)}
    (search : findBody inits previous rest = .ok found) :
    findBody inits previous (rest ++ [close]) =
      .ok (found.map fun body => (body.1, body.2 ++ [close])) := by
  have ended (inits : Bool) (previous : Option Token) : findBody inits previous [close] = .ok none := by
    simp [findBody_cons, closes]
  fun_induction findBody inits previous rest with
  | case1 =>
      cases search
      exact ended _ _
  | case6 | case9 | case12 => cases search
  | case16 =>
      cases search
      rw [List.cons_append, findBody_cons]
      simp_all [Token.isMark]
  | case7 _ _ _ _ _ _ _ _ group _ ih | case10 _ _ _ _ _ _ _ _ group _ ih
  | case13 _ _ _ _ _ _ _ group _ ih =>
      rw [List.cons_append, findBody_cons]
      simp_all [takeGroup?_append group]
  | case5 | case8 | case11 | case18 | case20 =>
      cases search
      rw [List.cons_append, findBody_cons]
      simp_all
  | _ =>
      rw [List.cons_append, findBody_cons]
      simp_all

/-- So the definition at a parameter list is the same in front of a closing brace. -/
theorem definitionAt_append (closes : close.kind = .mark '}') {seen after : List Token}
    {found : Option (Definition × List Token)} (defined : definitionAt seen after = .ok found) :
    definitionAt seen (after ++ [close]) =
      .ok (found.map fun definition => (definition.1, definition.2 ++ [close])) := by
  cases seen with
  | nil =>
      cases defined
      rfl
  | cons last before =>
      rw [definitionAt] at defined ⊢
      split at defined
      · next names =>
          rw [if_pos names]
          rcases body : findBody false none after with error | _ | ⟨brace, inner⟩
          · simp [body] at defined
          · rw [body] at defined
            cases defined
            rw [findBody_append closes body]
            rfl
          · simp only [body] at defined
            simp only [findBody_append closes body, Option.map_some]
            rcases group : takeGroup? '{' '}' 0 inner with _ | ⟨inside, rest⟩
            · simp [group] at defined
            · rw [group] at defined
              cases defined
              rw [takeGroup?_append group]
              rfl
      · next other =>
          rw [if_neg other]
          cases defined
          rfl

/-- What a scan finds it also finds inside of a namespace, whose brace closes behind the tokens. -/
theorem Scans.within (closes : close.kind = .mark '}') (brace : Token) {enclosing seen rest : List Token}
    {result : Except LocateError (List Definition)} (scans : Scans enclosing seen rest result)
    {definitions : List Definition} (found : result = .ok definitions) :
    Scans (enclosing ++ [brace]) seen (rest ++ [close]) (.ok definitions) := by
  induction scans generalizing definitions with
  | finish seen =>
      cases found
      exact .leave closes (.finish [])
  | unclosed | unopened | endlessBraces | endlessParens | endlessBody => cases found
  | boundary mark _ ih => exact .boundary mark (ih found)
  | leave mark _ ih => exact .leave mark (ih found)
  | enter mark opens _ ih => exact .enter mark opens (ih found)
  | braces mark opens group _ ih =>
      exact .braces mark opens (takeGroup?_append group [close]) (ih found)
  | parens mark group none _ ih =>
      exact .parens mark (takeGroup?_append group [close]) (definitionAt_append closes none) (ih found)
  | @define _ _ _ _ _ _ _ definition result mark group defines _ ih =>
      cases result with
      | error => cases found
      | ok later =>
          cases found
          exact .define mark (takeGroup?_append group [close]) (definitionAt_append closes defines)
            (ih rfl)
  | pass plain _ ih => exact .pass plain (ih found)

/-- Words, numbers and literals only add to the statement. -/
theorem Scans.pass_all {enclosing seen head rest : List Token}
    {result : Except LocateError (List Definition)}
    (plain : ∀ token ∈ head, ∀ c ∈ [';', '}', '{', '('], token.kind ≠ .mark c)
    (later : Scans enclosing (head.reverse ++ seen) rest result) :
    Scans enclosing seen (head ++ rest) result := by
  induction head generalizing seen with
  | nil => exact later
  | cons token head ih =>
      rw [List.forall_mem_cons] at plain
      refine .pass plain.1 (ih plain.2 ?_)
      simpa using later

/-! Places -/

/-- The place some bytes and lines further on, in the same column. -/
def shiftPlace (bytes lines : Nat) (place : Place) : Place :=
  { place with offset := place.offset + bytes, line := place.line + lines }

def Token.shift (bytes lines : Nat) (token : Token) : Token :=
  { token with
    start := shiftPlace bytes lines token.start
    stop := shiftPlace bytes lines token.stop }

def shifting (bytes lines : Nat) : Relocation bytes lines where
  move := Token.shift bytes lines
  kind _ := rfl
  text _ _ := rfl
  opening _ _ _ := Iff.rfl
  start _ := rfl
  stop _ := rfl
  line _ := rfl

theorem advance_shiftPlace (bytes lines : Nat) (place : Place) (passed : List Char) :
    (shiftPlace bytes lines place).advance passed =
      shiftPlace bytes lines (place.advance passed) := by
  induction passed generalizing place with
  | nil => rfl
  | cons c rest ih =>
      have step : (shiftPlace bytes lines place).step c = shiftPlace bytes lines (place.step c) := by
        unfold Place.step
        split
        · simp only [shiftPlace, Nat.add_right_comm]
        · simp only [shiftPlace, Nat.add_right_comm]
      rw [Place.advance_cons, Place.advance_cons, step, ih]

theorem tokensFrom_shiftPlace (bytes lines : Nat) (place : Place) (pieces : List Piece) :
    tokensFrom (shiftPlace bytes lines place) pieces =
      (tokensFrom place pieces).map (Token.shift bytes lines) := by
  induction pieces generalizing place with
  | nil => rfl
  | cons piece pieces ih =>
      simp only [tokensFrom, advance_shiftPlace, ih]
      split <;> rfl

theorem kind_tokensFrom (place other : Place) (pieces : List Piece) :
    (tokensFrom place pieces).map Token.kind = (tokensFrom other pieces).map Token.kind := by
  induction pieces generalizing place other with
  | nil => rfl
  | cons piece pieces ih =>
      have later := ih (place.advance piece.text) (other.advance piece.text)
      simp only [tokensFrom]
      split
      · simp only [List.map_cons, later]
      · exact later

/-- Behind a line a text is a line further on. -/
theorem advance_line {front : List Char} (inLine : '\n' ∉ front) :
    Place.origin.advance (front ++ ['\n']) = shiftPlace (byteLength (front ++ ['\n'])) 1 .origin := by
  have offset := Place.offset_advance .origin front
  have line := Place.line_advance .origin front
  rw [List.count_eq_zero.2 inLine] at line
  rw [Place.advance_append, Place.advance_cons, Place.advance_nil, Place.step, if_pos rfl, offset,
    line, byteLength_append]
  simp [shiftPlace, Place.origin, show '\n'.utf8Size = 1 from rfl]

/-! Wrappers -/

structure Word where
  text : List Char
  starts : text.head?.any startsWord = true
  all : ∀ c ∈ text, isWordChar c = true

inductive Wrapper where
  | plain (name : Word)
  | inlined (name : Word)
  | linkage

def Wrapper.line : Wrapper → List Char
  | plain name => "namespace ".toList ++ name.text ++ [' ', '{', '\n']
  | inlined name => "inline namespace ".toList ++ name.text ++ [' ', '{', '\n']
  | linkage => "extern \"C\" ".toList ++ ['{', '\n']

def space : Piece := ⟨.blank, [' ']⟩

def Wrapper.head : Wrapper → List Piece
  | plain name => [⟨.token .word, "namespace".toList⟩, space, ⟨.token .word, name.text⟩, space]
  | inlined name =>
      [⟨.token .word, "inline".toList⟩, space, ⟨.token .word, "namespace".toList⟩, space,
        ⟨.token .word, name.text⟩, space]
  | linkage => [⟨.token .word, "extern".toList⟩, space, ⟨.token .literal, "\"C\"".toList⟩, space]

theorem firstPiece_word {c : Char} (starts : startsWord c = true) (lineStart : Bool) (rest : List Char) :
    firstPiece lineStart c rest =
      (⟨.token (takeWord (c :: rest)).1, (takeWord (c :: rest)).2.1⟩, (takeWord (c :: rest)).2.2) := by
  have other (d : Char) (noWord : startsWord d = false) : c ≠ d := by
    rintro rfl
    simp [starts] at noWord
  have gap : isGap c = false := by
    simp only [isGap, Bool.or_eq_false_iff, beq_eq_false_iff_ne]
    exact ⟨⟨⟨⟨other _ rfl, other _ rfl⟩, other _ rfl⟩, other _ rfl⟩, other _ rfl⟩
  simp [firstPiece, gap, starts, other '\n' rfl, other '#' rfl, other '/' rfl, other '"' rfl,
    other '\'' rfl]

theorem Word.piecesFrom_append (word : Word) (lineStart : Bool) (rest : List Char) :
    piecesFrom lineStart (word.text ++ ' ' :: rest) =
      ⟨.token .word, word.text⟩ :: space :: piecesFrom false rest := by
  obtain ⟨text, starts, all⟩ := word
  cases text with
  | nil => simp at starts
  | cons c text =>
      have read : takeWord (c :: text ++ ' ' :: rest) = (.word, c :: text, ' ' :: rest) := by
        rw [takeWord, takeWhile_append_cons all (by decide)]
        simp
      have starts : startsWord c = true := by simpa using starts
      rw [List.cons_append] at read
      rw [List.cons_append, piecesFrom, firstPiece_word starts, read]
      simp [piecesFrom, firstPiece, isGap, Role.atLineStart, space]

theorem Wrapper.pieces_line (wrapper : Wrapper) :
    pieces wrapper.line = wrapper.head ++ [⟨.token (.mark '{'), ['{']⟩, ⟨.lineEnd, ['\n']⟩] := by
  have brace : piecesFrom false ['{', '\n'] =
      [⟨.token (.mark '{'), ['{']⟩, ⟨.lineEnd, ['\n']⟩] := by decide +kernel
  let namespaceWord : Word := ⟨"namespace".toList, by decide, List.all_eq_true.1 (by decide)⟩
  let inlineWord : Word := ⟨"inline".toList, by decide, List.all_eq_true.1 (by decide)⟩
  cases wrapper with
  | plain name =>
      have first := namespaceWord.piecesFrom_append true (name.text ++ [' ', '{', '\n'])
      rw [name.piecesFrom_append, brace] at first
      exact first
  | inlined name =>
      have first := inlineWord.piecesFrom_append true
        (namespaceWord.text ++ ' ' :: (name.text ++ [' ', '{', '\n']))
      rw [namespaceWord.piecesFrom_append, name.piecesFrom_append, brace] at first
      exact first
  | linkage => decide +kernel

theorem Wrapper.endsLine (wrapper : Wrapper) : EndsLine wrapper.line :=
  ⟨wrapper.head ++ [⟨.token (.mark '{'), ['{']⟩], by simp [wrapper.pieces_line]⟩

theorem Wrapper.advance_line (wrapper : Wrapper) :
    Place.origin.advance wrapper.line = shiftPlace (byteLength wrapper.line) 1 .origin := by
  have words (name : Word) : '\n' ∉ name.text := fun mem => absurd (name.all _ mem) (by decide)
  have apart (first : List Char) (name : Word) (none : '\n' ∉ first) :
      '\n' ∉ first ++ name.text ++ [' ', '{'] := by
    simp only [List.mem_append, not_or]
    exact ⟨⟨none, words name⟩, by decide⟩
  cases wrapper with
  | plain name =>
      have line := Code.advance_line (apart "namespace ".toList name (by decide))
      rwa [List.append_assoc _ [' ', '{']] at line
  | inlined name =>
      have line := Code.advance_line (apart "inline namespace ".toList name (by decide))
      rwa [List.append_assoc _ [' ', '{']] at line
  | linkage => decide +kernel

/-- The line of a wrapper brings the scan to its brace, which opens a namespace. -/
theorem Wrapper.scans_line (wrapper : Wrapper) : ∃ brace, ∀ rest result,
    Scans [brace] [] rest result → Scans [] [] (tokens wrapper.line ++ rest) result := by
  have all : ∃ head brace, tokens wrapper.line = head ++ [brace] ∧ brace.kind = .mark '{' ∧
      (∀ token ∈ head, token.kind = .word ∨ token.kind = .literal) ∧ opensNamespace head = true := by
    rw [tokens, wrapper.pieces_line]
    cases wrapper with
    | plain name =>
        simp only [head, tokensFrom, space, List.cons_append, List.nil_append]
        refine ⟨[_, _], _, rfl, rfl, ?_, ?_⟩
        · simp
        · simp [opensNamespace, Token.name]
    | inlined name =>
        simp only [head, tokensFrom, space, List.cons_append, List.nil_append]
        refine ⟨[_, _, _], _, rfl, rfl, ?_, ?_⟩
        · simp
        · simp [opensNamespace, Token.name]
    | linkage =>
        simp only [head, tokensFrom, space, List.cons_append, List.nil_append]
        refine ⟨[_, _], _, rfl, rfl, ?_, ?_⟩
        · simp
        · simp [opensNamespace, Token.name]
  obtain ⟨head, brace, spelt, opening, plain, opens⟩ := all
  refine ⟨brace, fun rest result later => ?_⟩
  rw [spelt, List.append_assoc]
  refine Scans.pass_all ?_ (.enter opening ?_ later)
  · intro token mem c _ mark
    rcases plain token mem with kind | kind <;> simp [kind] at mark
  · simpa using opens

/-- A text that consists of a closing brace, as far as tokens are concerned. -/
def ClosesBrace (closing : List Char) : Prop := (tokens closing).map Token.kind = [.mark '}']

/-- The tokens of a text inside of a wrapper. -/
theorem tokens_wrap {text : List Char} (ends : EndsLine text) (wrapper : Wrapper)
    {closing : List Char} (closes : ClosesBrace closing) :
    ∃ close, close.kind = .mark '}' ∧ tokens (wrapper.line ++ text ++ closing) =
      tokens wrapper.line ++
        ((tokens text).map (Token.shift (byteLength wrapper.line) 1) ++ [close]) := by
  let behind := (Place.origin.advance wrapper.line).advance text
  obtain ⟨close, last, kind⟩ : ∃ close, tokensFrom behind (pieces closing) = [close] ∧
      close.kind = .mark '}' := by
    have kinds := kind_tokensFrom behind .origin (pieces closing)
    rw [← tokens, closes] at kinds
    simpa [List.map_eq_singleton_iff] using kinds
  refine ⟨close, kind, ?_⟩
  rw [List.append_assoc, tokens, pieces_append wrapper.endsLine, pieces_append ends, tokensFrom_append,
    tokensFrom_append, join_pieces, join_pieces, last, wrapper.advance_line, tokensFrom_shiftPlace]
  rfl

/-- Inside of one wrapper a text has its definitions further on. -/
theorem discover_wrap {text : List Char} {definitions : List Definition} (ends : EndsLine text)
    (found : discover (String.ofList text) = .ok definitions) (wrapper : Wrapper) {closing : List Char}
    (closes : ClosesBrace closing) :
    discover (String.ofList (wrapper.line ++ text ++ closing)) =
      .ok (definitions.map (Definition.shift (byteLength wrapper.line) 1)) := by
  rw [discover, String.toList_ofList] at found ⊢
  obtain ⟨close, kind, spelt⟩ := tokens_wrap ends wrapper closes
  obtain ⟨brace, opened⟩ := wrapper.scans_line
  have alone := scans_definitionsFrom [] [] (tokens text)
  rw [found] at alone
  have inside := (alone.relocate (shifting (byteLength wrapper.line) 1)).within kind brace rfl
  rw [spelt]
  exact (opened _ _ inside).definitionsFrom_eq

structure Enclosure where
  wrapper : Wrapper
  closing : List Char
  closes : ClosesBrace closing
  ends : EndsLine closing

/-- The text inside of some wrappers, the outermost first. -/
def nest : List Enclosure → List Char → List Char
  | [], text => text
  | outer :: inner, text => outer.wrapper.line ++ nest inner text ++ outer.closing

def openingBytes : List Enclosure → Nat
  | [] => 0
  | outer :: inner => byteLength outer.wrapper.line + openingBytes inner

theorem endsLine_append {first second : List Char} (ends : EndsLine first) (ends' : EndsLine second) :
    EndsLine (first ++ second) := by
  obtain ⟨front, spelt⟩ := ends'
  exact ⟨pieces first ++ front, by rw [pieces_append ends, spelt, List.append_assoc]⟩

theorem endsLine_nest {text : List Char} (ends : EndsLine text) (enclosures : List Enclosure) :
    EndsLine (nest enclosures text) := by
  induction enclosures with
  | nil => exact ends
  | cons outer inner ih =>
      exact endsLine_append (endsLine_append outer.wrapper.endsLine ih) outer.ends

theorem shift_shift (definition : Definition) (bytes lines more moreLines : Nat) :
    (definition.shift bytes lines).shift more moreLines =
      definition.shift (more + bytes) (lines + moreLines) := by
  simp only [Definition.shift, Nat.add_assoc, Nat.add_comm more]

/-- Inside of any number of wrappers a text has its definitions further on. -/
theorem discover_nest {text : List Char} {definitions : List Definition} (ends : EndsLine text)
    (found : discover (String.ofList text) = .ok definitions) (enclosures : List Enclosure) :
    discover (String.ofList (nest enclosures text)) =
      .ok (definitions.map (Definition.shift (openingBytes enclosures) enclosures.length)) := by
  induction enclosures with
  | nil =>
      have same : Definition.shift 0 0 = id := rfl
      rw [nest, found, openingBytes, List.length_nil, same, List.map_id]
  | cons outer inner ih =>
      rw [nest, discover_wrap (endsLine_nest ends inner) ih outer.wrapper outer.closes, List.map_map]
      congr 2
      funext definition
      exact shift_shift definition _ _ _ _

/-- Namespaces and linkage blocks around a text change nothing: its definitions are found behind one
wrapper, and behind any number of them, by the bytes and lines of the opening lines further on. -/
theorem discover_of_wrapped {text : String} {definitions : List Definition}
    (ends : EndsLine text.toList) (found : discover text = .ok definitions) :
    (∀ (wrapper : Wrapper) (closing : List Char), ClosesBrace closing →
      discover (String.ofList (wrapper.line ++ text.toList ++ closing)) =
        .ok (definitions.map (Definition.shift (byteLength wrapper.line) 1))) ∧
    ∀ enclosures : List Enclosure,
      discover (String.ofList (nest enclosures text.toList)) =
        .ok (definitions.map (Definition.shift (openingBytes enclosures) enclosures.length)) := by
  rw [← String.ofList_toList (s := text)] at found
  exact ⟨fun wrapper closing closes => discover_wrap ends found wrapper closes, discover_nest ends found⟩

/-- A function behind a statement that is left open, inside of a namespace in a linkage block. -/
theorem discover_of_wrapped_twice :
    let text := "int f(void) \x7b\x7d\nint g(void)\n"
    EndsLine text.toList ∧ discover text = .ok [⟨"f", 0, 14, 1⟩] ∧
      discover (String.ofList ("extern \"C\" \x7b\nnamespace n \x7b\n".toList ++ text.toList ++
        "\x7d // n\n\x7d\n".toList)) = .ok [⟨"f", 27, 41, 3⟩] := by
  intro text
  have ends : EndsLine text.toList := ⟨(pieces text.toList).dropLast, by decide +kernel⟩
  have found : discover text = .ok [⟨"f", 0, 14, 1⟩] := by decide +kernel
  let inner : Enclosure := ⟨.plain ⟨['n'], by decide, List.all_eq_true.1 (by decide)⟩, "\x7d // n\n".toList,
    by rw [ClosesBrace]; decide +kernel,
    (pieces "\x7d // n\n".toList).dropLast, by decide +kernel⟩
  let outer : Enclosure := ⟨.linkage, "\x7d\n".toList, by rw [ClosesBrace]; decide +kernel,
    (pieces "\x7d\n".toList).dropLast, by decide +kernel⟩
  have spelt : nest [outer, inner] text.toList = "extern \"C\" \x7b\nnamespace n \x7b\n".toList ++
      text.toList ++ "\x7d // n\n\x7d\n".toList := by decide +kernel
  have moved : [(⟨"f", 0, 14, 1⟩ : Definition)].map
      (Definition.shift (openingBytes [outer, inner]) 2) = [⟨"f", 27, 41, 3⟩] := by decide +kernel
  have wrapped := (discover_of_wrapped ends found).2 [outer, inner]
  rw [spelt] at wrapped
  exact ⟨ends, found, wrapped.trans (congrArg Except.ok moved)⟩

end Graft.Code

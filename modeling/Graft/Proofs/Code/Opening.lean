import Graft.Code.Piece

/-!
How a text begins. Every text begins with a piece of one of ten forms (`opens_firstPiece`), so what is
to be shown of all pieces is shown of each form.
-/

namespace Graft.Code

theorem of_mem_takeWhile {kind : Char → Bool} {text : List Char} {c : Char}
    (mem : c ∈ (takeWhile kind text).1) : kind c = true := by
  induction text with
  | nil => cases mem
  | cons first rest ih =>
      rw [takeWhile] at mem
      split at mem
      · next holds =>
          obtain rfl | later := List.mem_cons.1 mem
          · exact holds
          · exact ih later
      · cases mem

/-- The stretch ends in front of a character that is not of the kind. -/
theorem takeWhile_append_cons {kind : Char → Bool} {front : List Char} {c : Char}
    (all : ∀ c ∈ front, kind c = true) (stop : kind c = false) (rest : List Char) :
    takeWhile kind (front ++ c :: rest) = (front, c :: rest) := by
  induction front with
  | nil => simp [takeWhile, stop]
  | cons first front ih =>
      rw [List.forall_mem_cons] at all
      simp [takeWhile, all.1, ih all.2]

def isNumberChar (c : Char) : Bool := c.isAlphanum || c == '.' || c == '_' || c == '\''

theorem of_mem_takeNumber {text : List Char} {c : Char} (mem : c ∈ (takeNumber text).1) :
    isNumberChar c = true := by
  induction text with
  | nil => cases mem
  | cons first rest ih =>
      rw [takeNumber] at mem
      split at mem
      · next holds =>
          obtain rfl | later := List.mem_cons.1 mem
          · simp only [separatesDigits, Bool.or_eq_true, Bool.and_eq_true] at holds
            simp only [isNumberChar, Bool.or_eq_true]
            exact holds.imp_right And.left
          · exact ih later
      · cases mem

/-- How a text begins with a piece, and what stands behind the piece. -/
inductive Opens (lineStart : Bool) : List Char → Piece → List Char → Prop
  | lineEnd (rest : List Char) : Opens lineStart ('\n' :: rest) ⟨.lineEnd, ['\n']⟩ rest
  | blank {c : Char} (gap : isGap c = true) (rest : List Char) :
      Opens lineStart (c :: rest) ⟨.blank, [c]⟩ rest
  | directive (start : lineStart = true) {rest taken after : List Char}
      (ends : takeDirective false rest = (taken, after)) :
      Opens lineStart ('#' :: rest) ⟨.directive, '#' :: taken⟩ after
  | line {rest taken after : List Char} (ends : takeWhile (· != '\n') rest = (taken, after)) :
      Opens lineStart ('/' :: '/' :: rest) ⟨.comment, '/' :: '/' :: taken⟩ after
  | block {rest taken after : List Char} (ends : takeBlock rest = (taken, after)) :
      Opens lineStart ('/' :: '*' :: rest) ⟨.comment, '/' :: '*' :: taken⟩ after
  | quoted {head : List Char} (known : head = [] ∨ String.ofList head ∈ encodingHeads) {quote : Char}
      (isQuote : quote = '"' ∨ quote = '\'') {rest taken after : List Char}
      (ends : takeQuoted quote rest = (taken, after)) :
      Opens lineStart (head ++ quote :: rest) ⟨.token .literal, head ++ quote :: taken⟩ after
  | raw {head : List Char} (known : String.ofList head ∈ rawHeads) {rest taken after : List Char}
      (ends : takeRaw rest = (taken, after)) :
      Opens lineStart (head ++ '"' :: rest) ⟨.token .literal, head ++ '"' :: taken⟩ after
  | word {word : List Char} (some : word ≠ []) (all : ∀ c ∈ word, isWordChar c = true)
      (after : List Char) : Opens lineStart (word ++ after) ⟨.token .word, word⟩ after
  | number {number : List Char} (some : number ≠ []) (all : ∀ c ∈ number, isNumberChar c = true)
      (after : List Char) : Opens lineStart (number ++ after) ⟨.token .number, number⟩ after
  | mark {c : Char} (inLine : c ≠ '\n') (full : isGap c = false)
      (hash : ¬(c = '#' ∧ lineStart = true)) {rest : List Char}
      (slash : ¬(c = '/' ∧ (rest.head? = some '/' ∨ rest.head? = some '*')))
      (noQuote : ¬(c = '"' ∨ c = '\'')) : Opens lineStart (c :: rest) ⟨.token (.mark c), [c]⟩ rest

theorem opens_takeWord {lineStart : Bool} {c : Char} {rest : List Char} (starts : startsWord c = true) :
    Opens lineStart (c :: rest) ⟨.token (takeWord (c :: rest)).1, (takeWord (c :: rest)).2.1⟩
      (takeWord (c :: rest)).2.2 := by
  have whole := takeWhile_append isWordChar (c :: rest)
  have all := fun x => @of_mem_takeWhile isWordChar (c :: rest) x
  have some : (takeWhile isWordChar (c :: rest)).1 ≠ [] := by
    simp [takeWhile, isWordChar, starts]
  unfold takeWord
  split
  · next word quote behind same =>
      rw [same] at whole all some
      rw [← whole]
      simp only
      split
      · next raw =>
          obtain ⟨rfl, known⟩ := raw
          exact .raw known rfl
      · split
        · next encoded => exact .quoted (.inr encoded.2) encoded.1 rfl
        · exact .word some all _
  · next word same =>
      rw [same] at whole all some
      rw [← whole]
      exact .word some all _

theorem opens_firstPiece (lineStart : Bool) (c : Char) (rest : List Char) :
    Opens lineStart (c :: rest) (firstPiece lineStart c rest).1 (firstPiece lineStart c rest).2 := by
  unfold firstPiece
  split
  · next same =>
      subst same
      exact .lineEnd rest
  next inLine =>
  split
  · next gap => exact .blank gap rest
  next full =>
  split
  · next hash =>
      obtain ⟨rfl, start⟩ := hash
      exact .directive start rfl
  next hash =>
  split
  · next line =>
      obtain ⟨rfl, second⟩ := line
      obtain ⟨behind, rfl⟩ := List.head?_eq_some_iff.1 second
      exact .line rfl
  next line =>
  split
  · next block =>
      obtain ⟨rfl, second⟩ := block
      obtain ⟨behind, rfl⟩ := List.head?_eq_some_iff.1 second
      exact .block rfl
  next block =>
  split
  · next isQuote => exact .quoted (.inl rfl) isQuote rfl
  next noQuote =>
  split
  · next starts => exact opens_takeWord starts
  split
  · next digit =>
      have whole := takeNumber_append (c :: rest)
      have all := fun x => @of_mem_takeNumber (c :: rest) x
      have some : (takeNumber (c :: rest)).1 ≠ [] := by simp [takeNumber, Char.isAlphanum, digit]
      have opens : Opens lineStart ((takeNumber (c :: rest)).1 ++ (takeNumber (c :: rest)).2) _ _ :=
        .number some all _
      rwa [whole] at opens
  · refine .mark inLine (by simpa using full) hash ?_ noQuote
    rintro ⟨rfl, second | second⟩
    · exact line ⟨rfl, second⟩
    · exact block ⟨rfl, second⟩

end Graft.Code

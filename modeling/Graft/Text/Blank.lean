/-!
White space. `isBlank` is the Unicode property White_Space, `isAsciiBlank` its ASCII part without
the vertical tab. Trimming takes a predicate, so that both kinds share it.
-/

namespace Graft.Text

/-- The Unicode property White_Space. -/
def isBlank (c : Char) : Bool :=
  let n := c.toNat
  (9 ≤ n && n ≤ 13) || n == 32 || n == 0x85 || n == 0xA0 || n == 0x1680 ||
    (0x2000 ≤ n && n ≤ 0x200A) || n == 0x2028 || n == 0x2029 || n == 0x202F ||
    n == 0x205F || n == 0x3000

/-- Space, tab, line feed, form feed and carriage return. -/
def isAsciiBlank (c : Char) : Bool :=
  c == ' ' || c == '\t' || c == '\n' || c == '\x0c' || c == '\r'

theorem isBlank_of_isAsciiBlank {c : Char} (h : isAsciiBlank c = true) : isBlank c = true := by
  simp only [isAsciiBlank, Bool.or_eq_true, beq_iff_eq] at h
  rcases h with (((rfl | rfl) | rfl) | rfl) | rfl <;> rfl

theorem isBlank_of_isDigit {c : Char} (h : c.isDigit = true) : isBlank c = false := by
  have bounds : 48 ≤ c.toNat ∧ c.toNat ≤ 57 := by
    simp only [Char.isDigit, Bool.and_eq_true, decide_eq_true_eq] at h
    exact ⟨UInt32.le_iff_toNat_le.1 h.1, UInt32.le_iff_toNat_le.1 h.2⟩
  unfold isBlank
  simp only [Bool.or_eq_false_iff, Bool.and_eq_false_iff, decide_eq_false_iff_not, beq_eq_false_iff_ne]
  omega

def dropEndWhile (kind : Char → Bool) (text : List Char) : List Char :=
  text.foldr (fun c rest => if rest.isEmpty && kind c then [] else c :: rest) []

theorem dropEndWhile_cons (kind : Char → Bool) (c : Char) (rest : List Char) :
    dropEndWhile kind (c :: rest) =
      if (dropEndWhile kind rest).isEmpty && kind c then [] else c :: dropEndWhile kind rest := rfl

theorem dropEndWhile_of_none {kind : Char → Bool} {text : List Char}
    (h : ∀ c ∈ text, kind c = false) : dropEndWhile kind text = text := by
  induction text with
  | nil => rfl
  | cons c rest ih =>
      have later := ih fun other mem => h other (List.mem_cons_of_mem _ mem)
      rw [dropEndWhile_cons, later, h c List.mem_cons_self]
      simp

def trimWhile (kind : Char → Bool) (text : List Char) : List Char :=
  dropEndWhile kind (text.dropWhile kind)

def trim (text : List Char) : List Char := trimWhile isBlank text

theorem trim_of_solid {text : List Char} (h : ∀ c ∈ text, isBlank c = false) : trim text = text := by
  have start : text.dropWhile isBlank = text := by
    cases text with
    | nil => rfl
    | cons c rest => simp [h c List.mem_cons_self]
  rw [trim, trimWhile, start]
  exact dropEndWhile_of_none h

def trimmed (text : String) : String := String.ofList (trim text.toList)

def isBlankText (text : String) : Bool := text.toList.all isBlank

end Graft.Text

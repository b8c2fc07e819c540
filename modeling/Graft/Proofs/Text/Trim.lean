import Graft.Text.Blank
import Mathlib.Data.List.DropRight

/-!
Trimming next to a character that stays. What stands in front of such a character is not touched at the end
of a text (`dropEndWhile_append_cons`), and what stands behind it is not touched at its start
(`dropWhile_append_cons`), so a text with such a character is trimmed on either side of it alone.
-/

namespace Graft.Text

variable {kind : Char → Bool} {c : Char} {text : List Char}

theorem dropEndWhile_eq_rdropWhile (kind : Char → Bool) (text : List Char) :
    dropEndWhile kind text = text.rdropWhile kind := by
  induction text with
  | nil => rfl
  | cons c rest ih =>
      rw [dropEndWhile_cons, ih, List.rdropWhile, List.rdropWhile, List.reverse_cons,
        List.dropWhile_append, List.isEmpty_reverse]
      cases left : rest.reverse.dropWhile kind <;> cases solid : kind c <;> simp [solid]

theorem dropEndWhile_append_cons (solid : kind c = false) (front rest : List Char) :
    dropEndWhile kind (front ++ c :: rest) = front ++ c :: dropEndWhile kind rest := by
  induction front with
  | nil => simp [dropEndWhile_cons, solid]
  | cons first front ih =>
      rw [List.cons_append, dropEndWhile_cons, ih]
      simp

theorem dropEndWhile_of_all (all : ∀ c ∈ text, kind c = true) : dropEndWhile kind text = [] := by
  rw [dropEndWhile_eq_rdropWhile, List.rdropWhile_eq_nil_iff]
  exact all

theorem dropEndWhile_of_getLast? (solid : ∀ c ∈ text.getLast?, kind c = false) :
    dropEndWhile kind text = text := by
  rw [dropEndWhile_eq_rdropWhile, List.rdropWhile_eq_self_iff]
  intro filled
  rw [solid _ (List.getLast?_eq_some_getLast filled)]
  exact Bool.false_ne_true

/-- What is left does not end in a character of the kind. -/
theorem solid_of_getLast?_dropEndWhile (mem : c ∈ (dropEndWhile kind text).getLast?) :
    kind c = false := by
  rw [dropEndWhile_eq_rdropWhile] at mem
  have filled : text.rdropWhile kind ≠ [] := by
    intro empty
    rw [empty] at mem
    cases mem
  rw [List.getLast?_eq_some_getLast filled] at mem
  obtain rfl := Option.some.inj mem
  exact Bool.eq_false_iff.2 (List.rdropWhile_last_not kind text filled)

theorem exists_dropEndWhile_append (kind : Char → Bool) (text : List Char) :
    ∃ tail, dropEndWhile kind text ++ tail = text ∧ ∀ c ∈ tail, kind c = true := by
  rw [dropEndWhile_eq_rdropWhile]
  exact ⟨text.rtakeWhile kind, List.rdropWhile_append_rtakeWhile, fun c => List.mem_rtakeWhile_imp⟩

theorem dropWhile_append_cons (solid : kind c = false) (front rest : List Char) :
    (front ++ c :: rest).dropWhile kind = front.dropWhile kind ++ c :: rest := by
  induction front with
  | nil => simp [solid]
  | cons first front ih =>
      cases same : kind first <;> simp [same, ih]

theorem dropWhile_of_head? (solid : ∀ c ∈ text.head?, kind c = false) : text.dropWhile kind = text := by
  cases text with
  | nil => rfl
  | cons c rest => simp [solid c rfl]

/-! White space -/

/-- What is trimmed stands in the text. -/
theorem infix_trim (text : List Char) : trim text <:+: text := by
  obtain ⟨tail, parts, -⟩ := exists_dropEndWhile_append isBlank (text.dropWhile isBlank)
  have front : trim text <+: text.dropWhile isBlank := ⟨tail, parts⟩
  exact front.isInfix.trans (List.dropWhile_suffix isBlank).isInfix

/-- Trimming leaves something to see exactly where there is something to see. -/
theorem all_trim (text : List Char) : (trim text).all isBlank = text.all isBlank := by
  cases blank : text.all isBlank with
  | true =>
      rw [List.all_eq_true] at blank ⊢
      exact fun c mem => blank c ((infix_trim text).subset mem)
  | false =>
      obtain ⟨c, mem, solid⟩ := List.all_eq_false.1 blank
      rw [Bool.not_eq_true] at solid
      obtain ⟨front, rest, rfl⟩ := List.append_of_mem mem
      rw [trim, trimWhile, dropWhile_append_cons solid, dropEndWhile_append_cons solid]
      simp [solid]

end Graft.Text

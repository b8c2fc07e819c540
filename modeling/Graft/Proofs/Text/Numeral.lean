import Graft.Text.Numeral

/-!
Decimal numerals read back. `digitsValue?_eq` says what a run of digits writes, `readNat?_repr` and
`canonical?_repr` that the numeral of a number reads as that number, and `ofDigitChars_padded` that
zeros in front of it change nothing.
-/

namespace Graft.Text

theorem digit?_eq_some_of_isDigit {c : Char} (h : c.isDigit = true) :
    digit? c = some (c.toNat - '0'.toNat) := by
  have bounds : '0' ≤ c ∧ c ≤ '9' := by
    simpa [Char.isDigit, Char.le_def] using h
  exact if_pos bounds

theorem isSome_digit?_of_isDigit {c : Char} (h : c.isDigit = true) : (digit? c).isSome = true := by
  rw [digit?_eq_some_of_isDigit h]
  rfl

/-- A run of digits writes the number that its digits make up. -/
theorem digitsValue?_eq {digits : List Char} (h : ∀ c ∈ digits, c.isDigit = true) :
    digitsValue? 10 digit? digits = some (Nat.ofDigitChars 10 digits 0) := by
  have started : ∀ start, digits.foldl (fun total c => do return (← total) * 10 + (← digit? c))
      (some start) = some (Nat.ofDigitChars 10 digits start) := by
    induction digits with
    | nil => intro start; rfl
    | cons c rest ih =>
        obtain ⟨hc, hrest⟩ := List.forall_mem_cons.1 h
        intro start
        rw [Nat.ofDigitChars_cons, ← ih hrest, List.foldl_cons, digit?_eq_some_of_isDigit hc,
          Nat.mul_comm 10 start]
        rfl
  exact started 0

theorem isDigit_of_mem_repr {n : Nat} {c : Char} (h : c ∈ n.repr.toList) : c.isDigit = true := by
  rw [Nat.toList_repr] at h
  exact Nat.isDigit_of_mem_toDigits (by decide) (by decide) h

theorem digitsValue?_repr (n : Nat) : digitsValue? 10 digit? n.repr.toList = some n := by
  rw [digitsValue?_eq fun c => isDigit_of_mem_repr, Nat.toList_repr, Nat.ofDigitChars_ten_toDigits]

theorem repr_injective {a b : Nat} (h : a.repr = b.repr) : a = b := by
  have value := digitsValue?_repr a
  rw [h, digitsValue?_repr] at value
  exact (Option.some.inj value).symm

theorem toList_repr_ne_nil (n : Nat) : n.repr.toList ≠ [] := by
  rw [Nat.toList_repr]
  exact Nat.toDigits_ne_nil

/-- The numeral of a number starts with a digit, which is a zero for zero alone. -/
theorem exists_toList_repr (n : Nat) :
    ∃ c rest, n.repr.toList = c :: rest ∧ c.isDigit = true ∧ (c = '0' → rest = []) := by
  induction n using Nat.base_induction 10 (by decide) with
  | single digit small =>
      have same : digit.repr.toList = [digit.digitChar] := by
        rw [Nat.toList_repr, Nat.toDigits_of_lt_base small]
      refine ⟨digit.digitChar, [], same, ?_, fun _ => rfl⟩
      apply isDigit_of_mem_repr (n := digit)
      rw [same]
      exact List.mem_singleton_self _
  | digit front last small positive ih =>
      obtain ⟨c, rest, same, isDigit, alone⟩ := ih
      refine ⟨c, rest ++ [last.digitChar], ?_, isDigit, ?_⟩
      · rw [Nat.toList_repr, ← Nat.toDigits_append_toDigits (by decide) positive small,
          Nat.toDigits_of_lt_base small, ← Nat.toList_repr, same]
        rfl
      · rintro rfl
        exfalso
        have value := digitsValue?_repr front
        rw [same, alone rfl] at value
        have zero : front = 0 := by simpa [digitsValue?, digit?] using value.symm
        omega

/-- The numeral of a number reads as that number. -/
theorem readNat?_repr {n bound : Nat} (h : n ≤ bound) : readNat? bound n.repr = some n := by
  obtain ⟨c, rest, same, isDigit, -⟩ := exists_toList_repr n
  have unsigned : c ≠ '+' := by
    rintro rfl
    exact absurd isDigit (by decide)
  have value : digitsValue? 10 digit? (c :: rest) = some n := same ▸ digitsValue?_repr n
  unfold readNat?
  rw [same]
  simp [unsigned, value, h]

theorem le_of_readNat? {bound n : Nat} {text : String} (h : readNat? bound text = some n) :
    n ≤ bound := by
  rw [readNat?] at h
  simp only [Option.bind_eq_bind, Option.bind_none, Option.ite_none_left_eq_some] at h
  obtain ⟨value, -, found⟩ := Option.bind_eq_some_iff.1 h.2
  obtain ⟨within, same⟩ := Option.ite_none_right_eq_some.1 found
  obtain rfl := Option.some.inj same
  exact within

/-- A text whose first character is neither a digit nor a plus sign is no numeral. -/
theorem readNat?_of_head {bound : Nat} {text : String} {c : Char} {rest : List Char}
    (start : text.toList = c :: rest) (sign : c ≠ '+') (digit : digit? c = none) :
    readNat? bound text = none := by
  have nothing (others : List Char) : others.foldl
      (fun total c => do return (← total) * 10 + (← digit? c)) (none : Option Nat) = none := by
    induction others with
    | nil => rfl
    | cons other others ih => exact ih
  have value : digitsValue? 10 digit? (c :: rest) = none := by
    rw [digitsValue?, List.foldl_cons, digit]
    exact nothing rest
  simp [readNat?, start, sign, value]

theorem canonical?_repr {n bound : Nat} (h : n ≤ bound) : canonical? bound n.repr = some n := by
  unfold canonical?
  simp [readNat?_repr h]

theorem toList_padded (width n : Nat) : (padded width n).toList =
    List.replicate (width - n.repr.length) '0' ++ n.repr.toList := by
  simp [padded]

theorem isDigit_padded (width n : Nat) : ∀ c ∈ (padded width n).toList, c.isDigit = true := by
  intro c member
  rw [toList_padded] at member
  rcases List.mem_append.1 member with zero | digit
  · rw [List.eq_of_mem_replicate zero]
    rfl
  · exact isDigit_of_mem_repr digit

/-- Zeros in front of a numeral change nothing. -/
theorem ofDigitChars_padded (width n : Nat) : Nat.ofDigitChars 10 (padded width n).toList 0 = n := by
  rw [toList_padded, Nat.ofDigitChars_append, Nat.ofDigitChars_replicate_zero, Nat.toList_repr,
    Nat.mul_zero, Nat.ofDigitChars_ten_toDigits]

/-- A number that is small enough is filled up to the width exactly. -/
theorem length_padded {width n : Nat} (positive : 0 < width) (small : n < Nat.pow 10 width) :
    (padded width n).toList.length = width := by
  have fits := (Nat.length_repr_le_iff positive).2 small
  rw [toList_padded, List.length_append, List.length_replicate, String.length_toList]
  omega

theorem padded_ne_nil (width n : Nat) : (padded width n).toList ≠ [] := by
  rw [toList_padded]
  simp

end Graft.Text

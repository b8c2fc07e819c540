import Graft.Proofs.Instant.Calendar
import Graft.Proofs.Text.Numeral

/-!
The text of an instant reads back (`read?_render`), if the year is one that a date may have, and a
leap second stands behind a second 59.
-/

namespace Graft.Instant

open Text

/-- The instants that a clock can show. -/
structure InRange (instant : Instant) : Prop where
  year : isDateYear (yearOfSeconds instant.seconds) = true
  nanoseconds : instant.nanoseconds < 1000000000 ∨
    instant.nanoseconds < 2000000000 ∧ instant.seconds % 60 = 59

theorem skip_cons {c : Char} (h : isBlank c = false) (rest : List Char) :
    skip (c :: rest) = c :: rest :=
  List.dropWhile_cons_of_neg (by simp [h])

theorem skip_digits {digits : List Char} (digit : ∀ c ∈ digits, c.isDigit = true)
    (some_ : digits ≠ []) (rest : List Char) : skip (digits ++ rest) = digits ++ rest := by
  obtain ⟨c, others, rfl⟩ := List.exists_cons_of_ne_nil some_
  exact skip_cons (isBlank_of_isDigit (digit c List.mem_cons_self)) _

/-- A run of digits is read to its end, or to the limit. -/
theorem count?_digits (limit : Nat) {digits rest : List Char}
    (digit : ∀ c ∈ digits, c.isDigit = true) (some_ : digits ≠ [])
    (ends : digits.length = limit ∨
      digits.length ≤ limit ∧ ∀ c ∈ rest.head?, (digit? c).isSome = false) :
    count? limit (digits ++ rest) = some (Nat.ofDigitChars 10 digits 0, rest) := by
  have all : ∀ c ∈ digits, (digit? c).isSome = true := fun c member =>
    isSome_digit?_of_isDigit (digit c member)
  have taken : ((digits ++ rest).take limit).takeWhile (digit? · |>.isSome) = digits := by
    have short : digits.length ≤ limit := by omega
    have nothing : (rest.take (limit - digits.length)).takeWhile (digit? · |>.isSome) = [] := by
      rcases ends with full | ⟨-, stops⟩
      · rw [full, Nat.sub_self, List.take_zero]
        rfl
      · cases rest with
        | nil => simp
        | cons c after =>
            cases limit - digits.length with
            | zero => rfl
            | succ more => exact List.takeWhile_cons_of_neg (by simp [stops c rfl])
    rw [List.take_append, List.take_of_length_le short, List.takeWhile_append_of_pos all, nothing,
      List.append_nil]
  have filled : digits.isEmpty = false := by simpa using some_
  unfold count?
  simp only [taken, filled, digitsValue?_eq digit, List.drop_left]
  rfl

theorem count?_padded {width n : Nat} (positive : 0 < width) (small : n < Nat.pow 10 width)
    (rest : List Char) : count? width ((padded width n).toList ++ rest) = some (n, rest) := by
  rw [count?_digits width (isDigit_padded width n) (padded_ne_nil width n)
    (.inl (length_padded positive small)), ofDigitChars_padded]

theorem part?_padded (separator : Char) (visible : isBlank separator = false) {n : Nat}
    (small : n < 100) (rest : List Char) :
    part? separator (separator :: ((padded 2 n).toList ++ rest)) = some (n, rest) := by
  unfold part?
  rw [skip_cons visible]
  simp only [↓reduceIte]
  rw [skip_digits (isDigit_padded 2 n) (padded_ne_nil 2 n),
    count?_padded (by decide) small]

/-- The text of a year starts with no white space and reads as that year before a month. -/
theorem year?_yearText (year : Int) (rest : List Char) :
    skip ((yearText year).toList ++ '-' :: rest) = (yearText year).toList ++ '-' :: rest ∧
      year? ((yearText year).toList ++ '-' :: rest) = some (year, '-' :: rest) := by
  have stops : ∀ c ∈ ('-' :: rest).head?, (digit? c).isSome = false := by
    rintro _ ⟨⟩
    rfl
  unfold yearText
  split
  · next plain =>
      have small : year.toNat < Nat.pow 10 4 := show year.toNat < 10000 by omega
      refine ⟨skip_digits (isDigit_padded 4 _) (padded_ne_nil 4 _) _, ?_⟩
      obtain ⟨c, others, same⟩ := List.exists_cons_of_ne_nil (padded_ne_nil 4 year.toNat)
      have isDigit := isDigit_padded 4 year.toNat c (same ▸ List.mem_cons_self)
      have found := count?_padded (by decide) small ('-' :: rest)
      rw [same, List.cons_append] at found ⊢
      have unsigned : c ≠ '+' ∧ c ≠ '-' := by
        constructor <;> rintro rfl <;> exact absurd isDigit (by decide)
      unfold year?
      split
      · next start => exact absurd (List.cons.inj start).1 unsigned.1
      · next start => exact absurd (List.cons.inj start).1 unsigned.2
      · simp only [found, Option.map_some, Int.toNat_of_nonneg plain.1]
  · next signed =>
      have found := count?_digits ((padded 4 year.natAbs).toList ++ '-' :: rest).length
        (isDigit_padded 4 year.natAbs) (padded_ne_nil 4 _) (.inr ⟨by simp, stops⟩)
      rw [ofDigitChars_padded] at found
      by_cases negative : year < 0
      · have magnitude : -(year.natAbs : Int) = year := by omega
        simp only [negative, ↓reduceIte, String.toList_append, List.append_assoc]
        refine ⟨skip_cons rfl _, ?_⟩
        simp only [year?, String.reduceToList, List.cons_append, List.nil_append, found,
          Option.map_some, magnitude]
      · have magnitude : (year.natAbs : Int) = year := by omega
        simp only [negative, ↓reduceIte, String.toList_append, List.append_assoc]
        refine ⟨skip_cons rfl _, ?_⟩
        simp only [year?, String.reduceToList, List.cons_append, List.nil_append, found,
          Option.map_some, magnitude]

theorem fraction?_digits {width n : Nat} (positive : 0 < width) (most : width ≤ 9)
    (small : n < Nat.pow 10 width) (rest : List Char) :
    fraction? ('.' :: ((padded width n).toList ++ 'Z' :: rest)) =
      some (n * Nat.pow 10 (9 - width), 'Z' :: rest) := by
  have length := length_padded positive small
  have stops : ∀ c ∈ ('Z' :: rest).head?, (digit? c).isSome = false := by
    rintro _ ⟨⟩
    rfl
  have found := count?_digits 9 (isDigit_padded width n) (padded_ne_nil width n)
    (.inr ⟨by omega, stops⟩)
  rw [ofDigitChars_padded] at found
  have used : ((padded width n).toList ++ 'Z' :: rest).length - ('Z' :: rest).length = width := by
    rw [List.length_append, length]
    omega
  simp only [fraction?, found, Option.bind_eq_bind, Option.bind_some, used]
  rfl

/-- The fraction of a second reads as the nanoseconds that it stands for. -/
theorem fraction?_fractionText {n : Nat} (small : n < 1000000000) (rest : List Char) :
    fraction? ((fractionText n).toList ++ 'Z' :: rest) = some (n, 'Z' :: rest) := by
  have point (digits : String) : ("." ++ digits).toList ++ 'Z' :: rest =
      '.' :: (digits.toList ++ 'Z' :: rest) := by simp
  unfold fractionText
  split
  · next zero =>
      rw [zero]
      rfl
  split
  · next whole =>
      have few : n / 1000000 < Nat.pow 10 3 := show n / 1000000 < 1000 by omega
      have value : n / 1000000 * Nat.pow 10 (9 - 3) = n :=
        show n / 1000000 * 1000000 = n by omega
      rw [point, fraction?_digits (by decide) (by decide) few, value]
  split
  · next whole =>
      have few : n / 1000 < Nat.pow 10 6 := show n / 1000 < 1000000 by omega
      have value : n / 1000 * Nat.pow 10 (9 - 6) = n := show n / 1000 * 1000 = n by omega
      rw [point, fraction?_digits (by decide) (by decide) few, value]
  · have few : n < Nat.pow 10 9 := small
    have value : n * Nat.pow 10 (9 - 9) = n := Nat.mul_one n
    rw [point, fraction?_digits (by decide) (by decide) few, value]

/-- The text of an instant reads as that instant. -/
theorem read?_render {instant : Instant} (h : instant.InRange) :
    read? instant.render = some instant := by
  obtain ⟨year, month, day, date, days, monthLow, monthHigh, dayLow, dayHigh⟩ :=
    exists_date (instant.seconds / 86400)
  have isYear : isDateYear year = true := by
    have inRange := h.year
    rwa [yearOfSeconds, date] at inRange
  have dayBound : daysInMonth year month ≤ 31 := by
    unfold daysInMonth
    repeat' split
    all_goals omega
  obtain ⟨ofDay, hofDay⟩ : ∃ ofDay : Nat, instant.seconds % 86400 = ofDay :=
    ⟨(instant.seconds % 86400).toNat, by omega⟩
  -- a leap second is held as a second 59 with a nanosecond part of a second or more
  let leap := instant.nanoseconds / 1000000000
  have leapBound : ofDay % 60 + leap ≤ 60 := by
    have nanoseconds := h.nanoseconds
    omega
  have text : instant.render.toList = (yearText year).toList ++ '-' ::
      ((padded 2 month).toList ++ '-' :: ((padded 2 day).toList ++ 'T' ::
        ((padded 2 (ofDay / 3600)).toList ++ ':' :: ((padded 2 (ofDay / 60 % 60)).toList ++
          ':' :: ((padded 2 (ofDay % 60 + leap)).toList ++
            ((fractionText (instant.nanoseconds % 1000000000)).toList ++ ['Z'])))))) := by
    simp [render, date, hofDay, leap, toString]
  -- each part is read as its number, up to the sign behind it
  obtain ⟨yearStart, yearRead⟩ := year?_yearText year
    ((padded 2 month).toList ++ '-' :: ((padded 2 day).toList ++ 'T' ::
      ((padded 2 (ofDay / 3600)).toList ++ ':' :: ((padded 2 (ofDay / 60 % 60)).toList ++
        ':' :: ((padded 2 (ofDay % 60 + leap)).toList ++
          ((fractionText (instant.nanoseconds % 1000000000)).toList ++ ['Z']))))))
  have monthRead := part?_padded '-' rfl (show month < 100 by omega)
  have dayRead := part?_padded '-' rfl (show day < 100 by omega)
  have hourRead := count?_padded (by decide : 0 < 2) (show ofDay / 3600 < 100 by omega)
  have hourStart := skip_digits (isDigit_padded 2 (ofDay / 3600)) (padded_ne_nil 2 _)
  have minuteRead := part?_padded ':' rfl (show ofDay / 60 % 60 < 100 by omega)
  have secondRead := part?_padded ':' rfl (show ofDay % 60 + leap < 100 by omega)
  have fractionRead := fraction?_fractionText (Nat.mod_lt instant.nanoseconds (by decide)) []
  have ends : offset? (skip ['Z']) = some (0, []) := rfl
  have blank : (skip []).isEmpty = true := rfl
  -- the numbers are those of a date and a time, and give the instant
  have isDate : ¬((!isDateYear year) = true ∨ month < 1 ∨ 12 < month ∨ day < 1 ∨
      daysInMonth year month < day) := by
    rw [isYear]
    simp only [Bool.not_true, Bool.false_eq_true, false_or]
    omega
  have isTime : ¬(23 < ofDay / 3600 ∨ 59 < ofDay / 60 % 60 ∨ 60 < ofDay % 60 + leap) := by omega
  have seconds : daysOfDate year month day * 86400 + (((ofDay / 3600 : Nat) : Int) * 3600 +
      ((ofDay / 60 % 60 : Nat) : Int) * 60 + ((min (ofDay % 60 + leap) 59 : Nat) : Int)) - 0 =
      instant.seconds := by
    have second : min (ofDay % 60 + leap) 59 = ofDay % 60 := by
      have nanoseconds := h.nanoseconds
      omega
    rw [second, days]
    omega
  have nanoseconds : (instant.nanoseconds % 1000000000 +
      if ofDay % 60 + leap = 60 then 1000000000 else 0) = instant.nanoseconds := by
    have nanoseconds := h.nanoseconds
    split <;> omega
  unfold read?
  simp only [text, yearStart, yearRead, monthRead, dayRead, hourStart, hourRead, minuteRead,
    secondRead, fractionRead, ends, blank, Option.bind_eq_bind, Option.bind_some, true_or, isDate,
    isTime, seconds, nanoseconds, h.year, ↓reduceIte, Bool.not_true, Bool.false_eq_true]
  rfl

end Graft.Instant

import Graft.Instant

/-!
Days and dates. The years of a span of 400 are found from its days by divisions alone, and
`lt_firstDay_succ` and `firstDay_le` say that these give the year in which a day lies. From it
`exists_date` follows: the date of a day is one of the calendar, and that day is the day of the date.
-/

namespace Graft.Instant

/-- The year of a span of 400 years, counted from March, in which a day of the span lies. -/
def yearOfDay (day : Nat) : Nat := (day - day / 1460 + day / 36524 - day / 146096) / 365

/-- How many days of a span of 400 years lie before a year. -/
def firstDay (year : Nat) : Nat := 365 * year + year / 4 - year / 100

theorem yearOfDay_le_succ (day : Nat) : yearOfDay day ≤ yearOfDay (day + 1) := by
  -- Where the last division steps up, the one before it does, so that nothing is lost.
  have century : (day + 1) / 146096 ≤ day / 146096 ∨ day / 36524 < (day + 1) / 36524 := by omega
  unfold yearOfDay
  omega

theorem yearOfDay_mono {day later : Nat} (h : day ≤ later) : yearOfDay day ≤ yearOfDay later := by
  induction h with
  | refl => exact Nat.le_refl _
  | step _ ih => exact Nat.le_trans ih (yearOfDay_le_succ _)

/-- At both ends of each year the divisions give that year. -/
theorem yearOfDay_ends : ∀ year < 400,
    yearOfDay (firstDay year) = year ∧ yearOfDay (firstDay (year + 1) - 1) = year := by
  decide +kernel

theorem yearOfDay_lt {day : Nat} (h : day < 146097) : yearOfDay day < 400 := by
  unfold yearOfDay
  omega

theorem firstDay_le {day : Nat} (h : day < 146097) : firstDay (yearOfDay day) ≤ day := by
  apply Nat.le_of_not_lt
  intro before
  cases same : yearOfDay day with
  | zero =>
      rw [same] at before
      exact absurd before (Nat.not_lt_zero day)
  | succ year =>
      have small := yearOfDay_lt h
      rw [same] at before small
      have earlier : day ≤ firstDay (year + 1) - 1 := by omega
      have bound := yearOfDay_mono earlier
      rw [(yearOfDay_ends year (by omega)).2] at bound
      omega

/-- Only the last day of the span is a leap day that no fourth year gives. -/
theorem lt_firstDay_succ {day : Nat} (h : day < 146097) :
    day < firstDay (yearOfDay day + 1) ∨ yearOfDay day = 399 ∧ day = 146096 := by
  have small := yearOfDay_lt h
  by_cases last : yearOfDay day = 399
  · have ends : firstDay (399 + 1) = 146096 := rfl
    rw [last, ends]
    omega
  · left
    apply Nat.lt_of_not_le
    intro later
    have bound := yearOfDay_mono later
    rw [(yearOfDay_ends (yearOfDay day + 1) (by omega)).1] at bound
    omega

/-- The day of a year, counted from March; only a leap year has a day 365. -/
theorem dayOfYear_bounds {day : Nat} (h : day < 146097) :
    ∃ dayOfYear ≤ 365, day = firstDay (yearOfDay day) + dayOfYear ∧
      (dayOfYear = 365 → isLeapYear ((yearOfDay day + 1 : Nat) : Int)) := by
  have low := firstDay_le h
  have high := lt_firstDay_succ h
  generalize yearOfDay day = year at *
  refine ⟨day - firstDay year, ?_, by omega, fun last => ?_⟩
  · unfold firstDay at *
    omega
  · have fourth : (year + 1) / 4 = year / 4 ∨ (year + 1) % 4 = 0 := by omega
    have century : (year + 1) / 100 = year / 100 ∨ (year + 1) % 100 = 0 ∧
        (year + 1) / 100 = year / 100 + 1 := by omega
    have quarter : (year + 1) / 4 ≤ year / 4 + 1 := by omega
    unfold firstDay at *
    simp only [isLeapYear, Bool.and_eq_true, Bool.or_eq_true, decide_eq_true_eq, bne_iff_ne]
    omega

theorem isLeapYear_add (year era : Int) : isLeapYear (year + era * 400) = isLeapYear year := by
  have fourth : (year + era * 400) % 4 = year % 4 := by omega
  have century : (year + era * 400) % 100 = year % 100 := by omega
  have cycle : (year + era * 400) % 400 = year % 400 := by omega
  rw [isLeapYear, isLeapYear, fourth, century, cycle]

/-- The month of a day of the year, both counted from March, and the day of the month. -/
theorem marchMonth_bounds {dayOfYear : Nat} (h : dayOfYear ≤ 365) :
    ∃ marchMonth ≤ 11, (5 * dayOfYear + 2) / 153 = marchMonth ∧
      ∃ day, dayOfYear = (153 * marchMonth + 2) / 5 + day ∧ day ≤ 30 ∧
        (marchMonth ∈ [1, 3, 6, 8] → day ≤ 29) ∧
        (marchMonth = 11 → day ≤ 28 ∧ (day = 28 → dayOfYear = 365)) := by
  refine ⟨(5 * dayOfYear + 2) / 153, by omega, rfl,
    dayOfYear - (153 * ((5 * dayOfYear + 2) / 153) + 2) / 5, by omega, by omega, ?_, by omega⟩
  intro short
  simp only [List.mem_cons, List.not_mem_nil, or_false] at short
  omega

def calendarMonth (marchMonth : Nat) : Nat :=
  if marchMonth < 10 then marchMonth + 3 else marchMonth - 9

theorem calendarMonth_bounds {marchMonth : Nat} (h : marchMonth ≤ 11) :
    1 ≤ calendarMonth marchMonth ∧ calendarMonth marchMonth ≤ 12 ∧
      (calendarMonth marchMonth + 9) % 12 = marchMonth := by
  unfold calendarMonth
  split <;> omega

/-- Every day of a month that is counted from March is one of the month. -/
theorem lt_daysInMonth {year : Int} {dayOfYear marchMonth day : Nat} (twelve : marchMonth ≤ 11)
    (thirty : day ≤ 30) (short : marchMonth ∈ [1, 3, 6, 8] → day ≤ 29)
    (last : marchMonth = 11 → day ≤ 28 ∧ (day = 28 → dayOfYear = 365))
    (leap : marchMonth = 11 → dayOfYear = 365 → isLeapYear year) :
    day < daysInMonth year (calendarMonth marchMonth) := by
  by_cases february : marchMonth = 11
  · have isFebruary : calendarMonth marchMonth = 2 := by rw [february]; rfl
    obtain ⟨most, longest⟩ := last february
    rw [daysInMonth, if_pos isFebruary]
    split
    · omega
    · next common =>
        have shorter : day ≠ 28 := fun h => common (leap february (longest h))
        omega
  · have other : calendarMonth marchMonth ≠ 2 := by
      unfold calendarMonth
      split <;> omega
    rw [daysInMonth, if_neg other]
    split
    · next listed =>
        have isShort : marchMonth ∈ [1, 3, 6, 8] := by
          simp only [List.contains_iff_mem, List.mem_cons, List.not_mem_nil, or_false] at listed ⊢
          unfold calendarMonth at listed
          split at listed <;> omega
        have := short isShort
        omega
    · omega

/-- The date of a day is one of the calendar, and that day is the day of the date. -/
theorem exists_date (days : Int) : ∃ (year : Int) (month day : Nat),
    dateOfDays days = (year, month, day) ∧ daysOfDate year month day = days ∧
      1 ≤ month ∧ month ≤ 12 ∧ 1 ≤ day ∧ day ≤ daysInMonth year month := by
  -- the day within the span of 400 years, the year within the span, and the rest
  obtain ⟨dayOfEra, hday⟩ : ∃ dayOfEra : Nat, (days + 719468) % 146097 = dayOfEra :=
    ⟨((days + 719468) % 146097).toNat, by omega⟩
  have small : dayOfEra < 146097 := by omega
  obtain ⟨dayOfYear, bound, split, leap⟩ := dayOfYear_bounds small
  obtain ⟨marchMonth, twelve, hmonth, day, hdayOfYear, thirty, short, last⟩ :=
    marchMonth_bounds bound
  obtain ⟨low, high, back⟩ := calendarMonth_bounds twelve
  have yearBound := yearOfDay_lt small
  have hyear : ((dayOfEra : Int) - dayOfEra / 1460 + dayOfEra / 36524 - dayOfEra / 146096) / 365 =
      (yearOfDay dayOfEra : Nat) := by
    unfold yearOfDay
    omega
  generalize yearOfDay dayOfEra = yearOfEra at *
  have hrest : (dayOfEra : Int) - (365 * (yearOfEra : Int) + yearOfEra / 4 - yearOfEra / 100) =
      (dayOfYear : Nat) := by
    unfold firstDay at split
    omega
  have hmarch : ((5 * ((dayOfYear : Nat) : Int) + 2) / 153).toNat = marchMonth := by omega
  generalize hera : (days + 719468) / 146097 = era at *
  have days_eq : days = era * 146097 + dayOfEra - 719468 := by omega
  -- January and February belong to the year that follows the one counted from March
  let month := calendarMonth marchMonth
  let year : Int := yearOfEra + era * 400 + (if month ≤ 2 then 1 else 0)
  refine ⟨year, month, day + 1, ?date, ?same, low, high, by omega, ?fits⟩
  case date =>
    simp only [dateOfDays, hday, hera, hyear, hrest, hmarch, Int.toNat_natCast, Prod.mk.injEq]
    exact ⟨rfl, rfl, by omega⟩
  case same =>
    have counted : (if month ≤ 2 then year - 1 else year) = yearOfEra + era * 400 := by
      simp only [year]
      split <;> omega
    have cycle : ((yearOfEra : Int) + era * 400) / 400 = era := by omega
    have within_ : ((yearOfEra : Int) + era * 400) % 400 = yearOfEra := by omega
    have months : ((month : Int) + 9) % 12 = marchMonth := by omega
    simp only [daysOfDate, counted, cycle, within_, months]
    unfold firstDay at split
    omega
  case fits =>
    apply lt_daysInMonth twelve thirty short last
    intro february whole
    have after : year = ((yearOfEra + 1 : Nat) : Int) + era * 400 := by
      have isFebruary : month ≤ 2 := by simp [month, february, calendarMonth]
      simp only [year, if_pos isFebruary]
      omega
    rw [after, isLeapYear_add]
    exact leap whole

end Graft.Instant

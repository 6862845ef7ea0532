import LooseRecords.Calendar.Date

/-!
# Days and dates

Every day has a date: `Calendar.Date.dayNumber_ofDayNumber` says that the date with a number has
that number, and `Calendar.Date.isValid_ofDayNumber` that it exists in the calendar.
-/

namespace LooseRecords

namespace Calendar

/-! ## Years -/

/-- A year has 365 days, and a leap year one more. -/
theorem firstDay_succ (year : Int) :
    firstDay (year + 1) = firstDay year + if isLeap year then 366 else 365 := by
  have hleap : isLeap year = true ↔ year % 4 = 0 ∧ (year % 100 ≠ 0 ∨ year % 400 = 0) := by
    simp [isLeap]
  simp only [firstDay]
  split
  case isTrue h =>
    have h := hleap.1 h
    omega
  case isFalse h =>
    have h := mt hleap.2 h
    omega

/-- The mean length of a year finds the year of a day up to one year. -/
theorem near_bounds (day : Int) :
    firstDay ((day + 719162) * 400 / 146097 + 1 - 1) ≤ day ∧
      day < firstDay ((day + 719162) * 400 / 146097 + 1 + 1 + 1) := by
  simp only [firstDay]
  omega

/-- The days of a year run from its first day up to the first day of the next year. -/
theorem yearOf_bounds (day : Int) :
    firstDay (yearOf day) ≤ day ∧ day < firstDay (yearOf day + 1) := by
  obtain ⟨hlow, hhigh⟩ := near_bounds day
  simp only [yearOf]
  generalize (day + 719162) * 400 / 146097 + 1 = near at hlow hhigh ⊢
  split
  case isTrue h =>
    rw [Int.sub_add_cancel]
    exact ⟨hlow, h⟩
  case isFalse hfirst =>
    split
    case isTrue h => exact ⟨h, hhigh⟩
    case isFalse h => omega

/-! ## Months -/

/-- The months of a year have its days. -/
theorem daysBefore_monthLengths (year : Int) :
    daysBefore (monthLengths year) 12 = if isLeap year then 366 else 365 := by
  cases h : isLeap year <;> simp [monthLengths, h, daysBefore]

/-- A day within months of given lengths belongs to one of the months, and comes after the days of
the months in front of it. -/
theorem monthAndDay_spec (lengths : List Nat) {days : Nat}
    (h : days < daysBefore lengths lengths.length) :
    (∃ length, lengths[(monthAndDay lengths days).1]? = some length ∧
      (monthAndDay lengths days).2 < length) ∧
      daysBefore lengths (monthAndDay lengths days).1 + (monthAndDay lengths days).2 = days := by
  induction lengths generalizing days with
  | nil => exact absurd h (Nat.not_lt_zero _)
  | cons length lengths ih =>
    rw [List.length_cons, daysBefore] at h
    rw [monthAndDay]
    split
    case isTrue hlt => exact ⟨⟨length, rfl, hlt⟩, Nat.zero_add days⟩
    case isFalse hge =>
      have hless : days - length < daysBefore lengths lengths.length := by omega
      obtain ⟨hmonth, hday⟩ := ih hless
      refine ⟨hmonth, ?_⟩
      show length + daysBefore lengths (monthAndDay lengths (days - length)).1 +
        (monthAndDay lengths (days - length)).2 = days
      omega

/-! ## Dates -/

namespace Date

/-- The month and the day of the month are found among the days of the year. -/
theorem ofDayNumber_spec (day : Int) :
    let date := ofDayNumber day
    (∃ length, (monthLengths date.year)[date.month - 1]? = some length ∧ date.day ≤ length) ∧
      1 ≤ date.month ∧ 1 ≤ date.day ∧ date.dayNumber = day := by
  intro date
  obtain ⟨hlow, hhigh⟩ := yearOf_bounds day
  obtain ⟨days, hdays⟩ : ∃ days : Nat, days = (day - firstDay (yearOf day)).toNat := ⟨_, rfl⟩
  have hlt : days < daysBefore (monthLengths (yearOf day)) 12 := by
    rw [firstDay_succ] at hhigh
    rw [daysBefore_monthLengths]
    split at hhigh
    case isTrue h =>
      rw [if_pos h]
      omega
    case isFalse h =>
      rw [if_neg h]
      omega
  obtain ⟨⟨length, hlength, hday⟩, hsum⟩ := monthAndDay_spec (monthLengths (yearOf day)) hlt
  have hdate : date = ⟨yearOf day, (monthAndDay (monthLengths (yearOf day)) days).1 + 1,
      (monthAndDay (monthLengths (yearOf day)) days).2 + 1⟩ := by
    rw [hdays]
    rfl
  generalize monthAndDay (monthLengths (yearOf day)) days = found at hlength hday hsum hdate
  rw [hdate]
  refine ⟨⟨length, hlength, hday⟩, Nat.le_add_left .., Nat.le_add_left .., ?_⟩
  simp only [dayNumber, Nat.add_sub_cancel]
  omega

/-- The date with a number has that number. -/
theorem dayNumber_ofDayNumber (day : Int) : (ofDayNumber day).dayNumber = day :=
  (ofDayNumber_spec day).2.2.2

theorem isValid_ofDayNumber (day : Int) : (ofDayNumber day).isValid = true := by
  obtain ⟨⟨length, hlength, hday⟩, hmonth, hfirst, -⟩ := ofDayNumber_spec day
  simp [isValid, hlength, hday, hmonth, hfirst]

/-- Months and days of the month have two digits. -/
theorem bounds_of_isValid {date : Date} (h : date.isValid = true) :
    date.month ≤ 12 ∧ date.day ≤ 31 := by
  simp only [isValid, Bool.and_eq_true, decide_eq_true_eq] at h
  obtain ⟨⟨-, hfirst⟩, hday⟩ := h
  cases hlength : (monthLengths date.year)[date.month - 1]? with
  | none =>
    rw [hlength] at hday
    exact absurd (Nat.le_trans hfirst hday) (by decide)
  | some length =>
    obtain ⟨hmonth, hmem⟩ := List.getElem?_eq_some_iff.1 hlength
    have hlengths : ∀ leap : Bool,
        ∀ n ∈ [31, if leap then 29 else 28, 31, 30, 31, 30, 31, 31, 30, 31, 30, 31], n ≤ 31 := by
      decide
    have hlong : length ≤ 31 := hlengths _ _ (hmem ▸ List.getElem_mem hmonth)
    have htwelve : (monthLengths date.year).length = 12 := rfl
    rw [hlength, Option.getD_some] at hday
    omega

end Date

end Calendar

end LooseRecords

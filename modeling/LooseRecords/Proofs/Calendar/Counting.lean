import LooseRecords.Proofs.Calendar.Date

/-!
# Days between dates

Dates follow each other day by day, and a number of days is counted by going from one date to the
other. `Calendar.Date.daysBetween_epoch_iff` says that the number of a date counts the days from
1970-01-01 to that date.
-/

namespace LooseRecords

namespace Calendar

/-! ## Months -/

theorem length_monthLengths (year : Int) : (monthLengths year).length = 12 := rfl

/-- No month is empty. -/
theorem pos_of_mem_monthLengths {year : Int} {length : Nat} (h : length ∈ monthLengths year) :
    1 ≤ length := by
  have hall : ∀ leap : Bool,
      ∀ n ∈ [31, if leap then 29 else 28, 31, 30, 31, 30, 31, 31, 30, 31, 30, 31], 1 ≤ n := by
    decide
  exact hall (isLeap year) length h

theorem daysBefore_zero (lengths : List Nat) : daysBefore lengths 0 = 0 := by
  cases lengths with
  | nil => rfl
  | cons => rfl

/-- A month adds its days to those of the months in front of it. -/
theorem daysBefore_succ {lengths : List Nat} {month length : Nat}
    (h : lengths[month]? = some length) :
    daysBefore lengths (month + 1) = daysBefore lengths month + length := by
  induction lengths generalizing month with
  | nil => cases h
  | cons first lengths ih =>
    cases month with
    | zero =>
      obtain rfl : first = length := by simpa using h
      rw [daysBefore, daysBefore_zero, daysBefore_zero, Nat.add_comm]
    | succ month =>
      have hnext := @ih month (by simpa using h)
      simp only [daysBefore] at hnext ⊢
      omega

theorem daysBefore_le (lengths : List Nat) {month other : Nat} (h : month ≤ other) :
    daysBefore lengths month ≤ daysBefore lengths other := by
  induction lengths generalizing month other with
  | nil => exact Nat.le_refl 0
  | cons first lengths ih =>
    cases month with
    | zero =>
      rw [daysBefore_zero]
      exact Nat.zero_le _
    | succ month =>
      cases other with
      | zero => omega
      | succ other =>
        have hnext := @ih month other (by omega)
        simp only [daysBefore]
        omega

/-- The month and the day in it are found again from the days that have passed. -/
theorem monthAndDay_daysBefore {lengths : List Nat} {month length days : Nat}
    (h : lengths[month]? = some length) (hdays : days < length) :
    monthAndDay lengths (daysBefore lengths month + days) = (month, days) := by
  induction lengths generalizing month with
  | nil => cases h
  | cons first lengths ih =>
    cases month with
    | zero =>
      obtain rfl : first = length := by simpa using h
      rw [daysBefore_zero, Nat.zero_add, monthAndDay, if_pos hdays]
    | succ month =>
      have hnext := @ih month (by simpa using h)
      have hge : ¬ first + daysBefore lengths month + days < first := by omega
      have hrest : first + daysBefore lengths month + days - first =
          daysBefore lengths month + days := by omega
      simp only [daysBefore, monthAndDay, if_neg hge, hrest, hnext]

/-! ## Years -/

/-- Years follow each other. -/
theorem firstDay_le_firstDay {year other : Int} (h : year ≤ other) :
    firstDay year ≤ firstDay other := by
  simp only [firstDay]
  omega

/-- A day belongs to the only year that it lies in. -/
theorem yearOf_eq {year day : Int} (hlow : firstDay year ≤ day) (hhigh : day < firstDay (year + 1)) :
    yearOf day = year := by
  obtain ⟨hfirst, hlast⟩ := yearOf_bounds day
  rcases Int.lt_trichotomy (yearOf day) year with hlt | heq | hgt
  · have hnext : firstDay (yearOf day + 1) ≤ firstDay year := firstDay_le_firstDay (by omega)
    omega
  · exact heq
  · have hnext : firstDay (year + 1) ≤ firstDay (yearOf day) := firstDay_le_firstDay (by omega)
    omega

/-- The months of a year fill it. -/
theorem firstDay_succ_eq (year : Int) :
    firstDay (year + 1) = firstDay year + daysBefore (monthLengths year) 12 := by
  rw [firstDay_succ, daysBefore_monthLengths]
  split
  · rfl
  · rfl

/-! ## Dates -/

namespace Date

theorem isValid_iff (d : Date) :
    d.isValid = true ↔ 1 ≤ d.month ∧ 1 ≤ d.day ∧
      ∃ length, (monthLengths d.year)[d.month - 1]? = some length ∧ d.day ≤ length := by
  simp only [isValid, Bool.and_eq_true, decide_eq_true_eq, and_assoc]
  cases hlength : (monthLengths d.year)[d.month - 1]? with
  | none => simp; omega
  | some length => simp

/-- Each month begins. -/
theorem isValid_first {month : Nat} (hpos : 1 ≤ month) (hle : month ≤ 12) (year : Int) :
    isValid { year, month, day := 1 } = true := by
  have hlt : month - 1 < (monthLengths year).length := by
    rw [length_monthLengths]
    omega
  exact (isValid_iff _).2 ⟨hpos, Nat.le_refl 1, _, List.getElem?_eq_getElem hlt,
    pos_of_mem_monthLengths (List.getElem_mem hlt)⟩

/-- A date is found again from its number. -/
theorem ofDayNumber_dayNumber {d : Date} (h : d.isValid = true) : ofDayNumber d.dayNumber = d := by
  obtain ⟨hmonth, hday, length, hlength, hle⟩ := (isValid_iff d).1 h
  obtain ⟨year, month, day⟩ := d
  simp only at hmonth hday hlength hle
  obtain ⟨days, hdays⟩ : ∃ days : Nat,
      days = daysBefore (monthLengths year) (month - 1) + (day - 1) := ⟨_, rfl⟩
  have hnumber : dayNumber { year, month, day } = firstDay year + days := by
    simp only [dayNumber]
    omega
  have hyear : yearOf (firstDay year + days) = year := by
    have hsucc := daysBefore_succ hlength
    have hwhole : daysBefore (monthLengths year) (month - 1 + 1) ≤
        daysBefore (monthLengths year) 12 := by
      have hlt := (List.getElem?_eq_some_iff.1 hlength).1
      rw [length_monthLengths] at hlt
      exact daysBefore_le _ (by omega)
    refine yearOf_eq (by omega) ?_
    rw [firstDay_succ_eq]
    omega
  have hrest : (firstDay year + days - firstDay year).toNat = days := by omega
  rw [hnumber, ofDayNumber, hyear, hrest, hdays, monthAndDay_daysBefore hlength (by omega)]
  simp only [Date.mk.injEq, true_and]
  omega

/-- Dates with one number are one date. -/
theorem eq_of_dayNumber {d e : Date} (hd : d.isValid = true) (he : e.isValid = true)
    (h : d.dayNumber = e.dayNumber) : d = e := by
  rw [← ofDayNumber_dayNumber hd, h, ofDayNumber_dayNumber he]

/-! ## Day by day -/

/-- The next day of the month, or the first day of the next month, or that of the next year. -/
def next (d : Date) : Date :=
  let tomorrow : Date := { d with day := d.day + 1 }
  let nextMonth : Date := { d with month := d.month + 1, day := 1 }
  if tomorrow.isValid then tomorrow
  else if nextMonth.isValid then nextMonth
  else { year := d.year + 1, month := 1, day := 1 }

theorem next_spec {d : Date} (h : d.isValid = true) :
    d.next.isValid = true ∧ d.next.dayNumber = d.dayNumber + 1 := by
  obtain ⟨hmonth, hday, length, hlength, hle⟩ := (isValid_iff d).1 h
  rw [next]
  split
  case isTrue htomorrow =>
    refine ⟨htomorrow, ?_⟩
    simp only [dayNumber]
    omega
  case isFalse htomorrow =>
    -- Today is the last day of its month.
    have hlast : d.day = length := by
      by_cases hlt : d.day + 1 ≤ length
      · exact absurd ((isValid_iff { d with day := d.day + 1 }).2
          ⟨hmonth, Nat.le_add_left 1 d.day, length, hlength, hlt⟩) htomorrow
      · omega
    have hsucc := daysBefore_succ hlength
    rw [Nat.sub_add_cancel hmonth] at hsucc
    split
    case isTrue hnext =>
      refine ⟨hnext, ?_⟩
      simp only [dayNumber, Nat.add_sub_cancel, hsucc]
      omega
    case isFalse hnext =>
      -- And the month is the last one of its year.
      have htwelve : d.month = 12 := by
        have hbound := (bounds_of_isValid h).1
        by_cases hlt : d.month + 1 ≤ 12
        · exact absurd (isValid_first (by omega) hlt d.year) hnext
        · omega
      rw [htwelve] at hsucc
      refine ⟨isValid_first (Nat.le_refl 1) (by decide) _, ?_⟩
      simp only [dayNumber, firstDay_succ_eq, hsucc, htwelve, Nat.sub_self, daysBefore_zero]
      omega

/-- The date a number of days after a date. -/
def after (d : Date) : Nat → Date
  | 0 => d
  | n + 1 => (d.after n).next

theorem after_spec {d : Date} (h : d.isValid = true) (n : Nat) :
    (d.after n).isValid = true ∧ (d.after n).dayNumber = d.dayNumber + n := by
  induction n with
  | zero => exact ⟨h, (Int.add_zero _).symm⟩
  | succ n ih =>
    obtain ⟨hvalid, hnumber⟩ := next_spec ih.1
    refine ⟨hvalid, ?_⟩
    show (d.after n).next.dayNumber = d.dayNumber + ((n + 1 : Nat) : Int)
    rw [hnumber, ih.2]
    omega

/-- So many days lead from one date to another; a negative number of days leads back. -/
def DaysBetween (d e : Date) (days : Int) : Prop :=
  (∃ n : Nat, days = n ∧ d.after n = e) ∨ ∃ n : Nat, days = -n ∧ e.after n = d

/-- The days between two dates are the difference of their numbers. -/
theorem daysBetween_iff {d e : Date} (hd : d.isValid = true) (he : e.isValid = true) (days : Int) :
    DaysBetween d e days ↔ days = e.dayNumber - d.dayNumber := by
  have hdAfter := after_spec hd
  have heAfter := after_spec he
  constructor
  · rintro (⟨n, rfl, rfl⟩ | ⟨n, rfl, rfl⟩)
    · have hnumber := (hdAfter n).2
      omega
    · have hnumber := (heAfter n).2
      omega
  · intro hdays
    by_cases hsign : 0 ≤ days
    · refine .inl ⟨days.toNat, by omega, eq_of_dayNumber (hdAfter _).1 he ?_⟩
      rw [(hdAfter _).2]
      omega
    · refine .inr ⟨(-days).toNat, by omega, eq_of_dayNumber (heAfter _).1 hd ?_⟩
      rw [(heAfter _).2]
      omega

/-- The first day of 1970. -/
def epoch : Date := { year := 1970, month := 1, day := 1 }

/-- The number of a date counts the days from 1970-01-01 to it. -/
theorem daysBetween_epoch_iff {d : Date} (h : d.isValid = true) (days : Int) :
    DaysBetween epoch d days ↔ days = d.dayNumber := by
  have hepoch : epoch.dayNumber = 0 := by decide
  rw [daysBetween_iff (by decide) h, hepoch, Int.sub_zero]

end Date

end Calendar

end LooseRecords

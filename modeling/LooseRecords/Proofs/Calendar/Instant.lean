import LooseRecords.Proofs.Calendar.IsoText
import LooseRecords.Proofs.Json.Scan
import LooseRecords.Proofs.Text.Blank
import LooseRecords.Value.Written

/-!
# Instants read back

The ISO form of an instant is read back as that instant as long as its year has four digits. Other
years carry a sign, and then the text is not a date any more: `Instant.iso_read_back`.
-/

namespace LooseRecords

namespace Instant

/-! ## Numbers of a fixed width -/

theorem length_padded {width n : Nat} (hwidth : 0 < width) (h : n < 10 ^ width) :
    (padded width n).length = width := by
  have hle : (Nat.toDigits 10 n).length ≤ width :=
    (Nat.length_toDigits_le_iff (by decide) hwidth).2 h
  simp only [padded, List.length_append, List.length_replicate]
  omega

theorem allDigits_padded (width n : Nat) : AllDigits (padded width n) :=
  (AllDigits.zeros _).append (.toDigits n)

theorem natural_padded (width n : Nat) : Numeral.natural (padded width n) = n :=
  (Numeral.natural_zeros_append _ _).trans (Numeral.natural_toDigits n)

/-- A number of a fixed width as digits. -/
def paddedDigits {width n : Nat} (hwidth : 0 < width) (h : n < 10 ^ width) : Digits width :=
  ⟨padded width n, length_padded hwidth h, allDigits_padded width n⟩

theorem value_paddedDigits {width n : Nat} (hwidth : 0 < width) (h : n < 10 ^ width) :
    (paddedDigits hwidth h).value = n := natural_padded width n

/-! ## Times -/

/-- The time of a day as it is written. -/
def timeText (time : Nat) : List Char :=
  padded 2 (time / 3600000) ++ ':' :: (padded 2 (time / 60000 % 60) ++
    ':' :: (padded 2 (time / 1000 % 60) ++ '.' :: padded 3 (time % 1000)))

/-- The parts of a time of a day in UTC. -/
def utcClock {time : Nat} (h : time < 86400000) : Clock :=
  .written (@paddedDigits 2 (time / 3600000) (by decide) (by omega))
    (@paddedDigits 2 (time / 60000 % 60) (by decide) (by omega))
    (.written (@paddedDigits 2 (time / 1000 % 60) (by decide) (by omega))
      (.written (@paddedDigits 3 (time % 1000) (by decide) (by omega)) (by decide) (by decide)))
    .utc

theorem text_utcClock {time : Nat} (h : time < 86400000) :
    (utcClock h).text = 'T' :: (timeText time ++ ['Z']) := by
  simp [utcClock, Clock.text, Second.text, Fraction.text, Zone.text, paddedDigits, timeText]

theorem millis_utcClock {time : Nat} (h : time < 86400000) : (utcClock h).millis = time := by
  simp only [utcClock, Clock.millis, Second.millis, Fraction.millis, value_paddedDigits]
  omega

theorem inRange_utcClock {time : Nat} (h : time < 86400000) : (utcClock h).InRange := by
  refine ⟨?_, ?_, ?_, trivial⟩
  · rw [value_paddedDigits]
    omega
  · rw [value_paddedDigits]
    omega
  · rw [Second.InRange, value_paddedDigits]
    omega

/-! ## Dates and times -/

/-- A date as it is written. -/
def dateText (date : Calendar.Date) : List Char :=
  yearText date.year ++ '-' :: (padded 2 date.month ++ '-' :: padded 2 date.day)

/-- A year is written with four digits and without a sign. -/
def IsPlainYear (year : Int) : Prop := 0 ≤ year ∧ year ≤ 9999

theorem yearText_natCast {year : Nat} (h : year ≤ 9999) : yearText year = padded 4 year := by
  have hlow : ¬ (year : Int) < 0 := by omega
  have hhigh : ¬ 9999 < (year : Int) := by omega
  simp only [yearText, if_neg hlow, if_neg hhigh, Int.natAbs_natCast]

/-- A date with a time in UTC is read back. -/
theorem readIso?_dateText {date : Calendar.Date} (hvalid : date.isValid = true)
    (hyear : IsPlainYear date.year) {time : Nat} (htime : time < 86400000) :
    readIso? (dateText date ++ 'T' :: (timeText time ++ ['Z'])) =
      some ⟨date.dayNumber * dayLength + time⟩ := by
  have hbounds := Calendar.Date.bounds_of_isValid hvalid
  obtain ⟨year, month, day⟩ := date
  obtain ⟨hmonth, hday⟩ : month ≤ 12 ∧ day ≤ 31 := hbounds
  obtain ⟨hlow, hhigh⟩ : 0 ≤ year ∧ year ≤ 9999 := hyear
  obtain ⟨n, rfl⟩ : ∃ n : Nat, year = n := ⟨year.toNat, by omega⟩
  have hn : n ≤ 9999 := by omega
  obtain ⟨w, hw⟩ : ∃ w : IsoText, w =
      { year := @paddedDigits 4 n (by decide) (by omega)
        month := @paddedDigits 2 month (by decide) (by omega)
        day := @paddedDigits 2 day (by decide) (by omega)
        clock := utcClock htime } := ⟨_, rfl⟩
  have htext : w.text = dateText ⟨n, month, day⟩ ++ 'T' :: (timeText time ++ ['Z']) := by
    simp [hw, IsoText.text, text_utcClock, dateText, yearText_natCast hn, paddedDigits]
  have hdate : w.date = ⟨n, month, day⟩ := by
    simp only [hw, IsoText.date, value_paddedDigits]
  have hclock : w.clock.millis = time ∧ w.clock.zone = .utc := by
    rw [hw]
    exact ⟨millis_utcClock htime, rfl⟩
  have hrange : w.InRange := ⟨hdate ▸ hvalid, by rw [hw]; exact inRange_utcClock htime⟩
  rw [← htext, readIso?_text hrange, IsoText.instant, hdate, hclock.1, hclock.2]
  simp [Zone.minutesAhead]

theorem iso_eq (t : Instant) :
    t.iso = dateText (.ofDayNumber (t.millis / dayLength)) ++
      'T' :: (timeText (t.millis % dayLength).toNat ++ ['Z']) := by
  simp [iso, dateText, timeText]

/-- The year of an instant in UTC. -/
def year (t : Instant) : Int := (Calendar.Date.ofDayNumber (t.millis / dayLength)).year

theorem readIso?_iso {t : Instant} (h : IsPlainYear t.year) : readIso? t.iso = some t := by
  have htime : (t.millis % dayLength).toNat < 86400000 := by
    simp only [dayLength]
    omega
  have hmillis : t.millis / dayLength * dayLength + (t.millis % dayLength).toNat = t.millis := by
    simp only [dayLength]
    omega
  rw [iso_eq, readIso?_dateText (Calendar.Date.isValid_ofDayNumber _) h htime,
    Calendar.Date.dayNumber_ofDayNumber, hmillis]

/-! ## What the text is not -/

/-- A year is written as digits, with a sign in front exactly if it has not four of them. -/
theorem yearText_eq (year : Int) :
    ∃ sign : Option Char, yearText year = sign.toList ++ padded 4 year.natAbs ∧
      (∀ c ∈ sign, c = '-' ∨ c = '+') ∧ (sign = none ↔ IsPlainYear year) := by
  unfold IsPlainYear
  by_cases hlow : year < 0
  · exact ⟨some '-', by simp [yearText, hlow], by simp, by simp; omega⟩
  · by_cases hhigh : 9999 < year
    · exact ⟨some '+', by simp [yearText, hlow, hhigh], by simp, by simp; omega⟩
    · exact ⟨none, by simp [yearText, hlow, hhigh], by simp, by simp; omega⟩

theorem padded_ne_nil (width n : Nat) : padded width n ≠ [] := by
  simp [padded, Nat.toDigits_ne_nil]

/-- A date is written with digits, hyphens and perhaps a plus sign. -/
theorem mem_dateText {date : Calendar.Date} {c : Char} (h : c ∈ dateText date) :
    Numeral.Part c := by
  obtain ⟨sign, htext, hsign, -⟩ := yearText_eq date.year
  simp only [dateText, htext, List.mem_append, List.mem_cons, Option.mem_toList] at h
  have hpadded : ∀ width n, c ∈ padded width n → c.isDigit = true := fun width n hc =>
    allDigits_padded width n c hc
  rcases h with (hs | hyear) | rfl | hmonth | rfl | hday
  · rcases hsign c hs with rfl | rfl <;> decide
  · exact .inl (hpadded _ _ hyear)
  · decide
  · exact .inl (hpadded _ _ hmonth)
  · decide
  · exact .inl (hpadded _ _ hday)

/-- A hyphen behind digits is no part of a numeral. -/
theorem ofChars?_hyphen {sign : Option Char} (hsign : ∀ c ∈ sign, c = '+' ∨ c = '-')
    {digits : List Char} (hdigits : AllDigits digits) (hne : digits ≠ []) (behind : List Char) :
    Numeral.ofChars? (sign.toList ++ (digits ++ '-' :: behind)) = none := by
  have hhead : ∀ c ∈ (digits ++ '-' :: behind).head?, c ≠ '+' ∧ c ≠ '-' := by
    intro c hc
    obtain ⟨d, rest, rfl⟩ := List.exists_cons_of_ne_nil hne
    cases hc
    exact Numeral.sign_of_isDigit (hdigits _ List.mem_cons_self)
  have hhyphen : ∀ c ∈ ('-' :: behind).head?, c.isDigit = false := by simp
  obtain ⟨hwhole, hrest⟩ := hdigits.takeWhile_append hhyphen
  simp only [Numeral.ofChars?, Numeral.takeSign_append hsign hhead, hwhole, hrest]
  rfl

theorem ofChars?_dateText (date : Calendar.Date) (rest : List Char) :
    Numeral.ofChars? (dateText date ++ rest) = none := by
  obtain ⟨sign, htext, hsign, -⟩ := yearText_eq date.year
  have hdate : dateText date ++ rest = sign.toList ++ (padded 4 date.year.natAbs ++
      '-' :: (padded 2 date.month ++ '-' :: padded 2 date.day ++ rest)) := by
    simp [dateText, htext]
  rw [hdate]
  exact ofChars?_hyphen (fun c hc => (hsign c hc).symm) (allDigits_padded _ _)
    (padded_ne_nil _ _) _

/-- A date has a hyphen, which tells it from the words of JSON. -/
theorem dateText_append_ne (date : Calendar.Date) (rest : List Char) {text : List Char}
    (h : '-' ∉ text) : dateText date ++ rest ≠ text := by
  rintro rfl
  exact h (by simp [dateText])

theorem trim_iso (t : Instant) : Text.trim t.iso = t.iso := by
  refine Text.trim_eq_self ?_ ?_
  · intro c hc
    rw [iso_eq] at hc
    cases hdate : dateText (.ofDayNumber (t.millis / dayLength)) with
    | nil => exact absurd hdate (by simp [dateText])
    | cons d rest =>
      have hmem : d ∈ dateText (.ofDayNumber (t.millis / dayLength)) := by simp [hdate]
      rw [hdate] at hc
      cases hc
      exact Text.isBlank_of_numeral (mem_dateText hmem)
  · intro c hc
    obtain ⟨front, hfront⟩ : ∃ front, t.iso = front ++ ['Z'] := ⟨_, rfl⟩
    obtain rfl : 'Z' = c := by simpa [hfront] using hc
    decide

/-- The text up to the first colon is a word, but none of JSON. -/
theorem read?_iso (t : Instant) : Json.read? t.iso = none := by
  generalize hdate : Calendar.Date.ofDayNumber (t.millis / dayLength) = date
  generalize htime : (t.millis % dayLength).toNat = time
  obtain ⟨word, hword⟩ : ∃ word, word = dateText date ++ 'T' :: padded 2 (time / 3600000) :=
    ⟨_, rfl⟩
  obtain ⟨rest, hrest⟩ : ∃ rest, t.iso = word ++ ':' :: rest := by
    rw [iso_eq, hdate, htime, hword]
    simp [timeText]
  have hends : ∀ c ∈ word, Json.Token.Scan.endsWord c = false := by
    intro c hc
    rw [hword, List.mem_append, List.mem_cons] at hc
    rcases hc with hc | rfl | hc
    · exact Json.Token.Scan.endsWord_of_numeral (mem_dateText hc)
    · decide
    · exact Json.Token.Scan.endsWord_of_numeral (.inl (allDigits_padded _ _ c hc))
  have hnone : Json.Token.word? word = none := by
    rw [hword, Json.Token.word?, if_neg (dateText_append_ne _ _ (by decide)),
      if_neg (dateText_append_ne _ _ (by decide)), if_neg (dateText_append_ne _ _ (by decide)),
      ofChars?_dateText]
    rfl
  have hne : word ≠ [] := by
    rw [hword]
    simp
  have hscan := Json.Token.scan?_eq_none hne hends hnone (c := ':') (by decide) rest
  rw [Json.read?, Json.Document.read?, hrest, hscan]
  rfl

/-- A text that begins with no digit is no date. -/
theorem readIso?_of_sign {sign : Char} (h : sign.isDigit = false) (rest : List Char) :
    readIso? (sign :: rest) = none := by
  have htake : takeNumber? 4 (sign :: rest) = none := by simp [takeNumber?, h]
  rw [readIso?, htake]
  rfl

/-! ## Written instants -/

/-- Of all types, the ISO form of an instant suggests that of a date at most. -/
theorem typed?_iso (t : Instant) : Value.typed? t.iso = (readIso? t.iso).map .date := by
  have hnumber : Value.plainNumber? t.iso = none := by
    rw [Value.plainNumber?, iso_eq, ofChars?_dateText]
    rfl
  have hcontainer : Value.container? t.iso = none := by
    rw [Value.container?, read?_iso]
  have hword : ∀ text : List Char, '-' ∉ text → t.iso ≠ text := by
    intro text h
    rw [iso_eq]
    exact dateText_append_ne _ _ h
  rw [Value.typed?, if_neg (hword _ (by decide)), if_neg (hword _ (by decide)),
    if_neg (hword _ (by decide)), hnumber]
  cases hread : readIso? t.iso with
  | none => exact hcontainer
  | some u => rfl

theorem ofWritten_iso (t : Instant) :
    Value.ofWritten (String.ofList t.iso) =
      ((readIso? t.iso).map Value.date).getD (.string (String.ofList t.iso)) := by
  rw [Value.ofWritten, String.toList_ofList, trim_iso, typed?_iso]

/-- Writing an instant and reading it back. With a year of four digits the text is read as the
instant, and a field that is assigned the text holds the instant. Any other year carries a sign, and
then the text is no date: a field that is assigned it holds the text. -/
theorem iso_read_back (t : Instant) :
    (IsPlainYear t.year →
      readIso? t.iso = some t ∧ Value.ofWritten (String.ofList t.iso) = .date t) ∧
      (¬ IsPlainYear t.year →
        (∃ sign rest, t.iso = sign :: rest ∧ (sign = '-' ∨ sign = '+')) ∧ readIso? t.iso = none ∧
          Value.ofWritten (String.ofList t.iso) = .string (String.ofList t.iso)) := by
  constructor
  · intro hyear
    have hread := readIso?_iso hyear
    rw [ofWritten_iso, hread]
    exact ⟨rfl, rfl⟩
  · intro hyear
    obtain ⟨sign, htext, hsign, hplain⟩ := yearText_eq t.year
    obtain ⟨c, rfl⟩ := Option.ne_none_iff_exists'.1 (mt hplain.1 hyear)
    obtain ⟨rest, hiso⟩ : ∃ rest, t.iso = c :: rest := by
      rw [year] at htext
      rw [iso_eq, dateText, htext]
      exact ⟨_, rfl⟩
    have hdigit : c.isDigit = false := by rcases hsign c rfl with rfl | rfl <;> rfl
    have hread : readIso? t.iso = none := hiso ▸ readIso?_of_sign hdigit rest
    rw [ofWritten_iso, hread]
    exact ⟨⟨c, rest, hiso, hsign c rfl⟩, rfl, rfl⟩

/-- The last millisecond of a leap day before 1970, and the first one of the year 10000. -/
theorem iso_read_back_leap :
    let leap : Instant := ⟨-11670912000001⟩
    let late : Instant := ⟨253402300800000⟩
    IsPlainYear leap.year ∧ leap.iso = "1600-02-29T23:59:59.999Z".toList ∧
      readIso? leap.iso = some leap ∧ Value.ofWritten "1600-02-29T23:59:59.999Z" = .date leap ∧
      ¬ IsPlainYear late.year ∧ late.iso = "+10000-01-01T00:00:00.000Z".toList ∧
      readIso? late.iso = none := by
  intro leap late
  have hleap : IsPlainYear leap.year := by
    unfold IsPlainYear
    decide
  have hlate : ¬ IsPlainYear late.year := by
    unfold IsPlainYear
    decide
  have hleapText : leap.iso = "1600-02-29T23:59:59.999Z".toList := by decide
  have hlateText : late.iso = "+10000-01-01T00:00:00.000Z".toList := by decide
  obtain ⟨hread, hwritten⟩ := (iso_read_back leap).1 hleap
  obtain ⟨-, hnone, -⟩ := (iso_read_back late).2 hlate
  refine ⟨hleap, hleapText, hread, ?_, hlate, hlateText, hnone⟩
  rw [hleapText] at hwritten
  exact hwritten

end Instant

end LooseRecords

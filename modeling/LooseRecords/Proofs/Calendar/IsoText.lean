import LooseRecords.Calendar.Instant
import LooseRecords.Proofs.Calendar.Counting
import LooseRecords.Proofs.Number.Numeral

/-!
# ISO texts

The texts that are read as instants: a date, perhaps a time of day behind it, and perhaps an offset
from UTC behind that. `IsoText` holds the written parts, and `Instant.readIso?_exact` says that just
the texts whose parts are within their ranges are read, and as what.
-/

namespace LooseRecords

/-! ## Written parts -/

/-- So many ASCII digits. -/
structure Digits (count : Nat) where
  chars : List Char
  length_chars : chars.length = count
  allDigits : AllDigits chars

instance (text : List Char) : Decidable (AllDigits text) :=
  decidable_of_iff (text.all Char.isDigit = true) List.all_eq_true

/-- The number that digits write. -/
def Digits.value {count : Nat} (digits : Digits count) : Nat := Numeral.natural digits.chars

/-- The fraction of a second, behind a point. -/
inductive Fraction where
  | unwritten
  | written {count : Nat} (digits : Digits count) (hpos : 1 ≤ count) (hle : count ≤ 9)

/-- A second, behind a colon. -/
inductive Second where
  | unwritten
  | written (whole : Digits 2) (fraction : Fraction)

/-- An offset from UTC. -/
inductive Zone where
  | unwritten
  | utc
  | offset (west : Bool) (hours : Digits 2) (colon : Bool) (minutes : Digits 2)

/-- A time of day, behind a T. -/
inductive Clock where
  | unwritten
  | written (hour minute : Digits 2) (second : Second) (zone : Zone)

/-- A date with a time of day. -/
structure IsoText where
  year : Digits 4
  month : Digits 2
  day : Digits 2
  clock : Clock

namespace Fraction

/-- The fraction as it is written. -/
def text : Fraction → List Char
  | .unwritten => []
  | .written digits _ _ => '.' :: digits.chars

/-- The milliseconds of a fraction. What is less than a millisecond is dropped. -/
def millis : Fraction → Nat
  | .unwritten => 0
  | @written count digits _ _ => digits.value * 1000 / 10 ^ count

end Fraction

namespace Second

/-- The second as it is written. -/
def text : Second → List Char
  | .unwritten => []
  | .written whole fraction => ':' :: (whole.chars ++ fraction.text)

/-- The milliseconds of a second. -/
def millis : Second → Nat
  | .unwritten => 0
  | .written whole fraction => whole.value * 1000 + fraction.millis

/-- The second is one of a minute. -/
def InRange : Second → Prop
  | .unwritten => True
  | .written whole _ => whole.value ≤ 59

instance : DecidablePred InRange
  | .unwritten => isTrue trivial
  | .written whole _ => inferInstanceAs (Decidable (whole.value ≤ 59))

end Second

namespace Zone

/-- Hours and minutes as they are written, with or without a colon between them. -/
def hoursAndMinutes (hours : Digits 2) (colon : Bool) (minutes : Digits 2) : List Char :=
  hours.chars ++ if colon then ':' :: minutes.chars else minutes.chars

/-- The offset as it is written. -/
def text : Zone → List Char
  | .unwritten => []
  | .utc => ['Z']
  | .offset west hours colon minutes =>
    (if west then '-' else '+') :: hoursAndMinutes hours colon minutes

/-- The minutes by which a clock is ahead of UTC. -/
def minutesAhead : Zone → Int
  | .unwritten | .utc => 0
  | .offset west hours _ minutes =>
    if west then -(hours.value * 60 + minutes.value : Int) else hours.value * 60 + minutes.value

/-- Hours and minutes are those of a day. -/
def InRange : Zone → Prop
  | .unwritten | .utc => True
  | .offset _ hours _ minutes => hours.value ≤ 23 ∧ minutes.value ≤ 59

instance : DecidablePred InRange
  | .unwritten | .utc => isTrue trivial
  | .offset _ hours _ minutes =>
    inferInstanceAs (Decidable (hours.value ≤ 23 ∧ minutes.value ≤ 59))

end Zone

namespace Clock

/-- The offset of a time of day. -/
def zone : Clock → Zone
  | .unwritten => .unwritten
  | .written _ _ _ zone => zone

/-- The time of day as it is written. -/
def text : Clock → List Char
  | .unwritten => []
  | .written hour minute second zone =>
    'T' :: (hour.chars ++ ':' :: (minute.chars ++ (second.text ++ zone.text)))

/-- The milliseconds since midnight. -/
def millis : Clock → Nat
  | .unwritten => 0
  | .written hour minute second _ => hour.value * 3600000 + minute.value * 60000 + second.millis

/-- Hour, minute and second are those of a day, and so is the offset. -/
def InRange : Clock → Prop
  | .unwritten => True
  | .written hour minute second zone =>
    hour.value ≤ 23 ∧ minute.value ≤ 59 ∧ second.InRange ∧ zone.InRange

instance : DecidablePred InRange
  | .unwritten => isTrue trivial
  | .written hour minute second zone =>
    inferInstanceAs (Decidable
      (hour.value ≤ 23 ∧ minute.value ≤ 59 ∧ second.InRange ∧ zone.InRange))

end Clock

namespace IsoText

/-- The whole text. -/
def text (w : IsoText) : List Char :=
  w.year.chars ++ '-' :: (w.month.chars ++ '-' :: (w.day.chars ++ w.clock.text))

/-- The date of a text. -/
def date (w : IsoText) : Calendar.Date :=
  { year := w.year.value, month := w.month.value, day := w.day.value }

/-- The date exists, and so does the time of day. -/
def InRange (w : IsoText) : Prop := w.date.isValid = true ∧ w.clock.InRange

instance : DecidablePred InRange := fun w =>
  inferInstanceAs (Decidable (w.date.isValid = true ∧ w.clock.InRange))

/-- The instant by the number of its day. -/
def instant (w : IsoText) : Instant :=
  ⟨w.date.dayNumber * Instant.dayLength + w.clock.millis - w.clock.zone.minutesAhead * 60000⟩

/-- The instant is the date with the time of day, less the offset. -/
def StandsFor (w : IsoText) (t : Instant) : Prop :=
  ∃ days, Calendar.Date.DaysBetween .epoch w.date days ∧
    t.millis = 86400000 * days + w.clock.millis - 60000 * w.clock.zone.minutesAhead

theorem standsFor_iff {w : IsoText} (h : w.InRange) (t : Instant) :
    w.StandsFor t ↔ t = w.instant := by
  obtain ⟨millis⟩ := t
  have hmillis : w.instant.millis =
      86400000 * w.date.dayNumber + w.clock.millis - 60000 * w.clock.zone.minutesAhead := by
    simp only [instant, Instant.dayLength]
    omega
  simp only [StandsFor, Calendar.Date.daysBetween_epoch_iff h.1, exists_eq_left, ← hmillis]
  exact ⟨fun ht => congrArg Instant.mk ht, fun ht => congrArg Instant.millis ht⟩

end IsoText

namespace Instant

/-! ## Numbers and marks -/

theorem takeNumber?_chars {count : Nat} (digits : Digits count) (rest : List Char) :
    takeNumber? count (digits.chars ++ rest) = some (digits.value, rest) := by
  have htake : (digits.chars ++ rest).take count = digits.chars :=
    List.take_left' digits.length_chars
  have hdrop : (digits.chars ++ rest).drop count = rest := List.drop_left' digits.length_chars
  have hall : digits.chars.all Char.isDigit = true := List.all_eq_true.2 digits.allDigits
  simp [takeNumber?, htake, hdrop, digits.length_chars, hall, Digits.value]

theorem exists_of_takeNumber? {count n : Nat} {text rest : List Char}
    (h : takeNumber? count text = some (n, rest)) :
    ∃ digits : Digits count, text = digits.chars ++ rest ∧ n = digits.value := by
  rw [takeNumber?] at h
  split at h
  case isTrue hdigits =>
    simp only [Bool.and_eq_true, decide_eq_true_eq] at hdigits
    cases h
    exact ⟨⟨text.take count, hdigits.1, List.all_eq_true.1 hdigits.2⟩,
      (List.take_append_drop count text).symm, rfl⟩
  case isFalse => cases h

theorem after?_eq_some_iff {c : Char} {text rest : List Char} :
    after? c text = some rest ↔ text = c :: rest := by
  cases text with
  | nil => simp [after?]
  | cons d text => simp [after?]

/-! ## Times of day -/

/-- What may stand behind a time of day. -/
def Behind (rest : List Char) : Prop := ∀ c ∈ rest.head?, c ∈ ['Z', '+', '-']

theorem behind_text (zone : Zone) : Behind zone.text := by
  intro c hc
  cases zone with
  | unwritten => cases hc
  | utc =>
    cases hc
    decide
  | offset west hours colon minutes =>
    cases hc
    cases west <;> decide

/-- The first three digits of a fraction, filled up with zeros, are its milliseconds. -/
theorem fractionMillis_chars {count : Nat} (digits : Digits count) (hpos : 1 ≤ count) :
    fractionMillis digits.chars = digits.value * 1000 / 10 ^ count := by
  obtain ⟨chars, rfl, hdigits⟩ := digits
  show Numeral.natural ((chars ++ ['0', '0']).take 3) = Numeral.natural chars * 1000 / _
  by_cases hshort : chars.length ≤ 3
  · obtain ⟨missing, hmissing⟩ : ∃ missing, missing = 3 - chars.length := ⟨_, rfl⟩
    have htake : (chars ++ ['0', '0']).take 3 = chars ++ Number.Layout.zeros missing := by
      have hle : missing ≤ 2 := by omega
      rw [List.take_append, List.take_of_length_le hshort, ← hmissing]
      show chars ++ (List.replicate 2 '0').take missing = _
      rw [List.take_replicate, Nat.min_eq_left hle, Number.Layout.zeros]
    have hpow : 1000 = 10 ^ missing * 10 ^ chars.length := by
      rw [← Nat.pow_add, hmissing, Nat.sub_add_cancel hshort]
    rw [htake, Numeral.natural_append_zeros, hpow, ← Nat.mul_assoc,
      Nat.mul_div_cancel _ (Nat.pow_pos (by decide))]
  · -- The digits behind the third are less than one of the third.
    obtain ⟨first, more, hlength, rfl⟩ :
        ∃ first more, first.length = 3 ∧ chars = first ++ more :=
      ⟨chars.take 3, chars.drop 3, by rw [List.length_take]; omega,
        (List.take_append_drop 3 chars).symm⟩
    have hless : Numeral.natural more < 10 ^ more.length :=
      Numeral.natural_lt (hdigits.sublist (List.sublist_append_right ..))
    rw [List.append_assoc, List.take_left' hlength, Numeral.natural_append, List.length_append,
      hlength, Nat.pow_add, Nat.mul_comm _ 1000, Nat.mul_div_mul_left _ _ (by decide),
      Nat.add_comm, Nat.add_mul_div_right _ _ (Nat.pow_pos (by decide)), Nat.div_eq_of_lt hless,
      Nat.zero_add]

theorem takeFraction?_text (fraction : Fraction) {rest : List Char} (h : Behind rest) :
    takeFraction? (fraction.text ++ rest) = some (fraction.millis, rest) := by
  cases fraction with
  | unwritten =>
    show takeFraction? rest = some (0, rest)
    unfold takeFraction?
    split
    case h_1 text => exact absurd (h '.' rfl) (by decide)
    case h_2 => rfl
  | written digits hpos hle =>
    have hrest : ∀ c ∈ rest.head?, c.isDigit = false := by
      have hmarks : ∀ c ∈ ['Z', '+', '-'], c.isDigit = false := by simp
      exact fun c hc => hmarks c (h c hc)
    obtain ⟨htake, hdrop⟩ := digits.allDigits.takeWhile_append hrest
    show takeFraction? ('.' :: (digits.chars ++ rest)) = some (_, rest)
    simp [takeFraction?, htake, hdrop, digits.length_chars, hpos, hle, fractionMillis_chars,
      Fraction.millis]

theorem exists_of_takeFraction? {n : Nat} {text rest : List Char}
    (h : takeFraction? text = some (n, rest)) :
    ∃ fraction : Fraction, text = fraction.text ++ rest ∧ n = fraction.millis := by
  unfold takeFraction? at h
  split at h
  case h_1 digits =>
    dsimp only at h
    split at h
    case isTrue hlength =>
      simp only [Bool.and_eq_true, decide_eq_true_eq] at hlength
      cases h
      have hall : AllDigits (digits.takeWhile Char.isDigit) :=
        List.all_eq_true.1 List.all_takeWhile
      let written : Digits _ := ⟨digits.takeWhile Char.isDigit, rfl, hall⟩
      exact ⟨.written written hlength.1 hlength.2,
        congrArg ('.' :: ·) List.takeWhile_append_dropWhile.symm,
        fractionMillis_chars written hlength.1⟩
    case isFalse => cases h
  case h_2 =>
    cases h
    exact ⟨.unwritten, rfl, rfl⟩

theorem takeSeconds?_text {second : Second} (hrange : second.InRange) {rest : List Char}
    (h : Behind rest) : takeSeconds? (second.text ++ rest) = some (second.millis, rest) := by
  cases second with
  | unwritten =>
    show takeSeconds? rest = some (0, rest)
    unfold takeSeconds?
    split
    case h_1 text => exact absurd (h ':' rfl) (by decide)
    case h_2 => rfl
  | written whole fraction =>
    have hle : whole.value ≤ 59 := hrange
    have htext : (Second.written whole fraction).text ++ rest =
        ':' :: (whole.chars ++ (fraction.text ++ rest)) := by
      simp [Second.text]
    rw [htext, takeSeconds?, takeNumber?_chars]
    simp only [Option.bind_eq_bind, Option.bind_some, takeFraction?_text fraction h, if_pos hle]
    rfl

theorem exists_of_takeSeconds? {n : Nat} {text rest : List Char}
    (h : takeSeconds? text = some (n, rest)) :
    ∃ second : Second, text = second.text ++ rest ∧ second.InRange ∧ n = second.millis := by
  unfold takeSeconds? at h
  split at h
  case h_1 digits =>
    simp only [Option.bind_eq_bind, Option.bind_eq_some_iff, Prod.exists] at h
    obtain ⟨whole, behind, hwhole, millis, beyond, hfraction, hite⟩ := h
    obtain ⟨whole, rfl, rfl⟩ := exists_of_takeNumber? hwhole
    obtain ⟨fraction, rfl, rfl⟩ := exists_of_takeFraction? hfraction
    split at hite
    case isTrue hle =>
      cases hite
      exact ⟨.written whole fraction, by simp [Second.text], hle, rfl⟩
    case isFalse => cases hite
  case h_2 =>
    cases h
    exact ⟨.unwritten, rfl, trivial, rfl⟩

theorem takeTime?_text {hour minute : Digits 2} {second : Second} (hhour : hour.value ≤ 23)
    (hminute : minute.value ≤ 59) (hsecond : second.InRange) {rest : List Char} (h : Behind rest) :
    takeTime? (hour.chars ++ ':' :: (minute.chars ++ (second.text ++ rest))) =
      some (hour.value * 3600000 + minute.value * 60000 + second.millis, rest) := by
  simp only [takeTime?, takeNumber?_chars, after?, takeSeconds?_text hsecond h,
    Option.bind_eq_bind, Option.bind_some, if_true, hhour, hminute, decide_true, Bool.and_true]

theorem exists_of_takeTime? {n : Nat} {text rest : List Char}
    (h : takeTime? text = some (n, rest)) :
    ∃ (hour minute : Digits 2) (second : Second),
      text = hour.chars ++ ':' :: (minute.chars ++ (second.text ++ rest)) ∧
        (hour.value ≤ 23 ∧ minute.value ≤ 59 ∧ second.InRange) ∧
        n = hour.value * 3600000 + minute.value * 60000 + second.millis := by
  simp only [takeTime?, Option.bind_eq_bind, Option.bind_eq_some_iff, Prod.exists,
    after?_eq_some_iff] at h
  obtain ⟨hour, _, hhour, _, rfl, minute, _, hminute, millis, _, hsecond, hite⟩ := h
  obtain ⟨hour, rfl, rfl⟩ := exists_of_takeNumber? hhour
  obtain ⟨minute, rfl, rfl⟩ := exists_of_takeNumber? hminute
  obtain ⟨second, rfl, hinRange, rfl⟩ := exists_of_takeSeconds? hsecond
  split at hite
  case isTrue hle =>
    simp only [Bool.and_eq_true, decide_eq_true_eq] at hle
    cases hite
    exact ⟨hour, minute, second, rfl, ⟨hle.1, hle.2, hinRange⟩, rfl⟩
  case isFalse => cases hite

/-! ## Offsets -/

theorem offsetMinutes?_text (hours : Digits 2) (colon : Bool) (minutes : Digits 2) :
    offsetMinutes? (Zone.hoursAndMinutes hours colon minutes) =
      if hours.value ≤ 23 && minutes.value ≤ 59 then some (hours.value * 60 + minutes.value : Int)
      else none := by
  have hcolon : ((after? ':' (if colon then ':' :: minutes.chars else minutes.chars)).getD
      (if colon then ':' :: minutes.chars else minutes.chars)) = minutes.chars ++ [] := by
    rw [List.append_nil]
    cases colon with
    | true => rfl
    | false =>
      cases hafter : after? ':' minutes.chars with
      | none => simp [hafter]
      | some rest =>
        -- No digit is a colon.
        have hchars := after?_eq_some_iff.1 hafter
        exact absurd (minutes.allDigits ':' (by simp [hchars])) (by decide)
  simp only [offsetMinutes?, Zone.hoursAndMinutes, takeNumber?_chars, hcolon, Option.bind_eq_bind,
    Option.bind_some, decide_true, Bool.true_and]

theorem exists_of_offsetMinutes? {n : Int} {text : List Char} (h : offsetMinutes? text = some n) :
    ∃ (hours : Digits 2) (colon : Bool) (minutes : Digits 2),
      text = Zone.hoursAndMinutes hours colon minutes ∧
        (hours.value ≤ 23 ∧ minutes.value ≤ 59) ∧ n = hours.value * 60 + minutes.value := by
  simp only [offsetMinutes?, Option.bind_eq_bind, Option.bind_eq_some_iff, Prod.exists] at h
  obtain ⟨hours, behind, hhours, minutes, rest, hminutes, hite⟩ := h
  obtain ⟨hours, rfl, rfl⟩ := exists_of_takeNumber? hhours
  obtain ⟨minutes, hbehind, rfl⟩ := exists_of_takeNumber? hminutes
  split at hite
  case isTrue hle =>
    simp only [Bool.and_eq_true, decide_eq_true_eq] at hle
    obtain ⟨⟨rfl, hhour⟩, hminute⟩ := hle
    rw [List.append_nil] at hbehind
    cases hite
    cases hafter : after? ':' behind with
    | none =>
      rw [hafter, Option.getD_none] at hbehind
      exact ⟨hours, false, minutes, congrArg (hours.chars ++ ·) hbehind, ⟨hhour, hminute⟩, rfl⟩
    | some rest =>
      rw [hafter, Option.getD_some] at hbehind
      rw [after?_eq_some_iff.1 hafter, hbehind]
      exact ⟨hours, true, minutes, rfl, ⟨hhour, hminute⟩, rfl⟩
  case isFalse => cases hite

theorem offset?_text {zone : Zone} (h : zone.InRange) :
    offset? zone.text = some zone.minutesAhead := by
  cases zone with
  | unwritten => rfl
  | utc => rfl
  | offset west hours colon minutes =>
    obtain ⟨hhour, hminute⟩ : hours.value ≤ 23 ∧ minutes.value ≤ 59 := h
    have hminutes := offsetMinutes?_text hours colon minutes
    rw [if_pos (by simp [hhour, hminute])] at hminutes
    cases west with
    | true =>
      show (offsetMinutes? _).map _ = _
      rw [hminutes]
      rfl
    | false => exact hminutes

theorem exists_of_offset? {n : Int} {text : List Char} (h : offset? text = some n) :
    ∃ zone : Zone, text = zone.text ∧ zone.InRange ∧ n = zone.minutesAhead := by
  unfold offset? at h
  split at h
  case h_1 =>
    cases h
    exact ⟨.unwritten, rfl, trivial, rfl⟩
  case h_2 =>
    cases h
    exact ⟨.utc, rfl, trivial, rfl⟩
  case h_3 text =>
    obtain ⟨hours, colon, minutes, rfl, hrange, rfl⟩ := exists_of_offsetMinutes? h
    exact ⟨.offset false hours colon minutes, rfl, hrange, rfl⟩
  case h_4 text =>
    obtain ⟨m, hm, rfl⟩ := Option.map_eq_some_iff.1 h
    obtain ⟨hours, colon, minutes, rfl, hrange, rfl⟩ := exists_of_offsetMinutes? hm
    exact ⟨.offset true hours colon minutes, rfl, hrange, rfl⟩
  case h_5 => cases h

/-! ## Offsets by their bytes -/

/-- A text cut behind so many bytes of its UTF-8 form; there is no cut inside a character nor
behind the end. -/
def cut? : List Char → Nat → Option (List Char × List Char)
  | text, 0 => some ([], text)
  | [], _ + 1 => none
  | c :: text, bytes =>
    if c.utf8Size ≤ bytes then
      (cut? text (bytes - c.utf8Size)).map fun (front, behind) => (c :: front, behind)
    else none

/-- The number that digits write; no digits write no number. -/
def number? (digits : List Char) : Option Nat :=
  if digits.isEmpty then none else some (Numeral.natural digits)

/-- The offset from UTC in minutes, found by cutting off the sign and then the hours, both by
counting bytes. Without a result the sign cannot be cut off. -/
def offsetByBytes? : List Char → Option (Option Int)
  | [] | ['Z'] => some (some 0)
  | text => do
    let (_, behind) ← cut? text 1
    some do
      let (hours, minutes) ← cut? (behind.filter Char.isDigit) 2
      let hours ← number? hours
      let minutes ← number? minutes
      if 23 < hours || 59 < minutes then none
      else some ((if text.head? = some '-' then -1 else 1) * (hours * 60 + minutes))

theorem utf8Size_of_isDigit {c : Char} (h : c.isDigit = true) : c.utf8Size = 1 := by
  have hlt := (Numeral.toNat_of_isDigit h).2
  have hzero : '0'.toNat = 48 := rfl
  rw [Char.utf8Size_eq_one_iff, UInt32.le_iff_toNat_le]
  show c.toNat ≤ 127
  omega

/-- Characters of one byte are cut behind as many bytes as there are characters. -/
theorem cut?_append {front : List Char} (h : ∀ c ∈ front, c.utf8Size = 1) (behind : List Char) :
    cut? (front ++ behind) front.length = some (front, behind) := by
  induction front with
  | nil =>
    unfold cut?
    rfl
  | cons c front ih =>
    have hsize := h c (List.mem_cons_self ..)
    have hrest := ih fun d hd => h d (List.mem_cons_of_mem c hd)
    simp only [List.cons_append, List.length_cons, cut?, hsize, Nat.le_add_left, if_true,
      Nat.add_sub_cancel, hrest, Option.map_some]

/-- A digit of full width takes three bytes. -/
example : cut? ['５', '5'] 1 = none := by decide

theorem number?_chars {count : Nat} (digits : Digits count) (h : 1 ≤ count) :
    number? digits.chars = some digits.value := by
  have hne : digits.chars ≠ [] := by
    intro hnil
    have hlength := digits.length_chars
    simp only [hnil, List.length_nil] at hlength
    omega
  simp [number?, hne, Digits.value]

/-- What is left of an offset without its sign and its colon. -/
theorem filter_hoursAndMinutes (hours : Digits 2) (colon : Bool) (minutes : Digits 2) :
    (Zone.hoursAndMinutes hours colon minutes).filter Char.isDigit =
      hours.chars ++ minutes.chars := by
  have hhours := List.filter_eq_self.2 hours.allDigits
  have hminutes := List.filter_eq_self.2 minutes.allDigits
  have hcolon : ':'.isDigit = false := rfl
  cases colon with
  | true => simp [Zone.hoursAndMinutes, hhours, hminutes, hcolon]
  | false => simp [Zone.hoursAndMinutes, hhours, hminutes]

/-- Bytes may be counted in any offset that is written. -/
theorem offsetByBytes?_text (zone : Zone) :
    offsetByBytes? zone.text = some (offset? zone.text) := by
  cases zone with
  | unwritten => rfl
  | utc => rfl
  | offset west hours colon minutes =>
    have hsign : ∀ sign ∈ ['+', '-'], ∀ text : List Char,
        cut? (sign :: text) 1 = some ([sign], text) := by
      intro sign hmem
      have hsizes : ∀ c ∈ ['+', '-'], c.utf8Size = 1 := by simp [Char.utf8Size]
      exact @cut?_append [sign] fun c hc => hsizes c (List.mem_singleton.1 hc ▸ hmem)
    have hhours : cut? (hours.chars ++ minutes.chars) 2 = some (hours.chars, minutes.chars) := by
      have hcut := cut?_append (fun c hc => utf8Size_of_isDigit (hours.allDigits c hc))
      rw [hours.length_chars] at hcut
      exact hcut minutes.chars
    have hrange : ∀ n : Int, (if 23 < hours.value ∨ 59 < minutes.value then none else some n) =
        if hours.value ≤ 23 ∧ minutes.value ≤ 59 then some n else none := by
      intro n
      by_cases hle : hours.value ≤ 23 ∧ minutes.value ≤ 59
      · rw [if_pos hle, if_neg (by omega)]
      · rw [if_neg hle, if_pos (by omega)]
    cases west with
    | true =>
      show offsetByBytes? ('-' :: Zone.hoursAndMinutes hours colon minutes) =
        some ((offsetMinutes? (Zone.hoursAndMinutes hours colon minutes)).map (- ·))
      simp [offsetByBytes?, offsetMinutes?_text, hsign, filter_hoursAndMinutes, hhours,
        number?_chars, hrange]
    | false =>
      show offsetByBytes? ('+' :: Zone.hoursAndMinutes hours colon minutes) =
        some (offsetMinutes? (Zone.hoursAndMinutes hours colon minutes))
      simp [offsetByBytes?, offsetMinutes?_text, hsign, filter_hoursAndMinutes, hhours,
        number?_chars, hrange]

/-! ## Instants -/

theorem timeAndOffset?_text {clock : Clock} (h : clock.InRange) :
    timeAndOffset? clock.text = some (clock.millis, clock.zone.minutesAhead) := by
  cases clock with
  | unwritten => rfl
  | written hour minute second zone =>
    obtain ⟨hhour, hminute, hsecond, hzone⟩ := h
    simp only [Clock.text, timeAndOffset?, Option.bind_eq_bind, Option.bind_some, offset?_text hzone,
      takeTime?_text hhour hminute hsecond (behind_text zone)]
    rfl

theorem exists_of_timeAndOffset? {time : Nat} {offset : Int} {text : List Char}
    (h : timeAndOffset? text = some (time, offset)) :
    ∃ clock : Clock, text = clock.text ∧ clock.InRange ∧ time = clock.millis ∧
      offset = clock.zone.minutesAhead := by
  unfold timeAndOffset? at h
  split at h
  case h_1 =>
    cases h
    exact ⟨.unwritten, rfl, trivial, rfl, rfl⟩
  case h_2 text =>
    simp only [Option.bind_eq_bind, Option.bind_eq_some_iff, Prod.exists] at h
    obtain ⟨_, rest, htime, _, hoffset, heq⟩ := h
    cases heq
    obtain ⟨hour, minute, second, rfl, ⟨hhour, hminute, hsecond⟩, rfl⟩ := exists_of_takeTime? htime
    obtain ⟨zone, rfl, hzone, rfl⟩ := exists_of_offset? hoffset
    exact ⟨.written hour minute second zone, rfl, ⟨hhour, hminute, hsecond, hzone⟩, rfl, rfl⟩
  case h_3 => cases h

theorem readIso?_text {w : IsoText} (h : w.InRange) : readIso? w.text = some w.instant := by
  obtain ⟨hvalid, hclock⟩ := h
  simp only [IsoText.text, readIso?, takeNumber?_chars, after?, timeAndOffset?_text hclock,
    Option.bind_eq_bind, Option.bind_some, if_true]
  exact if_pos hvalid

theorem exists_of_readIso? {t : Instant} {text : List Char} (h : readIso? text = some t) :
    ∃ w : IsoText, text = w.text ∧ w.InRange ∧ t = w.instant := by
  simp only [readIso?, Option.bind_eq_bind, Option.bind_eq_some_iff, Prod.exists,
    after?_eq_some_iff] at h
  obtain ⟨_, _, hyear, _, rfl, _, _, hmonth, _, rfl, _, _, hday, _, _, hclock, hite⟩ := h
  obtain ⟨year, rfl, rfl⟩ := exists_of_takeNumber? hyear
  obtain ⟨month, rfl, rfl⟩ := exists_of_takeNumber? hmonth
  obtain ⟨day, rfl, rfl⟩ := exists_of_takeNumber? hday
  obtain ⟨clock, rfl, hrange, rfl, rfl⟩ := exists_of_timeAndOffset? hclock
  split at hite
  case isTrue hvalid =>
    cases hite
    exact ⟨⟨year, month, day, clock⟩, rfl, ⟨hvalid, hrange⟩, rfl⟩
  case isFalse => cases hite

/-- A text is read as an instant exactly if it is an ISO text whose date exists and whose time and
offset are within their ranges. The instant is the date in days since 1970-01-01 with the time of
day, less the offset. And any offset that is written may be taken apart by counting bytes, whether
it is within its range or not. -/
theorem readIso?_exact :
    (∀ (s : List Char) (t : Instant),
      readIso? s = some t ↔ ∃ w : IsoText, w.text = s ∧ w.InRange ∧ w.StandsFor t) ∧
    ∀ w : IsoText, offsetByBytes? w.clock.zone.text = some (offset? w.clock.zone.text) := by
  refine ⟨fun s t => ⟨fun h => ?_, ?_⟩, fun w => offsetByBytes?_text w.clock.zone⟩
  · obtain ⟨w, htext, hrange, ht⟩ := exists_of_readIso? h
    exact ⟨w, htext.symm, hrange, (IsoText.standsFor_iff hrange t).2 ht⟩
  · rintro ⟨w, rfl, hrange, hstands⟩
    rw [readIso?_text hrange, (IsoText.standsFor_iff hrange t).1 hstands]

/-- An offset in the new year that leads back to the old one, and a fraction with more digits than
are kept. -/
theorem readIso?_exact_newYear :
    let s := "2026-01-01T00:30:05.1239+02:00".toList
    let fraction : Digits 4 := ⟨['1', '2', '3', '9'], rfl, by decide⟩
    let second := Second.written ⟨['0', '5'], rfl, by decide⟩
      (.written fraction (by decide) (by decide))
    let zone := Zone.offset false ⟨['0', '2'], rfl, by decide⟩ true ⟨['0', '0'], rfl, by decide⟩
    let w : IsoText :=
      { year := ⟨['2', '0', '2', '6'], rfl, by decide⟩
        month := ⟨['0', '1'], rfl, by decide⟩
        day := ⟨['0', '1'], rfl, by decide⟩
        clock := .written ⟨['0', '0'], rfl, by decide⟩ ⟨['3', '0'], rfl, by decide⟩ second zone }
    w.text = s ∧ readIso? s = some ⟨1767220205123⟩ ∧
      offsetByBytes? zone.text = some (offset? zone.text) := by
  intro s fraction second zone w
  obtain ⟨hread, hbytes⟩ := readIso?_exact
  have htext : w.text = s := by decide
  have hrange : w.InRange := by decide
  have hstands : w.StandsFor ⟨1767220205123⟩ :=
    ⟨20454, (Calendar.Date.daysBetween_epoch_iff hrange.1 _).2 (by decide), by decide⟩
  exact ⟨htext, (hread s _).2 ⟨w, htext, hrange, hstands⟩, hbytes w⟩

end Instant

end LooseRecords

import LooseRecords.Proofs.Calendar.Counting
import LooseRecords.Proofs.Calendar.Instant
import LooseRecords.Proofs.Text.Collation
import Mathlib.Order.Compare

/-!
# Dates in the order of their texts

The ISO form of an instant has a fixed width as long as the year has four digits, so its texts are
ordered as the numbers in them: first by the year, then by the month, and so on down to the
milliseconds. The calendar counts days in the same order. `Instant.collate_iso` says that the texts
of two instants are ordered as the instants are.
-/

namespace LooseRecords

/-! ## Comparisons -/

/-- A comparison is found from what each answer says. -/
theorem compare_eq_of {α : Type} [LinearOrder α] {a b : α} {order : Ordering}
    (hlt : order = .lt → a < b) (heq : order = .eq → a = b) (hgt : order = .gt → b < a) :
    compare a b = order := by
  cases order with
  | lt => exact compare_lt_iff_lt.2 (hlt rfl)
  | eq => exact compare_eq_iff_eq.2 (heq rfl)
  | gt => exact compare_gt_iff_gt.2 (hgt rfl)

/-- Of numbers that are put together the leading parts decide, and between equal ones the rest. -/
theorem compare_mul_add {width : Nat} (leading other : Nat) {rest behind : Nat}
    (hrest : rest < width) (hbehind : behind < width) :
    compare (leading * width + rest) (other * width + behind) =
      (compare leading other).then (compare rest behind) := by
  have hless : ∀ {front next rest behind : Nat}, front < next → rest < width →
      front * width + rest < next * width + behind := by
    intro front next rest behind hlt hrest
    have hle : (front + 1) * width ≤ next * width := Nat.mul_le_mul_right width hlt
    rw [Nat.succ_mul] at hle
    omega
  refine compare_eq_of ?_ ?_ ?_
  · rw [Ordering.then_eq_lt, Nat.compare_eq_lt, Nat.compare_eq_eq, Nat.compare_eq_lt]
    rintro (hlt | ⟨rfl, hlt⟩)
    · exact hless hlt hrest
    · omega
  · rw [Ordering.then_eq_eq, Nat.compare_eq_eq, Nat.compare_eq_eq]
    rintro ⟨rfl, rfl⟩
    rfl
  · rw [Ordering.then_eq_gt, Nat.compare_eq_gt, Nat.compare_eq_eq, Nat.compare_eq_gt]
    rintro (hgt | ⟨rfl, hgt⟩)
    · exact hless hgt hbehind
    · omega

/-! ## Dates -/

namespace Calendar.Date

/-- Dates by their year, then by their month, then by their day. -/
def order (d e : Date) : Ordering :=
  (compare d.year e.year).then ((compare d.month e.month).then (compare d.day e.day))

/-- A date lies before the first day of the next month, and no earlier than the first of its own. -/
theorem dayNumber_bounds {d : Date} (h : d.isValid = true) :
    firstDay d.year + daysBefore (monthLengths d.year) (d.month - 1) ≤ d.dayNumber ∧
      d.dayNumber < firstDay d.year + daysBefore (monthLengths d.year) d.month ∧
      d.dayNumber < firstDay (d.year + 1) := by
  obtain ⟨hmonth, hday, length, hlength, hle⟩ := (isValid_iff d).1 h
  have hsucc := daysBefore_succ hlength
  rw [Nat.sub_add_cancel hmonth] at hsucc
  have hyear := daysBefore_le (monthLengths d.year) (bounds_of_isValid h).1
  rw [firstDay_succ_eq]
  simp only [dayNumber]
  omega

/-- The calendar counts dates in order. -/
theorem dayNumber_lt_of_order {d e : Date} (hd : d.isValid = true) (he : e.isValid = true)
    (h : d.order e = .lt) : d.dayNumber < e.dayNumber := by
  obtain ⟨-, hmonth, hyear⟩ := dayNumber_bounds hd
  obtain ⟨hfirst, -, -⟩ := dayNumber_bounds he
  rw [order, Ordering.then_eq_lt, Int.compare_eq_lt, Int.compare_eq_eq, Ordering.then_eq_lt,
    Nat.compare_eq_lt, Nat.compare_eq_eq, Nat.compare_eq_lt] at h
  rcases h with hless | ⟨hsame, hless | ⟨hequal, hless⟩⟩
  · have hle : firstDay (d.year + 1) ≤ firstDay e.year := firstDay_le_firstDay hless
    omega
  · rw [← hsame] at hfirst
    have hle : daysBefore (monthLengths d.year) d.month ≤
        daysBefore (monthLengths d.year) (e.month - 1) := daysBefore_le _ (by omega)
    omega
  · simp only [dayNumber, hsame, hequal]
    omega

theorem order_swap (d e : Date) : e.order d = (d.order e).swap := by
  simp only [order, Ordering.swap_then]
  rw [Int.compare_swap, Nat.compare_swap, Nat.compare_swap]

theorem eq_of_order {d e : Date} (h : d.order e = .eq) : d = e := by
  rw [order, Ordering.then_eq_eq, Ordering.then_eq_eq, Int.compare_eq_eq, Nat.compare_eq_eq,
    Nat.compare_eq_eq] at h
  obtain ⟨year, month, day⟩ := d
  obtain ⟨year', month', day'⟩ := e
  obtain ⟨rfl, rfl, rfl⟩ := h
  rfl

theorem compare_dayNumber {d e : Date} (hd : d.isValid = true) (he : e.isValid = true) :
    compare d.dayNumber e.dayNumber = d.order e := by
  refine compare_eq_of (dayNumber_lt_of_order hd he) ?_ ?_
  · intro h
    rw [eq_of_order h]
  · intro h
    refine dayNumber_lt_of_order he hd ?_
    rw [order_swap, h]
    rfl

end Calendar.Date

/-! ## Texts -/

/-- Digits are ordered as their values. -/
theorem compare_isDigit {c d : Char} (hc : c.isDigit = true) (hd : d.isDigit = true) :
    compare (c.toNat - '0'.toNat) (d.toNat - '0'.toNat) = compare c d := by
  have hlow := (Numeral.toNat_of_isDigit hc).1
  have hhigh := (Numeral.toNat_of_isDigit hd).1
  rw [← Text.compare_toNat]
  refine (compare_eq_of ?_ ?_ ?_).symm
  · rw [Nat.compare_eq_lt]
    omega
  · rw [Nat.compare_eq_eq]
    omega
  · rw [Nat.compare_eq_gt]
    omega

namespace Numeral

theorem natural_cons (c : Char) (digits : List Char) :
    natural (c :: digits) = (c.toNat - '0'.toNat) * 10 ^ digits.length + natural digits := by
  have happend := natural_append [c] digits
  rw [List.singleton_append] at happend
  have hsingle : natural [c] = c.toNat - '0'.toNat := by
    rw [← List.nil_append [c], natural_concat]
    exact Nat.zero_add _
  rw [happend, hsingle]

/-- Equally many digits are ordered as the numbers that they denote. -/
theorem compareLex_digits {front behind : List Char} (hfront : AllDigits front)
    (hbehind : AllDigits behind) (h : front.length = behind.length) :
    front.compareLex compare behind = compare (natural front) (natural behind) := by
  induction front generalizing behind with
  | nil =>
    rw [List.eq_nil_of_length_eq_zero h.symm]
    rfl
  | cons c front ih =>
    cases behind with
    | nil => cases h
    | cons d behind =>
      obtain ⟨hc, hfront⟩ := List.forall_mem_cons.1 hfront
      obtain ⟨hd, hbehind⟩ := List.forall_mem_cons.1 hbehind
      have hlength : front.length = behind.length := Nat.succ.inj h
      rw [List.compareLex_cons_cons, ih hfront hbehind hlength, natural_cons, natural_cons, hlength,
        compare_mul_add _ _ (hlength ▸ natural_lt hfront) (natural_lt hbehind),
        compare_isDigit hc hd]

end Numeral

namespace Text

/-- Digits are in no case. -/
theorem caseless_of_allDigits {digits : List Char} (h : AllDigits digits) :
    caseless digits = digits := by
  induction digits with
  | nil => rfl
  | cons c digits ih =>
    obtain ⟨hc, hdigits⟩ := List.forall_mem_cons.1 h
    have hrange : 48 ≤ c.toNat ∧ c.toNat ≤ 57 := Char.isDigit_iff_toNat.1 hc
    have hlower : c.toLower = c := by
      refine dif_neg fun hletter => ?_
      have hcapital : 65 ≤ c.toNat := hletter.1
      omega
    rw [caseless_cons, ih hdigits, lowerChar, if_pos (by omega), hlower]
    rfl

end Text

namespace Instant

/-! ## Instants -/

/-- Numbers of a fixed width in front of texts decide, and between equal ones the rest. -/
theorem compareLex_padded {width m n : Nat} (hwidth : 0 < width) (hm : m < 10 ^ width)
    (hn : n < 10 ^ width) (rest behind : List Char) :
    (Text.caseless (padded width m ++ rest)).compareLex compare
        (Text.caseless (padded width n ++ behind)) =
      (compare m n).then ((Text.caseless rest).compareLex compare (Text.caseless behind)) := by
  have hlength : (padded width m).length = (padded width n).length := by
    rw [length_padded hwidth hm, length_padded hwidth hn]
  have hdigits := Numeral.compareLex_digits (allDigits_padded width m) (allDigits_padded width n)
    hlength
  rw [Text.caseless_append, Text.caseless_append, Text.caseless_of_allDigits (allDigits_padded _ _),
    Text.caseless_of_allDigits (allDigits_padded _ _), compareLex_append hlength, hdigits,
    natural_padded, natural_padded]

/-- A mark that stands in both texts does not count. -/
theorem compareLex_mark {mark low : Char} (h : Text.lowerChar mark = [low])
    (rest behind : List Char) :
    (Text.caseless (mark :: rest)).compareLex compare (Text.caseless (mark :: behind)) =
      (Text.caseless rest).compareLex compare (Text.caseless behind) := by
  rw [Text.caseless_cons, Text.caseless_cons, h]
  exact compareLex_cons_self low _ _

theorem exists_natCast {year : Int} (h : IsPlainYear year) : ∃ n : Nat, n ≤ 9999 ∧ year = n := by
  obtain ⟨hlow, hhigh⟩ := h
  exact ⟨year.toNat, by omega, by omega⟩

/-- Dates as their texts are ordered. -/
theorem compareLex_dateText {d e : Calendar.Date} (hd : d.isValid = true) (he : e.isValid = true)
    (hyear : IsPlainYear d.year) (hother : IsPlainYear e.year) (rest behind : List Char) :
    (Text.caseless (dateText d ++ rest)).compareLex compare (Text.caseless (dateText e ++ behind)) =
      (d.order e).then ((Text.caseless rest).compareLex compare (Text.caseless behind)) := by
  have hbounds := Calendar.Date.bounds_of_isValid hd
  have hbounds' := Calendar.Date.bounds_of_isValid he
  obtain ⟨year, month, day⟩ := d
  obtain ⟨year', month', day'⟩ := e
  obtain ⟨hmonth, hday⟩ : month ≤ 12 ∧ day ≤ 31 := hbounds
  obtain ⟨hmonth', hday'⟩ : month' ≤ 12 ∧ day' ≤ 31 := hbounds'
  obtain ⟨n, hn, rfl⟩ : ∃ n : Nat, n ≤ 9999 ∧ year = n := exists_natCast hyear
  obtain ⟨n', hn', rfl⟩ : ∃ n : Nat, n ≤ 9999 ∧ year' = n := exists_natCast hother
  have hyears : compare (n : Int) n' = compare n n' := by
    refine compare_eq_of ?_ ?_ ?_
    · rw [Nat.compare_eq_lt, Int.ofNat_lt]
      exact id
    · rw [Nat.compare_eq_eq, Int.ofNat_inj]
      exact id
    · rw [Nat.compare_eq_gt, Int.ofNat_lt]
      exact id
  simp only [dateText, List.append_assoc, List.cons_append, yearText_natCast hn,
    yearText_natCast hn', Calendar.Date.order, hyears, Ordering.then_assoc]
  rw [compareLex_padded (by decide) (by omega) (by omega), compareLex_mark (by rfl),
    compareLex_padded (by decide) (by omega) (by omega), compareLex_mark (by rfl),
    compareLex_padded (by decide) (by omega) (by omega)]

/-- Times of a day as their texts are ordered. -/
theorem compareLex_timeText {time other : Nat} (htime : time < 86400000) (hother : other < 86400000)
    (rest behind : List Char) :
    (Text.caseless (timeText time ++ rest)).compareLex compare
        (Text.caseless (timeText other ++ behind)) =
      (compare time other).then
        ((Text.caseless rest).compareLex compare (Text.caseless behind)) := by
  have hparts : compare time other = (compare (time / 3600000) (other / 3600000)).then
      ((compare (time / 60000 % 60) (other / 60000 % 60)).then
        ((compare (time / 1000 % 60) (other / 1000 % 60)).then
          (compare (time % 1000) (other % 1000)))) := by
    refine compare_eq_of ?_ ?_ ?_
    · simp only [Ordering.then_eq_lt, Nat.compare_eq_lt, Nat.compare_eq_eq]
      omega
    · simp only [Ordering.then_eq_eq, Nat.compare_eq_eq]
      omega
    · simp only [Ordering.then_eq_gt, Nat.compare_eq_gt, Nat.compare_eq_eq]
      omega
  simp only [timeText, List.append_assoc, List.cons_append, hparts, Ordering.then_assoc]
  rw [compareLex_padded (by decide) (by omega) (by omega), compareLex_mark (by rfl),
    compareLex_padded (by decide) (by omega) (by omega), compareLex_mark (by rfl),
    compareLex_padded (by decide) (by omega) (by omega), compareLex_mark (by rfl),
    compareLex_padded (by decide) (by omega) (by omega)]

/-- Without regard to case the texts of instants are ordered as the instants are. -/
theorem compareLex_iso {a b : Instant} (ha : IsPlainYear a.year) (hb : IsPlainYear b.year) :
    (Text.caseless a.iso).compareLex compare (Text.caseless b.iso) =
      compare a.millis b.millis := by
  have hparts : compare a.millis b.millis =
      (compare (a.millis / dayLength) (b.millis / dayLength)).then
        (compare (a.millis % dayLength).toNat (b.millis % dayLength).toNat) := by
    simp only [dayLength]
    refine compare_eq_of ?_ ?_ ?_
    · simp only [Ordering.then_eq_lt, Int.compare_eq_lt, Int.compare_eq_eq, Nat.compare_eq_lt]
      omega
    · simp only [Ordering.then_eq_eq, Int.compare_eq_eq, Nat.compare_eq_eq]
      omega
    · simp only [Ordering.then_eq_gt, Int.compare_eq_gt, Int.compare_eq_eq, Nat.compare_eq_gt]
      omega
  have hdays := Calendar.Date.compare_dayNumber
    (Calendar.Date.isValid_ofDayNumber (a.millis / dayLength))
    (Calendar.Date.isValid_ofDayNumber (b.millis / dayLength))
  rw [Calendar.Date.dayNumber_ofDayNumber, Calendar.Date.dayNumber_ofDayNumber] at hdays
  have htime : ∀ t : Instant, (t.millis % dayLength).toNat < 86400000 := by
    intro t
    simp only [dayLength]
    omega
  have hend : (Text.caseless []).compareLex compare (Text.caseless []) = .eq := rfl
  rw [hparts, hdays, iso_eq, iso_eq,
    compareLex_dateText (Calendar.Date.isValid_ofDayNumber _) (Calendar.Date.isValid_ofDayNumber _)
      ha hb,
    compareLex_mark (by rfl), compareLex_timeText (htime a) (htime b), compareLex_mark (by rfl),
    hend, Ordering.then_eq]

/-- The texts of two instants are in the order of the instants. -/
theorem collate_iso {a b : Instant} (ha : IsPlainYear a.year) (hb : IsPlainYear b.year) :
    Text.collate a.iso b.iso = compare a.millis b.millis := by
  rw [Text.collate, compareLex_iso ha hb]
  cases h : compare a.millis b.millis with
  | lt => rfl
  | gt => rfl
  | eq =>
    -- The texts are one text, so the second pass finds no difference either.
    have heq : a = b := congrArg Instant.mk (Int.compare_eq_eq.1 h)
    rw [heq]
    exact Std.ReflCmp.compare_self

end Instant

end LooseRecords

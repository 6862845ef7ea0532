import LooseRecords.Query.Page

/-!
# Pages

A page is a slice of the records with bounds of any size. `Query.page64?` finds it by sums of 64
bits, of which one is cut off at the ends of the range; `Query.pages_sliced` says that the other
ones do not overflow, that the slice is the one between the bounds of unlimited size, and that the
pages of one size make up the records.
-/

namespace LooseRecords

namespace Query

/-! ## Bounds of unlimited size -/

/-- The position in a sequence that a bound means: negative ones count from the end, and the ones
outside mean the ends. -/
def sliceBound (length : Nat) (x : Int) : Int :=
  if x < 0 then max (length + x) 0 else min x length

theorem bound_eq (length : Nat) (x : Int) : (bound length x : Int) = sliceBound length x := by
  have hmin : Nat.min x.toNat length = min x.toNat length := rfl
  simp only [bound, sliceBound, hmin]
  split <;> omega

/-- The records of a page by their positions. -/
theorem getElem?_page (limit offset : Int) (records : RecordSet) (i : Nat) :
    (page limit offset records)[i]? =
      if sliceBound records.length offset + i < sliceBound records.length (offset + limit) then
        records[(sliceBound records.length offset).toNat + i]?
      else none := by
  rw [← bound_eq, ← bound_eq, Int.toNat_natCast]
  simp only [page, List.getElem?_drop, List.getElem?_take]
  congr 1
  exact propext (by omega)

theorem page_eq_nil {limit offset : Int} {records : RecordSet}
    (h : sliceBound records.length (offset + limit) ≤ sliceBound records.length offset) :
    page limit offset records = [] := by
  rw [← bound_eq, ← bound_eq] at h
  refine List.drop_eq_nil_iff.2 ?_
  rw [List.length_take]
  omega

/-! ## Bounds of 64 bits -/

/-- The sum, if it does not overflow. -/
def add? (a b : Int64) : Option Int64 :=
  if Int64.minValue.toInt ≤ a.toInt + b.toInt ∧ a.toInt + b.toInt ≤ Int64.maxValue.toInt then
    some (a + b)
  else none

/-- The sum, cut off at the ends of the range. -/
def addSaturating (a b : Int64) : Int64 :=
  .ofInt (max Int64.minValue.toInt (min (a.toInt + b.toInt) Int64.maxValue.toInt))

/-- The position that a bound means, if no sum overflows. -/
def bound64? (length x : Int64) : Option Int64 :=
  if x < 0 then (add? length x).map fun sum => max sum 0 else some (min x length)

/-- The records from a position up to another one, if both are positions in this order. -/
def slice? (first last : Int64) (records : RecordSet) : Option RecordSet :=
  let first := first.toUInt64.toNat
  let last := last.toUInt64.toNat
  if first ≤ last ∧ last ≤ records.length then some ((records.take last).drop first) else none

/-- The page, if no sum of 64 bits overflows and the slice is within the records. The sum of the
bounds is cut off at the ends of the range. -/
def page64? (limit offset : Int64) (records : RecordSet) : Option RecordSet := do
  let length := Int64.ofNat records.length
  let first ← bound64? length offset
  let last ← bound64? length (addSaturating offset limit)
  if last ≤ first then some [] else slice? first last records

theorem toInt_max (a b : Int64) : (max a b).toInt = max a.toInt b.toInt := by
  show (if a ≤ b then b else a).toInt = _
  rw [Int.max_def]
  simp only [Int64.le_iff_toInt_le]
  split <;> rfl

theorem toInt_min (a b : Int64) : (min a b).toInt = min a.toInt b.toInt := by
  show (if a ≤ b then a else b).toInt = _
  rw [Int.min_def]
  simp only [Int64.le_iff_toInt_le]
  split <;> rfl

/-- A sum within the range is that of the integers. -/
theorem add?_of_le {a b : Int64} (hlow : Int64.minValue.toInt ≤ a.toInt + b.toInt)
    (hhigh : a.toInt + b.toInt ≤ Int64.maxValue.toInt) :
    ∃ sum, add? a b = some sum ∧ sum.toInt = a.toInt + b.toInt := by
  refine ⟨a + b, if_pos ⟨hlow, hhigh⟩, ?_⟩
  rw [Int64.toInt_minValue] at hlow
  rw [Int64.toInt_maxValue] at hhigh
  rw [Int64.toInt_add, Int.bmod_eq_of_le (by omega) (by omega)]

theorem toInt_addSaturating (a b : Int64) :
    (addSaturating a b).toInt =
      max Int64.minValue.toInt (min (a.toInt + b.toInt) Int64.maxValue.toInt) := by
  rw [addSaturating, Int64.toInt_minValue, Int64.toInt_maxValue]
  exact Int64.toInt_ofInt_of_le (by omega) (by omega)

/-- No length reaches the ends of the range, so a bound may be cut off there. -/
theorem sliceBound_saturated {length : Nat} (h : length ≤ Int64.maxValue.toInt) (x : Int) :
    sliceBound length (max Int64.minValue.toInt (min x Int64.maxValue.toInt)) =
      sliceBound length x := by
  rw [Int64.toInt_maxValue] at h
  rw [Int64.toInt_minValue, Int64.toInt_maxValue]
  simp only [sliceBound]
  split <;> split <;> omega

/-- A bound of 64 bits is found without an overflow. -/
theorem bound64?_eq {length : Int64} {n : Nat} (h : length.toInt = n) (x : Int64) :
    ∃ position, bound64? length x = some position ∧ position.toInt = sliceBound n x.toInt := by
  have hlength := length.toInt_le
  have hx := x.minValue_le_toInt
  rw [Int64.toInt_maxValue] at hlength
  rw [Int64.toInt_minValue] at hx
  simp only [bound64?, sliceBound, Int64.lt_iff_toInt_lt, Int64.toInt_zero]
  split
  case isTrue hneg =>
    obtain ⟨sum, hsum, htoInt⟩ := @add?_of_le length x (by rw [Int64.toInt_minValue]; omega)
      (by rw [Int64.toInt_maxValue]; omega)
    refine ⟨max sum 0, by rw [hsum]; rfl, ?_⟩
    rw [toInt_max, htoInt, h, Int64.toInt_zero]
  case isFalse => exact ⟨min x length, rfl, by rw [toInt_min, h]⟩

theorem slice?_eq {first last : Int64} {a b : Nat} (hfirst : first.toInt = a)
    (hlast : last.toInt = b) {records : RecordSet} (hle : a ≤ b) (hlength : b ≤ records.length) :
    slice? first last records = some ((records.take b).drop a) := by
  have hnat : ∀ {position : Int64} {n : Nat}, position.toInt = n → position.toUInt64.toNat = n := by
    intro position n h
    have hpos : 0 ≤ position := by
      rw [Int64.le_iff_toInt_le, h, Int64.toInt_zero]
      exact Int.natCast_nonneg n
    rw [Int64.toNat_toUInt64_of_le hpos, Int64.toNatClampNeg, h, Int.toNat_natCast]
  simp only [slice?, hnat hfirst, hnat hlast]
  exact if_pos ⟨hle, hlength⟩

/-- In 64 bits no sum but the first one overflows, the slice is within the records, and the page is
the one with unlimited bounds. -/
theorem page64?_eq {records : RecordSet} (h : records.length ≤ Int64.maxValue.toInt)
    (limit offset : Int64) :
    page64? limit offset records = some (page limit.toInt offset.toInt records) := by
  have hlength : (Int64.ofNat records.length).toInt = records.length := by
    rw [Int64.toInt_maxValue] at h
    exact Int64.toInt_ofNat_of_lt (by omega)
  obtain ⟨first, hfirst, htoFirst⟩ := bound64?_eq hlength offset
  obtain ⟨last, hlast, htoLast⟩ := bound64?_eq hlength (addSaturating offset limit)
  rw [toInt_addSaturating, sliceBound_saturated h, ← bound_eq] at htoLast
  rw [← bound_eq] at htoFirst
  have hwithin : bound records.length (offset.toInt + limit.toInt) ≤ records.length := by
    have hbound := bound_eq records.length (offset.toInt + limit.toInt)
    simp only [sliceBound] at hbound
    split at hbound <;> omega
  simp only [page64?, hfirst, hlast, Option.bind_eq_bind, Option.bind_some,
    Int64.le_iff_toInt_le, htoFirst, htoLast]
  split
  case isTrue hempty =>
    rw [bound_eq, bound_eq] at hempty
    rw [page_eq_nil hempty]
  case isFalse hbelow => exact slice?_eq htoFirst htoLast (by omega) hwithin

/-! ## Pages of one size -/

/-- Of the positions of a page that is not empty, only the first one is a multiple of its size. -/
theorem filter_range_of_le {k length : Nat} (hle : length ≤ k) (h : 0 < length) :
    ((List.range length).filter fun o => k ∣ o) = [0] := by
  obtain ⟨n, rfl⟩ : ∃ n, length = 1 + n := ⟨length - 1, by omega⟩
  have hnone : ∀ o ∈ (List.range n).map (1 + ·), ¬ decide (k ∣ o) = true := by
    intro o ho
    obtain ⟨i, hi, rfl⟩ := List.mem_map.1 ho
    rw [List.mem_range] at hi
    rw [decide_eq_true_eq]
    exact Nat.not_dvd_of_pos_of_lt (by omega) (by omega)
  rw [List.range_add, List.filter_append, List.filter_eq_nil_iff.2 hnone]
  simp

/-- The multiples of a size below a length are zero and those behind the first page. -/
theorem multiples_eq {k : Nat} (hk : 1 ≤ k) {length : Nat} (h : 0 < length) :
    ((List.range length).filter fun o => k ∣ o) =
      0 :: ((List.range (length - k)).filter fun o => k ∣ o).map (k + ·) := by
  by_cases hle : length ≤ k
  · rw [filter_range_of_le hle h, Nat.sub_eq_zero_of_le hle]
    rfl
  · have hsplit : length = k + (length - k) := by omega
    have hshift : ∀ o, decide (k ∣ k + o) = decide (k ∣ o) :=
      fun o => decide_eq_decide.2 (Nat.dvd_add_right (Nat.dvd_refl k))
    rw [hsplit, List.range_add, List.filter_append, filter_range_of_le (Nat.le_refl k) hk,
      List.filter_map, Nat.add_sub_cancel_left]
    simp only [Function.comp_def, hshift, List.singleton_append]

/-- Pages of one size, one after the other, are the whole sequence. -/
theorem flatMap_multiples {α : Type} {k : Nat} (hk : 1 ≤ k) (items : List α) :
    (((List.range items.length).filter fun o => k ∣ o).flatMap fun o =>
      (items.drop o).take k) = items := by
  by_cases hempty : items.length = 0
  · rw [List.eq_nil_of_length_eq_zero hempty]
    rfl
  · have hrest := flatMap_multiples hk (items.drop k)
    rw [List.length_drop] at hrest
    rw [multiples_eq hk (Nat.pos_of_ne_zero hempty), List.flatMap_cons, List.flatMap_map]
    simp only [← List.drop_drop, hrest]
    exact List.take_append_drop k items
  termination_by items.length
  decreasing_by
    rw [List.length_drop]
    omega

theorem page_natCast (k o : Nat) (records : RecordSet) :
    page k o records = (records.drop o).take k := by
  have hbound : ∀ n : Nat, bound records.length (n : Int) = min n records.length :=
    fun n => if_neg (by omega)
  have hlast : bound records.length ((o : Int) + (k : Int)) = min (o + k) records.length := by
    rw [← Int.natCast_add, hbound]
  simp only [page, hbound, hlast, ← List.take_eq_take_min]
  have hdrop : (records.take (o + k)).drop (min o records.length) =
      (records.take (o + k)).drop o := by
    rw [List.drop_eq_drop_iff, List.length_take]
    omega
  rw [hdrop, List.drop_take, Nat.add_sub_cancel_left]

/-- A page is a slice of the records. Its bounds are the offset and the sum of offset and limit as
integers of unlimited size; in 64 bits the page is the same, no other sum than that one overflows,
and the slice is within the records. Beyond that the pages of one size, from zero on and each with
an offset below the number of records, are the records in order, each of them once, and pages with
an offset from this number on are empty. -/
theorem pages_sliced (records : RecordSet) :
    (records.length ≤ Int64.maxValue.toInt → ∀ limit offset : Int64,
      let first := sliceBound records.length offset.toInt
      let last := sliceBound records.length (offset.toInt + limit.toInt)
      page64? limit offset records = some (page limit.toInt offset.toInt records) ∧
      (∀ i : Nat, (page limit.toInt offset.toInt records)[i]? =
        if first + i < last then records[first.toNat + i]? else none) ∧
      (last ≤ first → page limit.toInt offset.toInt records = [])) ∧
    ∀ k : Nat, 1 ≤ k →
      (((List.range records.length).filter fun o => k ∣ o).flatMap fun o : Nat =>
        page k o records) = records ∧
      ∀ o : Nat, records.length ≤ o → page k o records = [] := by
  refine ⟨fun hlength limit offset => ⟨page64?_eq hlength limit offset,
    getElem?_page limit.toInt offset.toInt records, page_eq_nil⟩, fun k hk => ⟨?_, ?_⟩⟩
  · simp only [page_natCast]
    exact flatMap_multiples hk records
  · intro o ho
    rw [page_natCast, List.drop_of_length_le ho, List.take_nil]

/-- A limit that no sum of 64 bits can be added to, an offset and a limit whose sum is below the
range, and pages of which the last one is not full. -/
theorem pages_sliced_saturated :
    let first : Record := ⟨[("n", .string "a")]⟩
    let second : Record := ⟨[("n", .string "b")]⟩
    let third : Record := ⟨[("n", .string "c")]⟩
    let records : RecordSet := [first, second, third]
    records.length ≤ Int64.maxValue.toInt ∧
      page64? Int64.maxValue 1 records = some [second, third] ∧
      page64? Int64.minValue (-1) records = some [] ∧
      1 ≤ 2 ∧ [0, 2].flatMap (fun o : Nat => page 2 o records) = records ∧ 3 ≤ 4 ∧
      page 2 4 records = [] := by
  intro first second third records
  have hlength : records.length ≤ Int64.maxValue.toInt := by decide
  obtain ⟨hslice, hpages⟩ := pages_sliced records
  obtain ⟨htiled, hbeyond⟩ := hpages 2 (by decide)
  have hoffsets : ((List.range records.length).filter fun o => 2 ∣ o) = [0, 2] := by decide
  rw [hoffsets] at htiled
  exact ⟨hlength, (hslice hlength Int64.maxValue 1).1, (hslice hlength Int64.minValue (-1)).1,
    by decide, htiled, by decide, hbeyond 4 (by decide)⟩

end Query

end LooseRecords

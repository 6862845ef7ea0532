import LooseRecords.Proofs.Number.Place
import LooseRecords.Proofs.Summary.Groups

/-!
# The range of a summary

The least and the greatest number of a list are found by going through it once, from an infinity
that every number replaces. What is no number is passed over. `Number.place?_foldl` follows the
places of the numbers, so what is found is an end of all these places and of the infinity together;
`Summary.range_attained` says what this means for summaries and for statistics.
-/

namespace LooseRecords

namespace Number

/-! ## One number more -/

/-- All numbers stand between the infinities. -/
theorem place?_bounds {a : Number} {p : Int} (h : a.place? = some p) :
    -(Rank.count : Int) ≤ p ∧ p ≤ Rank.count := by
  cases a with
  | nan => cases h
  | infinite negative =>
    cases h
    cases negative <;> simp
  | finite negative rank =>
    cases h
    have hrank := rank.isLt
    split <;> omega

section

variable {a b : Number}

/-- Of two numbers one is kept unless the other one replaces it; `nan` replaces none. -/
theorem place?_ite {replaced : Bool} {extreme : Int → Int → Int}
    (hnan : b.isNan = true → replaced = false)
    (hplaces : ∀ p q, a.place? = some p → b.place? = some q →
      extreme p q = if replaced then q else p) :
    (if a.isNan then b else if replaced then b else a).place? =
      a.place?.merge extreme b.place? := by
  rw [isNan_eq_isNone] at hnan ⊢
  cases ha : a.place? with
  | none => cases hb : b.place? <;> simp [hb]
  | some p =>
    cases hb : b.place? with
    | none =>
      rw [hnan (by rw [hb]; rfl)]
      exact ha
    | some q =>
      cases replaced with
      | true => simp [hb, hplaces p q ha hb]
      | false => simp [ha, hplaces p q ha hb]

/-- The smaller of two numbers stands at the smaller place. -/
theorem place?_min (a b : Number) : (a.min b).place? = a.place?.merge Min.min b.place? := by
  apply place?_ite
  · intro hnan
    exact lt_of_isNan (.inl hnan)
  · intro p q hp hq
    have hlt : b.lt a = true ↔ q < p := by simp [lt_iff, hp, hq]
    split
    case isTrue h => exact Int.min_eq_right (Int.le_of_lt (hlt.1 h))
    case isFalse h => exact Int.min_eq_left (Int.not_lt.1 (mt hlt.2 h))

/-- The greater of two numbers stands at the greater place. -/
theorem place?_max (a b : Number) : (a.max b).place? = a.place?.merge Max.max b.place? := by
  apply place?_ite
  · intro hnan
    exact lt_of_isNan (.inr hnan)
  · intro p q hp hq
    have hlt : a.lt b = true ↔ p < q := by simp [lt_iff, hp, hq]
    split
    case isTrue h => exact Int.max_eq_right (Int.le_of_lt (hlt.1 h))
    case isFalse h => exact Int.max_eq_left (Int.not_lt.1 (mt hlt.2 h))

theorem min_of_isNan (h : b.isNan = true) (hnumber : a.isNan = false) : a.min b = a := by
  rw [min, hnumber, lt_of_isNan (.inl h)]
  rfl

theorem max_of_isNan (h : b.isNan = true) (hnumber : a.isNan = false) : a.max b = a := by
  rw [max, hnumber, lt_of_isNan (.inr h)]
  rfl

end

/-! ## All numbers -/

/-- The places of the numbers in a list. -/
def places (xs : List Number) : List Int := xs.filterMap place?

theorem mem_places_iff (xs : List Number) (p : Int) :
    p ∈ places xs ↔ ∃ x ∈ xs, x.place? = some p := List.mem_filterMap

section

variable {pick : Number → Number → Number} {extreme : Int → Int → Int}

/-- Where a list is gone through from a number, its places are gone through from the place of that
number. -/
theorem place?_foldl (hpick : ∀ a b, (pick a b).place? = a.place?.merge extreme b.place?)
    {start : Number} {p : Int} (hstart : start.place? = some p) (xs : List Number) :
    (xs.foldl pick start).place? = some ((places xs).foldl extreme p) := by
  induction xs generalizing start p with
  | nil => exact hstart
  | cons x xs ih =>
    rw [List.foldl_cons]
    cases hx : x.place? with
    | none =>
      -- What has no place is passed over on both sides.
      have hkept : (pick start x).place? = some p := by rw [hpick, hstart, hx]; rfl
      rw [ih hkept, places, places, List.filterMap_cons_none hx]
    | some q =>
      have hnext : (pick start x).place? = some (extreme p q) := by rw [hpick, hstart, hx]; rfl
      rw [ih hnext, places, places, List.filterMap_cons_some hx, List.foldl_cons]

/-- A list without numbers leaves what it is gone through from. -/
theorem foldl_of_isNan {start : Number} {xs : List Number}
    (hpick : ∀ x, x.isNan = true → pick start x = start) (h : ∀ x ∈ xs, x.isNan = true) :
    xs.foldl pick start = start := by
  induction xs with
  | nil => rfl
  | cons x xs ih =>
    obtain ⟨hx, hxs⟩ := List.forall_mem_cons.1 h
    rw [List.foldl_cons, hpick x hx, ih hxs]

end

section

variable {a : Number} {m : Int} {xs : List Number}

/-- A number at the place of a number of a list is numerically equal to that number. -/
theorem exists_compare?_of_mem_places (ha : a.place? = some m) (hm : m ∈ places xs) :
    ∃ x ∈ xs.filter (fun x => !x.isNan), a.compare? x = some .eq := by
  obtain ⟨x, hx, hplace⟩ := (mem_places_iff xs m).1 hm
  have hnumber : x.isNan = false := (isNan_eq_false_iff x).2 ⟨m, hplace⟩
  have hsame : a.SamePlace x := by rw [SamePlace, ha, hplace]
  refine ⟨x, List.mem_filter.2 ⟨hx, ?_⟩, compare?_self hsame ((isNan_eq_false_iff a).2 ⟨m, ha⟩)⟩
  rw [hnumber]
  rfl

theorem exists_place_of_mem_filter {x : Number} (h : x ∈ xs.filter fun x => !x.isNan) :
    ∃ q ∈ places xs, x.place? = some q := by
  obtain ⟨hx, hnumber⟩ := List.mem_filter.1 h
  obtain ⟨q, hq⟩ := (isNan_eq_false_iff x).1 (by simpa using hnumber)
  exact ⟨q, (mem_places_iff xs q).2 ⟨x, hx, hq⟩, hq⟩

end

/-- The end of some places and of a place beyond them is one of the places, if there are any. -/
theorem mem_of_end (le : Int → Int → Prop) [Std.Antisymm le] {beyond m : Int} {ps : List Int}
    (hm : m ∈ beyond :: ps) (hend : ∀ q ∈ beyond :: ps, le m q) {p : Int} (hp : p ∈ ps)
    (hbeyond : le p beyond) : m ∈ ps := by
  rcases List.mem_cons.1 hm with rfl | hmem
  · have hsame : m = p := Std.Antisymm.antisymm m p (hend p (List.mem_cons_of_mem _ hp)) hbeyond
    rw [hsame]
    exact hp
  · exact hmem

end Number

namespace Aggregate

open Number

/-! ## Summaries -/

/-- The range of a summary is that of the numbers: its ends are numerically equal to some of the
numbers, and none of the numbers lies beyond them. -/
structure Spans (a : Aggregate) (xs : List Number) : Prop where
  least_attained : ∃ x ∈ xs, a.least.compare? x = some .eq
  least_le : ∀ x ∈ xs, a.least.le x = true
  greatest_attained : ∃ x ∈ xs, a.greatest.compare? x = some .eq
  le_greatest : ∀ x ∈ xs, x.le a.greatest = true

theorem place?_least (xs : List Number) :
    (ofList xs).least.place? = some ((places xs).foldl Min.min (Rank.count : Int)) :=
  place?_foldl place?_min rfl xs

theorem place?_greatest (xs : List Number) :
    (ofList xs).greatest.place? = some ((places xs).foldl Max.max (-Rank.count : Int)) :=
  place?_foldl place?_max rfl xs

/-- If there is a number in a list, the range of the summary is that of its numbers. -/
theorem spans_ofList {xs : List Number} (h : ∃ x ∈ xs, x.isNan = false) :
    (ofList xs).Spans (xs.filter fun x => !x.isNan) := by
  obtain ⟨x, hx, hnumber⟩ := h
  obtain ⟨p, hp⟩ := (isNan_eq_false_iff x).1 hnumber
  have hmem : p ∈ places xs := (mem_places_iff xs p).2 ⟨x, hx, hp⟩
  obtain ⟨hlow, hhigh⟩ := place?_bounds hp
  have hleast := place?_least xs
  have hgreatest := place?_greatest xs
  -- The folds over the places are the ends of the places and of the infinity they start from.
  have hmin? : ((Rank.count : Int) :: places xs).min? = _ := List.min?_cons'
  have hmax? : ((-Rank.count : Int) :: places xs).max? = _ := List.max?_cons'
  obtain ⟨hmin, hmin_le⟩ := List.min?_eq_some_iff.1 hmin?
  obtain ⟨hmax, hle_max⟩ := List.max?_eq_some_iff.1 hmax?
  constructor
  case least_attained =>
    exact exists_compare?_of_mem_places hleast (mem_of_end (· ≤ ·) hmin hmin_le hmem hhigh)
  case least_le =>
    intro y hy
    obtain ⟨q, hq, hplace⟩ := exists_place_of_mem_filter hy
    exact (le_iff _ y).2 ⟨_, q, hleast, hplace, hmin_le q (List.mem_cons_of_mem _ hq)⟩
  case greatest_attained =>
    exact exists_compare?_of_mem_places hgreatest (mem_of_end (· ≥ ·) hmax hle_max hmem hlow)
  case le_greatest =>
    intro y hy
    obtain ⟨q, hq, hplace⟩ := exists_place_of_mem_filter hy
    exact (le_iff y _).2 ⟨q, _, hplace, hgreatest, hle_max q (List.mem_cons_of_mem _ hq)⟩

/-- Without numbers the range is that of the empty list. -/
theorem range_of_isNan {xs : List Number} (h : ∀ x ∈ xs, x.isNan = true) :
    (ofList xs).least = .infinite false ∧ (ofList xs).greatest = .infinite true :=
  ⟨foldl_of_isNan (fun _ hx => min_of_isNan hx rfl) h,
    foldl_of_isNan (fun _ hx => max_of_isNan hx rfl) h⟩

/-- The range does not depend on the order of the numbers. -/
theorem range_of_perm {xs ys : List Number} (h : xs.Perm ys) :
    (ofList xs).least.compare? (ofList ys).least = some .eq ∧
      (ofList xs).greatest.compare? (ofList ys).greatest = some .eq := by
  have hplaces : (places xs).Perm (places ys) := h.filterMap place?
  have hleast := place?_least xs
  have hgreatest := place?_greatest xs
  constructor
  · refine compare?_self ?_ ((isNan_eq_false_iff _).2 ⟨_, hleast⟩)
    rw [SamePlace, hleast, place?_least, hplaces.foldl_eq]
  · refine compare?_self ?_ ((isNan_eq_false_iff _).2 ⟨_, hgreatest⟩)
    rw [SamePlace, hgreatest, place?_greatest, hplaces.foldl_eq]

end Aggregate

namespace Summary

/-! ## Statistics -/

theorem isNan_contribution (field : String) (r : Record) :
    (contribution field r).isNan = false := by
  rw [contribution]
  split
  case isTrue => rfl
  case isFalse h => exact eq_false_of_ne_true h

/-- The summary of what some records contribute has their range. -/
theorem spans_contributions (field : String) {records : RecordSet} (h : records ≠ []) :
    (Aggregate.ofList (records.map (contribution field))).Spans
      (records.map (contribution field)) := by
  have hnumbers : ∀ x ∈ records.map (contribution field), x.isNan = false := by
    intro x hx
    obtain ⟨r, -, rfl⟩ := List.mem_map.1 hx
    exact isNan_contribution field r
  have hall : (records.map (contribution field)).filter (fun x => !x.isNan) =
      records.map (contribution field) := by
    rw [List.filter_eq_self]
    intro x hx
    rw [hnumbers x hx]
    rfl
  obtain ⟨r, hr⟩ := List.exists_mem_of_ne_nil records h
  have hspans := Aggregate.spans_ofList
    ⟨contribution field r, List.mem_map_of_mem hr, isNan_contribution field r⟩
  rw [hall] at hspans
  exact hspans

/-- The rows of grouped statistics summarize what the records of the groups contribute. -/
theorem exists_of_mem_statistics {field groupField : String} (hgroup : groupField ≠ "")
    {records : RecordSet} {row : Record} (h : row ∈ statistics field (some groupField) records) :
    ∃ name, row = Summary.row field groupField records name ∧
      (records.filter fun r => label groupField r == name) ≠ [] := by
  rw [statistics_eq_map_row field groupField hgroup] at h
  obtain ⟨name, hname, rfl⟩ := List.mem_map.1 h
  obtain ⟨r, hr, hlabel⟩ := List.mem_map.1 (List.mem_eraseDups.1 hname)
  refine ⟨name, rfl, List.ne_nil_of_mem (List.mem_filter.2 ⟨hr, ?_⟩)⟩
  rw [hlabel]
  exact beq_self_eq_true name

/-- A summary counts the items of its list. If there is a number among them, the least and the
greatest are numerically equal to numbers of the list and no number of the list lies beyond them;
if there is none, they are the infinities, the least the positive one. Another order of the list
changes neither the count nor the places of the two. What a record contributes to statistics is
always a number, so the range of statistics as a whole is that of what the records contribute, if
there are any, and in statistics by group the range of a row is that of what the records with its
label contribute. -/
theorem range_attained :
    (∀ xs : List Number,
      (Aggregate.ofList xs).count = xs.length ∧
        ((∃ x ∈ xs, x.isNan = false) →
          (Aggregate.ofList xs).Spans (xs.filter fun x => !x.isNan)) ∧
        ((∀ x ∈ xs, x.isNan = true) →
          (Aggregate.ofList xs).least = .infinite false ∧
            (Aggregate.ofList xs).greatest = .infinite true) ∧
        ∀ ys : List Number, xs.Perm ys →
          (Aggregate.ofList xs).count = (Aggregate.ofList ys).count ∧
            (Aggregate.ofList xs).least.compare? (Aggregate.ofList ys).least = some .eq ∧
            (Aggregate.ofList xs).greatest.compare? (Aggregate.ofList ys).greatest = some .eq) ∧
      ∀ field : String,
        (∀ r : Record, (contribution field r).isNan = false) ∧
        ∀ records : RecordSet,
          (records ≠ [] → ∃ a : Aggregate, statistics field none records = [⟨fields a⟩] ∧
            a.Spans (records.map (contribution field))) ∧
          ∀ groupField : String, groupField ≠ "" →
            (∀ group ∈ groups field groupField records, ∀ x ∈ group.2, x.isNan = false) ∧
            ∀ row ∈ statistics field (some groupField) records, ∃ (name : String) (a : Aggregate),
              row = ⟨("group", .string name) :: fields a⟩ ∧
                a.Spans (numbers field groupField records name) := by
  constructor
  · intro xs
    refine ⟨rfl, Aggregate.spans_ofList, Aggregate.range_of_isNan, fun ys hperm => ?_⟩
    exact ⟨hperm.length_eq, Aggregate.range_of_perm hperm⟩
  · intro field
    refine ⟨isNan_contribution field, fun records => ⟨fun hrecords => ?_, ?_⟩⟩
    · exact ⟨_, rfl, spans_contributions field hrecords⟩
    · intro groupField hgroup
      constructor
      · intro group hmem x hx
        rw [groups_eq] at hmem
        obtain ⟨name, -, rfl⟩ := List.mem_map.1 hmem
        obtain ⟨r, -, rfl⟩ := List.mem_map.1 hx
        exact isNan_contribution field r
      · intro row hrow
        obtain ⟨name, rfl, hmembers⟩ := exists_of_mem_statistics hgroup hrow
        exact ⟨name, _, rfl, spans_contributions field hmembers⟩

/-- Zeros of either sign and what is no number; a text that is no number and a missing field. -/
theorem range_attained_zeros :
    let negativeZero : Number := .finite true ⟨0, by decide⟩
    let xs : List Number := [.nan, negativeZero, .zero]
    let records : RecordSet :=
      [⟨[("v", .string "12")]⟩, ⟨[("v", .string "abc")]⟩, ⟨[]⟩, ⟨[("v", .bool true)]⟩]
    (Aggregate.ofList xs).Spans [negativeZero, .zero] ∧
      (Aggregate.ofList xs).least.compare? (Aggregate.ofList [.zero, negativeZero, .nan]).least =
        some .eq ∧
      (Aggregate.ofList [.nan]).least = .infinite false ∧
      (∃ a : Aggregate, statistics "v" none records = [⟨fields a⟩] ∧
        a.Spans [.ofNat 12, .zero, .zero, .ofNat 1]) ∧
      ∀ row ∈ statistics "v" (some "v") records, ∃ (name : String) (a : Aggregate),
        row = ⟨("group", .string name) :: fields a⟩ ∧ a.Spans (numbers "v" "v" records name) := by
  intro negativeZero xs records
  obtain ⟨hlists, hfields⟩ := range_attained
  obtain ⟨-, hspans, -, hperm⟩ := hlists xs
  obtain ⟨-, -, hnone, -⟩ := hlists [.nan]
  obtain ⟨-, hstatistics⟩ := hfields "v"
  obtain ⟨hwhole, hgroups⟩ := hstatistics records
  have hcontributions : records.map (contribution "v") = [.ofNat 12, .zero, .zero, .ofNat 1] := by
    decide +kernel
  have hwhole := hwhole (by simp [records])
  rw [hcontributions] at hwhole
  refine ⟨hspans ⟨.zero, by simp [xs], rfl⟩, ?_, (hnone (by simp [Number.isNan])).1, hwhole,
    (hgroups "v" (by decide)).2⟩
  exact (hperm _ (List.reverse_perm xs).symm).2.1

end Summary

end LooseRecords

import LooseRecords.Proofs.Query.FieldOrder
import LooseRecords.Proofs.Sorting.KeyedRuns
import LooseRecords.Proofs.Sorting.Mapped
import Mathlib.Data.List.Basic

/-!
# Stable sorting

An arrangement of items by an order, `Arranged`, has them in order and leaves those that the order
does not tell apart as they stood. There is at most one, and a merge sort finds it if the order is
consistent on the items, which is less than being consistent on all there are.
`Query.sort_arranged` says so of records that are sorted by a field.
-/

namespace LooseRecords

/-! ## Arrangements -/

section Arrangements

variable {α β : Type}

/-- Among the items, what is in order one after the other is in order as a whole. -/
def ConsistentOn (order : α → α → Ordering) (items : List α) : Prop :=
  ∀ a ∈ items, ∀ b ∈ items, ∀ c ∈ items, order a b ≠ .gt → order b c ≠ .gt → order a c ≠ .gt

/-- The items in order, where those that the order does not tell apart stand as they stood. -/
structure Arranged (order : α → α → Ordering) (items out : List α) : Prop where
  perm : out.Perm items
  ascending : out.Pairwise fun a b => order a b ≠ .gt
  stable : ∀ a ∈ items, out.filter (order a · == .eq) = items.filter (order a · == .eq)

/-- Two lists of the same items in order, which agree about each class of items that the order does
not tell apart, are the same. -/
theorem eq_of_ascending {order : α → α → Ordering} [Std.OrientedCmp order] {as bs : List α}
    (hperm : as.Perm bs) (has : as.Pairwise fun a b => order a b ≠ .gt)
    (hbs : bs.Pairwise fun a b => order a b ≠ .gt)
    (hties : ∀ a ∈ as, as.filter (order a · == .eq) = bs.filter (order a · == .eq)) : as = bs := by
  induction as generalizing bs with
  | nil => exact hperm.nil_eq
  | cons a as ih =>
    cases bs with
    | nil => exact absurd hperm.symm.nil_eq (by simp)
    | cons b bs =>
      obtain ⟨ha, has'⟩ := List.pairwise_cons.1 has
      obtain ⟨hb, hbs'⟩ := List.pairwise_cons.1 hbs
      have hself : order a a = .eq := Std.ReflCmp.compare_self
      -- Each of the two heads stands somewhere in the other list, so neither is above the other.
      have htied : order a b = .eq := by
        rcases List.mem_cons.1 (hperm.mem_iff.1 List.mem_cons_self) with rfl | hmem
        · exact hself
        · rcases List.mem_cons.1 (hperm.mem_iff.2 List.mem_cons_self) with rfl | hmem'
          · exact hself
          · have hab := ha b hmem'
            have hba := hb a hmem
            have hswap : order b a = (order a b).swap := Std.OrientedCmp.eq_swap
            rw [hswap] at hba
            cases h : order a b with
            | lt => simp [h] at hba
            | eq => rfl
            | gt => exact absurd h hab
      have hheads := hties a List.mem_cons_self
      rw [List.filter_cons_of_pos (by simp [hself]), List.filter_cons_of_pos (by simp [htied])]
        at hheads
      obtain ⟨rfl, -⟩ := List.cons.inj hheads
      refine congrArg _ (ih (List.Perm.cons_inv hperm) has' hbs' fun c hc => ?_)
      have htails := hties c (List.mem_cons_of_mem _ hc)
      rw [List.filter_cons, List.filter_cons] at htails
      split at htails
      · exact (List.cons.inj htails).2
      · exact htails

namespace Arranged

variable {order : α → α → Ordering} {items out : List α}

/-- There is but one arrangement. -/
theorem unique [Std.OrientedCmp order] {other : List α} (h : Arranged order items out)
    (h' : Arranged order items other) : out = other := by
  refine eq_of_ascending (h.perm.trans h'.perm.symm) h.ascending h'.ascending fun a ha => ?_
  have hmem : a ∈ items := h.perm.mem_iff.1 ha
  rw [h.stable a hmem, h'.stable a hmem]

/-- Orders that agree on the items arrange them alike. -/
theorem congr {other : α → α → Ordering}
    (heq : ∀ a ∈ items, ∀ b ∈ items, order a b = other a b) (h : Arranged order items out) :
    Arranged other items out := by
  have hmem : ∀ {a}, a ∈ out → a ∈ items := h.perm.mem_iff.1
  refine ⟨h.perm, h.ascending.imp_of_mem fun ha hb hle => ?_, fun a ha => ?_⟩
  · rwa [← heq _ (hmem ha) _ (hmem hb)]
  · have hout := List.filter_congr fun b hb => congrArg (· == .eq) (heq a ha b (hmem hb))
    have hitems := List.filter_congr fun b hb => congrArg (· == .eq) (heq a ha b hb)
    rw [← hout, ← hitems]
    exact h.stable a ha

/-- Arranging by what a function makes of the items arranges what it makes of them. -/
theorem map {f : β → α} {items out : List β}
    (h : Arranged (fun a b => order (f a) (f b)) items out) :
    Arranged order (items.map f) (out.map f) := by
  refine ⟨h.perm.map f, List.pairwise_map.2 h.ascending, fun a ha => ?_⟩
  obtain ⟨b, hb, rfl⟩ := List.mem_map.1 ha
  rw [List.filter_map, List.filter_map]
  exact congrArg (List.map f) (h.stable b hb)

/-- Read from the end, items that were arranged from the end are arranged the other way. -/
theorem reverse [Std.OrientedCmp order] (h : Arranged order items.reverse out) :
    Arranged (fun a b => order b a) items out.reverse := by
  refine ⟨out.reverse_perm.trans (h.perm.trans items.reverse_perm),
    List.pairwise_reverse.2 h.ascending, fun a ha => ?_⟩
  have hties : ∀ b, (order b a == .eq) = (order a b == .eq) := by
    intro b
    have hswap : order b a = (order a b).swap := Std.OrientedCmp.eq_swap
    rw [hswap]
    cases order a b <;> rfl
  simp only [hties]
  rw [List.filter_reverse, h.stable a (List.mem_reverse.2 ha), List.filter_reverse,
    List.reverse_reverse]

end Arranged

/-! ## Sorting by a consistent order -/

/-- How many of the items an order has in front of one. -/
def rank (order : α → α → Ordering) (items : List α) (a : α) : Int :=
  items.countP (order · a == .lt)

/-- A consistent order compares items as their ranks. -/
theorem rank_lt_iff {order : α → α → Ordering} [Std.TransCmp order] {items : List α} {a : α}
    (ha : a ∈ items) (b : α) : rank order items a < rank order items b ↔ order a b = .lt := by
  unfold rank
  constructor
  · intro hlt
    by_contra hge
    have hle : (order b a).isLE = true := by
      have hswap : order b a = (order a b).swap := Std.OrientedCmp.eq_swap
      rw [hswap]
      cases h : order a b <;> simp_all
    have hmono : items.countP (order · b == .lt) ≤ items.countP (order · a == .lt) :=
      List.countP_mono_left fun c _ hc =>
        beq_iff_eq.2 (Std.TransCmp.lt_of_lt_of_isLE (beq_iff_eq.1 hc) hle)
    omega
  · intro hlt
    have hself : order a a = .eq := Std.ReflCmp.compare_self
    have hmono : ∀ part : List α,
        part.countP (order · a == .lt) ≤ part.countP (order · b == .lt) := fun part =>
      List.countP_mono_left fun c _ hc =>
        beq_iff_eq.2 (Std.TransCmp.lt_trans (beq_iff_eq.1 hc) hlt)
    -- The item itself stands in front of the other one, but not in front of itself.
    obtain ⟨front, behind, rfl⟩ := List.append_of_mem ha
    have hfront := hmono front
    have hbehind := hmono behind
    rw [List.countP_append, List.countP_append, List.countP_cons_of_neg (by simp [hself]),
      List.countP_cons_of_pos (by simp [hlt])]
    omega

namespace Arranged

variable {order : α → α → Ordering} {items : List α}

/-- Sorting by an order that is consistent on the items has a result, which arranges them. -/
theorem sort [Std.OrientedCmp order] (h : ConsistentOn order items) :
    ∃ out, Sorting.sort (fun a b => order a b == .lt) items = some out ∧
      Arranged order items out := by
  -- On the items alone, as a type of their own, the order is consistent.
  have hconsistent : Std.TransCmp fun a b : { a // a ∈ items } => order a b :=
    { eq_swap := Std.OrientedCmp.eq_swap
      isLE_trans := fun {a b c} => by
        simp only [Ordering.isLE_iff_ne_gt]
        exact h a a.2 b b.2 c c.2 }
  generalize hkey : rank (fun a b : { a // a ∈ items } => order a b) items.attach = key
  have hlt : ∀ a b : { a // a ∈ items }, key a < key b ↔ order a b = .lt :=
    fun a => hkey ▸ rank_lt_iff (List.mem_attach items a)
  have hgt : ∀ a b : { a // a ∈ items }, key b < key a ↔ order a b = .gt := by
    intro a b
    rw [hlt, Std.OrientedCmp.gt_iff_lt]
  have hless : (fun a b : { a // a ∈ items } => order a b == .lt) = Sorting.byKey key := by
    funext a b
    rw [Bool.eq_iff_iff, Sorting.byKey_iff, beq_iff_eq, hlt]
  obtain ⟨out, hout, hsorts⟩ := Sorting.sort_sorts key items.attach
  have hvalues := Sorting.sort_map (fun a b => order a b == .lt) Subtype.val items.attach
  rw [List.attach_map_subtype_val, hless, hout] at hvalues
  refine ⟨_, hvalues, ?_⟩
  have harranged : Arranged (fun a b : { a // a ∈ items } => order a b) items.attach out := by
    refine ⟨Sorting.sort_perm hout,
      hsorts.ascending.imp fun {a b} hle hgreater => ?_, fun a _ => ?_⟩
    · have := (hgt a b).2 hgreater
      omega
    · have hties : ∀ b : { a // a ∈ items }, (order a b == .eq) = (key b == key a) := by
        intro b
        have hab := hlt a b
        have hba := hgt a b
        rw [Bool.eq_iff_iff, beq_iff_eq, beq_iff_eq]
        cases horder : order a b <;> simp [horder] at hab hba ⊢ <;> omega
      simp only [hties]
      exact hsorts.ties (key a)
  have hmapped := harranged.map
  rwa [List.attach_map_subtype_val] at hmapped

end Arranged

end Arrangements

/-! ## Sorted records -/

namespace Query

instance (field : String) (direction : Direction) :
    Std.OrientedCmp (recordOrder field direction) where
  eq_swap := by
    intro a b
    cases direction with
    | ascending => exact fieldOrder_swap ..
    | descending => exact congrArg Ordering.swap (fieldOrder_swap ..)

/-- Downwards, records are compared the other way round. -/
theorem recordOrder_descending (field : String) :
    recordOrder field .descending = fun a b => recordOrder field .ascending b a := by
  funext a b
  exact (fieldOrder_swap ..).symm

/-- Records are consistently ordered by a field that holds a number in each of them. -/
theorem consistentOn_numbers {field : String} {records : RecordSet}
    (h : ∀ r ∈ records, ∃ n, r.get? field = some (.number n) ∧ n ≠ .nan) :
    ConsistentOn (recordOrder field .ascending) records := by
  intro a ha b hb c hc hab hbc hac
  obtain ⟨x, hx, -⟩ := h a ha
  obtain ⟨y, hy, hnan⟩ := h b hb
  obtain ⟨z, hz, -⟩ := h c hc
  have htangled := (tangled_iff ..).2 ⟨hab, hbc, hac⟩
  rw [hx, hy, hz] at htangled
  cases htangled with
  | unordered => exact hnan rfl
  | between other | behind other | before other => cases other

/-- Records are consistently ordered by a field that holds a number in none of them. -/
theorem consistentOn_texts {field : String} {records : RecordSet}
    (h : ∀ r ∈ records, (r.get? field).bind Value.number? = none) :
    ConsistentOn (recordOrder field .ascending) records := by
  intro a ha b hb c hc hab hbc
  have htext : ∀ {r s : Record}, r ∈ records →
      recordOrder field .ascending r s =
        Text.collate (Value.displayField (r.get? field)) (Value.displayField (s.get? field)) :=
    fun hr => fieldOrder_of_text (.inl (h _ hr))
  rw [htext ha] at hab ⊢
  rw [htext hb] at hbc
  exact Text.collate_trans hab hbc

/-- A field that is consistently ordered upwards is so downwards. -/
theorem consistentOn_direction {field : String} {records : RecordSet}
    (h : ConsistentOn (recordOrder field .ascending) records) (direction : Direction) :
    ConsistentOn (recordOrder field direction) records := by
  cases direction with
  | ascending => exact h
  | descending =>
    rw [recordOrder_descending]
    exact fun a ha b hb c hc hab hbc => h c hc b hb a ha hbc hab

/-- Records that are consistently ordered are sorted, and they are arranged by the field. -/
theorem arranged_sort {field : String} {records : RecordSet}
    (h : ConsistentOn (recordOrder field .ascending) records) (direction : Direction) :
    ∃ out, sort field direction records = some out ∧
      Arranged (recordOrder field direction) records out :=
  Arranged.sort (consistentOn_direction h direction)

/-- Only many records that the field does not order consistently can be left unsorted. -/
theorem inconsistent_of_sort {field : String} {direction : Direction} {records : RecordSet}
    (h : sort field direction records = none) :
    20 < records.length ∧ ¬ ConsistentOn (recordOrder field .ascending) records := by
  constructor
  · by_contra hfew
    rw [sort, Sorting.sort, if_pos (Nat.le_of_not_lt hfew)] at h
    cases h
  · intro hconsistent
    obtain ⟨sorted, hsorted, -⟩ := arranged_sort hconsistent direction
    rw [hsorted] at h
    cases h

/-- Records whose field `v` holds ten, nine or `1x`, each of which is in front of another one. -/
def circling : RecordSet :=
  let row (v : Value) : Record := ⟨[("v", v)]⟩
  row (.number (.ofNat 10)) :: (List.replicate 9 (row (.number (.ofNat 9))) ++
    List.replicate 11 (row (.string "1x")))

example : sort "v" .ascending circling = none := by decide +kernel

/-- A field orders records consistently if it holds a number other than `nan` in each of them, or a
number in none of them. Records that are consistently ordered have one arrangement upwards and one
downwards, and they are sorted into it. Sorting downwards is sorting upwards from the other end, and
what is sorted stays as it is. -/
theorem sort_arranged (field : String) (records : RecordSet) :
    ((∀ r ∈ records, ∃ n, r.get? field = some (.number n) ∧ n ≠ .nan) →
        ConsistentOn (recordOrder field .ascending) records) ∧
      ((∀ r ∈ records, (r.get? field).bind Value.number? = none) →
        ConsistentOn (recordOrder field .ascending) records) ∧
      (ConsistentOn (recordOrder field .ascending) records →
        (∃ sorted, sort field .ascending records = some sorted ∧
          ∀ out, Arranged (recordOrder field .ascending) records out ↔ out = sorted) ∧
        (∃ sorted, sort field .descending records = some sorted ∧
          ∀ out, Arranged (fun a b => recordOrder field .ascending b a) records out ↔
            out = sorted) ∧
        sort field .descending records =
          (sort field .ascending records.reverse).map List.reverse ∧
        ∀ direction sorted, sort field direction records = some sorted →
          sort field direction sorted = some sorted) := by
  refine ⟨consistentOn_numbers, consistentOn_texts, fun h => ?_⟩
  have hunique : ∀ direction, ∃ sorted, sort field direction records = some sorted ∧
      ∀ out, Arranged (recordOrder field direction) records out ↔ out = sorted := by
    intro direction
    obtain ⟨sorted, hsorted, harranged⟩ := arranged_sort h direction
    refine ⟨sorted, hsorted, fun out => ⟨fun hout => hout.unique harranged, ?_⟩⟩
    rintro rfl
    exact harranged
  obtain ⟨falling, hfalling, hdown⟩ := hunique .descending
  refine ⟨hunique .ascending, ⟨falling, hfalling, fun out => ?_⟩, ?_,
    fun direction sorted hsorted => ?_⟩
  · rw [← recordOrder_descending]
    exact hdown out
  · have hreverse : ConsistentOn (recordOrder field .ascending) records.reverse := by
      simpa only [ConsistentOn, List.mem_reverse] using h
    obtain ⟨rising, hrising, harranged⟩ := arranged_sort hreverse .ascending
    have harranged := harranged.reverse
    rw [← recordOrder_descending] at harranged
    rw [hfalling, hrising, Option.map_some, (hdown _).1 harranged]
  · -- What is sorted is an arrangement of itself.
    obtain ⟨out, hout, harranged⟩ := arranged_sort h direction
    obtain rfl := Option.some.inj (hsorted.symm.trans hout)
    have hagain : ConsistentOn (recordOrder field .ascending) sorted := by
      simpa only [ConsistentOn, harranged.perm.mem_iff] using h
    obtain ⟨out, hout', harranged'⟩ := arranged_sort hagain direction
    rw [hout', harranged'.unique ⟨.refl _, harranged.ascending, fun _ _ => rfl⟩]

/-- Texts that differ in case alone have the lower case first, and equal ones stay as they stood. -/
theorem sort_arranged_ties :
    let row (key : String) (i : Nat) : Record := ⟨[("k", .string key), ("i", .number (.ofNat i))]⟩
    let records : RecordSet := [row "b" 1, row "B" 2, row "a" 3, row "b" 4]
    (∀ r ∈ records, (r.get? "k").bind Value.number? = none) ∧
      ConsistentOn (recordOrder "k" .ascending) records ∧
      sort "k" .ascending records = some [row "a" 3, row "b" 1, row "b" 4, row "B" 2] ∧
      sort "k" .descending records = some [row "B" 2, row "b" 1, row "b" 4, row "a" 3] := by
  intro row records
  obtain ⟨-, htexts, hsorted⟩ := sort_arranged "k" records
  have hfield : ∀ r ∈ records, (r.get? "k").bind Value.number? = none := by decide
  have hconsistent := htexts hfield
  obtain ⟨⟨up, hup, hups⟩, ⟨down, hdown, hdowns⟩, -⟩ := hsorted hconsistent
  rw [hup, hdown]
  refine ⟨hfield, hconsistent, congrArg some ((hups _).1 ?_).symm,
    congrArg some ((hdowns _).1 ?_).symm⟩
  · exact ⟨by decide +kernel, by decide +kernel, by decide +kernel⟩
  · exact ⟨by decide +kernel, by decide +kernel, by decide +kernel⟩

end Query

end LooseRecords

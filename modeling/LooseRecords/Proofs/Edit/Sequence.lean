import LooseRecords.Proofs.Condition.Reads
import LooseRecords.Proofs.Edit.Assignment

/-!
# Updates one after another

What becomes of a record set that is updated twice. `Edit.updateMatching_again` says that an update
finds nothing left to do where it has been before, `Edit.updateInPlace_exchange` that two updates of
which neither writes what the other one reads or writes may change places.
-/

namespace LooseRecords

/-- Two records with the same fields and the same value in each of them, be it in another order. -/
structure Record.SameFields (r s : Record) : Prop where
  names : r.names.Perm s.names
  values : ∀ name, r.get? name = s.get? name

theorem Record.SameFields.refl (r : Record) : r.SameFields r := ⟨.refl _, fun _ => rfl⟩

namespace Edit

/-! ## The same update once more -/

theorem assign_assign_self (assignments : List Assignment) (r : Record) :
    assign assignments (assign assignments r) = assign assignments r := by
  have hfields : (assign assignments (assign assignments r)).fields =
      (assign assignments r).fields := by
    rw [assign_fields, assign_fields, Fields.insertAll_insertAll_self]
  exact congrArg Record.mk hfields

theorem updated_updated_self (group : Group) (assignments : List Assignment) (r : Record) :
    updated group assignments (updated group assignments r) = updated group assignments r := by
  cases hr : group.isMet r
  · simp [updated, hr]
  · -- The record may meet the group no longer; if it still does, it is assigned what it holds.
    simp [updated, hr, assign_assign_self]

/-- An update makes no record meet the group that did not meet it before. -/
theorem isMet_of_isMet_updated {group : Group} {assignments : List Assignment} {r : Record}
    (h : group.isMet (updated group assignments r) = true) : group.isMet r = true := by
  by_contra hr
  rw [updated, if_neg hr] at h
  exact hr h

/-- An update takes no field from a record. -/
theorem mem_names_updated {name : String} {r : Record} (h : name ∈ r.names) (group : Group)
    (assignments : List Assignment) : name ∈ (updated group assignments r).names := by
  rw [updated]
  split
  · rw [(assigned_assign assignments r).names]
    exact List.mem_append_left _ h
  · exact h

theorem carries_map_updated {records : RecordSet} {name : String} (h : records.Carries name)
    (group : Group) (assignments : List Assignment) :
    RecordSet.Carries (records.map (updated group assignments)) name := by
  obtain ⟨r, hr, hname⟩ := h
  exact ⟨_, List.mem_map_of_mem hr, mem_names_updated hname group assignments⟩

/-- An update finds nothing left to do where it has been before. Where it succeeds, it succeeds once
more on what it leaves, which it does not change, and counts no more records than the first time. -/
theorem updateMatching_again {group : Group} {assignments : List Assignment}
    {records after : RecordSet} {count : Nat}
    (h : updateMatching group assignments records = .ok (count, after)) :
    ∃ again ≤ count, updateMatching group assignments after = .ok (again, after) := by
  obtain ⟨hcarries, rfl, rfl⟩ := updateMatching_eq_ok_iff.1 h
  have hcarries' : ∀ c ∈ group.conditions,
      RecordSet.Carries (records.map (updated group assignments)) c.field :=
    fun c hc => carries_map_updated (hcarries c hc) group assignments
  have hcount : (records.map (updated group assignments)).countP group.isMet ≤
      records.countP group.isMet := by
    rw [List.countP_map]
    exact List.countP_mono_left fun r _ => isMet_of_isMet_updated
  have hsame : (records.map (updated group assignments)).map (updated group assignments) =
      records.map (updated group assignments) := by
    rw [List.map_map]
    exact List.map_congr_left fun r _ => updated_updated_self group assignments r
  exact ⟨_, hcount, updateMatching_eq_ok_iff.2 ⟨hcarries', rfl, hsame.symm⟩⟩

/-- A record that no longer meets the group after the update, which assigns one field twice and
another one for the first time. -/
theorem updateMatching_again_closed :
    let group : Group := { conditions := [⟨"state", .equals, some "open"⟩] }
    let assignments : List Assignment := [⟨"note", "a"⟩, ⟨"state", "closed"⟩, ⟨"note", "b"⟩]
    let records : RecordSet := [⟨[("state", .string "Open")]⟩, ⟨[("state", .null)]⟩]
    let after : RecordSet :=
      [⟨[("state", .string "closed"), ("note", .string "b")]⟩, ⟨[("state", .null)]⟩]
    updateMatching group assignments records = .ok (1, after) ∧
      updateMatching group assignments after = .ok (0, after) ∧
      ∃ again ≤ 1, updateMatching group assignments after = .ok (again, after) := by
  intro group assignments records after
  have h : updateMatching group assignments records = .ok (1, after) := by decide +kernel
  exact ⟨h, by decide +kernel, updateMatching_again h⟩

/-! ## Updates that do not meet -/

/-- Neither of two updates writes what the other one reads or writes. -/
structure Independent (g₁ : Group) (u₁ : List Assignment) (g₂ : Group) (u₂ : List Assignment) :
    Prop where
  writes : ∀ a ∈ u₁, ∀ b ∈ u₂, a.name ≠ b.name
  /-- The first one writes no field that the second one has a condition on. -/
  first : ∀ a ∈ u₁, ∀ c ∈ g₂.conditions, a.name ≠ c.field
  /-- The second one writes no field that the first one has a condition on. -/
  second : ∀ b ∈ u₂, ∀ c ∈ g₁.conditions, b.name ≠ c.field

/-- A change of records leaves the fields of a group's conditions as they are. -/
def Spares (group : Group) (change : Record → Record) : Prop :=
  ∀ c ∈ group.conditions, ∀ r, (change r).get? c.field = r.get? c.field

/-- An update assigns the record: it meets the group, the check of which succeeded. -/
def reaches (group : Group) (records : RecordSet) (r : Record) : Bool :=
  (group.check records).isOk && group.isMet r

/-- The record with assignments, if it is reached. -/
def assignIf (reached : Bool) (assignments : List Assignment) (r : Record) : Record :=
  if reached then assign assignments r else r

/-- An update in place as a change of each record, be there a failure or not. -/
theorem updateInPlace_eq_map (group : Group) (assignments : List Assignment)
    (records : RecordSet) :
    updateInPlace group assignments records =
      ((group.check records).map fun _ => records.countP group.isMet,
        records.map fun r => assignIf (reaches group records r) assignments r) := by
  rw [updateInPlace_eq, updateMatching_eq]
  cases hcheck : group.check records with
  | error failure =>
    have hreaches : ∀ r, reaches group records r = false := by
      intro r
      rw [reaches, hcheck]
      rfl
    simp only [hreaches, assignIf, Bool.false_eq_true, if_false, List.map_id']
    rfl
  | ok _ =>
    have hreaches : ∀ r, reaches group records r = group.isMet r := by
      intro r
      rw [reaches, hcheck]
      rfl
    simp only [hreaches]
    rfl

/-! ### What a change that spares a group leaves to it -/

section

variable {group : Group} {change : Record → Record}

theorem Spares.isMet (h : Spares group change) (r : Record) :
    group.isMet (change r) = group.isMet r :=
  Group.isMet_of_get?_eq fun c hc => h c hc r

theorem Spares.check (h : Spares group change) (records : RecordSet) :
    group.check (records.map change) = group.check records := by
  apply Group.check_congr
  intro c hc
  have hnames : ∀ r : Record, c.field ∈ (change r).names ↔ c.field ∈ r.names := by
    intro r
    have hget : Fields.get? (change r).fields c.field = Fields.get? r.fields c.field := h c hc r
    rw [Record.names, Record.names, Fields.mem_names_iff, Fields.mem_names_iff, hget]
  simp only [RecordSet.Carries, List.mem_map, exists_exists_and_eq_and, hnames]

/-- An update has the same outcome, and assigns the same records, after a change that spares its
group. -/
theorem updateInPlace_map (h : Spares group change) (assignments : List Assignment)
    (records : RecordSet) :
    updateInPlace group assignments (records.map change) =
      ((updateInPlace group assignments records).1,
        records.map fun r => assignIf (reaches group records r) assignments (change r)) := by
  have hreaches : ∀ r, reaches group (records.map change) (change r) = reaches group records r := by
    intro r
    rw [reaches, reaches, h.check, h.isMet]
  have hmet : group.isMet ∘ change = group.isMet := funext h.isMet
  have hrecords : (records.map change).map (fun r =>
      assignIf (reaches group (records.map change) r) assignments r) =
        records.map fun r => assignIf (reaches group records r) assignments (change r) := by
    simp only [List.map_map, Function.comp_def, hreaches]
  rw [updateInPlace_eq_map, updateInPlace_eq_map, hrecords, h.check, List.countP_map, hmet]

theorem spares_assignIf {assignments : List Assignment}
    (h : ∀ a ∈ assignments, ∀ c ∈ group.conditions, a.name ≠ c.field) (reached : Record → Bool) :
    Spares group fun r => assignIf (reached r) assignments r := by
  intro c hc r
  show (assignIf (reached r) assignments r).get? c.field = r.get? c.field
  rw [assignIf]
  split
  · exact (assigned_assign assignments r).kept c.field fun a ha => h a ha c hc
  · rfl

end

/-! ### Assignments to different fields -/

section

variable {u₁ u₂ : List Assignment}

theorem names_disjoint (h : ∀ a ∈ u₁, ∀ b ∈ u₂, a.name ≠ b.name) :
    ∀ name ∈ Fields.names (stored u₂), name ∉ Fields.names (stored u₁) := by
  intro name hsecond hfirst
  rw [names_stored] at hsecond hfirst
  obtain ⟨b, hb, rfl⟩ := List.mem_map.1 hsecond
  obtain ⟨a, ha, hab⟩ := List.mem_map.1 hfirst
  exact h a ha b hb hab

/-- Assignments to different fields give the same fields in either order, only that fields which
are new may come in another order. -/
theorem sameFields_assign_assign (h : ∀ a ∈ u₁, ∀ b ∈ u₂, a.name ≠ b.name) (r : Record) :
    (assign u₂ (assign u₁ r)).SameFields (assign u₁ (assign u₂ r)) where
  names := by
    have hreverse : ∀ name ∈ Fields.names (stored u₁), name ∉ Fields.names (stored u₂) :=
      fun name hfirst hsecond => names_disjoint h name hsecond hfirst
    simp only [Record.names, assign_fields]
    rw [Fields.names_insertAll_insertAll (names_disjoint h),
      Fields.names_insertAll_insertAll hreverse, List.append_assoc, List.append_assoc]
    exact List.perm_append_comm.append_left _
  values := by
    intro name
    simp only [Record.get?, assign_fields]
    exact Fields.get?_insertAll_comm (names_disjoint h) name

theorem assign_comm (h : ∀ a ∈ u₁, ∀ b ∈ u₂, a.name ≠ b.name) {r : Record}
    (hr : ∀ b ∈ u₂, b.name ∈ r.names) :
    assign u₂ (assign u₁ r) = assign u₁ (assign u₂ r) := by
  have hmem : ∀ name ∈ Fields.names (stored u₂), name ∈ Fields.names r.fields := by
    intro name hname
    rw [names_stored] at hname
    obtain ⟨b, hb, rfl⟩ := List.mem_map.1 hname
    exact hr b hb
  have hfields : (assign u₂ (assign u₁ r)).fields = (assign u₁ (assign u₂ r)).fields := by
    simp only [assign_fields]
    exact Fields.insertAll_comm hmem (names_disjoint h)
  exact congrArg Record.mk hfields

theorem sameFields_assignIf (h : ∀ a ∈ u₁, ∀ b ∈ u₂, a.name ≠ b.name) (p q : Bool) (r : Record) :
    (assignIf q u₂ (assignIf p u₁ r)).SameFields (assignIf p u₁ (assignIf q u₂ r)) := by
  cases p <;> cases q
  case true.true => exact sameFields_assign_assign h r
  all_goals exact .refl _

theorem assignIf_comm (h : ∀ a ∈ u₁, ∀ b ∈ u₂, a.name ≠ b.name) {r : Record}
    (hr : ∀ b ∈ u₂, b.name ∈ r.names) (p q : Bool) :
    assignIf q u₂ (assignIf p u₁ r) = assignIf p u₁ (assignIf q u₂ r) := by
  cases p <;> cases q
  case true.true => exact assign_comm h hr
  all_goals rfl

end

/-- Independent updates may change places. In either order each of them has the same outcome, be it
a count or a failure, after which the record set is as the other one left it. The records end with
the same fields and the same values, and if they had all assigned fields before, they end the
same. -/
theorem updateInPlace_exchange {g₁ g₂ : Group} {u₁ u₂ : List Assignment}
    (h : Independent g₁ u₁ g₂ u₂) (records : RecordSet) :
    let (outcome₁, after₁) := updateInPlace g₁ u₁ records
    let (outcome₂, both) := updateInPlace g₂ u₂ after₁
    let (outcome₂', after₂) := updateInPlace g₂ u₂ records
    let (outcome₁', both') := updateInPlace g₁ u₁ after₂
    outcome₁ = outcome₁' ∧ outcome₂ = outcome₂' ∧ List.Forall₂ Record.SameFields both both' ∧
      ((∀ r ∈ records, ∀ a ∈ u₁ ++ u₂, a.name ∈ r.names) → both = both') := by
  have hfirst : (updateInPlace g₁ u₁ records).2 =
      records.map fun r => assignIf (reaches g₁ records r) u₁ r := by
    rw [updateInPlace_eq_map]
  have hsecond : (updateInPlace g₂ u₂ records).2 =
      records.map fun r => assignIf (reaches g₂ records r) u₂ r := by
    rw [updateInPlace_eq_map]
  show (updateInPlace g₁ u₁ records).1 =
      (updateInPlace g₁ u₁ (updateInPlace g₂ u₂ records).2).1 ∧
    (updateInPlace g₂ u₂ (updateInPlace g₁ u₁ records).2).1 = (updateInPlace g₂ u₂ records).1 ∧
    List.Forall₂ Record.SameFields (updateInPlace g₂ u₂ (updateInPlace g₁ u₁ records).2).2
      (updateInPlace g₁ u₁ (updateInPlace g₂ u₂ records).2).2 ∧
    ((∀ r ∈ records, ∀ a ∈ u₁ ++ u₂, a.name ∈ r.names) →
      (updateInPlace g₂ u₂ (updateInPlace g₁ u₁ records).2).2 =
        (updateInPlace g₁ u₁ (updateInPlace g₂ u₂ records).2).2)
  rw [hfirst, hsecond, updateInPlace_map (spares_assignIf h.first _),
    updateInPlace_map (spares_assignIf h.second _)]
  refine ⟨rfl, rfl, ?_, ?_⟩
  · rw [List.forall₂_map_left_iff, List.forall₂_map_right_iff, List.forall₂_same]
    exact fun r _ => sameFields_assignIf h.writes _ _ r
  · intro hnames
    apply List.map_congr_left
    intro r hr
    exact assignIf_comm h.writes (fun b hb => hnames r hr b (List.mem_append_right _ hb)) _ _

/-- Two updates of which one asks for a field and the other one for none. Fields that are new come
in the order of the updates; fields that were there keep their places. -/
theorem updateInPlace_exchange_marks :
    let g₁ : Group := { conditions := [⟨"state", .equals, some "open"⟩] }
    let u₁ : List Assignment := [⟨"x", "a"⟩]
    let u₂ : List Assignment := [⟨"y", "b"⟩]
    let bare : RecordSet := [⟨[("state", .string "open")]⟩, ⟨[("state", .null)]⟩]
    let full : RecordSet := [⟨[("y", .null), ("state", .string "open"), ("x", .null)]⟩]
    Independent g₁ u₁ {} u₂ ∧
      updateInPlace g₁ u₁ bare =
        (.ok 1, [⟨[("state", .string "open"), ("x", .string "a")]⟩, ⟨[("state", .null)]⟩]) ∧
      updateInPlace {} u₂ (updateInPlace g₁ u₁ bare).2 =
        (.ok 2, [⟨[("state", .string "open"), ("x", .string "a"), ("y", .string "b")]⟩,
          ⟨[("state", .null), ("y", .string "b")]⟩]) ∧
      updateInPlace g₁ u₁ (updateInPlace {} u₂ bare).2 =
        (.ok 1, [⟨[("state", .string "open"), ("y", .string "b"), ("x", .string "a")]⟩,
          ⟨[("state", .null), ("y", .string "b")]⟩]) ∧
      List.Forall₂ Record.SameFields (updateInPlace {} u₂ (updateInPlace g₁ u₁ bare).2).2
        (updateInPlace g₁ u₁ (updateInPlace {} u₂ bare).2).2 ∧
      (∀ r ∈ full, ∀ a ∈ u₁ ++ u₂, a.name ∈ r.names) ∧
      (updateInPlace {} u₂ (updateInPlace g₁ u₁ full).2).2 =
        (updateInPlace g₁ u₁ (updateInPlace {} u₂ full).2).2 := by
  intro g₁ u₁ u₂ bare full
  have h : Independent g₁ u₁ {} u₂ :=
    ⟨by decide, by decide, by decide⟩
  have hfull : ∀ r ∈ full, ∀ a ∈ u₁ ++ u₂, a.name ∈ r.names := by decide
  obtain ⟨-, -, hsame, -⟩ := updateInPlace_exchange h bare
  obtain ⟨-, -, -, hequal⟩ := updateInPlace_exchange h full
  exact ⟨h, by decide +kernel, by decide +kernel, by decide +kernel, hsame, hfull, hequal hfull⟩

end Edit

end LooseRecords

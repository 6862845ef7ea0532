import LooseRecords.Proofs.Edit.Duplicates
import LooseRecords.Proofs.Edit.Positions
import LooseRecords.Proofs.Request.Resolution
import LooseRecords.Proofs.Sorting.Kept
import LooseRecords.Proofs.Summary.Groups

/-!
# Outcomes of bundles

What a bundle that does not fail makes of the records. `Bundle.Yields` has a law for each way of
using an operation, and `Bundle.perform_yields` says that every outcome obeys its law: no record is
lost, invented, changed or moved but as the operation is for.
-/

namespace LooseRecords

namespace Record

/-- Some of the fields of a record, and no others. -/
structure PartOf (part whole : Record) : Prop where
  distinct : part.names.Nodup
  held : ∀ entry ∈ part.fields, whole.get? entry.1 = some entry.2

/-- A record before and after a change that names the fields it is about. -/
structure Touched (named : List String) (before after : Record) : Prop where
  /-- The fields that were there keep their places. -/
  places : before.names <+: after.names
  /-- Any other field holds what it held, and is missing if it was. -/
  kept : ∀ name ∉ named, after.get? name = before.get? name

end Record

/-! ## Readings -/

namespace Query

theorem page_sublist (limit offset : Int) (records : RecordSet) :
    (page limit offset records).Sublist records :=
  (List.drop_sublist _ _).trans (List.take_sublist _ _)

theorem restrict_partOf (names : List String) (r : Record) : (restrict names r).PartOf r where
  distinct := Fields.nodup_names_ofList _
  held := by
    intro entry hentry
    obtain ⟨name, -, hname⟩ := List.mem_filterMap.1 (Fields.mem_ofList hentry)
    obtain ⟨value, hvalue, rfl⟩ := Option.map_eq_some_iff.1 hname
    exact hvalue

theorem forall₂_getElem? {α : Type} (items : List α) {positions : List Nat}
    (h : ∀ i ∈ positions, i < items.length) :
    List.Forall₂ (fun i a => items[i]? = some a) positions (positions.filterMap (items[·]?)) := by
  induction positions with
  | nil => exact .nil
  | cons i positions ih =>
    obtain ⟨hi, hrest⟩ := List.forall_mem_cons.1 h
    have hfound : items[i]? = some items[i] := List.getElem?_eq_getElem hi
    rw [List.filterMap_cons_some hfound]
    exact .cons hfound (ih hrest)

/-- The records that a reading of cells returns, side by side with their positions. -/
theorem forall₂_cells (rows fields : String) (records : RecordSet) :
    List.Forall₂
      (fun i r => ∃ whole, records[i]? = some whole ∧ (r = whole ∨ r.PartOf whole))
      (Selection.positions rows records.length) (cells rows fields records) := by
  have hselected := forall₂_getElem? records
    fun i (hi : i ∈ Selection.positions rows records.length) => Selection.lt_of_mem_positions hi
  rw [cells]
  split
  · exact hselected.imp fun i r hr => ⟨r, hr, .inl rfl⟩
  · rw [List.forall₂_map_right_iff]
    exact hselected.imp fun i r hr => ⟨r, hr, .inr (restrict_partOf _ r)⟩

end Query

/-! ## Changes -/

namespace Edit

/-- Two steps with a result: the first one has a result, from which the second one goes on. -/
theorem exists_of_bind_eq_ok {ε α β : Type} {x : Except ε α} {f : α → Except ε β} {b : β}
    (h : (x >>= f) = .ok b) : ∃ a, x = .ok a ∧ f a = .ok b := by
  cases x with
  | error e => cases h
  | ok a => exact ⟨a, rfl, h⟩

theorem create_eq_ok {payload : Json} {place : Place} {records out : RecordSet}
    (h : create payload place records = .ok out) :
    ∃ new, payloadRecords payload = .ok new ∧
      out = if place = .atEnd then records ++ new else new ++ records := by
  obtain ⟨new, hnew, hout⟩ := exists_of_bind_eq_ok h
  refine ⟨new, hnew, ?_⟩
  cases place <;> cases hout <;> rfl

/-- A record that is assigned or left alone is touched in the assigned fields at most. -/
theorem touched_of_assigned {p : Prop} [Decidable p] {assignments : List Assignment}
    {before after : Record}
    (h : if p then Assigned assignments before after else after = before) :
    before.Touched (assignments.map Assignment.name) after := by
  split at h
  case isTrue =>
    constructor
    · rw [h.names]
      exact List.prefix_append _ _
    · intro name hname
      refine h.kept name fun a ha haname => hname ?_
      exact List.mem_map.2 ⟨a, ha, haname⟩
  case isFalse =>
    subst h
    exact ⟨List.prefix_refl _, fun _ _ => rfl⟩

theorem updateMatching_touched {group : Group} {assignments : List Assignment}
    {records out : RecordSet} {count : Nat}
    (h : updateMatching group assignments records = .ok (count, out)) :
    List.Forall₂ (Record.Touched (assignments.map Assignment.name)) records out := by
  obtain ⟨-, -, rfl⟩ := updateMatching_eq_ok_iff.1 h
  exact (forall₂_updated group assignments records).imp fun _ _ => touched_of_assigned

theorem updateAt_touched (rows field value : String) (records : RecordSet) :
    List.Forall₂ (Record.Touched [field]) records (updateAt rows field value records).2 := by
  have hmarks : ((Selection.marks rows records.length).zip records).map Prod.snd = records :=
    List.map_snd_zip (by simp [Selection.marks])
  have hrows : List.Forall₂ (fun entry after => Record.Touched [field] entry.2 after)
      ((Selection.marks rows records.length).zip records)
      (updateAt rows field value records).2 :=
    (forall₂_updateAt rows field value records).imp fun _ _ => touched_of_assigned
  rwa [← List.forall₂_map_left_iff, hmarks] at hrows

theorem deleteMatching_sublist {group : Group} {records out : RecordSet}
    (h : deleteMatching group records = .ok out) : out.Sublist records := by
  unfold deleteMatching at h
  split at h
  · cases h
    exact .refl _
  · obtain ⟨_, -, hout⟩ := exists_of_bind_eq_ok h
    cases hout
    exact List.filter_sublist

end Edit

theorem Summary.length_statistics_le {groupField : String} (h : groupField ≠ "") (field : String)
    (records : RecordSet) :
    (statistics field (some groupField) records).length ≤ records.length := by
  have hnodup := nodup_names_groups field groupField records
  rw [names_groups] at hnodup
  have hsub : (records.map (label groupField)).eraseDups ⊆ records.map (label groupField) :=
    fun _ => List.mem_eraseDups.1
  simpa [statistics_eq_map_row field groupField h] using hnodup.length_le_of_subset hsub

/-! ## Bundles -/

namespace Bundle

/-- What a bundle may make of records. -/
inductive Yields (b : Bundle) (records out : RecordSet) : Prop where
  /-- A reading of any mode but these two only leaves records out. -/
  | selected (hop : b.operation = "read") (hsort : b.readMode ≠ "sort")
    (hcell : b.readMode ≠ "cell") (h : out.Sublist records)
  | sorted (hop : b.operation = "read") (hmode : b.readMode = "sort") (h : out.Perm records)
  | cells (hop : b.operation = "read") (hmode : b.readMode = "cell") (positions : List Nat)
    (hascending : positions.Pairwise (· < ·))
    (h : List.Forall₂
      (fun i r => ∃ whole, records[i]? = some whole ∧ (r = whole ∨ r.PartOf whole))
      positions out)
  | updated (hop : b.operation = "update") (hmode : b.updateMode ≠ "cell")
    (h : List.Forall₂ (Record.Touched (b.assignments.map Assignment.name)) records out)
  | updatedCells (hop : b.operation = "update") (hmode : b.updateMode = "cell")
    (h : List.Forall₂ (Record.Touched [b.cellField]) records out)
  | deleted (hop : b.operation = "delete" ∨ b.operation = "removeDuplicates")
    (h : out.Sublist records)
  | created (hop : b.operation = "create") (new : RecordSet)
    (hnew : Edit.payloadRecords b.payload = .ok new)
    (h : out = if b.place = "append" then records ++ new else new ++ records)
  | grouped (hop : b.operation = "statistics") (hgroup : b.groupField ≠ "")
    (h : out.length ≤ records.length)
  | summarized (hop : b.operation = "statistics") (hgroup : b.groupField = "")
    (h : out.length = 1)

theorem exists_selector_of_perform {b : Bundle} {records out : RecordSet}
    (h : b.perform records = .ok out) :
    ∃ o : Operation, b.operation = o.selector ∧ (b.resolved o).perform records = .ok out := by
  by_cases hop : ∃ o : Operation, b.operation = o.selector
  · obtain ⟨o, ho⟩ := hop
    refine ⟨o, ho, ?_⟩
    rw [perform_of_selector ho] at h
    cases hperform : (b.resolved o).perform records with
    | error failure =>
      rw [hperform] at h
      cases h
    | ok result =>
      rw [hperform] at h
      cases h
      rfl
  · rw [perform_of_no_selector (by simpa using hop)] at h
    cases h

theorem readRequest_yields {b : Bundle} {records out : RecordSet} (hop : b.operation = "read")
    (h : b.readRequest.perform records = .ok out) : b.Yields records out := by
  -- Mode by mode, in the order in which they are tried; an unknown one comes last.
  unfold readRequest at h
  split at h
  case isTrue hmode =>
    cases h
    exact .selected hop (by simp [hmode]) (by simp [hmode]) List.filter_sublist
  split at h
  case isTrue hmode =>
    exact .sorted hop hmode (Sorting.sort_perm (Request.perform_sort_eq_ok_iff.1 h))
  case isFalse hsort =>
  split at h
  case isTrue hmode =>
    cases h
    exact .selected hop hsort (by simp [hmode]) List.filter_sublist
  split at h
  case isTrue hmode =>
    cases h
    exact .selected hop hsort (by simp [hmode]) (Query.page_sublist _ _ _)
  split at h
  case isTrue hmode =>
    cases h
    exact .cells hop hmode _ (Selection.pairwise_positions _ _) (Query.forall₂_cells _ _ _)
  case isFalse hcell =>
    cases h
    exact .selected hop hsort hcell (.refl _)

theorem updateRequest_yields {b : Bundle} {records out : RecordSet} (hop : b.operation = "update")
    (h : b.updateRequest.perform records = .ok out) : b.Yields records out := by
  unfold updateRequest at h
  split at h
  case isTrue hmode =>
    cases h
    exact .updatedCells hop hmode (Edit.updateAt_touched _ _ _ _)
  case isFalse hmode =>
    have hmap : (Edit.updateMatching b.updateCriteria.group b.assignments records).map Prod.snd =
        .ok out := Request.mapError_eq_ok_iff.1 h
    cases hupdate : Edit.updateMatching b.updateCriteria.group b.assignments records with
    | error failure =>
      rw [hupdate] at hmap
      cases hmap
    | ok result =>
      obtain ⟨count, after⟩ := result
      rw [hupdate] at hmap
      cases hmap
      exact .updated hop hmode (Edit.updateMatching_touched hupdate)

theorem deleteRequest_yields {b : Bundle} {records out : RecordSet} (hop : b.operation = "delete")
    (h : b.deleteRequest.perform records = .ok out) : b.Yields records out := by
  unfold deleteRequest at h
  split at h
  case isTrue =>
    cases h
    exact .deleted (.inl hop) (Edit.merged_selected _ _).sublist_second
  case isFalse => 
    exact .deleted (.inl hop) (Edit.deleteMatching_sublist (Request.mapError_eq_ok_iff.1 h))

/-- No operation loses, invents, changes or moves records beyond what it is for. -/
theorem perform_yields {b : Bundle} {records out : RecordSet} (h : b.perform records = .ok out) :
    b.Yields records out := by
  obtain ⟨o, hop, hperform⟩ := exists_selector_of_perform h
  cases o with
  | create =>
    obtain ⟨new, hnew, hout⟩ := Edit.create_eq_ok (Request.mapError_eq_ok_iff.1 hperform)
    refine .created hop new hnew ?_
    by_cases hplace : b.place = "append" <;> simpa [Place.ofSelector, hplace] using hout
  | read => exact readRequest_yields hop hperform
  | update => exact updateRequest_yields hop hperform
  | delete => exact deleteRequest_yields hop hperform
  | removeDuplicates =>
    cases hperform
    exact .deleted (.inr hop) (Edit.firsts_sublist _ _ _)
  | statistics =>
    cases hperform
    by_cases hgroup : b.groupField = ""
    · refine .summarized hop hgroup ?_
      simp [hgroup, Summary.statistics]
    · refine .grouped hop hgroup ?_
      simpa [hgroup] using Summary.length_statistics_le hgroup b.statsField records

/-- Two fields of the rows at selected positions, one of which the first row lacks. -/
theorem perform_yields_cells :
    let b : Bundle := { readMode := "cell", readRows := "2,0-0", readFields := "b, a" }
    let records : RecordSet :=
      [⟨[("a", .string "x"), ("c", .null)]⟩, ⟨[("a", .bool true)]⟩,
        ⟨[("a", .number .zero), ("b", .string "y")]⟩]
    let out : RecordSet :=
      [⟨[("a", .string "x")]⟩, ⟨[("b", .string "y"), ("a", .number .zero)]⟩]
    b.perform records = .ok out ∧ b.Yields records out := by
  intro b records out
  have hperform : b.perform records = .ok out := by decide +kernel
  exact ⟨hperform, perform_yields hperform⟩

end Bundle

end LooseRecords

import LooseRecords.Proofs.Request.Resolution
import LooseRecords.Proofs.Request.RoundTrip

/-!
# The parameters of an operation

A bundle has the parameters of all operations, and the operation that it selects reads its own:
`Bundle.ownParameters`. Two bundles that agree on these are carried out alike, whatever else they
hold: `Bundle.own_parameters_suffice`.
-/

namespace LooseRecords

open Json (Faithful)

namespace Bundle

/-! ## Parameters by name -/

/-- The value that a bundle gives a parameter, by the name that hosts know it under. -/
def parameter? (b : Bundle) (name : String) : Option Json := Fields.get? b.members name

/-- The modes of reading, with the parameters that each one reads. -/
def readModes : Fields (List String) :=
  [("filter", ["filterConditions", "conditionLogic", "filterCaseSensitive"]),
   ("sort", ["sortField", "sortOrder"]),
   ("search", ["searchField", "searchValue", "caseSensitive"]),
   ("limit", ["limit", "offset"]),
   ("cell", ["readRowIndex", "readFieldNames"])]

/-- The parameters that are selectors, with the values that have a meaning of their own. All other
values of a selector mean the same. -/
def knownSelectors : Fields (List String) :=
  [("position", ["append"]), ("readMode", Fields.names readModes), ("conditionLogic", ["and"]),
   ("sortOrder", ["asc"]), ("updateMode", ["cell"]), ("updateConditionLogic", ["and"]),
   ("deleteMode", ["rowIndex"]), ("deleteConditionLogic", ["and"])]

/-- The parameters that an operation reads, in the mode that the bundle selects. -/
def parametersOf (b : Bundle) : Operation → List String
  | .create => ["dataToAdd", "position"]
  | .read => "readMode" :: (Fields.get? readModes b.readMode).getD []
  | .update =>
    "updateMode" ::
      if b.updateMode = "cell" then ["rowIndex", "cellFieldName", "cellValue"]
      else
        ["updateConditions", "updateConditionLogic", "updateCaseSensitive", "fieldsToUpdate"]
  | .delete =>
    "deleteMode" ::
      if b.deleteMode = "rowIndex" then ["deleteRowIndex"]
      else ["deleteConditions", "deleteConditionLogic", "deleteCaseSensitive"]
  | .removeDuplicates => ["uniqueFields"]
  | .statistics => ["statsField", "groupByField"]

/-- The parameters that a bundle reads: the selector of its operation, and those of the operation
that it selects. -/
def ownParameters (b : Bundle) : List String :=
  "operation" ::
    match Operation.ofSelector b.operation with
    | .ok o => b.parametersOf o
    | .error _ => []

/-- Two bundles mean the same by a parameter: they give it one value, or it is a selector and
neither of them gives it a value with a meaning of its own. -/
def AgreeOn (a b : Bundle) (name : String) : Prop :=
  a.parameter? name = b.parameter? name ∨
    ∃ known ∈ Fields.get? knownSelectors name, ∀ s ∈ known,
      a.parameter? name ≠ some (.string s) ∧ b.parameter? name ≠ some (.string s)

instance (a b : Bundle) (name : String) : Decidable (AgreeOn a b name) :=
  inferInstanceAs (Decidable (_ ∨ _))

namespace AgreeOn

variable {a b : Bundle} {name : String}

theorem parameter?_eq (h : AgreeOn a b name) (hplain : Fields.get? knownSelectors name = none) :
    a.parameter? name = b.parameter? name := by
  rcases h with heq | ⟨known, hknown, -⟩
  · exact heq
  · cases hplain.symm.trans hknown

/-- Agreement on a parameter that is no selector is equality of what its values stand for. -/
theorem eq {α : Type} {spelling : Json.Spelling} {encode : α → Json}
    {read : Json.Document → Option α} (h : AgreeOn a b name)
    (hencode : Faithful spelling encode read) (hplain : Fields.get? knownSelectors name = none)
    {x y : α} (hx : a.parameter? name = some (encode x))
    (hy : b.parameter? name = some (encode y)) : x = y := by
  have heq := h.parameter?_eq hplain
  rw [hx, hy] at heq
  exact hencode.inj (Option.some.inj heq)

/-- Agreement on a selector is agreement on the values with a meaning of their own. -/
theorem selects {known : List String} (h : AgreeOn a b name)
    (hknown : Fields.get? knownSelectors name = some known) {x y : String}
    (hx : a.parameter? name = some (.string x)) (hy : b.parameter? name = some (.string y)) :
    ∀ s ∈ known, x = s ↔ y = s := by
  intro s hs
  rcases h with heq | ⟨others, hothers, hneither⟩
  · rw [hx, hy] at heq
    rw [Json.string.inj (Option.some.inj heq)]
  · obtain rfl : known = others := Option.some.inj (hknown.symm.trans hothers)
    obtain ⟨hnotx, hnoty⟩ := hneither s hs
    rw [hx] at hnotx
    rw [hy] at hnoty
    have hxs : x ≠ s := fun heq => hnotx (by rw [heq])
    have hys : y ≠ s := fun heq => hnoty (by rw [heq])
    exact iff_of_false hxs hys

end AgreeOn

/-! ## Requests -/

variable {a b : Bundle}

/-- The criteria stand under three names of a bundle, of which one selects their logic. -/
structure Holds (b : Bundle) (conditions logic caseSensitive : String) (c : Criteria) : Prop where
  conditions : b.parameter? conditions =
    some (collectionJson "conditions" Condition.json c.conditions)
  logic : b.parameter? logic = some (.string c.logic)
  caseSensitive : b.parameter? caseSensitive = some (.bool c.caseSensitive)

/-- Bundles that agree on the names of their criteria ask for the same group of conditions. -/
theorem group_eq {conditions logic caseSensitive : String} {c d : Criteria}
    (ha : a.Holds conditions logic caseSensitive c) (hb : b.Holds conditions logic caseSensitive d)
    (hlogic : Fields.get? knownSelectors logic = some ["and"])
    (hplain : Fields.get? knownSelectors conditions = none ∧
      Fields.get? knownSelectors caseSensitive = none)
    (h : ∀ name ∈ [conditions, logic, caseSensitive], a.AgreeOn b name) : c.group = d.group := by
  simp only [List.forall_mem_cons] at h
  obtain ⟨honConditions, honLogic, honCase, -⟩ := h
  have hconditions : c.conditions = d.conditions :=
    honConditions.eq (faithful_collection Condition.faithful "conditions") hplain.1
      ha.conditions hb.conditions
  have hselects : c.logic = "and" ↔ d.logic = "and" :=
    honLogic.selects hlogic ha.logic hb.logic "and" (List.mem_singleton.2 rfl)
  have hcase : c.caseSensitive = d.caseSensitive :=
    honCase.eq .bool hplain.2 ha.caseSensitive hb.caseSensitive
  simp only [Criteria.group, Logic.ofSelector, hconditions, hselects, hcase]

theorem create_eq (h : ∀ name ∈ a.parametersOf .create, a.AgreeOn b name) :
    a.resolved .create = b.resolved .create := by
  simp only [parametersOf, List.forall_mem_cons] at h
  obtain ⟨honPayload, honPlace, -⟩ := h
  have hpayload : a.payload = b.payload := Option.some.inj (honPayload.parameter?_eq rfl)
  have hplace : a.place = "append" ↔ b.place = "append" :=
    honPlace.selects rfl rfl rfl "append" (List.mem_singleton.2 rfl)
  simp only [resolved, Place.ofSelector, hpayload, hplace]

theorem readRequest_eq (h : ∀ name ∈ a.parametersOf .read, a.AgreeOn b name) :
    a.readRequest = b.readRequest := by
  obtain ⟨honMode, hown⟩ := List.forall_mem_cons.1 h
  have hmode : ∀ m ∈ Fields.names readModes, a.readMode = m ↔ b.readMode = m :=
    honMode.selects rfl rfl rfl
  have hmodes : Fields.names readModes = ["filter", "sort", "search", "limit", "cell"] := rfl
  by_cases hknown : a.readMode ∈ Fields.names readModes
  · have hsame : b.readMode = a.readMode := (hmode _ hknown).1 rfl
    simp only [hmodes, List.mem_cons, List.not_mem_nil, or_false] at hknown
    -- Mode by mode, with the parameters of that mode alone.
    rcases hknown with hm | hm | hm | hm | hm <;> rw [hm] at hown hsame
    · have hgroup : a.readCriteria.group = b.readCriteria.group :=
        group_eq ⟨rfl, rfl, rfl⟩ ⟨rfl, rfl, rfl⟩ rfl ⟨rfl, rfl⟩ hown
      simp [readRequest, hm, hsame, hgroup]
    · have hfield : a.sortField = b.sortField :=
        (hown "sortField" (by decide)).eq .string rfl rfl rfl
      have horder : a.sortOrder = "asc" ↔ b.sortOrder = "asc" :=
        (hown "sortOrder" (by decide)).selects rfl rfl rfl "asc" (List.mem_singleton.2 rfl)
      simp [readRequest, hm, hsame, hfield, Direction.ofSelector, horder]
    · have hfield : a.searchField = b.searchField :=
        (hown "searchField" (by decide)).eq .string rfl rfl rfl
      have hterm : a.searchTerm = b.searchTerm :=
        (hown "searchValue" (by decide)).eq .string rfl rfl rfl
      have hcase : a.searchCaseSensitive = b.searchCaseSensitive :=
        (hown "caseSensitive" (by decide)).eq .bool rfl rfl rfl
      simp [readRequest, hm, hsame, hfield, hterm, hcase]
    · have hlimit : a.limit = b.limit := (hown "limit" (by decide)).eq .int64 rfl rfl rfl
      have hoffset : a.offset = b.offset := (hown "offset" (by decide)).eq .int64 rfl rfl rfl
      simp [readRequest, hm, hsame, hlimit, hoffset]
    · have hrows : a.readRows = b.readRows :=
        (hown "readRowIndex" (by decide)).eq .string rfl rfl rfl
      have hfields : a.readFields = b.readFields :=
        (hown "readFieldNames" (by decide)).eq .string rfl rfl rfl
      simp [readRequest, hm, hsame, hrows, hfields]
  · -- Neither mode is known, so both pass the records through.
    have hother : ∀ m ∈ Fields.names readModes, b.readMode ≠ m := by
      rintro m hm rfl
      exact hknown ((hmode _ hm).2 rfl ▸ hm)
    simp only [hmodes, List.mem_cons, List.not_mem_nil, or_false, not_or, forall_eq_or_imp,
      forall_eq] at hknown hother
    simp [readRequest, hknown, hother]

theorem updateRequest_eq (h : ∀ name ∈ a.parametersOf .update, a.AgreeOn b name) :
    a.updateRequest = b.updateRequest := by
  obtain ⟨honMode, hown⟩ := List.forall_mem_cons.1 h
  have hmode : a.updateMode = "cell" ↔ b.updateMode = "cell" :=
    honMode.selects rfl rfl rfl "cell" (List.mem_singleton.2 rfl)
  by_cases hcell : a.updateMode = "cell"
  · rw [if_pos hcell] at hown
    have hrows : a.updateRows = b.updateRows :=
      (hown "rowIndex" (by decide)).eq .string rfl rfl rfl
    have hfield : a.cellField = b.cellField :=
      (hown "cellFieldName" (by decide)).eq .string rfl rfl rfl
    have hvalue : a.cellValue = b.cellValue :=
      (hown "cellValue" (by decide)).eq .string rfl rfl rfl
    rw [updateRequest, updateRequest, if_pos hcell, if_pos (hmode.1 hcell), hrows, hfield, hvalue]
  · rw [if_neg hcell] at hown
    have hgroup : a.updateCriteria.group = b.updateCriteria.group :=
      group_eq ⟨rfl, rfl, rfl⟩ ⟨rfl, rfl, rfl⟩ rfl ⟨rfl, rfl⟩
        fun name hname => hown name (List.mem_append_left ["fieldsToUpdate"] hname)
    have hassignments : a.assignments = b.assignments :=
      (hown "fieldsToUpdate" (by decide)).eq (faithful_collection Assignment.faithful "fields")
        rfl rfl rfl
    rw [updateRequest, updateRequest, if_neg hcell, if_neg (mt hmode.2 hcell), hgroup,
      hassignments]

theorem deleteRequest_eq (h : ∀ name ∈ a.parametersOf .delete, a.AgreeOn b name) :
    a.deleteRequest = b.deleteRequest := by
  obtain ⟨honMode, hown⟩ := List.forall_mem_cons.1 h
  have hmode : a.deleteMode = "rowIndex" ↔ b.deleteMode = "rowIndex" :=
    honMode.selects rfl rfl rfl "rowIndex" (List.mem_singleton.2 rfl)
  by_cases hrows : a.deleteMode = "rowIndex"
  · rw [if_pos hrows] at hown
    have hselection : a.deleteRows = b.deleteRows :=
      (hown "deleteRowIndex" (by decide)).eq .string rfl rfl rfl
    rw [deleteRequest, deleteRequest, if_pos hrows, if_pos (hmode.1 hrows), hselection]
  · rw [if_neg hrows] at hown
    have hgroup : a.deleteCriteria.group = b.deleteCriteria.group :=
      group_eq ⟨rfl, rfl, rfl⟩ ⟨rfl, rfl, rfl⟩ rfl ⟨rfl, rfl⟩ hown
    rw [deleteRequest, deleteRequest, if_neg hrows, if_neg (mt hmode.2 hrows), hgroup]

/-- Bundles that agree on the parameters of an operation stand for the same request for it. -/
theorem resolved_eq {o : Operation} (h : ∀ name ∈ a.parametersOf o, a.AgreeOn b name) :
    a.resolved o = b.resolved o := by
  cases o with
  | create => exact create_eq h
  | read => exact readRequest_eq h
  | update => exact updateRequest_eq h
  | delete => exact deleteRequest_eq h
  | removeDuplicates =>
    have hfields : a.uniqueFields = b.uniqueFields :=
      (h "uniqueFields" List.mem_cons_self).eq .string rfl rfl rfl
    simp only [resolved, hfields]
  | statistics =>
    obtain ⟨honField, hrest⟩ := List.forall_mem_cons.1 h
    have hfield : a.statsField = b.statsField := honField.eq .string rfl rfl rfl
    have hgroup : a.groupField = b.groupField :=
      (hrest "groupByField" List.mem_cons_self).eq .string rfl rfl rfl
    simp only [resolved, hfield, hgroup]

/-- Bundles that agree on the parameters of the operation that one of them selects select the same
operation and stand for the same request. -/
theorem operation_and_request_eq (h : ∀ name ∈ a.ownParameters, a.AgreeOn b name) :
    a.operation = b.operation ∧ a.request = b.request := by
  obtain ⟨honOperation, hown⟩ := List.forall_mem_cons.1 h
  have hoperation : a.operation = b.operation := honOperation.eq .string rfl rfl rfl
  refine ⟨hoperation, ?_⟩
  by_cases hop : ∃ o : Operation, a.operation = o.selector
  · obtain ⟨o, ho⟩ := hop
    rw [(Operation.ofSelector_eq_ok_iff _ _).2 ho] at hown
    rw [request_of_selector ho, request_of_selector (hoperation ▸ ho), resolved_eq hown]
  · have hno := not_exists.1 hop
    rw [request_of_no_selector hno, request_of_no_selector (hoperation ▸ hno), hoperation]

/-! ## What is carried out -/

/-- An operation reads only its own parameters. Two bundles that select the same operation and agree
on what it reads in its mode give the same records or the same failure, whatever their other
parameters are, and report and log the same. To agree on a selector it is enough that neither value
has a meaning of its own. -/
theorem own_parameters_suffice (h : ∀ name ∈ a.ownParameters, a.AgreeOn b name) :
    (∀ records, a.perform records = b.perform records) ∧
      ∀ metrics elapsed records,
        Run.ofBundle metrics elapsed a records = Run.ofBundle metrics elapsed b records := by
  obtain ⟨hoperation, hrequest⟩ := operation_and_request_eq h
  refine ⟨fun records => ?_, fun metrics elapsed records => ?_⟩
  · rw [perform, perform, hrequest, hoperation]
  · rw [Run.ofBundle, Run.ofBundle, hrequest, hoperation]

/-- Two updates by conditions, under modes and logics that are not known and differ, with whatever
other operations read different throughout. -/
theorem own_parameters_suffice_modes :
    let c : Criteria := { conditions := [⟨"a", .equals, some "x"⟩, ⟨"b", .isEmpty, none⟩] }
    let a : Bundle := {
      operation := "update", updateMode := "condition", updateCriteria := { c with logic := "or" }
      assignments := [⟨"b", "1"⟩] }
    let b : Bundle := {
      operation := "update", updateMode := "rowIndex", updateCriteria := { c with logic := "xor" }
      assignments := [⟨"b", "1"⟩], payload := .null, place := "prepend", readMode := "cell"
      updateRows := "0-9", cellField := "a", cellValue := "y", deleteMode := "rowIndex"
      readCriteria := { caseSensitive := true }, deleteCriteria := { logic := "or" } }
    let records : RecordSet := [⟨[("a", .string "X")]⟩, ⟨[("a", .null), ("b", .bool true)]⟩]
    let out : RecordSet :=
      [⟨[("a", .string "X"), ("b", .number (.ofNat 1))]⟩, ⟨[("a", .null), ("b", .bool true)]⟩]
    (∀ name ∈ a.ownParameters, a.AgreeOn b name) ∧ b.perform records = .ok out ∧
      a.perform records = b.perform records ∧
      Run.ofBundle {} 5 a records = Run.ofBundle {} 5 b records := by
  intro c a b records out
  have hagree : ∀ name ∈ a.ownParameters, a.AgreeOn b name := by decide +kernel
  obtain ⟨hperform, hrun⟩ := own_parameters_suffice hagree
  exact ⟨hagree, by decide +kernel, hperform records, hrun {} 5 records⟩

end Bundle

end LooseRecords

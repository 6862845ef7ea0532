import LooseRecords.Proofs.Edit.Payload
import LooseRecords.Proofs.Load.Headers
import LooseRecords.Proofs.Load.RoundTrip
import LooseRecords.Proofs.Request.Criteria
import LooseRecords.Proofs.Request.Outcome
import LooseRecords.Proofs.Value.Distinct

/-!
# Distinct names through loading and runs

Loading makes records whose names are distinct, in the records and in every object within them, and
every operation keeps them so. One operation is one step here, a sequence of bundles the run;
`RecordSet.names_stay_distinct` puts both together, with what this means for the JSON text.
-/

namespace LooseRecords

/-- Of two lists side by side the second one has a property that each item gets from the item beside
it. -/
theorem forall_of_forall₂ {α β : Type} {R : α → β → Prop} {P : α → Prop} {Q : β → Prop}
    (hstep : ∀ a b, R a b → P a → Q b) {as : List α} {bs : List β} (h : List.Forall₂ R as bs)
    (has : ∀ a ∈ as, P a) : ∀ b ∈ bs, Q b := by
  induction h with
  | nil => simp
  | cons hab _ ih =>
    obtain ⟨ha, hrest⟩ := List.forall_mem_cons.1 has
    exact List.forall_mem_cons.2 ⟨hstep _ _ hab ha, ih hrest⟩

/-- The names of each record, and of every object within it, are distinct. -/
def RecordSet.NamesDistinct (records : RecordSet) : Prop := ∀ r ∈ records, r.NamesDistinct

/-! ## Loading -/

namespace RecordSet

theorem namesDistinct_of_items {items : List Json} {records : RecordSet}
    (hsound : Json.ItemsSound items) (h : List.Forall₂ Record.Of items records) :
    records.NamesDistinct := by
  refine forall_of_forall₂ (fun item r hr hitem => ?_) h ((Json.itemsSound_iff items).1 hsound)
  exact Record.namesDistinct_of_ofJson? hitem ((Record.ofJson?_eq_some_iff item r).2 hr)

theorem namesDistinct_of_ofJson? {j : Json} {records : RecordSet} (hsound : j.Sound)
    (h : ofJson? j = some records) : records.NamesDistinct := by
  cases j with
  | array items =>
    exact namesDistinct_of_items hsound ((ofJson?_array_eq_some_iff items records).1 h)
  | null | bool | integer | double | string | object => cases h

end RecordSet

namespace Load

theorem namesDistinct_of_rows {row : Nat} {values : List Json} {records : RecordSet}
    (hsound : Json.ItemsSound values) (h : rows row values = .ok records) :
    records.NamesDistinct := by
  refine RecordSet.namesDistinct_of_items hsound ?_
  exact ((rows_eq_ok_iff row values records).1 h).imp fun value r hr =>
    (Record.ofJson?_eq_some_iff value r).1 hr

theorem itemsSound_of_lineValues {number : Nat} {lines : List (List Char)} {values : List Json}
    (h : lineValues number lines = .ok values) : Json.ItemsSound values :=
  (Json.itemsSound_iff values).2 <|
    forall_of_forall₂ (P := fun _ => True) (fun _ _ hread _ => Json.sound_of_read? hread)
      ((lineValues_eq_ok_iff number lines values).1 h) fun _ _ => trivial

/-- Records that are loaded from a JSON text have distinct names, be it one document or lines. -/
theorem namesDistinct_of_json {text : String} {records : RecordSet} (h : json text = .ok records) :
    records.NamesDistinct := by
  unfold json at h
  dsimp only at h
  split at h
  case isTrue =>
    cases h
    exact fun r hr => by cases hr
  case isFalse =>
    split at h
    case h_1 items hread =>
      have hsound : (Json.array items).Sound := Json.sound_of_read? hread
      exact namesDistinct_of_rows hsound h
    case h_2 members hread =>
      have hsound : Json.ItemsSound [.object members] := ⟨Json.sound_of_read? hread, trivial⟩
      exact namesDistinct_of_rows hsound h
    case h_3 => cases h
    case h_4 =>
      obtain ⟨values, hvalues, hrows⟩ := Edit.exists_of_bind_eq_ok h
      exact namesDistinct_of_rows (itemsSound_of_lineValues hvalues) hrows

end Load

namespace Csv

/-- A row has distinct names under any header. -/
theorem namesDistinct_record (typed : Bool) (header row : List String) :
    (record typed header row).NamesDistinct := by
  refine Record.namesDistinct_ofList fun entry hentry => ?_
  obtain ⟨⟨name, raw⟩, -, rfl⟩ := List.mem_map.1 hentry
  cases typed with
  | true => exact Value.namesDistinct_ofWritten raw
  | false => trivial

/-- Records that are loaded from a table have distinct names. -/
theorem namesDistinct_of_load {typed strict : Bool} {bytes : List UInt8} {records : RecordSet}
    (h : load typed strict bytes = .ok records) : records.NamesDistinct := by
  rw [load_eq_delivered] at h
  cases hdelivered : delivered strict bytes with
  | error failure =>
    rw [hdelivered] at h
    cases h
  | ok tables =>
    rw [hdelivered] at h
    cases h
    intro r hr
    obtain ⟨row, -, rfl⟩ := List.mem_map.1 hr
    exact namesDistinct_record typed _ row

end Csv

/-- Records that are loaded from a file have distinct names. -/
theorem Load.namesDistinct_of_file {path : String} {format : Option Format} {typed : Bool}
    {bytes : Option (List UInt8)} {records : RecordSet}
    (h : (file path format typed bytes).1 = .ok records) : records.NamesDistinct := by
  unfold file at h
  cases hformat : formatOf path format with
  | error failure =>
    rw [hformat] at h
    cases h
  | ok format =>
    rw [hformat] at h
    have hcontents : contents format typed bytes = .ok records := h
    match format, bytes with
    | .csv, some bytes => exact Csv.namesDistinct_of_load hcontents
    | .json, some bytes =>
      rw [contents] at hcontents
      split at hcontents
      case h_1 => cases hcontents
      case h_2 => exact namesDistinct_of_json hcontents
    | .csv, none | .json, none => cases hcontents

/-- Records as loading makes them: from a JSON text, a table or a file, or from an array of objects
that was read as a value. -/
inductive RecordSet.Loaded (records : RecordSet) : Prop where
  | json {text : String} (h : Load.json text = .ok records)
  | value {text : List Char} {j : Json} (hread : Json.read? text = some j)
    (h : RecordSet.ofJson? j = some records)
  | table {typed strict : Bool} {bytes : List UInt8} (h : Csv.load typed strict bytes = .ok records)
  | file {path : String} {format : Option Format} {typed : Bool} {bytes : Option (List UInt8)}
    (h : (Load.file path format typed bytes).1 = .ok records)

theorem RecordSet.Loaded.namesDistinct {records : RecordSet} (h : records.Loaded) :
    records.NamesDistinct := by
  cases h with
  | json h => exact Load.namesDistinct_of_json h
  | value hread h => exact RecordSet.namesDistinct_of_ofJson? (Json.sound_of_read? hread) h
  | table h => exact Csv.namesDistinct_of_load h
  | file h => exact Load.namesDistinct_of_file h

/-! ## Operations -/

namespace Edit

theorem sound_unwrap {payload : Json} (h : payload.Sound) : (unwrap payload).Sound := by
  cases payload with
  | string text =>
    rw [unwrap]
    cases hread : Json.read? text.toList with
    | none => trivial
    | some content => exact Json.sound_of_read? hread
  | object members =>
    rw [unwrap]
    cases hmember : Fields.get? members "json" with
    | none => exact h
    | some content =>
      exact (Json.membersSound_iff members).1 h.2 _
        ((Fields.get?_eq_some_iff h.1 "json" content).1 hmember)
  | null | bool | integer | double | array => exact h

/-- The records of a payload have distinct names. -/
theorem namesDistinct_of_payloadRecords {payload : Json} {new : RecordSet} (hsound : payload.Sound)
    (h : payloadRecords payload = .ok new) : new.NamesDistinct := by
  have hcontent := sound_unwrap hsound
  have hrecords := (payloadRecords_eq_ok_iff payload new).1 h
  generalize unwrap payload = content at hcontent hrecords
  cases hrecords with
  | object members =>
    exact List.forall_mem_singleton.2 (Value.namesDistinct_ofJson (.object members) hcontent)
  | array hitems => exact RecordSet.namesDistinct_of_items hcontent hitems

theorem namesDistinct_assign {r : Record} (h : r.NamesDistinct) (assignments : List Assignment) :
    (assign assignments r).NamesDistinct := by
  have hentries : ∀ entry ∈ stored assignments, entry.2.NamesDistinct := by
    intro entry hentry
    obtain ⟨a, -, rfl⟩ := List.mem_map.1 hentry
    exact Value.namesDistinct_ofWritten a.value
  have hassigned := h.insertAll hentries
  rwa [← assign_fields] at hassigned

theorem namesDistinct_of_updateMatching {group : Group} {assignments : List Assignment}
    {records out : RecordSet} {count : Nat} (h : records.NamesDistinct)
    (hupdate : updateMatching group assignments records = .ok (count, out)) :
    out.NamesDistinct := by
  obtain ⟨-, -, rfl⟩ := updateMatching_eq_ok_iff.1 hupdate
  intro r hr
  obtain ⟨before, hbefore, rfl⟩ := List.mem_map.1 hr
  rw [updated]
  split
  · exact namesDistinct_assign (h before hbefore) assignments
  · exact h before hbefore

theorem namesDistinct_updateAt {records : RecordSet} (h : records.NamesDistinct)
    (rows field value : String) :
    RecordSet.NamesDistinct (updateAt rows field value records).2 := by
  rw [updateAt_eq, ← List.map_uncurry_zip_eq_zipWith]
  intro r hr
  obtain ⟨⟨mark, before⟩, hmem, rfl⟩ := List.mem_map.1 hr
  have hbefore := h before (List.of_mem_zip hmem).2
  cases mark with
  | true => exact hbefore.insert field (Value.namesDistinct_ofWritten value)
  | false => exact hbefore

end Edit

namespace Query

theorem namesDistinct_restrict {r : Record} (h : r.NamesDistinct) (names : List String) :
    (restrict names r).NamesDistinct := by
  refine Record.namesDistinct_ofList fun entry hentry => ?_
  obtain ⟨name, -, hname⟩ := List.mem_filterMap.1 hentry
  obtain ⟨value, hvalue, rfl⟩ := Option.map_eq_some_iff.1 hname
  exact h.of_get? hvalue

theorem namesDistinct_cells {records : RecordSet} (h : records.NamesDistinct)
    (rows fields : String) : RecordSet.NamesDistinct (cells rows fields records) := by
  have hselected : ∀ r ∈ (Selection.positions rows records.length).filterMap (records[·]?),
      r.NamesDistinct := by
    intro r hr
    obtain ⟨i, -, hi⟩ := List.mem_filterMap.1 hr
    exact h r (List.mem_of_getElem? hi)
  rw [cells]
  split
  · exact hselected
  · intro r hr
    obtain ⟨whole, hwhole, rfl⟩ := List.mem_map.1 hr
    exact namesDistinct_restrict (hselected whole hwhole) _

end Query

/-- The rows of statistics have names of their own, which are distinct. -/
theorem Summary.namesDistinct_statistics (field : String) (groupField : Option String)
    (records : RecordSet) : RecordSet.NamesDistinct (statistics field groupField records) := by
  have hwhole : ∀ a : Aggregate, Record.NamesDistinct ⟨fields a⟩ := by
    intro a
    simp [Record.NamesDistinct, Value.NamesDistinct, Value.FieldsNamesDistinct, Fields.names,
      fields]
  have hgroup : ∀ (name : String) (a : Aggregate),
      Record.NamesDistinct ⟨("group", .string name) :: fields a⟩ := by
    intro name a
    simp [Record.NamesDistinct, Value.NamesDistinct, Value.FieldsNamesDistinct, Fields.names,
      fields]
  unfold statistics
  split
  · exact List.forall_mem_singleton.2 (hwhole _)
  · intro r hr
    obtain ⟨⟨name, numbers⟩, -, rfl⟩ := List.mem_map.1 hr
    exact hgroup name _

/-- One step: a request keeps names distinct, provided that a payload is one that a text can stand
for. -/
theorem Request.namesDistinct_of_perform {request : Request} {records out : RecordSet}
    (hsound : ∀ payload place, request = .create payload place → payload.Sound)
    (hnames : records.NamesDistinct) (h : request.perform records = .ok out) :
    out.NamesDistinct := by
  have hpart : ∀ {part : RecordSet}, part ⊆ records → part.NamesDistinct :=
    fun hsub r hr => hnames r (hsub hr)
  cases request with
  | create payload place =>
    obtain ⟨new, hnew, rfl⟩ := Edit.create_eq_ok (mapError_eq_ok_iff.1 h)
    have hnewNames := Edit.namesDistinct_of_payloadRecords (hsound payload place rfl) hnew
    split
    · exact List.forall_mem_append.2 ⟨hnames, hnewNames⟩
    · exact List.forall_mem_append.2 ⟨hnewNames, hnames⟩
  | filter group =>
    cases h
    exact hpart List.filter_sublist.subset
  | sort field direction =>
    exact hpart (Sorting.sort_perm (perform_sort_eq_ok_iff.1 h)).subset
  | search field term caseSensitive =>
    cases h
    exact hpart List.filter_sublist.subset
  | page limit offset =>
    cases h
    exact hpart (Query.page_sublist _ _ _).subset
  | cells rows fields =>
    cases h
    exact Query.namesDistinct_cells hnames rows fields
  | passThrough =>
    cases h
    exact hnames
  | updateMatching group assignments =>
    rw [perform] at h
    cases hupdate : Edit.updateMatching group assignments records with
    | error failure =>
      rw [hupdate] at h
      cases h
    | ok result =>
      rw [hupdate] at h
      cases h
      exact Edit.namesDistinct_of_updateMatching hnames hupdate
  | updateAt rows field value =>
    cases h
    exact Edit.namesDistinct_updateAt hnames rows field value
  | deleteMatching group =>
    exact hpart (Edit.deleteMatching_sublist (mapError_eq_ok_iff.1 h)).subset
  | deleteAt rows =>
    cases h
    exact hpart (Edit.merged_selected _ _).sublist_second.subset
  | removeDuplicates fields =>
    cases h
    exact hpart (Edit.firsts_sublist _ _ _).subset
  | statistics field groupField =>
    cases h
    exact Summary.namesDistinct_statistics field groupField records

/-! ## Runs -/

namespace Bundle

theorem namesDistinct_of_perform {b : Bundle} {records out : RecordSet} (hsound : b.payload.Sound)
    (hnames : records.NamesDistinct) (h : b.perform records = .ok out) : out.NamesDistinct := by
  obtain ⟨o, -, hperform⟩ := exists_selector_of_perform h
  refine Request.namesDistinct_of_perform (fun payload place hcreate => ?_) hnames hperform
  have hop := operation_resolved b o
  rw [hcreate] at hop
  subst hop
  cases hcreate
  exact hsound

/-- The records after a bundle: what it makes of them, or the records as they were if it stops. -/
def next (records : RecordSet) (b : Bundle) : RecordSet :=
  match b.perform records with
  | .ok out => out
  | .error _ => records

theorem namesDistinct_next {b : Bundle} {records : RecordSet} (hsound : b.payload.Sound)
    (hnames : records.NamesDistinct) : (next records b).NamesDistinct := by
  unfold next
  split
  case h_1 out hout => exact namesDistinct_of_perform hsound hnames hout
  case h_2 => exact hnames

/-- The records after a sequence of bundles. -/
def performAll (bundles : List Bundle) (records : RecordSet) : RecordSet :=
  bundles.foldl next records

/-- A whole run keeps names distinct, since each step does. -/
theorem namesDistinct_performAll {bundles : List Bundle} (hsound : ∀ b ∈ bundles, b.payload.Sound)
    {records : RecordSet} (hnames : records.NamesDistinct) :
    (performAll bundles records).NamesDistinct := by
  induction bundles generalizing records with
  | nil => exact hnames
  | cons b bundles ih =>
    obtain ⟨hb, hrest⟩ := List.forall_mem_cons.1 hsound
    exact ih hrest (namesDistinct_next hb hnames)

/-- The payload of a bundle that is read from a document is one that a text can stand for. -/
theorem sound_payload_of_ofDocument? (d : Json.Document) :
    ∀ b, ofDocument? d = some b → b.payload.Sound := by
  unfold ofDocument?
  refine of_bind_eq_some fun slots _ => ?_
  refine of_bind_eq_some fun _ _ => ?_
  refine of_bind_eq_some fun payload hpayload => ?_
  -- No later part is the payload.
  iterate 24 refine of_bind_eq_some fun _ _ => ?_
  intro b hb
  cases hb
  show payload.Sound
  unfold Json.Document.slot at hpayload
  split at hpayload
  case h_1 document _ => exact Json.Document.sound_of_value? document hpayload
  case h_2 =>
    cases hpayload
    trivial

theorem sound_payload_of_read? {text : String} {b : Bundle} (h : read? text = some b) :
    b.payload.Sound := by
  obtain ⟨d, -, hd⟩ := Option.bind_eq_some_iff.1 h
  exact sound_payload_of_ofDocument? d b hd

end Bundle

/-! ## The text of the records -/

namespace RecordSet

/-- The text of the records is an array that repeats no name within it, and that shows of each
record what a look-up sees. -/
def Shown (records : RecordSet) : Prop :=
  ∃ documents, Json.Document.read? (jsonText records) = some (.array documents) ∧
    (Json.Document.array documents).NamesDistinct ∧
    List.Forall₂ Record.ShownAs records documents

theorem forall₂_itemDocuments {records : RecordSet} (h : records.NamesDistinct) :
    List.Forall₂ Record.ShownAs records (Json.itemDocuments (records.map Record.json)) := by
  induction records with
  | nil => exact .nil
  | cons r records ih =>
    obtain ⟨hr, hrest⟩ := List.forall_mem_cons.1 h
    exact .cons (Record.shownAs_document hr) (ih hrest)

theorem NamesDistinct.shown {records : RecordSet} (h : records.NamesDistinct) : records.Shown :=
  ⟨_, Json.read?_document (json records), Json.namesDistinct_document _ (sound_json h),
    forall₂_itemDocuments h⟩

/-- Names stay distinct, in the records and in every object within them, from records that were
loaded, or that have distinct names for another reason, through any sequence of bundles. So the text
of the records repeats no name, and a look-up sees whatever it shows. A bundle that is read from a
text has a payload as it is asked for here, by `Bundle.sound_payload_of_read?`. -/
theorem names_stay_distinct {start : RecordSet} (hstart : start.Loaded ∨ start.NamesDistinct)
    {bundles : List Bundle} (hbundles : ∀ b ∈ bundles, b.payload.Sound) :
    (Bundle.performAll bundles start).NamesDistinct ∧ (Bundle.performAll bundles start).Shown := by
  have hdistinct : start.NamesDistinct := hstart.elim Loaded.namesDistinct id
  have hreached := Bundle.namesDistinct_performAll hbundles hdistinct
  exact ⟨hreached, hreached.shown⟩

/-- Repeated names all along: in a header, in what is created, in what is assigned and in the text
that it is assigned, and in the fields to read. -/
theorem names_stay_distinct_repeated :
    let start : RecordSet := [⟨[("a", .string "2"), ("b", .string "x")]⟩]
    let creation : Bundle :=
      { operation := "create"
        payload := .string "\x7b\"a\":[],\"b\":\x7b\"c\":null,\"c\":[]\x7d,\"a\":true\x7d" }
    let update : Bundle :=
      { operation := "update"
        assignments := [⟨"b", "y"⟩, ⟨"d", "z"⟩, ⟨"b", "\x7b\"e\":null,\"e\":false\x7d"⟩] }
    let reading : Bundle :=
      { operation := "read", readMode := "cell", readRows := "0-1", readFields := "b,a,b" }
    Csv.load false false "a,b,a\n1,x,2\n".toUTF8.toList = .ok start ∧
      Bundle.performAll [creation, update, reading] start =
        [⟨[("b", .object [("e", .bool false)]), ("a", .string "2")]⟩,
          ⟨[("b", .object [("e", .bool false)]), ("a", .bool true)]⟩] ∧
      RecordSet.NamesDistinct (Bundle.performAll [creation, update, reading] start) ∧
      RecordSet.Shown (Bundle.performAll [creation, update, reading] start) := by
  intro start creation update reading
  have hload : Csv.load false false "a,b,a\n1,x,2\n".toUTF8.toList = .ok start := by
    decide +kernel
  have hresult : Bundle.performAll [creation, update, reading] start =
      [⟨[("b", .object [("e", .bool false)]), ("a", .string "2")]⟩,
        ⟨[("b", .object [("e", .bool false)]), ("a", .bool true)]⟩] := by
    decide +kernel
  have hbundles : ∀ b ∈ [creation, update, reading], b.payload.Sound := by
    simp [creation, update, reading, Json.Sound]
  exact ⟨hload, hresult, names_stay_distinct (.inl (.table hload)) hbundles⟩

end RecordSet

end LooseRecords

import LooseRecords.Proofs.Edit.ListedKeys

/-!
# Blank names in a list of fields

A list of fields is the list of no fields only if its text is empty. A blank entry of any other list
is taken for a field whose name is empty, so it is not ignored: a list of nothing but blanks tells
records apart by that field alone, which records usually do not have, and keeps one record of them
all. `Edit.removeDuplicates_withoutBlanks` says for which lists blank entries make no difference,
and what difference they make.
-/

namespace LooseRecords

/-! ## Texts between separators -/

namespace Text

/-- No piece of a text between separators has a separator in it. -/
theorem not_mem_of_mem_splitOn {c : Char} {text piece : List Char} (h : piece ∈ text.splitOn c) :
    c ∉ piece := by
  induction text generalizing piece with
  | nil =>
    rw [List.splitOn_nil, List.mem_singleton] at h
    simp [h]
  | cons d rest ih =>
    obtain ⟨first, others, hsplit⟩ := List.exists_cons_of_ne_nil (List.splitOn_ne_nil c rest)
    rw [hsplit] at ih
    rw [List.splitOn_cons_eq_if_modifyHead, hsplit] at h
    split at h
    case isTrue =>
      rcases List.mem_cons.1 h with rfl | hmem
      · exact List.not_mem_nil
      · exact ih hmem
    case isFalse hd =>
      rcases List.mem_cons.1 h with rfl | hmem
      · rw [List.mem_cons, not_or]
        exact ⟨fun hc => hd (by simp [hc]), ih (List.mem_cons_self ..)⟩
      · exact ih (List.mem_cons_of_mem _ hmem)

section

variable (bar : Char)

theorem intercalate_replicate_succ (text : List Char) (n : Nat) :
    [bar].intercalate (List.replicate (n + 2) text) =
      text ++ (bar :: [bar].intercalate (List.replicate (n + 1) text)) := by
  rw [List.replicate_succ, List.replicate_succ, List.intercalate_cons_cons, List.append_assoc]
  rfl

theorem length_intercalate_replicate (text : List Char) (n : Nat) :
    ([bar].intercalate (List.replicate (n + 1) text)).length = (n + 1) * text.length + n := by
  induction n with
  | zero => simp
  | succ n ih =>
    rw [intercalate_replicate_succ, List.length_append, List.length_cons, ih,
      Nat.succ_mul (n + 1)]
    omega

/-- Copies of a text with bars between them tell which text it is. -/
theorem intercalate_replicate_inj {n : Nat} (hn : n ≠ 0) {text other : List Char} :
    [bar].intercalate (List.replicate n text) = [bar].intercalate (List.replicate n other) ↔
      text = other := by
  constructor
  · intro h
    obtain ⟨m, rfl⟩ := Nat.exists_eq_succ_of_ne_zero hn
    have hlength : text.length = other.length := by
      have htotal := congrArg List.length h
      rw [length_intercalate_replicate, length_intercalate_replicate, Nat.add_right_cancel_iff]
        at htotal
      exact Nat.eq_of_mul_eq_mul_left (Nat.succ_pos m) htotal
    cases m with
    | zero => simpa using h
    | succ m =>
      rw [intercalate_replicate_succ, intercalate_replicate_succ] at h
      exact (List.append_inj h hlength).1
  · rintro rfl
    rfl

theorem intercalate_concat {sep : List Char} {texts : List (List Char)} (h : texts ≠ [])
    (last : List Char) :
    sep.intercalate (texts ++ [last]) = sep.intercalate texts ++ sep ++ last := by
  induction texts with
  | nil => exact absurd rfl h
  | cons text texts ih =>
    cases texts with
    | nil => simp [List.intercalate_cons_cons]
    | cons next texts =>
      rw [List.cons_append, List.cons_append, List.intercalate_cons_cons, ← List.cons_append,
        ih (by simp), List.intercalate_cons_cons]
      simp only [List.append_assoc]

/-- Empty texts at the ends add nothing but the bars. -/
theorem intercalate_emptyEnds {texts : List (List Char)} (h : texts ≠ [])
    (inFront behind : Nat) :
    [bar].intercalate (List.replicate inFront [] ++ texts ++ List.replicate behind []) =
      List.replicate inFront bar ++ [bar].intercalate texts ++ List.replicate behind bar := by
  induction behind with
  | zero =>
    rw [List.replicate_zero, List.replicate_zero, List.append_nil, List.append_nil]
    induction inFront with
    | zero => rfl
    | succ inFront ih =>
      rw [List.replicate_succ, List.cons_append, List.intercalate_cons_of_ne_nil (by simp [h]), ih]
      rfl
  | succ behind ih =>
    rw [List.replicate_succ', ← List.append_assoc, intercalate_concat (by simp [h]), ih,
      List.replicate_succ', List.append_nil, List.append_assoc]

end

end Text

namespace Edit

/-! ## Lists without their blank entries -/

/-- The entries of a list of fields that are not blank. -/
def namedEntries (fields : String) : List (List Char) :=
  (fields.toList.splitOn ',').filter fun entry => !(Text.trim entry).isEmpty

/-- The list of fields without its blank entries. -/
def withoutBlanks (fields : String) : String :=
  String.ofList ([','].intercalate (namedEntries fields))

/-- The pieces of a list without its blank entries are the entries that are not blank. -/
theorem splitOn_withoutBlanks {fields : String} (h : namedEntries fields ≠ []) :
    (withoutBlanks fields).toList.splitOn ',' = namedEntries fields := by
  rw [withoutBlanks, String.toList_ofList]
  refine List.splitOn_intercalate ',' (fun entry hentry => ?_) h
  exact Text.not_mem_of_mem_splitOn (List.mem_filter.1 hentry).1

theorem keyNames_eq (fields : String) :
    keyNames fields =
      (fields.toList.splitOn ',').map fun entry => String.ofList (Text.trim entry) :=
  List.map_map

/-- A list without its blank entries has the names that are not empty. -/
theorem map_namedEntries (fields : String) :
    (namedEntries fields).map (fun entry => String.ofList (Text.trim entry)) =
      (keyNames fields).filter fun name => name ≠ "" := by
  rw [keyNames_eq, List.filter_map, namedEntries]
  refine congrArg _ (List.filter_congr fun entry _ => ?_)
  have hempty : String.ofList (Text.trim entry) = "" ↔ Text.trim entry = [] :=
    String.ofList_eq_empty_iff
  rw [Bool.eq_iff_iff]
  simp [hempty]

theorem namedEntries_eq_nil_iff (fields : String) :
    namedEntries fields = [] ↔ ∀ name ∈ keyNames fields, name = "" := by
  rw [← List.map_eq_nil_iff, map_namedEntries, List.filter_eq_nil_iff]
  simp

theorem keyNames_withoutBlanks {fields : String} (h : ∃ name ∈ keyNames fields, name ≠ "") :
    keyNames (withoutBlanks fields) = (keyNames fields).filter fun name => name ≠ "" := by
  have hentries : namedEntries fields ≠ [] := by
    rw [ne_eq, namedEntries_eq_nil_iff]
    simpa using h
  rw [keyNames_eq, splitOn_withoutBlanks hentries, map_namedEntries]

/-- A list without names is left without a text. -/
theorem withoutBlanks_of_blank {fields : String} (h : ∀ name ∈ keyNames fields, name = "") :
    withoutBlanks fields = "" := by
  rw [withoutBlanks, (namedEntries_eq_nil_iff fields).2 h]
  rfl

/-- A list with a name is not left without a text. -/
theorem withoutBlanks_ne_empty {fields : String} (h : ∃ name ∈ keyNames fields, name ≠ "") :
    withoutBlanks fields ≠ "" := by
  intro hempty
  have hnames := keyNames_withoutBlanks h
  rw [hempty] at hnames
  have hmem : "" ∈ (keyNames fields).filter fun name => name ≠ "" := by
    rw [← hnames]
    decide
  simp at hmem

/-- A list without blank entries stays as it is. -/
theorem withoutBlanks_eq_self {fields : String} (h : "" ∉ keyNames fields) :
    withoutBlanks fields = fields := by
  have hentries : namedEntries fields = fields.toList.splitOn ',' := by
    rw [namedEntries, List.filter_eq_self]
    intro entry hentry
    have hname : String.ofList (Text.trim entry) ≠ "" := by
      intro hblank
      apply h
      rw [keyNames_eq, ← hblank]
      exact List.mem_map_of_mem hentry
    simpa [String.ofList_eq_empty_iff] using hname
  rw [withoutBlanks, hentries, List.intercalate_splitOn, String.ofList_toList]

/-! ## Lists of nothing but blanks -/

/-- A list of nothing but blanks tells records apart by the field whose name is empty. -/
theorem distinctKey_of_blank {fields : String} (h : fields ≠ "")
    (hblank : ∀ name ∈ keyNames fields, name = "") (a b : Record) :
    distinctKey fields a = distinctKey fields b ↔
      Value.keyText (a.get? "") = Value.keyText (b.get? "") := by
  have htexts : ∀ r, keyTexts fields r =
      List.replicate (keyNames fields).length (Value.keyText (r.get? "")) := by
    intro r
    rw [keyTexts, List.map_eq_replicate_iff]
    intro name hname
    rw [hblank name hname]
  have hlength : (keyNames fields).length ≠ 0 := by
    simpa using keyNames_ne_nil fields
  rw [distinctKey_listed h, distinctKey_listed h, htexts, htexts,
    Text.intercalate_replicate_inj '|' hlength]

/-! ## Blank entries at the ends of a list -/

theorem ne_empty_of_named {fields : String} (h : ∃ name ∈ keyNames fields, name ≠ "") :
    fields ≠ "" := by
  rintro rfl
  have hnames : keyNames "" = [""] := by decide
  rw [hnames] at h
  simp at h

/-- There are names in a list, and its blank entries stand in front of them and behind them, but not
between. -/
def BlankEnds (fields : String) : Prop :=
  ∃ (inFront behind : Nat) (names : List String), names ≠ [] ∧ "" ∉ names ∧
    keyNames fields = List.replicate inFront "" ++ names ++ List.replicate behind ""

section

variable {fields : String} {a b : Record}

/-- For a record that shows nothing in the field whose name is empty, blank entries at the ends of a
list are bars at the ends of the key. -/
theorem distinctKey_of_blankEnds (h : BlankEnds fields) :
    ∃ inFront behind : List Char, ∀ r : Record, Value.keyText (r.get? "") = [] →
      distinctKey fields r = inFront ++ distinctKey (withoutBlanks fields) r ++ behind := by
  obtain ⟨m, n, names, hne, hnames, hfields⟩ := h
  have hnamed : ∃ name ∈ keyNames fields, name ≠ "" := by
    obtain ⟨name, hname⟩ := List.exists_mem_of_ne_nil names hne
    refine ⟨name, by simp [hfields, hname], ?_⟩
    rintro rfl
    exact hnames hname
  have hkept : keyNames (withoutBlanks fields) = names := by
    have hall : names.filter (fun name => name ≠ "") = names := by
      rw [List.filter_eq_self]
      intro name hname
      simpa using ne_of_mem_of_not_mem hname hnames
    rw [keyNames_withoutBlanks hnamed, hfields, List.filter_append, List.filter_append, hall]
    simp
  refine ⟨List.replicate m '|', List.replicate n '|', fun r hr => ?_⟩
  rw [distinctKey_listed (ne_empty_of_named hnamed),
    distinctKey_listed (withoutBlanks_ne_empty hnamed), keyTexts, keyTexts, hkept, hfields,
    List.map_append, List.map_append, List.map_replicate, List.map_replicate, hr,
    Text.intercalate_emptyEnds '|' (by simpa using hne)]

/-- Records without bars in their listed fields, and with nothing in the field whose name is empty,
are told apart as without the blank entries. -/
theorem distinctKey_withoutBlanks_iff (h : ∃ name ∈ keyNames fields, name ≠ "")
    (ha : ∀ name ∈ keyNames fields, '|' ∉ Value.keyText (a.get? name))
    (hb : ∀ name ∈ keyNames fields, '|' ∉ Value.keyText (b.get? name))
    (hblank : Value.keyText (a.get? "") = Value.keyText (b.get? "")) :
    distinctKey fields a = distinctKey fields b ↔
      distinctKey (withoutBlanks fields) a = distinctKey (withoutBlanks fields) b := by
  have hkept : ∀ name, name ∈ keyNames (withoutBlanks fields) ↔
      name ∈ keyNames fields ∧ name ≠ "" := by
    intro name
    rw [keyNames_withoutBlanks h, List.mem_filter, decide_eq_true_iff]
  have ha' : ∀ name ∈ keyNames (withoutBlanks fields), '|' ∉ Value.keyText (a.get? name) :=
    fun name hname => ha name ((hkept name).1 hname).1
  have hb' : ∀ name ∈ keyNames (withoutBlanks fields), '|' ∉ Value.keyText (b.get? name) :=
    fun name hname => hb name ((hkept name).1 hname).1
  rw [distinctKey_eq_iff (ne_empty_of_named h) ha hb,
    distinctKey_eq_iff (withoutBlanks_ne_empty h) ha' hb']
  constructor
  · intro hsame name hname
    exact hsame name ((hkept name).1 hname).1
  · intro hsame name hname
    by_cases hempty : name = ""
    · rw [hempty]
      exact hblank
    · exact hsame name ((hkept name).2 ⟨hname, hempty⟩)

end

/-! ## Removals -/

/-- Removals of duplicates agree where their lists tell the same records apart. -/
theorem removeDuplicates_congr {fields other : String} {records : RecordSet}
    (h : ∀ a ∈ records, ∀ b ∈ records,
      (distinctKey fields a = distinctKey fields b ↔ distinctKey other a = distinctKey other b)) :
    removeDuplicates fields records = removeDuplicates other records :=
  firsts_congr [] h

theorem removeDuplicates_pair (fields : String) (a b : Record) :
    removeDuplicates fields [a, b] =
      if distinctKey fields b = distinctKey fields a then [a] else [a, b] := by
  by_cases h : distinctKey fields b = distinctKey fields a <;> simp [removeDuplicates, firsts, h]

/-! ## Blank entries that make a difference -/

/-- A record with a text in the field whose name is empty, and nothing else. -/
def nameless : Record := ⟨[("", .string "x")]⟩

theorem keyText_nameless (name : String) :
    Value.keyText (nameless.get? name) = if "" = name then ['x'] else [] := by
  simp only [nameless, Record.get?, Fields.get?]
  split <;> rfl

theorem bar_not_mem_keyText_nameless (name : String) :
    '|' ∉ Value.keyText (nameless.get? name) := by
  rw [keyText_nameless]
  split <;> decide

/-- Beside a name a blank entry tells that record from an empty one. -/
theorem removeDuplicates_ne_of_named {fields : String} (hblank : "" ∈ keyNames fields)
    (hnamed : ∃ name ∈ keyNames fields, name ≠ "") :
    removeDuplicates fields [⟨[]⟩, nameless] ≠
      removeDuplicates (withoutBlanks fields) [⟨[]⟩, nameless] := by
  have hdiffer : distinctKey fields nameless ≠ distinctKey fields ⟨[]⟩ := by
    intro hsame
    rw [distinctKey_eq_iff (ne_empty_of_named hnamed)
      (fun name _ => bar_not_mem_keyText_nameless name) fun _ _ => List.not_mem_nil] at hsame
    exact absurd (hsame "" hblank) (by decide)
  have hsame : distinctKey (withoutBlanks fields) nameless =
      distinctKey (withoutBlanks fields) ⟨[]⟩ := by
    refine (distinctKey_eq_iff (withoutBlanks_ne_empty hnamed)
      (fun name _ => bar_not_mem_keyText_nameless name) fun _ _ => List.not_mem_nil).2 ?_
    intro name hname
    rw [keyNames_withoutBlanks hnamed, List.mem_filter, decide_eq_true_iff] at hname
    rw [keyText_nameless, if_neg hname.2.symm]
    rfl
  rw [removeDuplicates_pair, removeDuplicates_pair, if_neg hdiffer, if_pos hsame]
  simp

/-- Without names blank entries do not tell apart records that differ in some other field. -/
theorem removeDuplicates_ne_of_blank {fields : String} (h : fields ≠ "")
    (hblank : ∀ name ∈ keyNames fields, name = "") :
    removeDuplicates fields [⟨[]⟩, ⟨[("x", .null)]⟩] ≠
      removeDuplicates (withoutBlanks fields) [⟨[]⟩, ⟨[("x", .null)]⟩] := by
  have hsame : distinctKey fields ⟨[("x", .null)]⟩ = distinctKey fields ⟨[]⟩ :=
    (distinctKey_of_blank h hblank _ _).2 rfl
  have hdiffer : distinctKey "" ⟨[("x", .null)]⟩ ≠ distinctKey "" ⟨[]⟩ := by decide +kernel
  rw [withoutBlanks_of_blank hblank, removeDuplicates_pair, removeDuplicates_pair, if_pos hsame,
    if_neg hdiffer]
  simp

/-- The blank entries of a list make no difference to any record set exactly if there are none, or
if the list has no text at all. A list of nothing but blanks keeps the first record for each text in
the field whose name is empty, and so no more than one record if that field shows nothing in any of
them; without its blanks the list has no text, and compares whole records. If a list has a name,
and the field whose name is empty shows nothing, blank entries make no difference at the ends of
the list, nor anywhere in it if no bar stands in the texts of its fields. -/
theorem removeDuplicates_withoutBlanks (fields : String) :
    ((∀ records, removeDuplicates fields records =
        removeDuplicates (withoutBlanks fields) records) ↔
      fields = "" ∨ "" ∉ keyNames fields) ∧
    (fields ≠ "" → (∀ name ∈ keyNames fields, name = "") →
      withoutBlanks fields = "" ∧
      ∀ records : RecordSet,
        removeDuplicates fields records =
          firsts (fun r : Record => Value.keyText (r.get? "")) [] records ∧
        ((∀ r ∈ records, Value.keyText (r.get? "") = []) →
          removeDuplicates fields records = records.take 1)) ∧
    ((∃ name ∈ keyNames fields, name ≠ "") →
      ∀ records : RecordSet, (∀ r ∈ records, Value.keyText (r.get? "") = []) →
        (BlankEnds fields ∨
          ∀ r ∈ records, ∀ name ∈ keyNames fields, '|' ∉ Value.keyText (r.get? name)) →
        removeDuplicates fields records = removeDuplicates (withoutBlanks fields) records) := by
  refine ⟨?_, ?_, ?_⟩
  · constructor
    · intro hall
      by_cases hempty : fields = ""
      · exact .inl hempty
      · refine .inr fun hblank => ?_
        by_cases hnamed : ∃ name ∈ keyNames fields, name ≠ ""
        · exact removeDuplicates_ne_of_named hblank hnamed (hall _)
        · exact removeDuplicates_ne_of_blank hempty (by simpa using hnamed) (hall _)
    · rintro (rfl | hnone) records
      · rfl
      · rw [withoutBlanks_eq_self hnone]
  · intro hne hblank
    refine ⟨withoutBlanks_of_blank hblank, fun records => ⟨?_, fun hnothing => ?_⟩⟩
    · exact firsts_congr [] fun a _ b _ => distinctKey_of_blank hne hblank a b
    · refine firsts_eq_take_one fun a ha b hb => (distinctKey_of_blank hne hblank a b).2 ?_
      rw [hnothing a ha, hnothing b hb]
  · intro hnamed records hnothing hcase
    refine removeDuplicates_congr fun a ha b hb => ?_
    rcases hcase with hends | hbars
    · obtain ⟨inFront, behind, hkeys⟩ := distinctKey_of_blankEnds hends
      rw [hkeys a (hnothing a ha), hkeys b (hnothing b hb), List.append_left_inj,
        List.append_right_inj]
    · exact distinctKey_withoutBlanks_iff hnamed (hbars a ha) (hbars b hb)
        ((hnothing a ha).trans (hnothing b hb).symm)

/-- Blank entries behind a name make no difference, though a bar stands in a text. Blank entries
alone leave one record. -/
theorem removeDuplicates_withoutBlanks_trailing :
    let bar : Record := ⟨[("name", .string "x|"), ("n", .number (.ofNat 1))]⟩
    let same : Record := ⟨[("name", .string "x|"), ("n", .number (.ofNat 2))]⟩
    let missing : Record := ⟨[("n", .number (.ofNat 3))]⟩
    let records : RecordSet := [bar, same, missing]
    BlankEnds " name , ," ∧ (∀ r ∈ records, Value.keyText (r.get? "") = []) ∧
      removeDuplicates " name , ," records = removeDuplicates (withoutBlanks " name , ,") records ∧
      removeDuplicates " name , ," records = [bar, missing] ∧
      removeDuplicates ", " records = [bar] ∧
      ¬ ∀ records, removeDuplicates ", " records =
        removeDuplicates (withoutBlanks ", ") records := by
  intro bar same missing records
  have hends : BlankEnds " name , ," :=
    ⟨0, 2, ["name"], by decide, by decide, by decide +kernel⟩
  have hnothing : ∀ r ∈ records, Value.keyText (r.get? "") = [] := by decide +kernel
  have hblank : ∀ name ∈ keyNames ", ", name = "" := by decide +kernel
  obtain ⟨-, -, hnamed⟩ := removeDuplicates_withoutBlanks " name , ,"
  obtain ⟨hiff, hblanks, -⟩ := removeDuplicates_withoutBlanks ", "
  refine ⟨hends, hnothing, hnamed ⟨"name", by decide +kernel, by decide⟩ records hnothing
    (.inl hends), by decide +kernel, ?_, ?_⟩
  · exact ((hblanks (by decide) hblank).2 records).2 hnothing
  · rw [hiff]
    decide +kernel

/-- Of two records that differ a list of blanks keeps one, and no list keeps both. -/
theorem not_forall_removeDuplicates_withoutBlanks :
    let first : Record := ⟨[("a", .number (.ofNat 1))]⟩
    let second : Record := ⟨[("a", .number (.ofNat 2))]⟩
    removeDuplicates " , " [first, second] = [first] ∧ withoutBlanks " , " = "" ∧
      removeDuplicates "" [first, second] = [first, second] ∧
      ¬ ∀ (fields : String) (records : RecordSet),
        removeDuplicates fields records = removeDuplicates (withoutBlanks fields) records := by
  intro first second
  have hblank : removeDuplicates " , " [first, second] = [first] := by decide +kernel
  have hempty : withoutBlanks " , " = "" := by decide +kernel
  have hwhole : removeDuplicates "" [first, second] = [first, second] := by decide +kernel
  refine ⟨hblank, hempty, hwhole, fun hall => ?_⟩
  have hsame := hall " , " [first, second]
  rw [hblank, hempty, hwhole] at hsame
  cases hsame

end Edit

end LooseRecords

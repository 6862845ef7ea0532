import LooseRecords.Fields

/-!
# Assignments in sequence

What a sequence of assignments leaves in named entries. `Fields.get?_insertAll` says that the last
assignment to a name is the one that a look-up sees, `Fields.names_insertAll` that the names that
are there keep their places and new ones follow in the order in which they first come. Sequences
that assign different names may change places, up to the order of new names:
`Fields.get?_insertAll_comm` and `Fields.insertAll_comm`.
-/

namespace LooseRecords

namespace Fields

variable {α : Type}

/-- The fields after the entries of a list are assigned in order. -/
def insertAll (fields : Fields α) (entries : List (String × α)) : Fields α :=
  entries.foldl (fun fields entry => insert fields entry.1 entry.2) fields

/-- The entry that a list has last under a name. -/
def last? (entries : List (String × α)) (name : String) : Option α :=
  (entries.reverse.find? fun entry => entry.1 == name).map Prod.snd

theorem insertAll_cons (fields : Fields α) (entry : String × α) (entries : List (String × α)) :
    insertAll fields (entry :: entries) = insertAll (insert fields entry.1 entry.2) entries :=
  rfl

/-- The last entry of a longer list is that of its tail, if the tail has one. -/
theorem last?_cons (key : String) (a : α) (entries : List (String × α)) (name : String) :
    last? ((key, a) :: entries) name =
      (last? entries name).or (if key = name then some a else none) := by
  by_cases hk : key = name
  · cases hl : entries.reverse.find? fun entry => entry.1 == name <;>
      simp [last?, List.find?_append, hk, hl]
  · simp [last?, List.find?_append, hk]

/-- After a sequence of assignments a look-up sees the last one to the name, and what it saw
before if there is none. -/
theorem get?_insertAll (fields : Fields α) (entries : List (String × α)) (name : String) :
    get? (insertAll fields entries) name = (last? entries name).or (get? fields name) := by
  induction entries generalizing fields with
  | nil => rfl
  | cons entry rest ih =>
    obtain ⟨key, a⟩ := entry
    rw [insertAll_cons, ih, get?_insert, last?_cons, Option.or_assoc]
    by_cases hk : key = name <;> simp [hk]

/-- After a sequence of assignments the names are those that were there, in their old places, and
then those that are new, each where it first comes. -/
theorem names_insertAll (fields : Fields α) (entries : List (String × α)) :
    names (insertAll fields entries) =
      names fields ++ ((names entries).removeAll (names fields)).eraseDups := by
  induction entries generalizing fields with
  | nil => simp [insertAll, names, List.removeAll]
  | cons entry rest ih =>
    obtain ⟨key, a⟩ := entry
    rw [insertAll_cons, ih, names_insert]
    by_cases hk : key ∈ names fields
    · have hold : (names ((key, a) :: rest)).removeAll (names fields) =
          (names rest).removeAll (names fields) := by
        simp [names, List.removeAll] at hk ⊢
        simp [hk]
      rw [if_pos hk, hold]
    · -- The new name leads what is new, and no later entry with it counts again.
      have hnew : ((names ((key, a) :: rest)).removeAll (names fields)).eraseDups =
          key :: ((names rest).removeAll (names fields ++ [key])).eraseDups := by
        have hcons : (names ((key, a) :: rest)).removeAll (names fields) =
            key :: (names rest).removeAll (names fields) := by
          simp [names, List.removeAll] at hk ⊢
          simp [hk]
        rw [hcons, List.eraseDups_cons]
        congr 2
        simp only [List.removeAll, List.filter_filter]
        apply List.filter_congr
        intro name _
        by_cases hn : name = key <;> simp [hn]
      rw [if_neg hk, hnew, List.append_assoc]
      rfl

theorem mem_insert {fields : Fields α} {name : String} {a : α} {entry : String × α}
    (h : entry ∈ insert fields name a) : entry ∈ fields ∨ entry = (name, a) := by
  induction fields with
  | nil => exact .inr (List.mem_singleton.1 h)
  | cons first rest ih =>
    obtain ⟨key, b⟩ := first
    rw [insert] at h
    split at h
    case isTrue hk =>
      subst hk
      rcases List.mem_cons.1 h with rfl | hrest
      · exact .inr rfl
      · exact .inl (List.mem_cons_of_mem _ hrest)
    case isFalse =>
      rcases List.mem_cons.1 h with rfl | hrest
      · exact .inl List.mem_cons_self
      · rcases ih hrest with hold | hnew
        · exact .inl (List.mem_cons_of_mem _ hold)
        · exact .inr hnew

/-- Assignments leave no entries but those that were there and those assigned. -/
theorem mem_insertAll {fields : Fields α} {entries : List (String × α)} {entry : String × α}
    (h : entry ∈ insertAll fields entries) : entry ∈ fields ∨ entry ∈ entries := by
  induction entries generalizing fields with
  | nil => exact .inl h
  | cons first rest ih =>
    rcases ih h with hfields | hrest
    · rcases mem_insert hfields with hold | rfl
      · exact .inl hold
      · exact .inr List.mem_cons_self
    · exact .inr (List.mem_cons_of_mem _ hrest)

theorem nodup_names_insertAll {fields : Fields α} (h : (names fields).Nodup)
    (entries : List (String × α)) : (names (insertAll fields entries)).Nodup := by
  induction entries generalizing fields with
  | nil => exact h
  | cons entry rest ih => exact ih (nodup_names_insert h entry.1 entry.2)

theorem mem_ofList {entries : List (String × α)} {entry : String × α}
    (h : entry ∈ ofList entries) : entry ∈ entries := by
  have hall : entry ∈ insertAll [] entries := h
  rcases mem_insertAll hall with hnil | hentry
  · cases hnil
  · exact hentry

theorem nodup_names_ofList (entries : List (String × α)) : (names (ofList entries)).Nodup := by
  have hnil : (names ([] : Fields α)).Nodup := .nil
  exact nodup_names_insertAll hnil entries

/-- A list of entries, assigned in order, leaves each name where it first comes. -/
theorem names_ofList (entries : List (String × α)) :
    names (ofList entries) = (names entries).eraseDups := by
  have hall : names (ofList entries) = [] ++ ((names entries).removeAll []).eraseDups :=
    names_insertAll [] entries
  rwa [List.removeAll_nil, List.nil_append] at hall

/-- A list of entries, assigned in order, leaves each name its last entry. -/
theorem get?_ofList (entries : List (String × α)) (name : String) :
    get? (ofList entries) name = last? entries name := by
  have hall : get? (ofList entries) name = _ := get?_insertAll [] entries name
  rwa [get?, Option.or_none] at hall

/-- A look-up in entries that are made from their names. -/
theorem get?_map_self (keys : List String) (f : String → α) (name : String) :
    get? (keys.map fun key => (key, f key)) name = if name ∈ keys then some (f name) else none := by
  induction keys with
  | nil => rfl
  | cons key keys ih =>
    by_cases hkey : key = name
    · subst hkey
      simp [get?]
    · have hne : ¬ name = key := fun h => hkey h.symm
      simpa [get?, hkey, hne] using ih

/-- Of entries with distinct names a look-up finds each one. -/
theorem get?_eq_some_iff {fields : Fields α} (h : (names fields).Nodup) (name : String) (a : α) :
    get? fields name = some a ↔ (name, a) ∈ fields := by
  induction fields with
  | nil => simp [get?]
  | cons entry rest ih =>
    obtain ⟨key, b⟩ := entry
    obtain ⟨hkey, hrest⟩ : key ∉ names rest ∧ (names rest).Nodup := by simpa [names] using h
    by_cases hname : key = name
    · subst hname
      have hother : (key, a) ∉ rest := fun hmem => hkey (List.mem_map_of_mem hmem)
      simp [get?, hother, eq_comm]
    · simp [get?, hname, Ne.symm hname, ih hrest]

/-- Entries with distinct names are determined by their names and by what a look-up finds. -/
theorem ext_of_nodup {fields other : Fields α} (hnodup : (names fields).Nodup)
    (hnames : names fields = names other) (hget : ∀ name, get? fields name = get? other name) :
    fields = other := by
  induction fields generalizing other with
  | nil =>
    have hnil : names other = [] := hnames.symm
    exact (List.map_eq_nil_iff.1 hnil).symm
  | cons entry rest ih =>
    obtain ⟨key, a⟩ := entry
    obtain - | ⟨⟨key', b⟩, rest'⟩ := other
    · cases hnames
    obtain ⟨rfl, htail⟩ : key = key' ∧ names rest = names rest' := by simpa [names] using hnames
    obtain ⟨hkey, hrest⟩ : key ∉ names rest ∧ (names rest).Nodup := by
      simpa [names] using hnodup
    obtain rfl : a = b := by simpa [get?] using hget key
    have hmissing : ∀ entries : Fields α, key ∉ names entries → get? entries key = none := by
      intro entries h
      simpa [mem_names_iff] using h
    rw [ih hrest htail fun name => ?_]
    by_cases hname : key = name
    · subst hname
      rw [hmissing rest hkey, hmissing rest' (htail ▸ hkey)]
    · simpa [get?, hname] using hget name

/-- Entries with distinct names are what they are assigned to be. -/
theorem insertAll_of_nodup (fields : Fields α) (entries : List (String × α))
    (h : (names (fields ++ entries)).Nodup) : insertAll fields entries = fields ++ entries := by
  induction entries generalizing fields with
  | nil => simp [insertAll]
  | cons entry rest ih =>
    obtain ⟨key, a⟩ := entry
    have hnew : insert fields key a = fields ++ [(key, a)] := by
      have hk : key ∉ names fields := by
        intro hmem
        simp only [names, List.map_append, List.map_cons, List.nodup_append] at h
        exact h.2.2 key hmem key List.mem_cons_self rfl
      clear ih h
      induction fields with
      | nil => rfl
      | cons first fields ih =>
        obtain ⟨other, b⟩ := first
        simp only [names, List.map_cons, List.mem_cons, not_or] at hk
        simp only [insert, if_neg (Ne.symm hk.1), List.cons_append]
        rw [ih hk.2]
    rw [insertAll_cons, hnew, ih _ (by simpa using h)]
    simp

/-! ## Entries changed one by one -/

section

variable {β : Type}

/-- The entries with a function applied to each, under their old names. -/
def mapEntries (f : α → β) (fields : Fields α) : Fields β :=
  fields.map fun entry => (entry.1, f entry.2)

theorem get?_mapEntries (f : α → β) (fields : Fields α) (name : String) :
    get? (mapEntries f fields) name = (get? fields name).map f := by
  induction fields with
  | nil => rfl
  | cons entry rest ih =>
    obtain ⟨key, a⟩ := entry
    show get? ((key, f a) :: mapEntries f rest) name = _
    rw [get?, get?]
    split
    · rfl
    · exact ih

theorem mapEntries_insert (f : α → β) (fields : Fields α) (name : String) (a : α) :
    mapEntries f (insert fields name a) = insert (mapEntries f fields) name (f a) := by
  induction fields with
  | nil => rfl
  | cons entry rest ih =>
    obtain ⟨key, b⟩ := entry
    by_cases hk : key = name
    · simp [insert, mapEntries, hk]
    · simpa [insert, mapEntries, hk] using ih

/-- Whether entries are changed before or after they are assigned makes no difference. -/
theorem ofList_mapEntries (f : α → β) (entries : List (String × α)) :
    ofList (mapEntries f entries) = mapEntries f (ofList entries) := by
  have hfrom : ∀ fields : Fields α,
      insertAll (mapEntries f fields) (mapEntries f entries) =
        mapEntries f (insertAll fields entries) := by
    induction entries with
    | nil => exact fun _ => rfl
    | cons entry rest ih =>
      intro fields
      rw [insertAll_cons, ← ih, mapEntries_insert]
      rfl
  exact hfrom []

end

/-! ## The order of assignments -/

/-- Of two assignments to one name the later one counts. -/
theorem insert_insert (fields : Fields α) (name : String) (a b : α) :
    insert (insert fields name a) name b = insert fields name b := by
  induction fields with
  | nil => simp [insert]
  | cons entry rest ih =>
    obtain ⟨key, c⟩ := entry
    by_cases hk : key = name
    · simp [insert, hk]
    · simp [insert, hk, ih]

/-- Assigning an entry that is there changes nothing. -/
theorem insert_of_get?_eq_some {fields : Fields α} {name : String} {a : α}
    (h : get? fields name = some a) : insert fields name a = fields := by
  induction fields with
  | nil => cases h
  | cons entry rest ih =>
    obtain ⟨key, b⟩ := entry
    rw [get?] at h
    by_cases hk : key = name
    · rw [if_pos hk] at h
      cases h
      simp [insert, hk]
    · rw [if_neg hk] at h
      simp [insert, hk, ih h]

/-- An assignment in place can be exchanged with one to another name. -/
theorem insert_comm {fields : Fields α} {name other : String} (h : name ∈ names fields)
    (hne : name ≠ other) (a b : α) :
    insert (insert fields name a) other b = insert (insert fields other b) name a := by
  induction fields with
  | nil => cases h
  | cons entry rest ih =>
    obtain ⟨key, c⟩ := entry
    by_cases hk : key = name
    · subst hk
      simp [insert, hne]
    · have hrest : name ∈ names rest := (List.mem_cons.1 h).resolve_left (Ne.symm hk)
      by_cases ho : key = other
      · simp [insert, ho, Ne.symm hne]
      · simp [insert, hk, ho, ih hrest]

theorem mem_names_insert_of_mem {fields : Fields α} {name : String} (h : name ∈ names fields)
    (other : String) (a : α) : name ∈ names (insert fields other a) := by
  rw [names_insert]
  split
  · exact h
  · exact List.mem_append_left _ h

/-- An assignment in place can be put off until others, to other names, are made. -/
theorem insertAll_insert {fields : Fields α} {entries : List (String × α)} {name : String}
    (h : name ∈ names fields) (hother : name ∉ names entries) (a : α) :
    insertAll (insert fields name a) entries = insert (insertAll fields entries) name a := by
  induction entries generalizing fields with
  | nil => rfl
  | cons entry rest ih =>
    obtain ⟨key, b⟩ := entry
    obtain ⟨hne, hrest⟩ := List.ne_and_not_mem_of_not_mem_cons hother
    rw [insertAll_cons, insertAll_cons, insert_comm h hne,
      ih (mem_names_insert_of_mem h key b) hrest]

/-- An assignment in place that a later one to its name follows can be left out. -/
theorem insertAll_insert_of_mem {fields : Fields α} {entries : List (String × α)} {name : String}
    (h : name ∈ names fields) (hagain : name ∈ names entries) (a : α) :
    insertAll (insert fields name a) entries = insertAll fields entries := by
  induction entries generalizing fields with
  | nil => cases hagain
  | cons entry rest ih =>
    obtain ⟨key, b⟩ := entry
    rw [insertAll_cons, insertAll_cons]
    by_cases hk : name = key
    · subst hk
      rw [insert_insert]
    · have hrest : name ∈ names rest := (List.mem_cons.1 hagain).resolve_left hk
      rw [insert_comm h hk, ih (mem_names_insert_of_mem h key b) hrest]

/-- A list has a last entry under a name exactly if the name is among its names. -/
theorem isSome_last?_iff (entries : List (String × α)) (name : String) :
    (last? entries name).isSome = true ↔ name ∈ names entries := by
  simp [last?, names]

/-- The last entry under a name is where the name is met and is not met again behind it. -/
theorem last?_eq_some_iff (entries : List (String × α)) (name : String) (a : α) :
    last? entries name = some a ↔
      ∃ i : Nat, entries[i]? = some (name, a) ∧ ∀ j b, i < j → entries[j]? ≠ some (name, b) := by
  induction entries with
  | nil => simp [last?]
  | cons entry rest ih =>
    obtain ⟨key, c⟩ := entry
    rw [last?_cons]
    constructor
    · intro h
      rcases Option.or_eq_some_iff.1 h with hrest | ⟨hnone, hkey⟩
      · obtain ⟨i, hi, hlast⟩ := ih.1 hrest
        refine ⟨i + 1, hi, fun j b hj => ?_⟩
        obtain ⟨j, rfl⟩ := Nat.exists_eq_add_one_of_ne_zero (Nat.ne_zero_of_lt hj)
        exact hlast j b (Nat.lt_of_succ_lt_succ hj)
      · obtain ⟨hname, ⟨⟩⟩ := Option.ite_none_right_eq_some.1 hkey
        refine ⟨0, by rw [hname]; rfl, fun j b hj hb => ?_⟩
        obtain ⟨j, rfl⟩ := Nat.exists_eq_add_one_of_ne_zero (Nat.ne_zero_of_lt hj)
        have hmem : name ∈ names rest := List.mem_map.2 ⟨_, List.mem_of_getElem? hb, rfl⟩
        rw [← isSome_last?_iff, hnone] at hmem
        cases hmem
    · rintro ⟨i, hi, hlast⟩
      cases i with
      | zero =>
        cases hi
        have hnot : name ∉ names rest := by
          intro hmem
          obtain ⟨⟨_, b⟩, hentry, rfl⟩ := List.mem_map.1 hmem
          obtain ⟨j, hj⟩ := List.getElem?_of_mem hentry
          exact hlast (j + 1) b (Nat.succ_pos j) hj
        have hnone : last? rest name = none := by
          simpa using mt (isSome_last?_iff rest name).1 hnot
        simp [hnone]
      | succ i =>
        rw [ih.2 ⟨i, hi, fun j b hj => hlast (j + 1) b (Nat.succ_lt_succ hj)⟩, Option.some_or]

/-- Assignments of which the last one to each name finds its entry there change nothing. -/
theorem insertAll_of_last? {fields : Fields α} {entries : List (String × α)}
    (h : ∀ name a, last? entries name = some a → get? fields name = some a) :
    insertAll fields entries = fields := by
  induction entries with
  | nil => rfl
  | cons entry rest ih =>
    obtain ⟨key, a⟩ := entry
    have hlast : ∀ name b, last? rest name = some b → get? fields name = some b :=
      fun name b hb => h name b (by rw [last?_cons, hb]; rfl)
    have hrest := ih hlast
    rw [insertAll_cons]
    by_cases hk : key ∈ names rest
    · -- The entry need not be the one that is there, but a later assignment makes up for it.
      obtain ⟨b, hb⟩ := Option.isSome_iff_exists.1 ((isSome_last?_iff rest key).2 hk)
      have hkey : key ∈ names fields := (mem_names_iff fields key).2 (by simp [hlast key b hb])
      rw [insertAll_insert_of_mem hkey hk, hrest]
    · have hnone : last? rest key = none := by simpa [hk] using mt (isSome_last?_iff rest key).1 hk
      have hkey : get? fields key = some a := h key a (by simp [last?_cons, hnone])
      rw [insert_of_get?_eq_some hkey, hrest]

/-- Making the same assignments once more changes nothing. -/
theorem insertAll_insertAll_self (fields : Fields α) (entries : List (String × α)) :
    insertAll (insertAll fields entries) entries = insertAll fields entries :=
  insertAll_of_last? fun name a h => by rw [get?_insertAll, h, Option.some_or]

section

variable {fields : Fields α} {first second : List (String × α)}

/-- Assignments in place can be exchanged with assignments to other names. -/
theorem insertAll_comm (hmem : ∀ name ∈ names second, name ∈ names fields)
    (hdisjoint : ∀ name ∈ names second, name ∉ names first) :
    insertAll (insertAll fields first) second = insertAll (insertAll fields second) first := by
  induction second generalizing fields with
  | nil => rfl
  | cons entry rest ih =>
    obtain ⟨key, a⟩ := entry
    obtain ⟨hkey, hrest⟩ := List.forall_mem_cons.1 hmem
    obtain ⟨hother, hothers⟩ := List.forall_mem_cons.1 hdisjoint
    rw [insertAll_cons, insertAll_cons, ← insertAll_insert hkey hother]
    exact ih (fun name hname => mem_names_insert_of_mem (hrest name hname) key a) hothers

/-- After assignments to names that have nothing in common a look-up sees the same whichever were
made first. -/
theorem get?_insertAll_comm (hdisjoint : ∀ name ∈ names second, name ∉ names first)
    (name : String) :
    get? (insertAll (insertAll fields first) second) name =
      get? (insertAll (insertAll fields second) first) name := by
  have hnone : last? first name = none ∨ last? second name = none := by
    by_cases hname : name ∈ names second
    · exact .inl (by simpa using mt (isSome_last?_iff first name).1 (hdisjoint name hname))
    · exact .inr (by simpa using mt (isSome_last?_iff second name).1 hname)
  simp only [get?_insertAll]
  rcases hnone with hfirst | hsecond
  · simp [hfirst]
  · simp [hsecond]

/-- New names come in the order of their assignments, and names that have nothing in common are new
independently of each other. -/
theorem names_insertAll_insertAll (hdisjoint : ∀ name ∈ names second, name ∉ names first) :
    names (insertAll (insertAll fields first) second) =
      names fields ++ ((names first).removeAll (names fields)).eraseDups ++
        ((names second).removeAll (names fields)).eraseDups := by
  have hnew : (names second).removeAll
      (names fields ++ ((names first).removeAll (names fields)).eraseDups) =
        (names second).removeAll (names fields) := by
    unfold List.removeAll
    apply List.filter_congr
    intro name hname
    simp [hdisjoint name hname]
  rw [names_insertAll, names_insertAll, hnew]

end

end Fields

end LooseRecords

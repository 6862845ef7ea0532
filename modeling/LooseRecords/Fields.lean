/-!
# Fields

Named entries in order. A name that is assigned again keeps the place at which it first appeared;
a new name goes to the end. `Fields.get?_insert` says what a look-up sees after an assignment, and
`Fields.names_insert` which names there are.
-/

namespace LooseRecords

/-- Named entries in order. -/
abbrev Fields (α : Type) := List (String × α)

namespace Fields

variable {α : Type}

/-- The names in order. -/
def names (fields : Fields α) : List String := fields.map Prod.fst

/-- The entry with a name. -/
def get? (fields : Fields α) (name : String) : Option α :=
  match fields with
  | [] => none
  | (key, a) :: rest => if key = name then some a else get? rest name

/-- Some entry has the name. -/
def contains (fields : Fields α) (name : String) : Bool := (get? fields name).isSome

/-- Assign an entry: in place if the name exists, at the end if it does not. -/
def insert (fields : Fields α) (name : String) (a : α) : Fields α :=
  match fields with
  | [] => [(name, a)]
  | (key, b) :: rest => if key = name then (key, a) :: rest else (key, b) :: insert rest name a

/-- The entries of a list, assigned in order. -/
def ofList (entries : List (String × α)) : Fields α :=
  entries.foldl (fun fields entry => insert fields entry.1 entry.2) []

/-! ## Look-ups and names -/

/-- A look-up after an assignment sees the assigned entry, and otherwise what it saw before. -/
theorem get?_insert (fields : Fields α) (name other : String) (a : α) :
    get? (insert fields name a) other = if name = other then some a else get? fields other := by
  induction fields with
  | nil => simp [insert, get?]
  | cons entry rest ih =>
    obtain ⟨key, b⟩ := entry
    by_cases hk : key = name
    · subst hk
      by_cases ho : key = other <;> simp [insert, get?, ho]
    · by_cases ho : key = other
      · subst ho
        simp [insert, get?, hk, Ne.symm hk]
      · simp [insert, get?, hk, ho, ih]

/-- A name is among the names exactly if a look-up finds it. -/
theorem mem_names_iff (fields : Fields α) (name : String) :
    name ∈ names fields ↔ (get? fields name).isSome := by
  induction fields with
  | nil => simp [names, get?]
  | cons entry rest ih =>
    obtain ⟨key, b⟩ := entry
    by_cases hk : key = name
    · simp [names, get?, hk]
    · have hn : ¬ name = key := fun h => hk h.symm
      simpa [names, get?, hk, hn] using ih

/-- An assignment keeps the names if the name exists, and appends it if it does not. -/
theorem names_insert (fields : Fields α) (name : String) (a : α) :
    names (insert fields name a) =
      if name ∈ names fields then names fields else names fields ++ [name] := by
  induction fields with
  | nil => simp [insert, names]
  | cons entry rest ih =>
    obtain ⟨key, b⟩ := entry
    by_cases hk : key = name
    · simp [insert, names, hk]
    · have hn : ¬ name = key := fun h => hk h.symm
      simp only [names] at ih
      simp only [insert, hk, if_false, names, List.map_cons, List.mem_cons, hn, false_or, ih]
      by_cases hm : name ∈ List.map Prod.fst rest <;> simp [hm]

/-- Assignments keep names distinct. -/
theorem nodup_names_insert {fields : Fields α} (h : (names fields).Nodup) (name : String) (a : α) :
    (names (insert fields name a)).Nodup := by
  rw [names_insert]
  split
  · exact h
  · rename_i hm
    refine List.nodup_append.2 ⟨h, by simp, ?_⟩
    intro x hx y hy hxy
    have hxn : x = name := by simp_all
    exact hm (hxn ▸ hx)

end Fields

end LooseRecords

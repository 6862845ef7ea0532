import LooseRecords.Proofs.Text.Lower
import LooseRecords.Query.Filter

/-!
# Matches that ignore letter case

A match that counts letter case is still a match where case is ignored, unless it hangs on a capital
sigma that ends a word in the operand or in the field only: both are lower-cased as a whole, and the
sigma becomes two different letters. `Query.kept_ignoring_case` says this of conditions and
searches, and `Query.lost_ignoring_case` shows such a sigma.
-/

namespace LooseRecords

namespace Text

/-- Wherever a term occurs in a text, one of its capital sigmas turns. -/
def SigmasTurn (term text : List Char) : Prop :=
  ∀ front behind, text = front ++ (term ++ behind) → TurnsSigma front term behind

/-- In lower case a term still occurs in a text, if it occurs there without a sigma that turns. -/
theorem occursIn_lower_or (term text : List Char) :
    occursIn (lower term) (lower text) = true ∨ SigmasTurn term text := by
  by_cases h : ∃ front behind, text = front ++ (term ++ behind) ∧ ¬ TurnsSigma front term behind
  · obtain ⟨front, behind, rfl, hkept⟩ := h
    exact .inl (occursIn_lower hkept)
  · right
    intro front behind htext
    by_contra hkept
    exact h ⟨front, behind, htext, hkept⟩

end Text

namespace Query

/-- The texts of a record that a search looks at. -/
def searched (field : String) (r : Record) : List (List Char) :=
  if field.isEmpty then r.values.map Value.display else [Value.displayField (r.get? field)]

theorem mem_search_iff (field term : String) (caseSensitive : Bool) (records : RecordSet)
    (r : Record) :
    r ∈ search field term caseSensitive records ↔
      r ∈ records ∧ ∃ text ∈ searched field r,
        Text.occursIn (Text.fold caseSensitive term.toList) (Text.fold caseSensitive text) = true := by
  rw [search, List.mem_filter, searched]
  cases field.isEmpty with
  | true =>
    simp only [if_true, List.any_eq_true, List.mem_map, exists_exists_and_eq_and]
    rfl
  | false =>
    simp only [Bool.false_eq_true, if_false, List.mem_singleton, exists_eq_left]
    rfl

/-- A match that counts letter case is a match that ignores it, if it does not hang on a capital
sigma. Equal fields stay equal. A field that contains the operand still does, unless wherever the
operand occurs in it one of its sigmas turns; a field that begins or ends with the operand still
does exactly if none of the operand's sigmas turns there; and a record that a search finds is still
found, unless all that it is found by turns in this way. An operand without capital sigma never
turns. -/
theorem kept_ignoring_case :
    (∀ (r : Record) (field : String) (operand : Option String),
      let text := Value.displayField (r.get? field)
      let term := Value.displayField (operand.map .string)
      let meets (operator : Operator) (caseSensitive : Bool) : Bool :=
        Condition.isMet { field, operator, operand } caseSensitive r
      (meets .equals true = true → meets .equals false = true) ∧
      (meets .notEquals false = true → meets .notEquals true = true) ∧
      (meets .contains true = true → meets .contains false = true ∨ Text.SigmasTurn term text) ∧
      (meets .notContains false = true →
        meets .notContains true = true ∨ Text.SigmasTurn term text) ∧
      (meets .startsWith true = true → ∃ behind, text = term ++ behind ∧
        (meets .startsWith false = true ↔ ¬ Text.TurnsSigma [] term behind)) ∧
      (meets .endsWith true = true → ∃ front, text = front ++ term ∧
        (meets .endsWith false = true ↔ ¬ Text.TurnsSigma front term []))) ∧
    (∀ (records : RecordSet) (field term : String), ∀ r ∈ search field term true records,
      r ∈ search field term false records ∨
        ∀ text ∈ searched field r, Text.SigmasTurn term.toList text) ∧
    (∀ term : List Char, 'Σ' ∉ term → ∀ front behind, ¬ Text.TurnsSigma front term behind) := by
  refine ⟨fun r field operand => ?_, fun records field term r hr => ?_, fun term h =>
    Text.not_turnsSigma_of_not_mem h⟩
  · intro text term meets
    have hcontains := Text.occursIn_lower_or term text
    refine ⟨fun h => ?_, fun h => ?_, fun _ => hcontains, fun h => .inr ?_, fun h => ?_, fun h => ?_⟩
    · have heq : text = term := beq_iff_eq.1 h
      show (Text.lower text == Text.lower term) = true
      rw [heq, beq_self_eq_true]
    · have hne : Text.lower text ≠ Text.lower term := bne_iff_ne.1 h
      show (text != term) = true
      exact bne_iff_ne.2 fun heq => hne (congrArg Text.lower heq)
    · have hnot : (!Text.occursIn (Text.lower term) (Text.lower text)) = true := h
      exact hcontains.resolve_left (by simpa using hnot)
    · obtain ⟨behind, htext⟩ := List.isPrefixOf_iff_prefix.1 (show term.isPrefixOf text = true from h)
      refine ⟨behind, htext.symm, ?_⟩
      show (Text.lower term).isPrefixOf (Text.lower text) = true ↔ _
      rw [← htext]
      exact Text.isPrefixOf_lower term behind
    · obtain ⟨front, htext⟩ := List.isSuffixOf_iff_suffix.1 (show term.isSuffixOf text = true from h)
      refine ⟨front, htext.symm, ?_⟩
      show (Text.lower term).isSuffixOf (Text.lower text) = true ↔ _
      rw [← htext]
      exact Text.isSuffixOf_lower front term
  · by_cases hkept : ∃ text ∈ searched field r,
        Text.occursIn (Text.lower term.toList) (Text.lower text) = true
    · exact .inl ((mem_search_iff field term false records r).2
        ⟨((mem_search_iff field term true records r).1 hr).1, hkept⟩)
    · right
      intro text htext
      exact (Text.occursIn_lower_or term.toList text).resolve_left fun h => hkept ⟨text, htext, h⟩

/-- A capital letter that lower case makes two characters of, in front of a sigma that turns. -/
theorem kept_ignoring_case_dotted :
    let r : Record := ⟨[("a", .string "İΣ")]⟩
    let condition : Condition := { field := "a", operator := .contains, operand := some "İ" }
    (condition.isMet true r = true ∧ condition.isMet false r = true) ∧
      r ∈ search "a" "İ" true [r] ∧ r ∈ search "a" "İ" false [r] := by
  intro r condition
  obtain ⟨hconditions, hsearches, hsigma⟩ := kept_ignoring_case
  obtain ⟨-, -, hcontains, -⟩ := hconditions r "a" (some "İ")
  -- The term has no sigma, and it stands at the beginning of the field.
  have hkept : ¬ Text.SigmasTurn ['İ'] ['İ', 'Σ'] := fun hturn =>
    hsigma ['İ'] (by decide) [] ['Σ'] (hturn [] ['Σ'] rfl)
  have hmet : condition.isMet true r = true := by decide
  have hfound : r ∈ search "a" "İ" true [r] := by decide
  have hsearched : ['İ', 'Σ'] ∈ searched "a" r := by decide
  exact ⟨⟨hmet, (hcontains hmet).resolve_right hkept⟩, hfound,
    (hsearches [r] "a" "İ" r hfound).resolve_right fun hall => hkept (hall _ hsearched)⟩

/-- A sigma at the end of the operand, which is in the middle of a word of the field, and a sigma by
itself, which ends a word of the field. -/
theorem lost_ignoring_case :
    let r : Record := ⟨[("a", .string "ΑΣΑ"), ("b", .string "ΑΣ")]⟩
    let meets (field : String) (operator : Operator) (operand : String) (caseSensitive : Bool) :=
      Condition.isMet { field, operator, operand := some operand } caseSensitive r
    (meets "a" .contains "ΑΣ" true = true ∧ meets "a" .contains "ΑΣ" false = false) ∧
      (meets "a" .startsWith "ΑΣ" true = true ∧ meets "a" .startsWith "ΑΣ" false = false) ∧
      (meets "b" .endsWith "Σ" true = true ∧ meets "b" .endsWith "Σ" false = false) ∧
      (meets "b" .notContains "Σ" false = true ∧ meets "b" .notContains "Σ" true = false) ∧
      search "a" "ΑΣ" true [r] = [r] ∧ search "a" "ΑΣ" false [r] = [] := by
  decide +kernel

end Query

end LooseRecords

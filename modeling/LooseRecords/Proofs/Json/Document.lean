import LooseRecords.Json.Document

/-!
# Tokens of documents

Every document has tokens, and tokens make up a document exactly if they are its tokens:
`Document.ofTokens?_eq_some_iff`.
-/

namespace LooseRecords

namespace Json

namespace Document

mutual

/-- The tokens of a document. -/
def tokens : Document → List Token
  | .null => [.null]
  | .bool b => [.bool b]
  | .number n => [.number n]
  | .string pieces => [.string pieces]
  | .array items => .openArray :: (itemsTokens items ++ [.closeArray])
  | .object members => .openObject :: (membersTokens members ++ [.closeObject])

/-- The tokens of items, with commas between them. -/
def itemsTokens : List Document → List Token
  | [] => []
  | [item] => tokens item
  | item :: items => tokens item ++ .comma :: itemsTokens items

/-- The tokens of members, with commas between them. -/
def membersTokens : List (List Piece × Document) → List Token
  | [] => []
  | [(name, document)] => .string name :: .colon :: tokens document
  | (name, document) :: members =>
    .string name :: .colon :: (tokens document ++ .comma :: membersTokens members)

end

theorem itemsTokens_cons (item : Document) {items : List Document} (h : items ≠ []) :
    itemsTokens (item :: items) = item.tokens ++ .comma :: itemsTokens items := by
  cases items with
  | nil => exact absurd rfl h
  | cons => rw [itemsTokens]; simp

theorem membersTokens_cons (name : List Piece) (document : Document)
    {members : List (List Piece × Document)} (h : members ≠ []) :
    membersTokens ((name, document) :: members) =
      .string name :: .colon :: (document.tokens ++ .comma :: membersTokens members) := by
  cases members with
  | nil => exact absurd rfl h
  | cons => rw [membersTokens]; simp

/-- The first token of a document does not close an array, so where an item or the end of the array
may come, the tokens of a document are an item. -/
theorem foldlM_firstItem (d : Document) (rest : List Token) (frames : List Frame) :
    (d.tokens ++ rest).foldlM State.step (.firstItem frames) =
      (d.tokens ++ rest).foldlM State.step (.value (.array [] :: frames)) := by
  cases d <;> simp only [tokens, List.cons_append] <;> rfl

-- The induction follows the document. Items and members are never none, since the end of an empty
-- container is read in a state of its own.
mutual

/-- The tokens of a document complete the value that is expected. -/
theorem foldlM_tokens (d : Document) (frames : List Frame) :
    d.tokens.foldlM State.step (.value frames) = some (State.complete d frames) := by
  match d with
  | .null | .bool b | .number n | .string pieces => rw [tokens]; rfl
  | .array [] => rw [tokens, itemsTokens]; rfl
  | .array (item :: items) =>
    rw [tokens, List.foldlM_cons]
    show (itemsTokens (item :: items) ++ [Token.closeArray]).foldlM State.step
      (.firstItem frames) = _
    have hfirst : ∃ rest,
        itemsTokens (item :: items) ++ [Token.closeArray] = item.tokens ++ rest := by
      cases items <;> simp [itemsTokens]
    obtain ⟨rest, hrest⟩ := hfirst
    rw [hrest, foldlM_firstItem, ← hrest]
    exact foldlM_itemsTokens (item :: items) (by simp) [] frames
  | .object [] => rw [tokens, membersTokens]; rfl
  | .object ((name, document) :: members) =>
    rw [tokens, List.foldlM_cons]
    show (membersTokens ((name, document) :: members) ++ [Token.closeObject]).foldlM State.step
      (.firstName frames) = _
    -- The first name is read as any other, once it is clear that there is one.
    have hfirst : ∃ rest, membersTokens ((name, document) :: members) ++ [Token.closeObject] =
        Token.string name :: rest := by
      cases members <;> simp [membersTokens]
    obtain ⟨rest, hrest⟩ := hfirst
    have hmembers := foldlM_membersTokens ((name, document) :: members) (by simp) [] frames
    rw [hrest] at hmembers ⊢
    exact hmembers

/-- The tokens of items and the end of the array complete the array. -/
theorem foldlM_itemsTokens (items : List Document) (hne : items ≠ []) (before : List Document)
    (frames : List Frame) :
    (itemsTokens items ++ [Token.closeArray]).foldlM State.step (.value (.array before :: frames)) =
      some (State.complete (.array (before.reverse ++ items)) frames) := by
  match items with
  | [item] =>
    rw [itemsTokens, List.foldlM_append, foldlM_tokens item]
    show some (State.complete (.array (item :: before).reverse) frames) = _
    rw [List.reverse_cons]
  | item :: next :: items =>
    have hsplit : itemsTokens (item :: next :: items) ++ [Token.closeArray] =
        item.tokens ++ Token.comma :: (itemsTokens (next :: items) ++ [Token.closeArray]) := by
      simp [itemsTokens]
    rw [hsplit, List.foldlM_append, foldlM_tokens item]
    show (itemsTokens (next :: items) ++ [Token.closeArray]).foldlM State.step
      (.value (.array (item :: before) :: frames)) = _
    rw [foldlM_itemsTokens (next :: items) (by simp) (item :: before) frames, List.reverse_cons,
      List.append_assoc]
    rfl

/-- The tokens of members and the end of the object complete the object. -/
theorem foldlM_membersTokens (members : List (List Piece × Document)) (hne : members ≠ [])
    (before : List (List Piece × Document)) (frames : List Frame) :
    (membersTokens members ++ [Token.closeObject]).foldlM State.step (.nextName before frames) =
      some (State.complete (.object (before.reverse ++ members)) frames) := by
  match members with
  | [(name, document)] =>
    rw [membersTokens]
    show (tokens document ++ [Token.closeObject]).foldlM State.step
      (.value (.object before name :: frames)) = _
    rw [List.foldlM_append, foldlM_tokens document]
    show some (State.complete (.object ((name, document) :: before).reverse) frames) = _
    rw [List.reverse_cons]
  | (name, document) :: next :: members =>
    have hsplit : membersTokens ((name, document) :: next :: members) ++ [Token.closeObject] =
        Token.string name :: Token.colon ::
          (document.tokens ++ Token.comma :: (membersTokens (next :: members) ++
            [Token.closeObject])) := by
      simp [membersTokens]
    rw [hsplit]
    show (tokens document ++ _).foldlM State.step (.value (.object before name :: frames)) = _
    rw [List.foldlM_append, foldlM_tokens document]
    show (membersTokens (next :: members) ++ [Token.closeObject]).foldlM State.step
      (.nextName ((name, document) :: before) frames) = _
    rw [foldlM_membersTokens (next :: members) (by simp) ((name, document) :: before) frames,
      List.reverse_cons, List.append_assoc]
    rfl

end

/-- A document is what its tokens make up. -/
theorem ofTokens?_tokens (d : Document) : ofTokens? d.tokens = some d := by
  rw [ofTokens?, foldlM_tokens]
  rfl

/-! ## The tokens behind a state -/

theorem itemsTokens_concat {items : List Document} (h : items ≠ []) (item : Document) :
    itemsTokens (items ++ [item]) = itemsTokens items ++ .comma :: item.tokens := by
  induction items with
  | nil => exact absurd rfl h
  | cons first items ih =>
    cases items with
    | nil => simp [itemsTokens]
    | cons next items =>
      rw [List.cons_append, itemsTokens_cons first (by simp), ih (by simp),
        itemsTokens_cons first (by simp)]
      simp

theorem membersTokens_concat {members : List (List Piece × Document)} (h : members ≠ [])
    (name : List Piece) (document : Document) :
    membersTokens (members ++ [(name, document)]) =
      membersTokens members ++ .comma :: .string name :: .colon :: document.tokens := by
  induction members with
  | nil => exact absurd rfl h
  | cons first members ih =>
    obtain ⟨firstName, firstDocument⟩ := first
    cases members with
    | nil => simp [membersTokens]
    | cons next members =>
      rw [List.cons_append, membersTokens_cons firstName firstDocument (by simp), ih (by simp),
        membersTokens_cons firstName firstDocument (by simp)]
      simp

/-- The tokens of the items in front of another one, the latest of which comes first. -/
def itemsBefore (items : List Document) : List Token :=
  match items with
  | [] => []
  | _ :: _ => itemsTokens items.reverse ++ [.comma]

/-- The tokens of the members in front of another one, the latest of which comes first. -/
def membersBefore (members : List (List Piece × Document)) : List Token :=
  match members with
  | [] => []
  | _ :: _ => membersTokens members.reverse ++ [.comma]

theorem itemsTokens_reverse_concat (items : List Document) (item : Document) :
    itemsTokens (items.reverse ++ [item]) = itemsBefore items ++ item.tokens := by
  cases items with
  | nil => simp [itemsTokens, itemsBefore]
  | cons last items => rw [itemsTokens_concat (by simp), itemsBefore, List.append_cons]

theorem membersTokens_reverse_concat (members : List (List Piece × Document)) (name : List Piece)
    (document : Document) :
    membersTokens (members.reverse ++ [(name, document)]) =
      membersBefore members ++ .string name :: .colon :: document.tokens := by
  cases members with
  | nil => simp [membersTokens, membersBefore]
  | cons last members => rw [membersTokens_concat (by simp), membersBefore, List.append_cons]

/-- The tokens in front of a value within open containers. -/
def opened : List Frame → List Token
  | [] => []
  | .array items :: frames => opened frames ++ .openArray :: itemsBefore items
  | .object members name :: frames =>
    opened frames ++ .openObject :: (membersBefore members ++ [.string name, .colon])

namespace State

/-- The tokens that lead to a state. -/
def taken : State → List Token
  | .value frames => opened frames
  | .firstItem frames => opened frames ++ [.openArray]
  | .firstName frames => opened frames ++ [.openObject]
  | .nextName members frames => opened frames ++ .openObject :: membersBefore members
  | .colon members name frames =>
    opened frames ++ .openObject :: (membersBefore members ++ [.string name])
  | .afterItem items frames => opened frames ++ .openArray :: itemsTokens items.reverse
  | .afterMember members frames => opened frames ++ .openObject :: membersTokens members.reverse
  | .done document => document.tokens

/-- There is an item or a member behind which the state is. -/
def Proper : State → Prop
  | .afterItem items _ => items ≠ []
  | .afterMember members _ => members ≠ []
  | _ => True

/-- The state has come about by one more token than these. -/
def Follows (before : List Token) (token : Token) (next : State) : Prop :=
  next.Proper ∧ next.taken = before ++ [token]

theorem proper_complete (d : Document) (frames : List Frame) : (complete d frames).Proper := by
  cases frames with
  | nil => trivial
  | cons frame frames => cases frame <;> simp [complete, Proper]

/-- A complete value adds its tokens. -/
theorem taken_complete (d : Document) (frames : List Frame) :
    (complete d frames).taken = opened frames ++ d.tokens := by
  cases frames with
  | nil => rfl
  | cons frame frames =>
    cases frame with
    | array items => simp [complete, taken, itemsTokens_reverse_concat, opened]
    | object members name => simp [complete, taken, membersTokens_reverse_concat, opened]

theorem follows_complete {d : Document} {frames : List Frame} {before : List Token} {token : Token}
    (h : opened frames ++ d.tokens = before ++ [token]) :
    Follows before token (complete d frames) :=
  ⟨proper_complete d frames, (taken_complete d frames).trans h⟩

theorem follows_startValue {frames : List Frame} {token : Token} {next : State}
    (h : startValue frames token = some next) : Follows (opened frames) token next := by
  cases token with
  | null | bool b | number n | string pieces =>
    cases h
    exact follows_complete rfl
  | openArray | openObject =>
    cases h
    exact ⟨trivial, rfl⟩
  | closeArray | closeObject | colon | comma => cases h

/-- Each step adds its token. -/
theorem follows_step {s next : State} {token : Token} (hproper : s.Proper)
    (h : s.step token = some next) : Follows s.taken token next := by
  cases s with
  | value frames => exact follows_startValue h
  | firstItem frames =>
    cases token with
    | closeArray =>
      cases h
      exact follows_complete (by simp [taken, tokens, itemsTokens])
    | _ => exact @follows_startValue (.array [] :: frames) _ _ h
  | firstName frames =>
    cases token with
    | closeObject =>
      cases h
      exact follows_complete (by simp [taken, tokens, membersTokens])
    | string name =>
      cases h
      exact ⟨trivial, by simp [taken, membersBefore]⟩
    | _ => cases h
  | nextName members frames =>
    cases token with
    | string name =>
      cases h
      exact ⟨trivial, by simp [taken]⟩
    | _ => cases h
  | colon members name frames =>
    cases token with
    | colon =>
      cases h
      exact ⟨trivial, by simp [taken, opened]⟩
    | _ => cases h
  | afterItem items frames =>
    obtain ⟨item, items, rfl⟩ := List.exists_cons_of_ne_nil hproper
    cases token with
    | comma =>
      cases h
      exact ⟨trivial, by simp [taken, opened, itemsBefore]⟩
    | closeArray =>
      cases h
      exact follows_complete (by simp [taken, tokens])
    | _ => cases h
  | afterMember members frames =>
    obtain ⟨member, members, rfl⟩ := List.exists_cons_of_ne_nil hproper
    cases token with
    | comma =>
      cases h
      exact ⟨trivial, by simp [taken, membersBefore]⟩
    | closeObject =>
      cases h
      exact follows_complete (by simp [taken, tokens])
    | _ => cases h
  | done document => cases h

theorem taken_foldlM {tokens : List Token} {s next : State} (hproper : s.Proper)
    (h : tokens.foldlM step s = some next) : next.taken = s.taken ++ tokens := by
  induction tokens generalizing s with
  | nil =>
    cases h
    simp
  | cons token tokens ih =>
    rw [List.foldlM_cons] at h
    obtain ⟨mid, hstep, hrest⟩ := Option.bind_eq_some_iff.1 h
    obtain ⟨hmid, htaken⟩ := follows_step hproper hstep
    rw [ih hmid hrest, htaken, List.append_assoc]
    rfl

end State

/-- Tokens make up a document exactly if they are its tokens. -/
theorem ofTokens?_eq_some_iff {tokens : List Token} {d : Document} :
    ofTokens? tokens = some d ↔ tokens = d.tokens := by
  constructor
  · intro h
    obtain ⟨state, hrun, hdone⟩ := Option.bind_eq_some_iff.1 h
    have htaken := @State.taken_foldlM tokens (.value []) state trivial hrun
    cases state with
    | done document =>
      cases hdone
      exact htaken.symm
    | _ => cases hdone
  · rintro rfl
    exact ofTokens?_tokens d

end Document

end Json

end LooseRecords

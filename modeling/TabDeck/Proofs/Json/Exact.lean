import TabDeck.Proofs.Json.ReadsBack

namespace TabDeck.Json

open TabDeck.Number (Numeral)

/-- A value without doubles: whole numbers of 64 bits, and objects with their keys in ascending order. -/
inductive Exact : Json → Prop where
  | null : Exact .null
  | bool (b : Bool) : Exact (.bool b)
  | int (n : Int) (h : fits n = true) : Exact (.int n)
  | str (s : String) : Exact (.str s)
  | arr (items : List Json) (h : ∀ j ∈ items, j.Exact) : Exact (.arr items)
  | obj (members : List (String × Json)) (hkeys : Dictionary.Ascending members)
      (h : ∀ m ∈ members, m.2.Exact) : Exact (.obj members)

theorem itemDocuments_eq (items : List Json) : itemDocuments items = items.map toDocument := by
  induction items with
  | nil => rfl
  | cons j items ih => rw [itemDocuments, ih, List.map_cons]

theorem memberDocuments_eq (members : List (String × Json)) :
    memberDocuments members = members.map fun m => (glyphs m.1, m.2.toDocument) := by
  induction members with
  | nil => rfl
  | cons m members ih =>
    obtain ⟨key, j⟩ := m
    rw [memberDocuments, ih, List.map_cons]

theorem legible_toDocument {j : Json} (h : j.Exact) : j.toDocument.Legible := by
  induction h with
  | null => exact .null
  | bool b => exact .boolean b
  | int n => exact legible_int n
  | str s => exact legible_str s
  | arr items _ ih =>
    rw [toDocument, itemDocuments_eq]
    refine .array _ fun d hd => ?_
    obtain ⟨j, hj, rfl⟩ := List.mem_map.mp hd
    exact ih j hj
  | obj members _ _ ih =>
    rw [toDocument, memberDocuments_eq]
    refine .object _ (fun m hm => ?_) fun m hm => ?_
    · obtain ⟨e, -, rfl⟩ := List.mem_map.mp hm
      exact fun _ => legible_glyphs
    · obtain ⟨e, he, rfl⟩ := List.mem_map.mp hm
      exact ih e he

theorem ofItems?_eq (room : Nat) (items : List Document) : ofItems? room items = items.mapM (ofDocument? room) := by
  induction items with
  | nil => rfl
  | cons d items ih =>
    rw [ofItems?, ih, List.mapM_cons]
    rfl

theorem ofMembers?_eq (room : Nat) (done : List (String × Json)) (members : List (List Glyph × Document)) :
    ofMembers? room done members =
      (members.mapM (member? string? (ofDocument? room))).map
        (List.foldl (fun d e => Dictionary.insert e.1 e.2 d) done) := by
  induction members generalizing done with
  | nil => rfl
  | cons m members ih =>
    obtain ⟨key, d⟩ := m
    rw [ofMembers?, List.mapM_cons, member?]
    simp only [ih, Option.bind_eq_bind]
    cases string? key with
    | none => rfl
    | some k =>
      cases ofDocument? room d with
      | none => rfl
      | some j =>
        cases members.mapM (member? string? (ofDocument? room)) <;> rfl

theorem ofDocument?_array (ds : List Document) (room : Nat) :
    ofDocument? room (.array ds) = (items? ofDocument? room (.array ds)).map .arr := by
  cases room with
  | zero => rfl
  | succ room => rw [ofDocument?, ofItems?_eq, items?]

theorem ofDocument?_object (ms : List (List Glyph × Document)) (room : Nat) :
    ofDocument? room (.object ms) = (members? string? ofDocument? room (.object ms)).map .obj := by
  cases room with
  | zero => rfl
  | succ room =>
    rw [ofDocument?, ofMembers?_eq, members?]
    cases ms.mapM (member? string? (ofDocument? room)) <;> rfl

theorem readsBack_toDocument {j : Json} (h : j.Exact) : ReadsBack ofDocument? j.toDocument j := by
  induction h with
  | null => exact .scalar rfl fun _ => rfl
  | bool b => exact .scalar rfl fun _ => rfl
  | int n h =>
    refine .scalar rfl fun room => ?_
    rw [toDocument, ofDocument?, Numeral.ofText?_intText]
    exact ofNumeral?_int h
  | str s =>
    refine .scalar rfl fun room => ?_
    rw [toDocument, ofDocument?, string?_glyphs]
    rfl
  | arr items _ ih =>
    rw [toDocument, itemDocuments_eq]
    have hitems : List.Forall₂ (ReadsBack ofDocument?) (items.map toDocument) items := by
      rw [List.forall₂_map_left_iff, List.forall₂_same]
      exact ih
    exact ((ReadsBack.items hitems).map Json.arr).congr (ofDocument?_array _)
  | obj members hkeys _ ih =>
    rw [toDocument, memberDocuments_eq]
    have hmembers : List.Forall₂ (fun m e => string? m.1 = some e.1 ∧ ReadsBack ofDocument? m.2 e.2)
        (members.map fun m => (glyphs m.1, m.2.toDocument)) members := by
      rw [List.forall₂_map_left_iff, List.forall₂_same]
      exact fun e he => ⟨string?_glyphs e.1, ih e he⟩
    have hread := ReadsBack.members hmembers
    rw [Dictionary.ofList_ascending hkeys] at hread
    exact (hread.map Json.obj).congr (ofDocument?_object _)

end TabDeck.Json

import TabDeck.Proofs.Json.Keys
import TabDeck.Proofs.Json.Tokens
import TabDeck.Style.Theme

namespace TabDeck.Style

open TabDeck.Json (Document Glyph ReadsBack intText)

namespace Value

variable {v : Value} (h : v.kind ≠ "dimension")
include h

theorem nesting_toDocument : v.toDocument.nesting = 1 := by
  have hcontent : v.content.nesting = 0 := by
    cases v with
    | dimension value unit => exact absurd rfl h
    | _ => rfl
  rw [toDocument, Document.nesting, Json.memberNesting, Json.memberNesting, hcontent]
  rfl

theorem legible_content : v.content.Legible := by
  cases v with
  | color c => exact Json.legible_int c.argb.toNat
  | dimension value unit => exact absurd rfl h
  | integer n => exact Json.legible_int n.toInt
  | boolean b => exact .boolean b
  | text s => exact Json.legible_str s
  | reference id => exact Json.legible_int id.toNat

theorem legible_toDocument : v.toDocument.Legible := by
  change (Document.record [(v.kind, v.content)]).Legible
  refine Json.legible_record fun f hf => ?_
  obtain rfl := List.mem_singleton.mp hf
  exact legible_content h

theorem readsBack_toDocument : ReadsBack ofDocument? v.toDocument v := by
  have hsingle (room : Nat) : Json.single? (room + 1) v.toDocument = some (v.kind, v.content) := by
    rw [toDocument, Json.single?, Json.string?_glyphs, Option.map_some]
  constructor
  · intro room hr
    rw [nesting_toDocument h] at hr
    obtain ⟨n, rfl⟩ : ∃ n, room = n + 1 := Nat.exists_eq_add_of_le' hr
    rw [ofDocument?, hsingle]
    cases v with
    | color c => exact congrArg (Option.map _) (Json.unsigned32?_intText c.argb)
    | dimension value unit => exact absurd rfl h
    | integer n => exact congrArg (Option.map _) (Json.signed32?_intText n)
    | boolean b => rfl
    | text s => exact congrArg (fun j => (Option.bind j Json.asString?).map text) (Json.scalar?_glyphs s)
    | reference id => exact congrArg (Option.map _) (Json.unsigned32?_intText id)
  · intro room hr
    rw [nesting_toDocument h] at hr
    obtain rfl := Nat.lt_one_iff.mp hr
    rfl

end Value

namespace Theme

def valuesDocument (pairs : List (UInt32 × Value)) : Document :=
  .object (pairs.map fun p => ((intText p.1.toNat).map Glyph.plain, p.2.toDocument))

def fields (name : String) (pairs : List (UInt32 × Value)) : List (String × Document) := [
  ("name", .string (Json.glyphs name)),
  ("values", valuesDocument pairs)]

variable {pairs : List (UInt32 × Value)}

theorem compare_toNat (a b : UInt32) : compare (a.toNat : Int) b.toNat = compare a b := by
  simp only [compare, compareOfLessAndEq, UInt32.lt_iff_toNat_lt, Int.ofNat_lt, Int.natCast_inj, UInt32.toNat_inj]

section Values

variable (h : ∀ p ∈ pairs, p.2.kind ≠ "dimension")
include h

theorem legible_values : (valuesDocument pairs).Legible := by
  refine .object _ (fun m hm => ?_) fun m hm => ?_
  · obtain ⟨p, -, rfl⟩ := List.mem_map.mp hm
    exact fun _ => Json.legible_key
  · obtain ⟨p, hp, rfl⟩ := List.mem_map.mp hm
    exact Value.legible_toDocument (h p hp)

theorem nesting_values : (valuesDocument pairs).nesting ≤ 2 := by
  refine Nat.succ_le_succ (Json.memberNesting_le_iff.mpr fun m hm => ?_)
  obtain ⟨p, hp, rfl⟩ := List.mem_map.mp hm
  exact (Value.nesting_toDocument (h p hp)).le

theorem readsBack_values :
    ReadsBack (Json.integerMap? (Json.integer? 0 (Int.pow 2 32 - 1)) Value.ofDocument?) (valuesDocument pairs)
      ((Dictionary.ofList pairs).map (Prod.map (fun attr => (attr.toNat : Int)) id)) := by
  rw [← Dictionary.ofList_map compare_toNat, Json.integerMap?_eq]
  refine .members ?_
  rw [List.forall₂_map_left_iff, List.forall₂_map_right_iff, List.forall₂_same]
  intro p hp
  have hkey := Json.integerKey?_intText (Json.unsigned32_holds p.1)
  exact ⟨hkey, Value.readsBack_toDocument (h p hp)⟩

end Values

theorem foldl_set (entries : List (UInt32 × Value)) (t : Theme) :
    (entries.map (Prod.map (fun attr => (attr.toNat : Int)) id)).foldl (fun t e => t.set e.1.toNat.toUInt32 e.2) t =
      { t with own.values := entries.foldl (fun d e => Dictionary.insert e.1 e.2 d) t.own.values } := by
  induction entries generalizing t with
  | nil => rfl
  | cons e entries ih =>
    have hattr : (e.1.toNat : Int).toNat.toUInt32 = e.1 := UInt32.ofNat_toNat
    rw [List.map_cons, List.foldl_cons, List.foldl_cons, ih]
    simp only [Prod.map, hattr, id, set]

section Fields

variable {name : String} {members : List (String × Document)} (h : ∀ p ∈ pairs, p.2.kind ≠ "dimension")
  (hm : members.Perm (fields name pairs))
include h hm

theorem legible_fields : (Document.record members).Legible := by
  refine Json.legible_record fun m hmem => ?_
  have hfield := hm.mem_iff.mp hmem
  simp only [fields, List.mem_cons, List.not_mem_nil, or_false] at hfield
  rcases hfield with rfl | rfl
  · exact Json.legible_str name
  · exact legible_values h

theorem ofDocument?_fields :
    ofDocument? Json.nestingLimit (.record members) = some ⟨⟨name, Dictionary.ofList pairs⟩, []⟩ := by
  have hrecord : Json.record? ["name", "values"] 1 Json.nestingLimit (.record members) =
      some [some (.string (Json.glyphs name)), some (valuesDocument pairs)] := by
    rw [Json.record?_perm hm]
    simp [Json.nestingLimit, Json.record?, Document.record, fields, Json.string?_glyphs, Json.atMostOne?]
  have hvalues := (readsBack_values h).roomy (Json.nestingLimit - 1) ((nesting_values h).trans (by decide))
  have hset := foldl_set (Dictionary.ofList pairs) (named name)
  have hown : (named name).own.values ++ Dictionary.ofList pairs = Dictionary.ofList pairs := List.nil_append _
  rw [Dictionary.foldl_insert (hown ▸ Dictionary.ascending_ofList pairs), hown] at hset
  rw [ofDocument?, hrecord]
  simp only [Option.bind_eq_bind, Option.bind_some, Json.scalar?_glyphs, Json.asString?, hvalues, hset]
  rfl

end Fields

theorem load_document (name : String) (pairs : List (UInt32 × Value)) (h : ∀ p ∈ pairs, p.2.kind ≠ "dimension")
    (members : List (String × Document)) (hm : members.Perm (fields name pairs)) :
    Document.read? (.ofString (Document.record members).text) = some (.record members) ∧
      ∀ text, Document.read? (.ofString text) = some (.record members) → ∃ t notes, load text = .ok (t, notes) ∧
        t.name = name ∧ ∀ attr, t.resolve attr = pairs.reverse.lookup attr := by
  refine ⟨Json.read?_text (legible_fields h hm), fun text htext => ?_⟩
  have hload : Document.read? (.ofString text) >>= ofDocument? Json.nestingLimit =
      some ⟨⟨name, Dictionary.ofList pairs⟩, []⟩ := by
    rw [htext]
    exact ofDocument?_fields h hm
  rw [load, hload]
  refine ⟨_, _, rfl, rfl, fun attr => ?_⟩
  rw [← Dictionary.lookup_ofList, resolve]
  cases hlookup : (Dictionary.ofList pairs).lookup attr <;> simp [hlookup]

theorem load_document_repeated :
    let pairs := [(7, .text "é\n"), (0xFFFFFFFF, .integer (-5)), (7, .color .black), (0, .boolean true)]
    (∀ p ∈ pairs, p.2.kind ≠ "dimension") ∧ ∃ t notes,
      load (Document.record (fields "the \"dark\" one" pairs).reverse).text = .ok (t, notes) ∧
        t.name = "the \"dark\" one" ∧ t.resolve 7 = some (.color .black) ∧
        t.resolve 0xFFFFFFFF = some (.integer (-5)) ∧ t.resolve 1 = none := by
  intro pairs
  have hkinds : ∀ p ∈ pairs, p.2.kind ≠ "dimension" := by
    simp [pairs, Value.kind]
  obtain ⟨hread, hload⟩ := load_document "the \"dark\" one" pairs hkinds _ (List.reverse_perm _)
  obtain ⟨t, notes, ht, hname, hresolve⟩ := hload _ hread
  exact ⟨hkinds, t, notes, ht, hname, hresolve 7, hresolve 0xFFFFFFFF, hresolve 1⟩

end Theme

end TabDeck.Style

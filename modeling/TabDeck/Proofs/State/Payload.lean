import TabDeck.Proofs.Json.Exact
import TabDeck.Proofs.Json.Keys
import TabDeck.State.Payload

namespace TabDeck.State.Payload

open TabDeck.Json (Document Glyph ReadsBack intText)

/-- Data without doubles in which nothing that is present is written as null, which stands for nothing. -/
inductive Exact : {α : Type} → Payload α → α → Prop where
  | json (j : Json) (h : j.Exact) : Exact .json j
  | integer (read : Document → Option Int) (n : Int) (h : Json.Holds read n) : Exact (.integer read) n
  | boolean (b : Bool) : Exact .boolean b
  | string (s : String) : Exact .string s
  | bundle (b : Bundle) (h : b.toJson.Exact) : Exact .bundle b
  | nothing {α : Type} (p : Payload α) : Exact p.optional none
  | present {α : Type} (p : Payload α) (a : α) (h : Exact p a) (hnull : p.write a ≠ some .null) :
      Exact p.optional (some a)
  | list {α : Type} (p : Payload α) (items : List α) (h : ∀ a ∈ items, Exact p a) : Exact p.list items
  | keyedMap {α : Type} (readKey : Document → Option Int) (p : Payload α) (entries : List (Int × α))
      (hascending : Dictionary.Ascending entries) (hkeys : ∀ e ∈ entries, Json.Holds readKey e.1)
      (h : ∀ e ∈ entries, Exact p e.2) : Exact (p.keyedMap readKey) entries

structure Written {α : Type} (p : Payload α) (a : α) (d : Document) : Prop where
  written : p.write a = some d
  legible : d.Legible
  readsBack : ReadsBack p.read d a

theorem optional?_of_ne_null {α : Type} {read : Nat → Document → Option α} {d : Document} (h : d ≠ .null) (room : Nat) :
    Json.optional? read room d = (read room d).map some := by
  cases d with
  | null => exact absurd rfl h
  | _ => rfl

namespace Written

variable {α : Type} {p : Payload α}

theorem integer {read : Document → Option Int} {n : Int} (h : Json.Holds read n) :
    (Payload.integer read).Written n (.number (intText n)) :=
  ⟨rfl, Json.legible_int n, .scalar rfl fun _ => h.reads⟩

theorem nothing (p : Payload α) : p.optional.Written none .null := ⟨rfl, .null, .scalar rfl fun _ => rfl⟩

theorem string (s : String) : Payload.string.Written s (.string (Json.glyphs s)) :=
  ⟨rfl, Json.legible_str s, .scalar rfl fun _ => congrArg (Option.bind · Json.asString?) (Json.scalar?_glyphs s)⟩

theorem bundle {b : Bundle} (h : b.toJson.Exact) : Payload.bundle.Written b b.toJson.toDocument := by
  have hread := Json.readsBack_toDocument h
  refine ⟨rfl, Json.legible_toDocument h, fun room hr => ?_, fun room hr => ?_⟩
  · exact congrArg (Option.bind · Bundle.ofJson?) (hread.roomy room hr)
  · exact congrArg (Option.bind · Bundle.ofJson?) (hread.narrow room hr)

theorem present {a : α} {d : Document} (h : p.Written a d) (hd : d ≠ .null) : p.optional.Written (some a) d :=
  ⟨h.written, h.legible, (h.readsBack.map some).congr (optional?_of_ne_null hd)⟩

theorem list {items : List α} {ds : List Document} (h : List.Forall₂ p.Written items ds) :
    p.list.Written items (.array ds) where
  written := congrArg (Option.map Document.array) (Json.mapM_of_forall₂ (h.imp fun _ _ hd => hd.written))
  legible := .array ds fun d hd => by
    obtain ⟨a, ha⟩ := Json.exists_of_forall₂ h.flip hd
    exact ha.legible
  readsBack := .items (h.flip.imp fun _ _ hd => hd.readsBack)

def Member (p : Payload α) (e : Int × α) (m : List Glyph × Document) : Prop :=
  m.1 = (intText e.1).map Glyph.plain ∧ p.Written e.2 m.2

theorem keyedMap {readKey : Document → Option Int} {entries : List (Int × α)} {ms : List (List Glyph × Document)}
    (hascending : Dictionary.Ascending entries) (hkeys : ∀ e ∈ entries, Json.Holds readKey e.1)
    (h : List.Forall₂ (Member p) entries ms) : (p.keyedMap readKey).Written entries (.object ms) := by
  have hsource {m : List Glyph × Document} (hm : m ∈ ms) : ∃ e, Member p e m := Json.exists_of_forall₂ h.flip hm
  refine ⟨Option.bind_eq_some_iff.mpr ⟨ms, ?_, rfl⟩, .object ms (fun m hm g hg => ?_) fun m hm => ?_, ?_⟩
  · rw [Dictionary.ofList_ascending hascending]
    refine Json.mapM_of_forall₂ (h.imp fun ⟨k, a⟩ ⟨key, d⟩ ⟨hkey, hvalue⟩ => ?_)
    exact Option.bind_eq_some_iff.mpr ⟨d, hvalue.written, congrArg (fun k => some (k, d)) hkey.symm⟩
  · obtain ⟨e, hkey, -⟩ := hsource hm
    exact Json.legible_key (hkey ▸ hg)
  · obtain ⟨e, -, hvalue⟩ := hsource hm
    exact hvalue.legible
  · have hentries : List.Forall₂
        (fun m e => Json.integerKey? readKey m.1 = some e.1 ∧ ReadsBack p.read m.2 e.2) ms entries := by
      refine ((List.forall₂_and_left entries ms).mpr ⟨hkeys, h⟩).flip.imp fun m e he => ?_
      obtain ⟨hholds, hkey, hvalue⟩ := he
      exact ⟨hkey ▸ Json.integerKey?_intText hholds, hvalue.readsBack⟩
    have hread := ReadsBack.members hentries
    rw [Dictionary.ofList_ascending hascending] at hread
    rw [Payload.keyedMap, Json.integerMap?_eq]
    exact hread

end Written

theorem exists_written {α : Type} {p : Payload α} {a : α} (h : p.Exact a) : ∃ d, p.Written a d := by
  induction h with
  | json j h => exact ⟨_, rfl, Json.legible_toDocument h, Json.readsBack_toDocument h⟩
  | integer read n h => exact ⟨_, .integer h⟩
  | boolean b => exact ⟨_, rfl, .boolean b, .scalar rfl fun _ => rfl⟩
  | string s => exact ⟨_, .string s⟩
  | bundle b h => exact ⟨_, .bundle h⟩
  | nothing p => exact ⟨_, .nothing p⟩
  | present p a _ hnull ih =>
    obtain ⟨d, hd⟩ := ih
    exact ⟨d, hd.present fun he => hnull (he ▸ hd.written)⟩
  | list p items _ ih =>
    obtain ⟨ds, hds⟩ := Json.exists_forall₂ ih
    exact ⟨.array ds, .list hds⟩
  | keyedMap readKey p entries hascending hkeys _ ih =>
    have hmember (e : Int × _) (he : e ∈ entries) : ∃ m, Written.Member p e m := by
      obtain ⟨d, hd⟩ := ih e he
      exact ⟨⟨_, d⟩, rfl, hd⟩
    obtain ⟨ms, hms⟩ := Json.exists_forall₂ hmember
    exact ⟨.object ms, .keyedMap hascending hkeys hms⟩

end TabDeck.State.Payload

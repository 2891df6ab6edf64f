import Mathlib.Data.List.Forall2
import TabDeck.Json.Fields
import TabDeck.Proofs.Dictionary
import TabDeck.Proofs.Json.Legible
/-!
Readings that give a value back as soon as they have room for the arrays and objects that nest in its document.
-/
namespace TabDeck.Json

variable {α β κ : Type}

theorem mapM_of_forall₂ {f : α → Option β} {xs : List α} {ys : List β}
    (h : List.Forall₂ (fun x y => f x = some y) xs ys) : xs.mapM f = some ys := by
  induction h with
  | nil => rfl
  | cons hx _ ih =>
    rw [List.mapM_cons, hx, ih]
    rfl

theorem mapM_eq_none {f : α → Option β} {xs : List α} {x : α} (hx : x ∈ xs) (h : f x = none) : xs.mapM f = none := by
  induction xs with
  | nil => cases hx
  | cons y ys ih =>
    rw [List.mapM_cons]
    rcases List.mem_cons.mp hx with rfl | hx
    · rw [h]
      rfl
    · rw [ih hx]
      cases f y <;> rfl

theorem exists_of_forall₂ {R : α → β → Prop} {xs : List α} {ys : List β} {x : α} (h : List.Forall₂ R xs ys)
    (hx : x ∈ xs) : ∃ y, R x y := by
  induction h with
  | nil => cases hx
  | @cons a b _ _ hab _ ih =>
    rcases List.mem_cons.mp hx with rfl | hx
    · exact ⟨b, hab⟩
    · exact ih hx

theorem exists_forall₂ {R : α → β → Prop} {xs : List α} (h : ∀ x ∈ xs, ∃ y, R x y) : ∃ ys, List.Forall₂ R xs ys := by
  induction xs with
  | nil => exact ⟨[], .nil⟩
  | cons x xs ih =>
    obtain ⟨y, hy⟩ := h x List.mem_cons_self
    obtain ⟨ys, hys⟩ := ih fun x' hx' => h x' (List.mem_cons_of_mem x hx')
    exact ⟨y :: ys, .cons hy hys⟩

/-- A reading of a document gives a value if it has room for what nests in the document, and else nothing. -/
structure ReadsBack (read : Nat → Document → Option α) (d : Document) (a : α) : Prop where
  roomy (room : Nat) (h : d.nesting ≤ room) : read room d = some a
  narrow (room : Nat) (h : room < d.nesting) : read room d = none

def member? (key : List Glyph → Option κ) (read : Document → Option α) (m : List Glyph × Document) :
    Option (κ × α) := do
  let k ← key m.1
  let a ← read m.2
  some (k, a)

def members? [Ord κ] (key : List Glyph → Option κ) (read : Nat → Document → Option α) :
    Nat → Document → Option (List (κ × α))
  | room + 1, .object members => do
    let entries ← members.mapM (member? key (read room))
    some (Dictionary.ofList entries)
  | _, _ => none

namespace ReadsBack

variable {read : Nat → Document → Option α} {d : Document} {a : α}

theorem scalar (hd : d.nesting = 0) (h : ∀ room, read room d = some a) : ReadsBack read d a :=
  ⟨fun room _ => h room, fun room hr => absurd hr (by omega)⟩

theorem map (h : ReadsBack read d a) (f : α → β) : ReadsBack (fun room d => (read room d).map f) d (f a) :=
  ⟨fun room hr => by rw [h.roomy room hr, Option.map_some], fun room hr => by rw [h.narrow room hr, Option.map_none]⟩

theorem congr {read' : Nat → Document → Option α} (h : ReadsBack read d a) (he : ∀ room, read' room d = read room d) :
    ReadsBack read' d a :=
  ⟨fun room hr => (he room).trans (h.roomy room hr), fun room hr => (he room).trans (h.narrow room hr)⟩

theorem items {ds : List Document} {as : List α} (h : List.Forall₂ (ReadsBack read) ds as) :
    ReadsBack (items? read) (.array ds) as := by
  constructor
  · intro room hr
    obtain ⟨n, rfl⟩ : ∃ n, room = n + 1 := Nat.exists_eq_add_of_le' (Nat.one_le_of_lt hr)
    have hds := itemNesting_le_iff.mp (Nat.le_of_succ_le_succ hr)
    exact mapM_of_forall₂ (((List.forall₂_and_left ds as).mpr ⟨hds, h⟩).imp fun _ _ hd => hd.2.roomy n hd.1)
  · intro room hr
    cases room with
    | zero => rfl
    | succ n =>
      have hdeep := mt itemNesting_le_iff.mpr (Nat.not_le.mpr (Nat.lt_of_succ_lt_succ hr))
      push Not at hdeep
      obtain ⟨d, hd, hn⟩ := hdeep
      obtain ⟨a, ha⟩ := exists_of_forall₂ h hd
      exact mapM_eq_none hd (ha.narrow n hn)

theorem members [Ord κ] {key : List Glyph → Option κ} {ms : List (List Glyph × Document)} {entries : List (κ × α)}
    (h : List.Forall₂ (fun m e => key m.1 = some e.1 ∧ ReadsBack read m.2 e.2) ms entries) :
    ReadsBack (members? key read) (.object ms) (Dictionary.ofList entries) := by
  constructor
  · intro room hr
    obtain ⟨n, rfl⟩ : ∃ n, room = n + 1 := Nat.exists_eq_add_of_le' (Nat.one_le_of_lt hr)
    have hms := memberNesting_le_iff.mp (Nat.le_of_succ_le_succ hr)
    have hentries : ms.mapM (member? key (read n)) = some entries := by
      refine mapM_of_forall₂ (((List.forall₂_and_left ms entries).mpr ⟨hms, h⟩).imp fun m e hm => ?_)
      rw [member?, hm.2.1, hm.2.2.roomy n hm.1]
      rfl
    rw [members?, hentries]
    rfl
  · intro room hr
    cases room with
    | zero => rfl
    | succ n =>
      have hdeep := mt memberNesting_le_iff.mpr (Nat.not_le.mpr (Nat.lt_of_succ_lt_succ hr))
      push Not at hdeep
      obtain ⟨m, hm, hn⟩ := hdeep
      obtain ⟨e, hkey, he⟩ := exists_of_forall₂ h hm
      have hnone : member? key (read n) m = none := by
        rw [member?, hkey, he.narrow n hn]
        rfl
      rw [members?, mapM_eq_none hm hnone]
      rfl

end ReadsBack

end TabDeck.Json

import TabDeck.Proofs.Recycler.Sorted
import TabDeck.Proofs.SortedList.Reference
/-!
Orders that are composed of rules. Ties may be broken by a comparator that is transitive among ties only.
-/
namespace TabDeck

open Std

variable {α : Type}

namespace Rule

def Lawful : Rule α → Prop
  | .all compare => TransCmp compare
  | .only _ compare => TransCmp compare

def concerns : Rule α → α → Bool
  | .all _, _ => true
  | .only project _, a => (project a).isSome

/-- Of two values that all earlier rules find equal, a rule concerns both or none. -/
def Separated (earlier : List (Rule α)) (r : Rule α) : Prop :=
  ∀ a b, (∀ e ∈ earlier, e.compare a b = .eq) → r.concerns a = r.concerns b

theorem compare_swap {r : Rule α} (h : r.Lawful) (a b : α) : r.compare a b = (r.compare b a).swap := by
  cases r with
  | all compare =>
    have : TransCmp compare := h
    have hswap : compare a b = (compare b a).swap := OrientedCmp.eq_swap
    exact hswap
  | only project compare =>
    have : TransCmp compare := h
    simp only [Rule.compare]
    cases project a <;> cases project b
    · rfl
    · rfl
    · rfl
    · exact OrientedCmp.eq_swap

theorem compare_isLE_trans {r : Rule α} (h : r.Lawful) {a b c : α} (hab : r.concerns a = r.concerns b)
    (hbc : r.concerns b = r.concerns c) (hle : (r.compare a b).isLE = true) (hle' : (r.compare b c).isLE = true) :
    (r.compare a c).isLE = true := by
  cases r with
  | all compare =>
    have : TransCmp compare := h
    simp only [Rule.compare] at hle hle' ⊢
    exact TransCmp.isLE_trans hle hle'
  | only project compare =>
    have : TransCmp compare := h
    simp only [concerns, Rule.compare] at *
    cases ha : project a <;> cases hb : project b <;> cases hc : project c <;> simp_all
    exact TransCmp.isLE_trans hle hle'

end Rule

namespace Comparator

def lexicographic : List (Rule α) → Comparator α
  | [] => fun _ _ => .eq
  | r :: later => compareLex r.compare (lexicographic later)

theorem ofRules_cons (r : Rule α) (later : List (Rule α)) :
    ofRules (r :: later) = compareLex r.compare (ofRules later) := by
  funext a b
  rw [compareLex, ofRules, List.map_cons, List.find?_cons]
  cases r.compare a b <;> rfl

theorem ofRules_eq_lexicographic (rules : List (Rule α)) : ofRules rules = lexicographic rules := by
  induction rules with
  | nil => rfl
  | cons r later ih => rw [ofRules_cons, ih, lexicographic]

theorem ofRules_concat (earlier : List (Rule α)) (r : Rule α) :
    ofRules (earlier ++ [r]) = compareLex (ofRules earlier) r.compare := by
  induction earlier with
  | nil =>
    rw [List.nil_append, ofRules_cons]
    funext a b
    exact Ordering.then_eq
  | cons e earlier ih =>
    rw [List.cons_append, ofRules_cons, ih, ofRules_cons]
    funext a b
    exact (Ordering.then_assoc ..).symm

theorem ofRules_eq_iff {rules : List (Rule α)} {a b : α} :
    ofRules rules a b = .eq ↔ ∀ r ∈ rules, r.compare a b = .eq := by
  induction rules with
  | nil => exact iff_of_true rfl nofun
  | cons r later ih => rw [ofRules_cons, compareLex, Ordering.then_eq_eq, ih, List.forall_mem_cons]

theorem transCmp_compareLex {first second : Comparator α} [TransCmp first]
    (hswap : ∀ a b, second a b = (second b a).swap)
    (htrans : ∀ a b c, first a b = .eq → first b c = .eq → (second a b).isLE = true → (second b c).isLE = true →
      (second a c).isLE = true) : TransCmp (compareLex first second) where
  eq_swap {a b} := by
    have hfirst : first a b = (first b a).swap := OrientedCmp.eq_swap
    rw [compareLex, compareLex, Ordering.swap_then, ← hfirst, ← hswap]
  isLE_trans {a b c} hab hbc := by
    rw [compareLex, Ordering.isLE_then_iff_or] at hab hbc ⊢
    rcases hab with hab | ⟨hab, hle⟩
    · have hbc : (first b c).isLE = true := by rcases hbc with hbc | ⟨hbc, -⟩ <;> simp [hbc]
      exact .inl (TransCmp.lt_of_lt_of_isLE hab hbc)
    · rcases hbc with hbc | ⟨hbc, hle'⟩
      · exact .inl (TransCmp.lt_of_eq_of_lt hab hbc)
      · exact .inr ⟨TransCmp.eq_trans hab hbc, htrans a b c hab hbc hle hle'⟩

theorem transCmp_ofRules {rules : List (Rule α)} (hlawful : ∀ r ∈ rules, r.Lawful)
    (hseparated : ∀ earlier r later, rules = earlier ++ r :: later → r.Separated earlier) :
    TransCmp (ofRules rules) := by
  induction rules using List.reverseRecOn with
  | nil => exact { eq_swap := rfl, isLE_trans := fun _ _ => rfl }
  | append_singleton earlier r ih =>
    have : TransCmp (ofRules earlier) := by
      apply ih fun e he => hlawful e (List.mem_append_left _ he)
      rintro before e after rfl
      exact hseparated before e (after ++ [r]) (List.append_assoc ..)
    have hr := hlawful r List.mem_concat_self
    have hties (a b : α) (h : ofRules earlier a b = .eq) : r.concerns a = r.concerns b :=
      hseparated earlier r [] rfl a b (ofRules_eq_iff.mp h)
    rw [ofRules_concat]
    exact transCmp_compareLex (Rule.compare_swap hr) fun a b c hab hbc =>
      Rule.compare_isLE_trans hr (hties a b hab) (hties b c hbc)

structure KeepsSorted (order : Comparator α) : Prop where
  commits [Model α] (es : List (SortedList.Editor α)) : order.Sorted ((SortedList.create order).commitAll es).entries
  inflations {A X C V : Type} (views : Recycler.Attached A X C α V) (hcmp : views.comparator = some order)
    (h : order.Sorted views.order) (item : α) : order.Sorted (views.order.insertIdx (views.insertionIndex item) item)

theorem keepsSorted (order : Comparator α) [TransCmp order] : KeepsSorted order where
  commits es := by
    have hstart : SortedList.create order = ⟨order, order.stableSort []⟩ := by
      rw [SortedList.create, stableSort, List.mergeSort_nil]
    rw [hstart, SortedList.commitAll_stableSort]
    exact sorted_stableSort _
  inflations views hcmp h item := by
    rw [Recycler.Attached.insertionIndex_eq hcmp]
    exact h.insertIdx item

theorem ofRules_totalPreorder (rules : List (Rule α)) (hlawful : ∀ r ∈ rules, r.Lawful)
    (hseparated : ∀ earlier r later, rules = earlier ++ r :: later → r.Separated earlier) :
    (∀ a b, ofRules rules b a = (ofRules rules a b).swap) ∧
    (∀ a b c, (ofRules rules a b).isLE = true → (ofRules rules b c).isLE = true → (ofRules rules a c).isLE = true) ∧
    Equivalence (fun a b => ofRules rules a b = .eq) ∧ ofRules rules = lexicographic rules ∧
    KeepsSorted (ofRules rules) := by
  have htotal : TransCmp (ofRules rules) := transCmp_ofRules hlawful hseparated
  refine ⟨fun a b => OrientedCmp.eq_swap, fun a b c => TransCmp.isLE_trans, ⟨?_, ?_, ?_⟩, ?_, keepsSorted _⟩
  · exact fun a => ReflCmp.compare_self
  · exact fun h => OrientedCmp.eq_symm h
  · exact fun h h' => TransCmp.eq_trans h h'
  · exact ofRules_eq_lexicographic rules

theorem ofRules_totalPreorder_parity :
    let rules : List (Rule Nat) :=
      [.all (compareOn (· % 2 == 0)), .only (fun a => if a % 2 == 0 then some (a / 2) else none) compare]
    (∀ r ∈ rules, r.Lawful) ∧ (∀ earlier r later, rules = earlier ++ r :: later → r.Separated earlier) ∧
      Equivalence (fun a b => ofRules rules a b = .eq) ∧ ofRules rules 6 4 = .gt ∧ ofRules rules 3 4 = .lt ∧
      ofRules rules 5 3 = .eq := by
  intro rules
  have hlawful : ∀ r ∈ rules, r.Lawful := by
    intro r hr
    rcases List.mem_pair.mp hr with rfl | rfl
    · exact inferInstanceAs (TransCmp (compareOn fun a : Nat => a % 2 == 0))
    · exact inferInstanceAs (TransCmp (compare : Nat → Nat → Ordering))
  have hseparated : ∀ earlier r later, rules = earlier ++ r :: later → r.Separated earlier := by
    intro earlier r later h a b hties
    rcases earlier with _ | ⟨e, _ | ⟨e', earlier⟩⟩
    · obtain ⟨rfl, -⟩ := List.cons.inj h
      rfl
    · obtain ⟨he, hrest⟩ := List.cons.inj h
      obtain ⟨hr, -⟩ := List.cons.inj hrest
      subst he hr
      have hparity : compare (a % 2 == 0) (b % 2 == 0) = .eq := hties _ List.mem_cons_self
      rw [Std.compare_eq_iff_eq] at hparity
      simp only [Rule.concerns, hparity]
      cases b % 2 == 0 <;> rfl
    · simp [rules] at h
  exact ⟨hlawful, hseparated, (ofRules_totalPreorder rules hlawful hseparated).2.2.1, by decide, by decide, by decide⟩

end Comparator

end TabDeck

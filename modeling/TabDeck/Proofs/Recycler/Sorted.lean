import Mathlib.Data.List.Perm.Subperm
import TabDeck.Proofs.Order.Insertion
import TabDeck.Proofs.Recycler.Mirror
/-!
Containers under one comparator: their views stay in the order of their items exactly if each new item comes before
all items elsewhere.
-/
namespace TabDeck.Recycler

open Std

section Decidable

variable {A X C I V P : Type} [DecidableEq C] [DecidableEq V]

instance (children : Children C V) : (ev : Event A X C I V P) → Decidable (ev.Fits children)
  | .attach container _ index => inferInstanceAs (Decidable (index ≤ (children container).length))
  | .inflate _ _ _ _ => .isTrue trivial
  | .display _ _ _ _ _ => .isTrue trivial
  | .dispose _ _ => .isTrue trivial
  | .save _ _ => .isTrue trivial
  | .restore _ _ _ => .isTrue trivial
  | .detach _ _ => .isTrue trivial
  | .clear _ => .isTrue trivial
  | .note _ => .isTrue trivial
  | .log _ => .isTrue trivial

def Fits.decidable (children : Children C V) : (events : List (Event A X C I V P)) → Decidable (Fits children events)
  | [] => .isTrue trivial
  | ev :: events =>
    have := Fits.decidable (children.receive ev) events
    inferInstanceAs (Decidable (ev.Fits children ∧ Fits (children.receive ev) events))

instance (children : Children C V) (events : List (Event A X C I V P)) : Decidable (Fits children events) :=
  Fits.decidable children events

end Decidable

namespace Attached

variable {W A X C I V P E : Type} [DecidableEq I]

def InOrder (order : Comparator I) (a : Attached A X C I V) (views : List V) : Prop :=
  ∃ items, order.Sorted items ∧ items.map a.recycler.view? = views.map some

/-- The view of an item is made when all items elsewhere, in other containers or in none, come after it. -/
def Entry.Separate (order : Comparator I) (e : Entry W A X C I V P E) : Prop :=
  ∀ item ∈ e.after.order, e.creates item = true → ∀ c ∈ e.resolved,
    ∀ other ∈ e.before.order, order other item ≠ .gt → e.before.parents.lookup other = some c

instance [DecidableEq C] (order : Comparator I) (e : Entry W A X C I V P E) : Decidable (e.Separate order) :=
  inferInstanceAs (Decidable (∀ item ∈ e.after.order, e.creates item = true → ∀ c ∈ e.resolved,
    ∀ other ∈ e.before.order, order other item ≠ .gt → e.before.parents.lookup other = some c))

theorem take_subset_take {α : Type} {l m : List α} (hl : l.Nodup) {n : Nat} (hn : n ≤ l.length)
    (h : l.take n ⊆ m.take n) : m.take n ⊆ l.take n := by
  -- the second part has no room for more than the first one, which has no value twice
  have hlen : (m.take n).length ≤ (l.take n).length := by
    rw [List.length_take_of_le hn]
    exact List.length_take_le n m
  exact (((hl.sublist (List.take_sublist n l)).subperm h).perm_of_length_le hlen).symm.subset

theorem items_unique {a : Attached A X C I V} (hv : (a.recycler.active.map Prod.snd).Nodup) {views : List V}
    {items others : List I} (hi : items.map a.recycler.view? = views.map some)
    (ho : others.map a.recycler.view? = views.map some) : items = others := by
  induction views generalizing items others with
  | nil => rw [List.map_eq_nil_iff.mp hi, List.map_eq_nil_iff.mp ho]
  | cons v views ih =>
    obtain ⟨i, items, rfl, hiv, hi⟩ := List.map_eq_cons_iff.mp hi
    obtain ⟨o, others, rfl, hov, ho⟩ := List.map_eq_cons_iff.mp ho
    rw [view_injective hv hiv hov, ih hi ho]

section Change

variable {order : Comparator I} [TransCmp order] {a after : Attached A X C I V} {events : List (Event A X C I V P)}
  {item : I} {view : V} {c : C}

omit [DecidableEq I] [TransCmp order] in
theorem insertionIndex_eq (hcmp : a.comparator = some order) (item : I) :
    a.insertionIndex item = partitionPoint (fun other => order other item != .gt) a.order := by
  rw [insertionIndex, hcmp]

theorem sorted_change {op : Op A C I P} (hcmp : a.comparator = some order) (h : order.Sorted a.order)
    (hc : a.Change after events op) : order.Sorted after.order := by
  cases hc with
  | made item container params view hop hm =>
    rw [hm.order, insertionIndex_eq hcmp]
    exact h.insertIdx item
  | taken item view ht =>
    rw [ht.order]
    exact h.sublist List.erase_sublist
  | cleared views cleared hr =>
    rw [hr.order]
    exact List.Pairwise.nil
  | kept hk =>
    rw [hk.order]
    exact h

theorem aligned_iff_separate {e : Entry W A X C I V P E} (hcmp : e.before.comparator = some order)
    (hsorted : order.Sorted e.before.order) (h : e.after.Coherent) : e.Aligned ↔ e.Separate order := by
  unfold Entry.Aligned Entry.Separate
  constructor
  · intro ha item _ hcreates c hc other ho hle
    refine ha item c hcreates hc other ?_
    rw [insertionIndex_eq hcmp]
    exact hsorted.mem_take_iff.mpr ⟨ho, hle⟩
  · intro ha item c hcreates hc other ho
    have hitem : item ∈ e.after.order := h.mem_order_iff.mpr (creates_iff_view?.mp hcreates).2
    rw [insertionIndex_eq hcmp] at ho
    obtain ⟨ho, hle⟩ := hsorted.mem_take_iff.mp ho
    exact ha item hitem hcreates c hc other ho hle

variable [DecidableEq C]

omit [TransCmp order] in
theorem Mirrors.inOrder [DecidableEq V] {children : Children C V} (hm : a.Mirrors children)
    (h : order.Sorted a.order) (c : C) : InOrder order a (children c) :=
  ⟨a.inside c a.order, h.sublist List.filter_sublist, (hm c).symm⟩

theorem Made.separate [DecidableEq V] {children : Children C V} (h : a.Coherent) (hcmp : a.comparator = some order)
    (hsorted : order.Sorted a.order) (hm : a.Made after events item (some c) view)
    (hv : (after.recycler.active.map Prod.snd).Nodup) (hmirrors : a.Mirrors children)
    (hfits : Fits children events) (hin : InOrder order after (children.receiveAll events c)) :
    ∀ other ∈ a.order, order other item ≠ .gt → a.parents.lookup other = some c := by
  obtain ⟨items, hitems, hshown⟩ := hin
  have hroom : a.insertionIndex item ≤ (children c).length := by
    rw [← fits_placements, hm.placements] at hfits
    exact hfits.1
  have hinside : a.insertionIndex item ≤ (a.inside c a.order).length := by rwa [← hmirrors.length_eq]
  -- the items that are shown are those of the container with the new one at its index
  rw [items_unique hv hshown (hm.shown_self h hmirrors hroom), insertIdx_eq_take_drop hinside] at hitems
  have htake (other : I) (ho : other ∈ a.order) (hle : order other item ≠ .gt) :
      other ∈ a.order.take (a.insertionIndex item) := by
    rw [insertionIndex_eq hcmp]
    exact hsorted.mem_take_iff.mpr ⟨ho, hle⟩
  have hbefore : (a.inside c a.order).take (a.insertionIndex item) ⊆ a.order.take (a.insertionIndex item) := by
    intro other ho
    have hle : (order other item).isLE = true := (List.pairwise_append.mp hitems).2.2 other ho item List.mem_cons_self
    refine htake other (mem_inside.mp (List.mem_of_mem_take ho)).1 fun hgt => ?_
    rw [hgt] at hle
    cases hle
  intro other ho hle
  have hmem := take_subset_take (h.distinct.filter _) hinside hbefore (htake other ho hle)
  exact (mem_inside.mp (List.mem_of_mem_take hmem)).2

theorem separate_change [DecidableEq V] {children : Children C V} {e : Entry W A X C I V P E}
    (hc : e.before.Change e.after e.turn.events e.op) (h : e.before.Coherent)
    (hcmp : e.before.comparator = some order) (hsorted : order.Sorted e.before.order)
    (hv : (e.after.recycler.active.map Prod.snd).Nodup) (hmirrors : e.before.Mirrors children)
    (hfits : Fits children e.turn.events)
    (hin : ∀ c, InOrder order e.after (children.receiveAll e.turn.events c)) : e.Separate order := by
  intro item _ hcreates c hresolved
  obtain ⟨container, params, view, hop, hm⟩ := (creates_iff hc).mp hcreates
  rw [resolved_inflate hop] at hresolved
  rw [Option.mem_def.mp hresolved] at hm
  exact hm.separate h hcmp hsorted hv hmirrors hfits (hin c)

end Change

section Journals

variable {text : I → String} {w : W} {start : Attached A X C I V} {ms : List (Move W A X C I V P E)}
  {order : Comparator I}

theorem entry_comparator (j : Journal W A X C I V P E) (m : Move W A X C I V P E) :
    (j.entry text m).after.comparator = j.views.comparator ∨
      m.op = .setComparator (j.entry text m).after.comparator := comparator_step m.op

theorem journal_comparator (hcmp : start.comparator = some order)
    (hfixed : ∀ m ∈ ms, ∀ compare, m.op = .setComparator compare → compare = some order) :
    (journal text start w ms).views.comparator = some order := by
  induction ms using List.reverseRecOn with
  | nil => exact hcmp
  | append_singleton ms m ih =>
    have hpast := ih fun m' hm' => hfixed m' (List.mem_append_left _ hm')
    rw [journal_concat]
    rcases entry_comparator (journal text start w ms) m with hs | hs
    · exact hs.trans hpast
    · exact hfixed m List.mem_concat_self _ hs

variable [TransCmp order]

theorem journal_order_sorted (hcmp : start.comparator = some order) (hempty : start.order = [])
    (hfixed : ∀ m ∈ ms, ∀ compare, m.op = .setComparator compare → compare = some order) :
    order.Sorted (journal text start w ms).views.order := by
  induction ms using List.reverseRecOn with
  | nil =>
    change order.Sorted start.order
    rw [hempty]
    exact List.Pairwise.nil
  | append_singleton ms m ih =>
    have hpast : ∀ m ∈ ms, ∀ compare, m.op = .setComparator compare → compare = some order :=
      fun m' hm' => hfixed m' (List.mem_append_left _ hm')
    rw [journal_concat]
    exact sorted_change (journal_comparator hcmp hpast) (ih hpast) (entry_change _ m)

theorem aligned_iff_of_mem (hs : start.Coherent) (hempty : start.order = []) (hcmp : start.comparator = some order)
    (hfixed : ∀ m ∈ ms, ∀ compare, m.op = .setComparator compare → compare = some order)
    {e : Entry W A X C I V P E} (he : e ∈ (journal text start w ms).entries) : e.Aligned ↔ e.Separate order := by
  obtain ⟨past, m, hp, rfl⟩ := entry_of_mem he
  have hpast : ∀ m ∈ past, ∀ compare, m.op = .setComparator compare → compare = some order :=
    fun m' hm' => hfixed m' (hp.subset (List.mem_append_left _ hm'))
  exact aligned_iff_separate (journal_comparator hcmp hpast) (journal_order_sorted hcmp hempty hpast)
    ((journal_coherent hs past).change (entry_change _ m))

variable [DecidableEq C] [DecidableEq V]

theorem separate_of_inOrder (hs : start.Coherent) (hempty : start.recycler.active = [])
    (hcmp : start.comparator = some order)
    (hfixed : ∀ m ∈ ms, ∀ compare, m.op = .setComparator compare → compare = some order)
    (hd : ((journal text start w ms).entries.filterMap Entry.made?).Nodup)
    (hin : ∀ past, past <+: ms → ∀ c,
      InOrder order (journal text start w past).views ((journal text start w past).children c))
    (hfits : Fits Children.empty (journal text start w ms).events) :
    ∀ e ∈ (journal text start w ms).entries, e.Separate order := by
  induction ms using List.reverseRecOn with
  | nil => exact fun _ he => absurd he List.not_mem_nil
  | append_singleton ms m ih =>
    have hpast : ∀ m ∈ ms, ∀ compare, m.op = .setComparator compare → compare = some order :=
      fun m' hm' => hfixed m' (List.mem_append_left _ hm')
    have horder : start.order = [] := hs.order_eq_nil hempty
    have hviews : ((journal text start w (ms ++ [m])).views.recycler.active.map Prod.snd).Nodup :=
      hd.sublist (journal_views hempty (ms ++ [m]))
    have hlast := hin (ms ++ [m]) List.prefix_rfl
    rw [children_concat] at hlast
    rw [journal_concat] at hviews hlast hfits
    rw [events_next, fits_append] at hfits
    rw [entries_concat] at hd ⊢
    have hdpast : ((journal text start w ms).entries.filterMap Entry.made?).Nodup :=
      hd.sublist ((List.sublist_append_left ..).filterMap _)
    have hold := ih hpast hdpast (fun past hp => hin past (hp.trans (List.prefix_append ..))) hfits.1
    have hmirrors := (journal_mirrors hs hempty hdpast fun e he =>
      (aligned_iff_of_mem hs horder hcmp hpast he).mpr (hold e he)).1
    intro e he
    rcases List.mem_append.mp he with he | he
    · exact hold e he
    · obtain rfl := List.mem_singleton.mp he
      exact separate_change (entry_change _ m) (journal_coherent hs ms) (journal_comparator hcmp hpast)
        (journal_order_sorted hcmp horder hpast) hviews hmirrors hfits.2 hlast

theorem journal_sorted_iff (order : Comparator I) [TransCmp order] (context : X) (default : Option C)
    (ms : List (Move W A X C I V P E))
    (hfixed : ∀ m ∈ ms, ∀ compare, m.op = .setComparator compare → compare = some order)
    (hd : ((journal text (create context default (some order)) w ms).entries.filterMap Entry.made?).Nodup) :
    let run := journal text (create context default (some order)) w
    ((∀ past, past <+: ms → ∀ c, InOrder order (run past).views ((run past).children c)) ∧
        Fits Children.empty (run ms).events) ↔
      ∀ e ∈ (run ms).entries, e.Separate order := by
  intro run
  have hs : (create context default (some order) : Attached A X C I V).Coherent := .create context default (some order)
  constructor
  · rintro ⟨hin, hfits⟩
    exact separate_of_inOrder hs rfl rfl hfixed hd hin hfits
  · intro hseparate
    have haligned : ∀ e ∈ (run ms).entries, e.Aligned :=
      fun e he => (aligned_iff_of_mem hs rfl rfl hfixed he).mpr (hseparate e he)
    refine ⟨fun past hp c => ?_, (journal_mirrors hs rfl hd haligned).2⟩
    have hentries : (run past).entries <+: (run ms).entries := entries_past hp
    have hmirrors : (run past).views.Mirrors (run past).children :=
      (journal_mirrors hs rfl (hd.sublist (hentries.sublist.filterMap _))
        fun e he => haligned e (hentries.subset he)).1
    exact hmirrors.inOrder (journal_order_sorted rfl rfl fun m hm => hfixed m (hp.subset hm)) c

theorem journal_sorted_iff_numbered :
    let inflate (item : Nat) (container : Option Bool) : Op Unit Bool Nat Unit :=
      .basic (.inflate item container ())
    let ms := numbered [inflate 5 none, inflate 7 none, inflate 2 (some false), .basic (.remove 5),
      inflate 1 (some false), inflate 0 none]
    let run := journal toString (create () (some true) (some compare)) 0
    (∀ m ∈ ms, ∀ order, m.op = .setComparator order → order = some compare) ∧
      ((run ms).entries.filterMap Entry.made?).Nodup ∧
      (∀ past, past <+: ms → ∀ c, InOrder compare (run past).views ((run past).children c)) ∧
      (run ms).children false = [3, 2] ∧ (run ms).children true = [4, 1] := by
  intro inflate ms run
  have hfixed : ∀ m ∈ ms, ∀ order, m.op = .setComparator order → order = some compare := by
    simp [ms, numbered, inflate]
  have hd : ((run ms).entries.filterMap Entry.made?).Nodup := by decide +kernel
  have hseparate : ∀ e ∈ (run ms).entries, e.Separate compare := by decide +kernel
  have hin := ((journal_sorted_iff compare () (some true) ms hfixed hd).mpr hseparate).1
  exact ⟨hfixed, hd, hin, by decide +kernel, by decide +kernel⟩

theorem not_inOrder_numbered :
    let inflate (item : Nat) (container : Option Bool) : Op Unit Bool Nat Unit :=
      .basic (.inflate item container ())
    let run := journal toString (create () (some true) (some compare)) 0
    let one := run (numbered [inflate 1 none, inflate 5 (some false)])
    let two := run (numbered [inflate 1 none, inflate 5 (some false), inflate 3 (some false)])
    ¬ Fits Children.empty one.events ∧ ¬ InOrder compare two.views (two.children false) := by
  intro inflate run one two
  refine ⟨by decide +kernel, ?_⟩
  rintro ⟨items, hsorted, hshown⟩
  have hviews : (two.views.recycler.active.map Prod.snd).Nodup := by decide +kernel
  have hitems : items = [5, 3] := items_unique hviews hshown (by decide +kernel)
  rw [hitems] at hsorted
  exact absurd (List.pairwise_pair.mp hsorted) (by decide)

end Journals

end Attached

end TabDeck.Recycler

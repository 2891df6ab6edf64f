import TabDeck.Proofs.Recycler.Calls
import TabDeck.Proofs.Recycler.Mirror

namespace TabDeck.Recycler

variable {W A X C I V P E : Type}

def Event.asksFor [DecidableEq I] (item : I) : Event A X C I V P → Bool
  | .inflate _ other _ _ => other == item
  | _ => false

def Event.concerns [DecidableEq V] (view : V) : Event A X C I V P → Bool
  | .attach _ other _ => other == view
  | .detach _ other => other == view
  | .display _ other _ _ _ => other == view
  | .dispose _ other => other == view
  | _ => false

def Event.Shows (item : I) (view : V) (ev : Event A X C I V P) : Prop :=
  ∃ context inflated params, ev = .display context view item inflated params

def about [DecidableEq I] [DecidableEq V] (item : I) (view : V) (events : List (Event A X C I V P)) :
    List (Event A X C I V P) :=
  events.filter fun ev => ev.asksFor item || ev.concerns view

section About

variable {item : I} {view : V} {events : List (Event A X C I V P)}

variable [DecidableEq I] [DecidableEq V]

theorem mem_removal {a : Attached A X C I V} {adapter : Option A} {views : List (I × V)} {ev : Event A X C I V P}
    (h : ev ∈ (disposals adapter views ++ a.detachments views : List (Event A X C I V P))) :
    ∃ other v, (other, v) ∈ views ∧ (∀ item, ev.asksFor item = false) ∧ ∀ view, ev.concerns view = (v == view) := by
  rcases List.mem_append.mp h with h | h
  · obtain ⟨x, other, v, hmem, rfl⟩ := mem_disposals h
    exact ⟨other, v, hmem, fun _ => rfl, fun _ => rfl⟩
  · obtain ⟨c, other, v, hmem, rfl⟩ := Attached.mem_detachments h
    exact ⟨other, v, hmem, fun _ => rfl, fun _ => rfl⟩

theorem about_append (l r : List (Event A X C I V P)) :
    about item view (l ++ r) = about item view l ++ about item view r := List.filter_append ..

theorem about_calls : about item view (calls events) = about item view events := by
  rw [about, calls, List.filter_filter]
  apply List.filter_congr
  intro ev _
  cases ev <;> simp [Event.isCall, Event.asksFor, Event.concerns]

theorem about_eq_self (h : ∀ ev ∈ events, ev.concerns view = true) : about item view events = events := by
  apply List.filter_eq_self.mpr
  intro ev hev
  simp [h ev hev]

theorem mem_calls_of_about {ev : Event A X C I V P} (hev : ev ∈ about item view events) :
    ev ∈ calls events ∧ (ev.asksFor item || ev.concerns view) = true := by
  rw [← about_calls] at hev
  exact List.mem_filter.mp hev

theorem about_disposals (adapter : Option A) (views : List (I × V)) :
    about item view (disposals adapter views : List (Event A X C I V P)) =
      disposals adapter (views.filter fun e => e.2 == view) := by
  cases adapter with
  | none => rfl
  | some x =>
    simp only [disposals, Option.toList_some, List.flatMap_singleton, about, List.filter_map]
    rfl

theorem about_detachments (a : Attached A X C I V) (views : List (I × V)) :
    about item view (a.detachments views : List (Event A X C I V P)) =
      a.detachments (views.filter fun e => e.2 == view) := by
  induction views with
  | nil => rfl
  | cons e views ih =>
    obtain ⟨other, v⟩ := e
    rw [Attached.detachments_cons, about_append, ih]
    by_cases hv : v = view
    · rw [List.filter_cons_of_pos (by simp [hv]), Attached.detachments_cons]
      congr 1
      apply about_eq_self
      simp [Event.concerns, hv]
    · rw [List.filter_cons_of_neg (by simp [hv])]
      have hnone : about item view ((a.parents.lookup other).map
          fun c => (.detach c v : Event A X C I V P)).toList = [] := by
        apply List.filter_eq_nil_iff.mpr
        simp [Event.asksFor, Event.concerns, hv]
      rw [hnone, List.nil_append]

theorem about_clear (cleared : List C) :
    about item view (cleared.map fun c => (.clear c : Event A X C I V P)) = [] := by
  apply List.filter_eq_nil_iff.mpr
  simp [Event.asksFor, Event.concerns]

end About

namespace Attached

variable [DecidableEq I]

section Step

variable [DecidableEq V] {e : Entry W A X C I V P E} {item : I} {view : V}

omit [DecidableEq V] in
theorem mem_views_of_view? {a : Attached A X C I V} (hv : a.recycler.view? item = some view) :
    view ∈ a.recycler.active.map Prod.snd :=
  List.mem_map_of_mem (mem_of_lookup hv)

theorem Course.concerned (h : e.before.Course e.after e.turn.events e.op) {ev : Event A X C I V P}
    (hev : ev ∈ e.turn.events) (hview : ev.concerns view = true) :
    view ∈ e.before.recycler.active.map Prod.snd ∨ e.made? = some view := by
  have hcall : ev ∈ calls e.turn.events := by
    apply List.mem_filter.mpr
    cases ev <;> simp_all [Event.isCall, Event.concerns]
  cases h with
  | made other container params v hop h hcalls =>
    right
    rw [h.made? hop]
    rw [hcalls, List.mem_cons, List.mem_append, List.mem_singleton] at hcall
    rcases hcall with rfl | hcall | rfl
    · simp [Event.concerns] at hview
    · obtain ⟨c, -, rfl⟩ := List.mem_map.mp hcall
      exact congrArg some (beq_iff_eq.mp hview)
    · exact congrArg some (beq_iff_eq.mp hview)
  | failed other container params hop hitem h hcalls =>
    rw [hcalls, List.mem_singleton] at hcall
    rw [hcall] at hview
    simp [Event.concerns] at hview
  | shown other container params v hop hv h hcalls =>
    left
    rw [hcalls] at hcall
    obtain ⟨x, -, rfl⟩ := List.mem_map.mp hcall
    obtain rfl : v = view := beq_iff_eq.mp hview
    exact mem_views_of_view? hv
  | taken other v hop h hcalls =>
    left
    rw [hcalls] at hcall
    obtain ⟨other', v', hmem, -, hconcerns⟩ := mem_removal hcall
    obtain ⟨rfl, rfl⟩ := Prod.mk.inj (List.mem_singleton.mp hmem)
    rw [hconcerns] at hview
    exact beq_iff_eq.mp hview ▸ mem_views_of_view? h.viewed
  | cleared views cleared hop h hcalls =>
    left
    rw [hcalls, ← List.append_assoc] at hcall
    rcases List.mem_append.mp hcall with hcall | hcall
    · obtain ⟨other, v, hmem, -, hconcerns⟩ := mem_removal hcall
      rw [hconcerns] at hview
      exact beq_iff_eq.mp hview ▸ List.mem_map_of_mem (h.drained.mem_iff.mp hmem)
    · obtain ⟨c, -, rfl⟩ := List.mem_map.mp hcall
      simp [Event.concerns] at hview
  | quiet hop h hcalls =>
    have hsnapshot := hcalls ev hcall
    cases ev <;> simp [Event.isSnapshot, Event.concerns] at hsnapshot hview

theorem Course.stays (h : e.before.Course e.after e.turn.events e.op)
    (hd : (e.before.recycler.active.map Prod.snd).Nodup) (hv : e.before.recycler.view? item = some view)
    (hm : e.made? ≠ some view) (hdrop : e.op.drops item = false) :
    (∀ ev ∈ about item view e.turn.events, ev.Shows item view) ∧ e.after.recycler.view? item = some view := by
  refine ⟨fun ev hev => ?_, h.view?_kept hv hdrop⟩
  obtain ⟨hcall, hab⟩ := mem_calls_of_about hev
  have hactive {other : I} (hother : e.before.recycler.view? other = none) : other ≠ item := by
    rintro rfl
    rw [hv] at hother
    cases hother
  cases h with
  | made other container params v hop h hcalls =>
    have hne : other ≠ item := hactive h.inactive
    have hnew : v ≠ view := by
      rintro rfl
      exact hm (h.made? hop)
    rw [hcalls, List.mem_cons, List.mem_append, List.mem_singleton] at hcall
    rcases hcall with rfl | hcall | rfl
    · simp [Event.asksFor, Event.concerns, hne] at hab
    · obtain ⟨c, -, rfl⟩ := List.mem_map.mp hcall
      simp [Event.asksFor, Event.concerns, hnew] at hab
    · simp [Event.asksFor, Event.concerns, hnew] at hab
  | failed other container params hop hitem h hcalls =>
    rw [hcalls, List.mem_singleton] at hcall
    rw [hcall] at hab
    simp [Event.asksFor, Event.concerns, hactive hitem] at hab
  | shown other container params v hop hother h hcalls =>
    rw [hcalls] at hcall
    obtain ⟨x, -, rfl⟩ := List.mem_map.mp hcall
    obtain rfl : v = view := by simpa [Event.asksFor, Event.concerns] using hab
    obtain rfl : other = item := view_injective hd hother hv
    exact ⟨_, _, _, rfl⟩
  | taken other v hop h hcalls =>
    have hother : v ≠ view := by
      rintro rfl
      obtain rfl : other = item := view_injective hd h.viewed hv
      rw [hop] at hdrop
      simp [Op.drops] at hdrop
    rw [hcalls] at hcall
    obtain ⟨other', v', hmem, hasks, hconcerns⟩ := mem_removal hcall
    obtain ⟨rfl, rfl⟩ := Prod.mk.inj (List.mem_singleton.mp hmem)
    simp [hasks, hconcerns, hother] at hab
  | cleared views cleared hop h hcalls =>
    rw [hop item] at hdrop
    cases hdrop
  | quiet hop h hcalls =>
    have hsnapshot := hcalls ev hcall
    cases ev <;> simp [Event.isSnapshot, Event.asksFor, Event.concerns] at hsnapshot hab

omit [DecidableEq I] in
theorem filter_view {views : List (I × V)} (hd : (views.map Prod.snd).Nodup) (h : (item, view) ∈ views) :
    views.filter (fun e => e.2 == view) = [(item, view)] := by
  induction views with
  | nil => exact absurd h List.not_mem_nil
  | cons e views ih =>
    obtain ⟨hnew, hd⟩ := List.nodup_cons.mp hd
    rcases List.mem_cons.mp h with rfl | h
    · rw [List.filter_cons_of_pos (by simp)]
      congr 1
      apply List.filter_eq_nil_iff.mpr
      intro e he hview
      exact hnew (List.mem_map.mpr ⟨e, he, beq_iff_eq.mp hview⟩)
    · have hne : e.2 ≠ view := fun hview => hnew (List.mem_map.mpr ⟨_, h, hview.symm⟩)
      rw [List.filter_cons_of_neg (by simpa using hne), ih hd h]

theorem Course.leaves (h : e.before.Course e.after e.turn.events e.op)
    (hd : (e.before.recycler.active.map Prod.snd).Nodup) (hv : e.before.recycler.view? item = some view)
    (hdrop : e.op.drops item = true) :
    about item view e.turn.events =
        disposals e.before.recycler.adapter [(item, view)] ++ e.before.detachments [(item, view)] ∧
      view ∉ e.after.recycler.active.map Prod.snd := by
  rw [← about_calls]
  cases h with
  | made other container params v hop h hcalls =>
    rw [hop] at hdrop
    cases hdrop
  | failed other container params hop hitem h hcalls =>
    rw [hop] at hdrop
    cases hdrop
  | shown other container params v hop hother h hcalls =>
    rw [hop] at hdrop
    cases hdrop
  | taken other v hop h hcalls =>
    obtain rfl : other = item := by
      rw [hop] at hdrop
      exact beq_iff_eq.mp hdrop
    obtain rfl : v = view := Option.some.inj (h.viewed.symm.trans hv)
    constructor
    · rw [hcalls, about_append, about_disposals, about_detachments, filter_view (by simp) List.mem_cons_self]
    · rw [h.active]
      intro hmem
      obtain ⟨e', he, hview⟩ := List.mem_map.mp hmem
      obtain ⟨he, hne⟩ := List.mem_filter.mp he
      have hsame : e' = (other, v) := List.inj_on_of_nodup_map hd he (mem_of_lookup hv) hview
      simp [hsame] at hne
  | cleared views cleared hop h hcalls =>
    have hmem : (item, view) ∈ views := h.drained.mem_iff.mpr (mem_of_lookup hv)
    have hviews : (views.map Prod.snd).Nodup := (h.drained.map _).nodup_iff.mpr hd
    constructor
    · rw [hcalls, about_append, about_append, about_disposals, about_detachments, about_clear,
        filter_view hviews hmem, List.append_nil]
    · rw [h.active]
      exact List.not_mem_nil
  | quiet hop h hcalls =>
    rw [hop item hdrop] at hv
    cases hv

theorem Course.begins (h : e.before.Course e.after e.turn.events e.op) (hcreates : e.creates item = true) :
    ∃ params view, e.made? = some view ∧ e.after.recycler.view? item = some view ∧
      about item view e.turn.events = .inflate e.resolved item (e.before.insertionIndex item) params ::
        (e.resolved.toList.map (.attach · view (e.before.insertionIndex item)) ++
          [.display e.before.recycler.context view item true params]) := by
  obtain ⟨hbefore, v, hafter⟩ := creates_iff_view?.mp hcreates
  cases h with
  | made other container params view hop h hcalls =>
    obtain rfl : other = item := by
      by_contra hne
      rw [h.view?_of_ne (Ne.symm hne), hbefore] at hafter
      cases hafter
    refine ⟨params, view, h.made? hop, h.view?_self, ?_⟩
    rw [← about_calls, hcalls, resolved_inflate hop]
    apply List.filter_eq_self.mpr
    intro ev hev
    rw [List.mem_cons, List.mem_append, List.mem_singleton] at hev
    rcases hev with rfl | hev | rfl
    · simp [Event.asksFor]
    · obtain ⟨c, -, rfl⟩ := List.mem_map.mp hev
      simp [Event.concerns]
    · simp [Event.concerns]
  | taken other view hop h hcalls =>
    have hne : item ≠ other := by
      rintro rfl
      rw [h.view?_self] at hafter
      cases hafter
    rw [h.view?_of_ne hne, hbefore] at hafter
    cases hafter
  | cleared views cleared hop h hcalls =>
    rw [h.view?] at hafter
    cases hafter
  | _ =>
    rename_i h _
    rw [h.view?, hbefore] at hafter
    cases hafter

end Step

end Attached

end TabDeck.Recycler

import TabDeck.Proofs.Recycler.About
/-!
The lifetime of a view, from the inflation that makes it to the removal of its item.
-/
namespace TabDeck.Recycler

variable {W A X C I V P E : Type}

namespace Attached

variable [DecidableEq I]

def Entry.removes (e : Entry W A X C I V P E) (item : I) : Bool := e.before.recycler.isActive item && e.op.drops item

def removal? (item : I) (es : List (Entry W A X C I V P E)) : Option (Entry W A X C I V P E) :=
  es.find? (·.removes item)

def untilRemoval (item : I) : List (Entry W A X C I V P E) → List (Entry W A X C I V P E)
  | [] => []
  | e :: es => if e.removes item then [e] else e :: untilRemoval item es

def afterRemoval (item : I) : List (Entry W A X C I V P E) → List (Entry W A X C I V P E)
  | [] => []
  | e :: es => if e.removes item then es else afterRemoval item es

def eventsOf (es : List (Entry W A X C I V P E)) : List (Event A X C I V P) := es.flatMap (·.turn.events)

def Follows (a : Attached A X C I V) : List (Entry W A X C I V P E) → Prop
  | [] => True
  | e :: es => e.before = a ∧ e.before.Course e.after e.turn.events e.op ∧ Follows e.after es

theorem follows_journal (text : I → String) (start : Attached A X C I V) (w : W) (ms : List (Move W A X C I V P E)) :
    Follows start (journal text start w ms).entries := by
  induction ms generalizing start w with
  | nil => trivial
  | cons m ms ih =>
    rw [journal_cons]
    exact ⟨rfl, step_course m.op, ih _ _⟩

theorem Follows.left {a : Attached A X C I V} {l r : List (Entry W A X C I V P E)} (h : Follows a (l ++ r)) :
    Follows a l := by
  induction l generalizing a with
  | nil => trivial
  | cons e l ih =>
    obtain ⟨hbefore, hc, hes⟩ := h
    exact ⟨hbefore, hc, ih hes⟩

theorem until_append_after (item : I) (es : List (Entry W A X C I V P E)) :
    untilRemoval item es ++ afterRemoval item es = es := by
  induction es with
  | nil => rfl
  | cons e es ih =>
    rw [untilRemoval, afterRemoval]
    split
    · rfl
    · rw [List.cons_append, ih]

/-- A state and the entries that follow, in which no view is made that is there or was made before. -/
structure Continues (a : Attached A X C I V) (es : List (Entry W A X C I V P E)) : Prop where
  follows : Follows a es
  coherent : a.Coherent
  distinct : (a.recycler.active.map Prod.snd ++ es.filterMap Entry.made?).Nodup

section Continues

variable {a : Attached A X C I V} {e : Entry W A X C I V P E} {es rest : List (Entry W A X C I V P E)} {item : I}
  {view : V}

theorem Continues.tail (h : Continues a (e :: es)) : Continues e.after es := by
  obtain ⟨rfl, hc, hes⟩ := h.follows
  refine ⟨hes, h.coherent.change hc.change, h.distinct.sublist ?_⟩
  rw [filterMap_cons_toList, ← List.append_assoc]
  exact (views_change hc.change (.refl _)).append (.refl _)

theorem Continues.drop (h : Continues a (es ++ e :: rest)) : Continues e.before (e :: rest) := by
  induction es generalizing a with
  | nil =>
    obtain ⟨rfl, -, -⟩ := h.follows
    exact h
  | cons f es ih => exact ih h.tail

theorem Continues.distinct_views (h : Continues a es) : (a.recycler.active.map Prod.snd).Nodup :=
  (List.nodup_append.mp h.distinct).1

theorem Continues.made_ne (h : Continues a (e :: es)) (hv : a.recycler.view? item = some view) :
    e.made? ≠ some view := by
  intro hm
  have hnew := (List.nodup_append.mp h.distinct).2.2 view (mem_views_of_view? hv) view
  rw [filterMap_cons_toList, hm] at hnew
  exact hnew List.mem_cons_self rfl

end Continues

section Run

variable [DecidableEq V] {a : Attached A X C I V} {es : List (Entry W A X C I V P E)} {item : I} {view : V}

omit [DecidableEq I] [DecidableEq V] in
theorem eventsOf_cons (e : Entry W A X C I V P E) (es : List (Entry W A X C I V P E)) :
    eventsOf (e :: es) = e.turn.events ++ eventsOf es := List.flatMap_cons

omit [DecidableEq I] [DecidableEq V] in
theorem eventsOf_append (l r : List (Entry W A X C I V P E)) : eventsOf (l ++ r) = eventsOf l ++ eventsOf r :=
  List.flatMap_append

theorem Follows.unconcerned (h : Follows a es) (ha : view ∉ a.recycler.active.map Prod.snd)
    (hm : view ∉ es.filterMap Entry.made?) : ∀ ev ∈ eventsOf es, ev.concerns view = false := by
  induction es generalizing a with
  | nil => exact fun ev hev => absurd hev List.not_mem_nil
  | cons e es ih =>
    obtain ⟨rfl, hc, hes⟩ := h
    rw [filterMap_cons_toList, List.mem_append, not_or] at hm
    have hnew : e.made? ≠ some view := fun h => hm.1 (by rw [h]; exact List.mem_cons_self)
    have hafter : view ∉ e.after.recycler.active.map Prod.snd := by
      intro hmem
      rcases List.mem_append.mp ((views_change hc.change (.refl _)).subset hmem) with hmem | hmem
      · exact ha hmem
      · exact hm.1 hmem
    intro ev hev
    rw [eventsOf_cons] at hev
    rcases List.mem_append.mp hev with hev | hev
    · cases hview : ev.concerns view with
      | false => rfl
      | true => exact absurd (hc.concerned hev hview) (not_or.mpr ⟨ha, hnew⟩)
    · exact ih hes hafter hm.2 ev hev

def farewell (item : I) (view : V) (container : Option C) (e : Entry W A X C I V P E) : List (Event A X C I V P) :=
  disposals e.before.recycler.adapter [(item, view)] ++ container.toList.map (.detach · view)

omit [DecidableEq V] in
theorem detachments_single (a : Attached A X C I V) (item : I) (view : V) :
    (a.detachments [(item, view)] : List (Event A X C I V P)) =
      (a.parents.lookup item).toList.map (.detach · view) := by
  rw [detachments_cons]
  cases a.parents.lookup item <;> rfl

theorem Continues.lifetime (h : Continues a es) (hv : a.recycler.view? item = some view) :
    ∃ shows : List (Event A X C I V P), (∀ ev ∈ shows, ev.Shows item view) ∧
      about item view (eventsOf (untilRemoval item es)) =
        shows ++ (removal? item es).elim [] (farewell item view (a.parents.lookup item)) ∧
      ∀ ev ∈ eventsOf (afterRemoval item es), ev.concerns view = false := by
  induction es generalizing a with
  | nil => exact ⟨[], nofun, rfl, nofun⟩
  | cons e es ih =>
    have hne : e.made? ≠ some view := h.made_ne hv
    obtain ⟨rfl, hc, hes⟩ := h.follows
    have hactive : e.before.recycler.isActive item = true := isActive_iff.mpr ⟨view, hv⟩
    rw [untilRemoval, afterRemoval, removal?, List.find?_cons, Entry.removes, hactive, Bool.true_and]
    cases hdrop : e.op.drops item with
    | true =>
      -- after the removal the view is not there, and no later operation makes it once more
      obtain ⟨hevents, hgone⟩ := hc.leaves h.distinct_views hv hdrop
      refine ⟨[], nofun, ?_, ?_⟩
      · rw [if_pos rfl, eventsOf_cons, about_append, hevents, detachments_single]
        exact List.append_nil _
      · rw [if_pos rfl]
        apply hes.unconcerned hgone
        intro hmem
        have hnew := (List.nodup_append.mp h.distinct).2.2 view (mem_views_of_view? hv) view
        rw [filterMap_cons_toList] at hnew
        exact hnew (List.mem_append_right _ hmem) rfl
    | false =>
      obtain ⟨hshows, hafter⟩ := hc.stays h.distinct_views hv hne hdrop
      obtain ⟨shows, hrest, hevents, hlater⟩ := ih h.tail hafter
      refine ⟨about item view e.turn.events ++ shows, ?_, ?_, hlater⟩
      · intro ev hev
        exact (List.mem_append.mp hev).elim (hshows ev) (hrest ev)
      · rw [if_neg Bool.false_ne_true, eventsOf_cons, about_append, hevents, List.append_assoc,
          parents_of_change hc.change hv hafter]
        rfl

end Run

section Placed

variable [DecidableEq V] {item : I} {view : V}

def placed (view : V) (events : List (Event A X C I V P)) : List (Event A X C I V P) :=
  (placements events).filter (·.concerns view)

omit [DecidableEq I] in
theorem placed_append (l r : List (Event A X C I V P)) : placed view (l ++ r) = placed view l ++ placed view r := by
  rw [placed, placements_append, List.filter_append]
  rfl

omit [DecidableEq I] in
theorem placed_unconcerned {events : List (Event A X C I V P)} (h : ∀ ev ∈ events, ev.concerns view = false) :
    placed view events = [] := by
  apply List.filter_eq_nil_iff.mpr
  intro ev hev
  simp [h ev (List.mem_filter.mp hev).1]

theorem placements_about (item : I) (events : List (Event A X C I V P)) :
    placements (about item view events) = placed view events := by
  rw [placed, placements, about, List.filter_filter, placements, List.filter_filter]
  apply List.filter_congr
  intro ev _
  cases ev <;> simp [Event.isPlacement, Event.asksFor, Event.concerns]

omit [DecidableEq I] [DecidableEq V] in
theorem placements_farewell (container : Option C) (e : Entry W A X C I V P E) :
    placements (farewell item view container e) = container.toList.map (.detach · view) := by
  rw [farewell, placements_append, placements_disposals, List.nil_append]
  apply placements_eq_self
  simp [Event.isPlacement]

omit [DecidableEq I] [DecidableEq V] in
theorem placements_ordered {container : Option C} {index : Nat} {params : P}
    {shows last : List (Event A X C I V P)} (hshows : ∀ ev ∈ shows, ev.Shows item view) :
    placements (.inflate container item index params ::
        (container.toList.map (.attach · view index) ++ (shows ++ last))) =
      container.toList.map (.attach · view index) ++ placements last := by
  have hattached : placements (container.toList.map fun c => (.attach c view index : Event A X C I V P)) =
      container.toList.map fun c => .attach c view index := by
    apply placements_eq_self
    simp [Event.isPlacement]
  have hshown : placements shows = [] := by
    apply placements_eq_nil
    intro ev hev
    obtain ⟨context, inflated, params, rfl⟩ := hshows ev hev
    rfl
  have hinflate : placements [(.inflate container item index params : Event A X C I V P)] = [] := rfl
  rw [← List.singleton_append, placements_append, placements_append, placements_append, hinflate, hattached, hshown]
  rfl

end Placed

structure Lifetime [DecidableEq V] (past : List (Entry W A X C I V P E)) (e : Entry W A X C I V P E)
    (rest : List (Entry W A X C I V P E)) (item : I) (view : V) : Prop where
  made : e.made? = some view
  balanced : placed view (eventsOf (past ++ e :: rest)) =
    e.resolved.toList.map (.attach · view (e.before.insertionIndex item)) ++
      (removal? item rest).elim [] fun _ => e.resolved.toList.map (.detach · view)
  ordered : ∃ params shows, (∀ ev ∈ shows, ev.Shows item view) ∧
    about item view (eventsOf (e :: untilRemoval item rest)) =
      .inflate e.resolved item (e.before.insertionIndex item) params ::
        (e.resolved.toList.map (.attach · view (e.before.insertionIndex item)) ++
          (shows ++ (removal? item rest).elim [] (farewell item view e.resolved)))
  apart : ∀ ev ∈ eventsOf (past ++ afterRemoval item rest), ev.concerns view = false

section Lifetime

variable [DecidableEq V] {past rest : List (Entry W A X C I V P E)} {e : Entry W A X C I V P E} {item : I} {view : V}

theorem Continues.begins {a : Attached A X C I V} (h : Continues a (past ++ e :: rest))
    (ha : a.recycler.active = []) (hcreates : e.creates item = true) : ∃ view, Lifetime past e rest item view := by
  have he : Continues e.before (e :: rest) := h.drop
  obtain ⟨-, hc, -⟩ := he.follows
  obtain ⟨params, view, hmade, hafter, hbirth⟩ := hc.begins hcreates
  obtain ⟨shows, hshows, hevents, hlater⟩ := he.tail.lifetime hafter
  rw [he.coherent.parents_created hc.change hcreates] at hevents
  have hordered : about item view (eventsOf (e :: untilRemoval item rest)) =
      .inflate e.resolved item (e.before.insertionIndex item) params ::
        (e.resolved.toList.map (.attach · view (e.before.insertionIndex item)) ++
          ((.display e.before.recycler.context view item true params :: shows) ++
            (removal? item rest).elim [] (farewell item view e.resolved))) := by
    rw [eventsOf_cons, about_append, hbirth, hevents, List.cons_append, List.append_assoc]
    rfl
  have hpast : ∀ ev ∈ eventsOf past, ev.concerns view = false := by
    have hd := h.distinct
    rw [ha, List.map_nil, List.nil_append, List.filterMap_append, filterMap_cons_toList, hmade] at hd
    apply h.follows.left.unconcerned
    · rw [ha]
      exact List.not_mem_nil
    · intro hmem
      exact (List.nodup_append.mp hd).2.2 view hmem view List.mem_cons_self rfl
  have hall : ∀ ev ∈ .display e.before.recycler.context view item true params :: shows, ev.Shows item view := by
    intro ev hev
    rcases List.mem_cons.mp hev with rfl | hev
    · exact ⟨_, _, _, rfl⟩
    · exact hshows ev hev
  refine ⟨view, hmade, ?_, ⟨params, _, hall, hordered⟩, ?_⟩
  · have hsplit : eventsOf (past ++ e :: rest) = eventsOf past ++
        (eventsOf (e :: untilRemoval item rest) ++ eventsOf (afterRemoval item rest)) := by
      rw [← eventsOf_append, List.cons_append, until_append_after, ← eventsOf_append]
    rw [hsplit, placed_append, placed_append, placed_unconcerned hpast, placed_unconcerned hlater,
      ← placements_about item, hordered, placements_ordered hall, List.nil_append, List.append_nil]
    congr 1
    cases removal? item rest with
    | none => rfl
    | some f => exact placements_farewell e.resolved f
  · intro ev hev
    rw [eventsOf_append] at hev
    exact (List.mem_append.mp hev).elim (hpast ev) (hlater ev)

end Lifetime

theorem journal_lifetime [DecidableEq V] {text : I → String} {w : W} (context : X) (default : Option C)
    (compare : Option (Comparator I)) (ms : List (Move W A X C I V P E))
    (hd : ((journal text (create context default compare) w ms).entries.filterMap Entry.made?).Nodup)
    {past rest : List (Entry W A X C I V P E)} {e : Entry W A X C I V P E}
    (hes : (journal text (create context default compare) w ms).entries = past ++ e :: rest)
    {item : I} (hcreates : e.creates item = true) : ∃ view, Lifetime past e rest item view := by
  have h : Continues (create context default compare) (past ++ e :: rest) := by
    rw [← hes]
    exact ⟨follows_journal .., .create context default compare, hd⟩
  exact h.begins rfl hcreates

theorem journal_lifetime_numbered :
    let inflate (item : Nat) (container : Option Bool) : Op Unit Bool Nat Unit :=
      .basic (.inflate item container ())
    let ms := numbered [inflate 7 none, inflate 5 (some false), .setDefault none, inflate 0 none,
      inflate 5 (some true), .basic .removeAll, inflate 5 none]
    let j := journal toString (create () (some true) none) 0 ms
    let e := (journal toString (create () (some true) none) 0 (ms.take 2)).entry toString
      ⟨numbering, inflate 5 (some false)⟩
    (j.entries.filterMap Entry.made?).Nodup ∧ j.entries = j.entries.take 2 ++ e :: j.entries.drop 3 ∧
      e.creates 5 = true ∧ Lifetime (j.entries.take 2) e (j.entries.drop 3) 5 1 ∧
      e.resolved = some false ∧ (removal? 5 (j.entries.drop 3)).isSome = true := by
  intro inflate ms j e
  have hd : (j.entries.filterMap Entry.made?).Nodup := by decide +kernel
  have hes : j.entries = j.entries.take 2 ++ e :: j.entries.drop 3 := rfl
  have hcreates : e.creates 5 = true := by decide +kernel
  have hmade : e.made? = some 1 := by decide +kernel
  obtain ⟨view, hlife⟩ := journal_lifetime () (some true) none ms hd hes hcreates
  obtain rfl : view = 1 := Option.some.inj (hlife.made.symm.trans hmade)
  exact ⟨hd, hes, hcreates, hlife, rfl, by decide +kernel⟩

end Attached

end TabDeck.Recycler

import TabDeck.Proofs.Binder.Life

namespace TabDeck.Binder

variable {L K D T P : Type}

namespace Entry

variable {e w : Entry L K D T P} {i k : Nat} {r q : Request K T P} {d : Delivery K D T P}

theorem Loads.unique (h : e.Loads r) (h' : e.Loads q) : r = q := by
  have hm := h.symm.trans h'
  cases r
  cases q
  cases hm
  rfl

theorem Loads.not_works (h : e.Loads r) : ¬ e.Works i q :=
  fun hw => nomatch h.symm.trans hw.move

theorem Loads.not_delivers (h : e.Loads r) : ¬ e.Delivers i d :=
  fun hd => nomatch h.symm.trans hd.move

theorem Works.not_delivers (h : e.Works i r) : ¬ e.Delivers k d :=
  fun hd => nomatch h.move.symm.trans hd.move

theorem Works.unique (h : e.Works i r) (h' : e.Works k q) : r = q := by
  obtain rfl : i = k := Move.work.inj (h.move.symm.trans h'.move)
  exact Option.some.inj (h.request.symm.trans h'.request)

theorem Delivers.unique {d' : Delivery K D T P} (h : e.Delivers i d) (h' : e.Delivers k d') : d = d' := by
  obtain rfl : i = k := Move.deliver.inj (h.move.symm.trans h'.move)
  exact Option.some.inj (h.delivery.symm.trans h'.delivery)

theorem Loads.mem_of_works {l : List (Entry L K D T P)} (h : e.Loads r) (hw : w.Works i q) (he : e ∈ l ++ [w]) :
    e ∈ l := by
  rcases List.mem_append.mp he with he | he
  · exact he
  · obtain rfl := List.mem_singleton.mp he
    exact absurd hw h.not_works

theorem Loads.mem_of_delivers {l : List (Entry L K D T P)} (h : e.Loads r) (hw : w.Delivers i d)
    (he : e ∈ l ++ [w]) : e ∈ l := by
  rcases List.mem_append.mp he with he | he
  · exact he
  · obtain rfl := List.mem_singleton.mp he
    exact absurd hw h.not_delivers

section Exclusion

variable [DecidableEq K] {hooks : Hooks L K D T P}

theorem Missed.not_vetoed (h : e.Missed hooks r) : ¬ e.Vetoed hooks q := by
  intro hv
  obtain rfl := h.loads.unique hv.loads
  exact nomatch h.accepted.symm.trans hv.vetoed

theorem Missed.not_hit {data : D} (h : e.Missed hooks r) : ¬ e.Hit hooks q data := by
  intro hh
  obtain rfl := h.loads.unique hh.loads
  exact nomatch h.absent.symm.trans hh.cached

omit [DecidableEq K] in
theorem Computed.unique {data data' : Option D} (h : e.Computed hooks i r data) (h' : e.Computed hooks k q data') :
    r = q ∧ data = data' := by
  obtain rfl := h.works.unique h'.works
  exact ⟨rfl, Outcome.data.inj (h.data.symm.trans h'.data)⟩

end Exclusion

end Entry

variable [DecidableEq K] {hooks : Hooks L K D T P} {l : List (Entry L K D T P)} {s : Stage K D T P}
  {e : Entry L K D T P} {r : Request K T P}

theorem Life.eq_nil (h : Life hooks l .unmade) : l = [] := by
  cases h
  rfl

theorem Life.closed_at_once (h : Life hooks l s) (he : e ∈ l) (hl : e.Loads r) (hm : ¬ e.Missed hooks r) :
    l = [e] ∧ s = .closed := by
  induction h with
  | unmade => cases he
  | vetoed past step =>
    obtain rfl := past.eq_nil
    obtain rfl := List.mem_singleton.mp he
    exact ⟨rfl, rfl⟩
  | hit past step =>
    obtain rfl := past.eq_nil
    obtain rfl := List.mem_singleton.mp he
    exact ⟨rfl, rfl⟩
  | missed past step =>
    obtain rfl := past.eq_nil
    obtain rfl := List.mem_singleton.mp he
    obtain rfl := step.loads.unique hl
    exact absurd step hm
  | skipped past step ih => cases (ih (hl.mem_of_works step.works he)).2
  | panicked past step ih => cases (ih (hl.mem_of_works step.works he)).2
  | computed past step ih => cases (ih (hl.mem_of_works step.works he)).2
  | dropped past step ih => cases (ih (hl.mem_of_delivers step.delivers he)).2
  | delivered past step ih => cases (ih (hl.mem_of_delivers step.delivers he)).2

inductive Miss (hooks : Hooks L K D T P) (e : Entry L K D T P) (r : Request K T P) :
    List (Entry L K D T P) → Stage K D T P → Prop where
  | queued : Miss hooks e r [e] (.queued (hooks.prepared r))
  | skipped {w i} (work : w.Skipped i (hooks.prepared r)) : Miss hooks e r [e, w] .closed
  | panicked {w i} (work : w.Panicked hooks i (hooks.prepared r)) : Miss hooks e r [e, w] .closed
  | computed {w i data} (work : w.Computed hooks i (hooks.prepared r) data) :
      Miss hooks e r [e, w] (.computed ⟨hooks.prepared r, data⟩)
  | dropped {w i data u k} (work : w.Computed hooks i (hooks.prepared r) data)
      (delivery : u.Dropped k ⟨hooks.prepared r, data⟩) : Miss hooks e r [e, w, u] .closed
  | delivered {w i data u k} (work : w.Computed hooks i (hooks.prepared r) data)
      (delivery : u.Delivered k ⟨hooks.prepared r, data⟩) : Miss hooks e r [e, w, u] .closed

theorem Life.miss (h : Life hooks l s) (he : e ∈ l) (hm : e.Missed hooks r) : Miss hooks e r l s := by
  induction h with
  | unmade => cases he
  | vetoed past step =>
    obtain rfl := past.eq_nil
    obtain rfl := List.mem_singleton.mp he
    exact absurd step hm.not_vetoed
  | hit past step =>
    obtain rfl := past.eq_nil
    obtain rfl := List.mem_singleton.mp he
    exact absurd step hm.not_hit
  | missed past step =>
    obtain rfl := past.eq_nil
    obtain rfl := List.mem_singleton.mp he
    obtain rfl := step.loads.unique hm.loads
    exact .queued
  | skipped past step ih =>
    cases ih (hm.loads.mem_of_works step.works he)
    exact .skipped step
  | panicked past step ih =>
    cases ih (hm.loads.mem_of_works step.works he)
    exact .panicked step
  | computed past step ih =>
    cases ih (hm.loads.mem_of_works step.works he)
    exact .computed step
  | dropped past step ih =>
    cases ih (hm.loads.mem_of_delivers step.delivers he) with
    | computed work => exact .dropped work step
  | delivered past step ih =>
    cases ih (hm.loads.mem_of_delivers step.delivers he) with
    | computed work => exact .delivered work step

omit [DecidableEq K] in
theorem Miss.rest (h : Miss hooks e r l s) :
    ∃ rest, l = e :: rest ∧ ∀ e' ∈ rest, ∀ r', ¬ e'.Loads r' := by
  have works {w : Entry L K D T P} {i : Nat} {q : Request K T P} (hw : w.Works i q) (r' : Request K T P) :
      ¬ w.Loads r' := fun hl => hl.not_works hw
  have delivers {u : Entry L K D T P} {k : Nat} {d : Delivery K D T P} (hu : u.Delivers k d) (r' : Request K T P) :
      ¬ u.Loads r' := fun hl => hl.not_delivers hu
  cases h with
  | queued => exact ⟨[], rfl, nofun⟩
  | skipped work => exact ⟨_, rfl, List.forall_mem_singleton.mpr (works work.works)⟩
  | panicked work => exact ⟨_, rfl, List.forall_mem_singleton.mpr (works work.works)⟩
  | computed work => exact ⟨_, rfl, List.forall_mem_singleton.mpr (works work.works)⟩
  | dropped work delivery =>
    exact ⟨_, rfl, List.forall_mem_cons.mpr
      ⟨works work.works, List.forall_mem_singleton.mpr (delivers delivery.delivers)⟩⟩
  | delivered work delivery =>
    exact ⟨_, rfl, List.forall_mem_cons.mpr
      ⟨works work.works, List.forall_mem_singleton.mpr (delivers delivery.delivers)⟩⟩

omit [DecidableEq K] in
theorem Miss.exists_works (h : Miss hooks e r l s) (hs : s ≠ .queued (hooks.prepared r)) :
    ∃ w ∈ l, ∃ i, w.Works i (hooks.prepared r) := by
  cases h with
  | queued => exact absurd rfl hs
  | skipped work => exact ⟨_, by simp, _, work.works⟩
  | panicked work => exact ⟨_, by simp, _, work.works⟩
  | computed work => exact ⟨_, by simp, _, work.works⟩
  | dropped work => exact ⟨_, by simp, _, work.works⟩
  | delivered work => exact ⟨_, by simp, _, work.works⟩

/-- A request is worked and delivered at steps of a kind, and its computation does not panic. -/
def Granted (hooks : Hooks L K D T P) (kind : Entry L K D T P → Prop) (l : List (Entry L K D T P))
    (r : Request K T P) : Prop :=
  (∃ w ∈ l, ∃ i, w.Works i r ∧ kind w ∧ hooks.compute w.before.computations r.key r.params ≠ .panic) ∧
    ∃ u ∈ l, ∃ i data, u.Delivers i ⟨r, data⟩ ∧ kind u

def Entry.Active (e : Entry L K D T P) : Prop := e.before.canceled = false

theorem Miss.granted_iff (h : Miss hooks e r l s) (hm : e.Missed hooks r) :
    Granted hooks Entry.Active l (hooks.prepared r) ↔
      ∃ w u i k data, l = [e, w, u] ∧ w.Computed hooks i (hooks.prepared r) data ∧
        u.Delivered k ⟨hooks.prepared r, data⟩ := by
  constructor
  · -- every other life lacks the step, or has it with the flag set or with a panic
    rintro ⟨⟨w', hw', i', hworks, hactive, hpanic⟩, u', hu', k', data', hdelivers, hdelivery⟩
    have hwe : w' ≠ e := by
      rintro rfl
      exact hm.loads.not_works hworks
    have hue : u' ≠ e := by
      rintro rfl
      exact hm.loads.not_delivers hdelivers
    cases h with
    | queued => exact absurd (List.mem_singleton.mp hw') hwe
    | @skipped w i work =>
      obtain rfl : w' = w := by simpa [hwe] using hw'
      exact nomatch work.canceled.symm.trans hactive
    | @panicked w i work =>
      obtain rfl : w' = w := by simpa [hwe] using hw'
      exact absurd work.panic hpanic
    | @computed w i data work =>
      obtain rfl : u' = w := by simpa [hue] using hu'
      exact absurd hdelivers work.works.not_delivers
    | @dropped w i data u k work delivery =>
      have huw : u' ≠ w := by
        rintro rfl
        exact work.works.not_delivers hdelivers
      obtain rfl : u' = u := by simpa [hue, huw] using hu'
      exact nomatch delivery.canceled.symm.trans hdelivery
    | @delivered w i data u k work delivery => exact ⟨w, u, i, k, data, rfl, work, delivery⟩
  · rintro ⟨w, u, i, k, data, rfl, work, delivery⟩
    refine ⟨⟨w, by simp, i, work.works, work.active, ?_⟩,
      u, by simp, k, data, delivery.delivers, delivery.active⟩
    rw [work.data]
    exact nofun

omit [DecidableEq K] in
theorem Granted.imp {kind kind' : Entry L K D T P → Prop} (h : Granted hooks kind l r)
    (hw : ∀ w ∈ l, ∀ i q, w.Works i q → kind w → kind' w)
    (hu : ∀ u ∈ l, ∀ i d, u.Delivers i d → kind u → kind' u) :
    Granted hooks kind' l r := by
  obtain ⟨⟨w, hwl, i, hworks, hwk, hpanic⟩, u, hul, k, data, hdelivers, huk⟩ := h
  exact ⟨⟨w, hwl, i, hworks, hw w hwl i r hworks hwk, hpanic⟩, u, hul, k, data, hdelivers,
    hu u hul k ⟨r, data⟩ hdelivers huk⟩

section Worked

variable {w : Entry L K D T P} {i : Nat} {q : Request K T P}

theorem Life.missed_of_pending (h : Life hooks l s) (hn : s ≠ .unmade) (hc : s ≠ .closed) :
    ∃ e ∈ l, ∃ r, e.Missed hooks r := by
  induction h with
  | unmade => exact absurd rfl hn
  | @missed l e r past step => exact ⟨e, List.mem_concat_self, r, step⟩
  | computed past step ih =>
    obtain ⟨e, he, hm⟩ := ih nofun nofun
    exact ⟨e, List.mem_append_left _ he, hm⟩
  | _ => exact absurd rfl hc

theorem Life.missed_of_mem (h : Life hooks l s) (hw : w ∈ l) (hl : ∀ q, ¬ w.Loads q) :
    ∃ e ∈ l, ∃ r, e.Missed hooks r := by
  have later {l : List (Entry L K D T P)} {s : Stage K D T P} {u : Entry L K D T P} (past : Life hooks l s)
      (hn : s ≠ .unmade) (hc : s ≠ .closed) : ∃ e ∈ l ++ [u], ∃ r, e.Missed hooks r := by
    obtain ⟨e, he, hm⟩ := past.missed_of_pending hn hc
    exact ⟨e, List.mem_append_left _ he, hm⟩
  cases h with
  | unmade => cases hw
  | vetoed past step =>
    obtain rfl := past.eq_nil
    obtain rfl := List.mem_singleton.mp hw
    exact absurd step.loads (hl _)
  | hit past step =>
    obtain rfl := past.eq_nil
    obtain rfl := List.mem_singleton.mp hw
    exact absurd step.loads (hl _)
  | @missed l e r past step => exact ⟨e, List.mem_concat_self, r, step⟩
  | skipped past step => exact later past nofun nofun
  | panicked past step => exact later past nofun nofun
  | computed past step => exact later past nofun nofun
  | dropped past step => exact later past nofun nofun
  | delivered past step => exact later past nofun nofun

theorem Miss.work_cases (h : Miss hooks e r l s) (hm : e.Missed hooks r) (hw : w ∈ l) (hq : w.Works i q) :
    q = hooks.prepared r ∧
      (l = [e, w] ∧ (w.Skipped i q ∨ w.Panicked hooks i q) ∨
        l = [e, w] ∧ (∃ data, w.Computed hooks i q data ∧ s = .computed ⟨q, data⟩) ∨
        ∃ data u k, l = [e, w, u] ∧ w.Computed hooks i q data ∧ u.Delivers k ⟨q, data⟩) := by
  have hwe : w ≠ e := by
    rintro rfl
    exact hm.loads.not_works hq
  have hwu {u : Entry L K D T P} {k : Nat} {d : Delivery K D T P} (hu : u.Delivers k d) : w ≠ u := by
    rintro rfl
    exact hq.not_delivers hu
  have hsame {k : Nat} (hw' : w.Works k (hooks.prepared r)) : k = i ∧ q = hooks.prepared r :=
    ⟨Move.work.inj (hw'.move.symm.trans hq.move), hq.unique hw'⟩
  cases h with
  | queued => exact absurd (List.mem_singleton.mp hw) hwe
  | @skipped w' k work =>
    obtain rfl : w = w' := by simpa [hwe] using hw
    obtain ⟨rfl, rfl⟩ := hsame work.works
    exact ⟨rfl, .inl ⟨rfl, .inl work⟩⟩
  | @panicked w' k work =>
    obtain rfl : w = w' := by simpa [hwe] using hw
    obtain ⟨rfl, rfl⟩ := hsame work.works
    exact ⟨rfl, .inl ⟨rfl, .inr work⟩⟩
  | @computed w' k data work =>
    obtain rfl : w = w' := by simpa [hwe] using hw
    obtain ⟨rfl, rfl⟩ := hsame work.works
    exact ⟨rfl, .inr (.inl ⟨rfl, data, work, rfl⟩)⟩
  | @dropped w' k data u k' work delivery =>
    obtain rfl : w = w' := by simpa [hwe, hwu delivery.delivers] using hw
    obtain ⟨rfl, rfl⟩ := hsame work.works
    exact ⟨rfl, .inr (.inr ⟨data, u, k', rfl, work, delivery.delivers⟩)⟩
  | @delivered w' k data u k' work delivery =>
    obtain rfl : w = w' := by simpa [hwe, hwu delivery.delivers] using hw
    obtain ⟨rfl, rfl⟩ := hsame work.works
    exact ⟨rfl, .inr (.inr ⟨data, u, k', rfl, work, delivery.delivers⟩)⟩

theorem Miss.of_works (h : Miss hooks e r l s) (hm : e.Missed hooks r) (hw : w ∈ l) (hq : w.Works i q) :
    q = hooks.prepared r := (h.work_cases hm hw hq).1

theorem Miss.of_skipped (h : Miss hooks e r l s) (hm : e.Missed hooks r) (hw : w ∈ l) (hs : w.Skipped i q) :
    l = [e, w] := by
  rcases (h.work_cases hm hw hs.works).2 with ⟨hl, -⟩ | ⟨hl, -⟩ | ⟨data, u, k, -, hc, -⟩
  · exact hl
  · exact hl
  · exact nomatch hs.canceled.symm.trans hc.active

theorem Miss.of_computed {data : Option D} (h : Miss hooks e r l s) (hm : e.Missed hooks r) (hw : w ∈ l)
    (hc : w.Computed hooks i q data) :
    s = .computed ⟨q, data⟩ ∨ ∃ u ∈ l, ∃ k, u.Delivers k ⟨q, data⟩ := by
  rcases (h.work_cases hm hw hc.works).2 with ⟨-, hs | hp⟩ | ⟨-, data', hc', hs⟩ | ⟨data', u, k, rfl, hc', hu⟩
  · exact nomatch hs.canceled.symm.trans hc.active
  · exact nomatch hp.panic.symm.trans hc.data
  · obtain ⟨-, rfl⟩ := hc.unique hc'
    exact .inl hs
  · obtain ⟨-, rfl⟩ := hc.unique hc'
    exact .inr ⟨u, by simp, k, hu⟩

theorem Miss.of_delivers {u : Entry L K D T P} {k : Nat} {d : Delivery K D T P} (h : Miss hooks e r l s)
    (hm : e.Missed hooks r) (hu : u ∈ l) (hd : u.Delivers k d) :
    ∃ w i, l = [e, w, u] ∧ w.Computed hooks i (hooks.prepared r) d.data ∧ d.request = hooks.prepared r := by
  have hue : u ≠ e := by
    rintro rfl
    exact hm.loads.not_delivers hd
  have huw {w' : Entry L K D T P} {k' : Nat} {q' : Request K T P} (hw' : w'.Works k' q') : u ≠ w' := by
    rintro rfl
    exact hw'.not_delivers hd
  cases h with
  | queued => exact absurd (List.mem_singleton.mp hu) hue
  | skipped work => simp [hue, huw work.works] at hu
  | panicked work => simp [hue, huw work.works] at hu
  | computed work => simp [hue, huw work.works] at hu
  | @dropped w' i' data' u' k' work delivery =>
    obtain rfl : u = u' := by simpa [hue, huw work.works] using hu
    obtain rfl := hd.unique delivery.delivers
    exact ⟨w', i', rfl, work, rfl⟩
  | @delivered w' i' data' u' k' work delivery =>
    obtain rfl : u = u' := by simpa [hue, huw work.works] using hu
    obtain rfl := hd.unique delivery.delivers
    exact ⟨w', i', rfl, work, rfl⟩

end Worked

end TabDeck.Binder

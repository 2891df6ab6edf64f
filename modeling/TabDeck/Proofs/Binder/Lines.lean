import TabDeck.Proofs.Binder.Life

namespace TabDeck.Binder

variable {L K D T P : Type}

section Lines

structure Lines where
  loads : Nat
  requests : List Nat
  deliveries : List Nat
  made : List Nat
  worked : List Nat
  delivered : List Nat

inductive Lines.Step (l : Lines) : Lines → Prop where
  | stays : Step l l
  | closed : Step l { l with loads := l.loads + 1, made := l.made ++ [l.loads] }
  | queued : Step l { l with loads := l.loads + 1, made := l.made ++ [l.loads], requests := l.requests ++ [l.loads] }
  | ended {k rs} (front : l.requests = k :: rs) : Step l { l with requests := rs, worked := l.worked ++ [k] }
  | computed {k rs} (front : l.requests = k :: rs) :
      Step l { l with requests := rs, deliveries := l.deliveries ++ [k], worked := l.worked ++ [k] }
  | delivered {k ds} (front : l.deliveries = k :: ds) :
      Step l { l with deliveries := ds, delivered := l.delivered ++ [k] }

def Increasing (l : List Nat) : Prop := l.Pairwise (· < ·)

/-- What was served comes before what is queued, and deliveries before requests. -/
structure Lines.Ordered (l : Lines) : Prop where
  made : Increasing (l.made ++ [l.loads])
  worked : Increasing (l.worked ++ l.requests ++ [l.loads])
  delivered : Increasing (l.delivered ++ l.deliveries ++ l.requests ++ [l.loads])

theorem Increasing.succ {l : List Nat} {n : Nat} (h : Increasing (l ++ [n])) : Increasing (l ++ [n + 1]) := by
  obtain ⟨hl, -, hn⟩ := List.pairwise_append.mp h
  refine List.pairwise_append.mpr ⟨hl, List.pairwise_singleton _ _, ?_⟩
  intro a ha b hb
  have hlt : a < n := hn a ha n List.mem_cons_self
  obtain rfl := List.mem_singleton.mp hb
  omega

theorem Increasing.push {l : List Nat} {n : Nat} (h : Increasing (l ++ [n])) : Increasing (l ++ [n] ++ [n + 1]) := by
  refine List.pairwise_append.mpr ⟨h, List.pairwise_singleton _ _, ?_⟩
  intro a ha b hb
  obtain rfl := List.mem_singleton.mp hb
  rcases List.mem_append.mp ha with ha | ha
  · have hlt : a < n := (List.pairwise_append.mp h).2.2 a ha n List.mem_cons_self
    omega
  · obtain rfl := List.mem_singleton.mp ha
    omega

theorem Lines.Step.ordered {l l' : Lines} (step : l.Step l') (h : l.Ordered) : l'.Ordered := by
  obtain ⟨hm, hw, hd⟩ := h
  cases step with
  | stays => exact ⟨hm, hw, hd⟩
  | closed => exact ⟨hm.push, hw.succ, hd.succ⟩
  | queued =>
    refine ⟨hm.push, ?_, ?_⟩
    · simpa only [List.append_assoc] using hw.push
    · simpa only [List.append_assoc] using hd.push
  | @ended k rs front =>
    rw [front] at hw hd
    refine ⟨hm, by simpa using hw, hd.sublist ?_⟩
    exact ((List.sublist_cons_self k rs).append_left _).append_right _
  | computed front =>
    rw [front] at hw hd
    refine ⟨hm, ?_, ?_⟩
    · simpa using hw
    · simpa using hd
  | delivered front =>
    rw [front] at hd
    exact ⟨hm, hw, by simpa using hd⟩

theorem Increasing.left {l l' : List Nat} (h : Increasing (l ++ l')) : Increasing l := (List.pairwise_append.mp h).1

end Lines

namespace Move

def isLoad : Move L K T P → Bool
  | .call (.load _ _ _) => true
  | _ => false

def isWork : Move L K T P → Bool
  | .work _ => true
  | _ => false

def isDelivery : Move L K T P → Bool
  | .deliver _ => true
  | _ => false

def AtFront : Move L K T P → Prop
  | .call _ => True
  | .work i => i = 0
  | .deliver i => i = 0

end Move

namespace Journal

def loadsOf (kind : Move L K T P → Bool) (l : List (Entry L K D T P)) : List Nat :=
  l.filterMap fun e => if kind e.move then e.load else none

def lines (j : Journal L K D T P) : Lines where
  loads := j.loads
  requests := j.requests.map Prod.fst
  deliveries := j.deliveries.map Prod.fst
  made := loadsOf Move.isLoad j.entries
  worked := loadsOf Move.isWork j.entries
  delivered := loadsOf Move.isDelivery j.entries

theorem loadsOf_concat (kind : Move L K T P → Bool) (l : List (Entry L K D T P)) (e : Entry L K D T P) :
    loadsOf kind (l ++ [e]) = loadsOf kind l ++ (if kind e.move then e.load else none).toList := by
  rw [loadsOf, List.filterMap_append]
  congr 1

variable [DecidableEq L] [DecidableEq K] {hooks : Hooks L K D T P} {survives : Bool} {j : Journal L K D T P}
  {m : Move L K T P}

theorem lines_load {r : Request K T P} {rs : List Nat}
    (hr : (j.next hooks survives (.call (.load r.key r.target r.params))).requests.map Prod.fst = rs)
    (hd : (j.next hooks survives (.call (.load r.key r.target r.params))).binder.deliveries = j.binder.deliveries) :
    (j.next hooks survives (.call (.load r.key r.target r.params))).lines =
      { j.lines with loads := j.loads + 1, requests := rs, made := j.lines.made ++ [j.loads] } := by
  have hd' : (j.next hooks survives (.call (.load r.key r.target r.params))).deliveries = j.deliveries :=
    requeue_keep rfl hd
  rw [lines, hr, hd', next_entries, loadsOf_concat, loadsOf_concat, loadsOf_concat]
  simp [Move.isLoad, Move.isWork, Move.isDelivery, lines, next, entry, number]

theorem lines_work {k : Nat} {ds : List Nat} (hk : j.number (.work 0) = some k)
    (hr : (j.next hooks survives (.work 0)).binder.requests = j.binder.requests.eraseIdx 0)
    (hd : (j.next hooks survives (.work 0)).deliveries.map Prod.fst = ds) :
    (j.next hooks survives (.work 0)).lines =
      { j.lines with
        requests := j.lines.requests.tail, deliveries := ds, worked := j.lines.worked ++ [k] } := by
  have hr' : (j.next hooks survives (.work 0)).requests = j.requests.eraseIdx 0 := requeue_serve rfl hr
  rw [lines, hr', hd, next_entries, loadsOf_concat, loadsOf_concat, loadsOf_concat, List.eraseIdx_zero]
  simp [Move.isLoad, Move.isWork, Move.isDelivery, lines, next, entry, hk]

theorem lines_deliver {k : Nat} (hk : j.number (.deliver 0) = some k)
    (hr : (j.next hooks survives (.deliver 0)).binder.requests = j.binder.requests)
    (hd : (j.next hooks survives (.deliver 0)).binder.deliveries = j.binder.deliveries.eraseIdx 0) :
    (j.next hooks survives (.deliver 0)).lines =
      { j.lines with deliveries := j.lines.deliveries.tail, delivered := j.lines.delivered ++ [k] } := by
  have hr' : (j.next hooks survives (.deliver 0)).requests = j.requests := requeue_keep rfl hr
  have hd' : (j.next hooks survives (.deliver 0)).deliveries = j.deliveries.eraseIdx 0 := requeue_serve rfl hd
  rw [lines, hr', hd', next_entries, loadsOf_concat, loadsOf_concat, loadsOf_concat, List.eraseIdx_zero]
  simp [Move.isLoad, Move.isWork, Move.isDelivery, lines, next, entry, hk]

theorem lines_stray (hn : j.number m = none) : (j.next hooks survives m).lines = j.lines := by
  have hl : (j.next hooks survives m).loads = j.loads := by
    cases m with
    | call c =>
      cases c with
      | load key target params => cases hn
      | _ => rfl
    | _ => rfl
  have he : (j.entry m).load = none := hn
  rw [lines, hl, next_requests_of_none hn, next_deliveries_of_none hn, next_entries, loadsOf_concat,
    loadsOf_concat, loadsOf_concat]
  simp only [he, ite_self, Option.toList_none, List.append_nil]
  rfl

theorem exists_front {α : Type} {q : List (Nat × α)} {l : List α} (h : Numbers q l) {a : α} (ha : l[0]? = some a) :
    ∃ k, q[0]?.map Prod.fst = some k ∧ q.map Prod.fst = k :: (q.map Prod.fst).tail := by
  obtain ⟨k, hk⟩ := h.exists_number ha
  cases q with
  | nil => cases hk
  | cons x rest =>
    obtain rfl := Option.some.inj hk
    exact ⟨k, rfl, rfl⟩

theorem step_closed {r : Request K T P} (hm : m = .call (.load r.key r.target r.params))
    (hr : (j.next hooks survives m).binder.requests = j.binder.requests)
    (hd : (j.next hooks survives m).binder.deliveries = j.binder.deliveries) :
    j.lines.Step (j.next hooks survives m).lines := by
  subst hm
  rw [lines_load (congrArg _ (requeue_keep rfl hr)) hd]
  exact .closed

theorem step_queued {r : Request K T P} (hm : (j.entry m).Missed hooks r)
    (hr : (j.next hooks survives m).binder.requests = j.binder.requests ++ [hooks.prepared r])
    (hd : (j.next hooks survives m).binder.deliveries = j.binder.deliveries) :
    j.lines.Step (j.next hooks survives m).lines := by
  obtain rfl : m = .call (.load r.key r.target r.params) := hm.loads
  rw [lines_load ((congrArg _ (requeue_push rfl rfl hr)).trans List.map_append) hd]
  exact .queued

theorem step_ended {r : Request K T P} (h : j.Consistent hooks) (hm : (j.entry m).Works 0 r)
    (hr : (j.next hooks survives m).binder.requests = j.binder.requests.eraseIdx 0)
    (hd : (j.next hooks survives m).binder.deliveries = j.binder.deliveries) :
    j.lines.Step (j.next hooks survives m).lines := by
  obtain rfl : m = .work 0 := hm.move
  obtain ⟨k, hk, hfront⟩ := exists_front h.requests hm.request
  rw [lines_work hk hr (congrArg _ (requeue_keep rfl hd))]
  exact .ended hfront

theorem step_computed {r : Request K T P} {data : Option D} (h : j.Consistent hooks) (hm : (j.entry m).Works 0 r)
    (hr : (j.next hooks survives m).binder.requests = j.binder.requests.eraseIdx 0)
    (hd : (j.next hooks survives m).binder.deliveries = j.binder.deliveries ++ [⟨r, data⟩]) :
    j.lines.Step (j.next hooks survives m).lines := by
  obtain rfl : m = .work 0 := hm.move
  obtain ⟨k, hk, hfront⟩ := exists_front h.requests hm.request
  rw [lines_work hk hr ((congrArg _ (requeue_push rfl hk hd)).trans List.map_append)]
  exact .computed hfront

theorem step_delivered {d : Delivery K D T P} (h : j.Consistent hooks) (hm : (j.entry m).Delivers 0 d)
    (hr : (j.next hooks survives m).binder.requests = j.binder.requests)
    (hd : (j.next hooks survives m).binder.deliveries = j.binder.deliveries.eraseIdx 0) :
    j.lines.Step (j.next hooks survives m).lines := by
  obtain rfl : m = .deliver 0 := hm.move
  obtain ⟨k, hk, hfront⟩ := exists_front h.deliveries hm.delivery
  rw [lines_deliver hk hr hd]
  exact .delivered hfront

theorem step_stray (hn : j.number m = none) : j.lines.Step (j.next hooks survives m).lines := by
  rw [lines_stray hn]
  exact .stays

theorem Consistent.lines_step (h : j.Consistent hooks) (hq : j.binder.reactions = []) (hm : m.AtFront) :
    j.lines.Step (j.next hooks survives m).lines := by
  have works {i : Nat} {r : Request K T P} (hw : (j.entry m).Works i r) : i = 0 := by
    obtain rfl : m = .work i := hw.move
    exact hm
  have delivers {i : Nat} {d : Delivery K D T P} (hd : (j.entry m).Delivers i d) : i = 0 := by
    obtain rfl : m = .deliver i := hd.move
    exact hm
  cases (j.entry m).kind hooks with
  | vetoed r hk =>
    have hres : (j.entry m).result hooks survives = _ := hk.result hq
    exact step_closed hk.loads (congrArg (·.binder.requests) hres) (congrArg (·.binder.deliveries) hres)
  | hit r data hk =>
    have hres : (j.entry m).result hooks survives = _ := hk.result hq
    exact step_closed hk.loads (congrArg (·.binder.requests) hres) (congrArg (·.binder.deliveries) hres)
  | missed r hk =>
    have hres : (j.entry m).result hooks survives = _ := hk.result hq
    exact step_queued hk (congrArg (·.binder.requests) hres) (congrArg (·.binder.deliveries) hres)
  | skipped i r hk =>
    obtain rfl := works hk.works
    have hres : (j.entry m).result hooks survives = _ := hk.result
    exact step_ended h hk.works (congrArg (·.binder.requests) hres) (congrArg (·.binder.deliveries) hres)
  | panicked i r hk =>
    obtain rfl := works hk.works
    have hres : (j.entry m).result hooks survives = _ := hk.result
    exact step_ended h hk.works (congrArg (·.binder.requests) hres) (congrArg (·.binder.deliveries) hres)
  | computed i r data hk =>
    obtain rfl := works hk.works
    have hres : (j.entry m).result hooks survives = _ := hk.result
    exact step_computed h hk.works (congrArg (·.binder.requests) hres) (congrArg (·.binder.deliveries) hres)
  | dropped i d hk =>
    obtain rfl := delivers hk.delivers
    have hres : (j.entry m).result hooks survives = _ := hk.result
    exact step_delivered h hk.delivers (congrArg (·.binder.requests) hres) (congrArg (·.binder.deliveries) hres)
  | delivered i d hk =>
    obtain rfl := delivers hk.delivers
    have hres : (j.entry m).result hooks survives = _ := hk.result hq
    exact step_delivered h hk.delivers (congrArg (·.binder.requests) hres) (congrArg (·.binder.deliveries) hres)
  | canceled hk =>
    obtain rfl : m = .call .cancel := hk
    exact step_stray rfl
  | cleared hk =>
    obtain rfl : m = .call .clearCache := hk
    exact step_stray rfl
  | listening listener hk =>
    obtain rfl : m = .call (.setListener listener) := hk
    exact step_stray rfl
  | idle hk => exact step_stray (h.number_of_idle hk)

end Journal

variable [DecidableEq L] [DecidableEq K] {hooks : Hooks L K D T P} {survives : Bool} {cache : Cache K D}
  {ms : List (Move L K T P)}

theorem journal_ordered (h : ∀ m ∈ ms, m.AtFront) : (journal hooks survives cache ms).lines.Ordered := by
  induction ms using List.reverseRecOn with
  | nil =>
    have hnil : Increasing [0] := List.pairwise_singleton _ _
    exact ⟨hnil, hnil, hnil⟩
  | append_singleton ms m ih =>
    have hpast := ih fun m' hm' => h m' (List.mem_append_left _ hm')
    rw [journal_concat]
    exact ((journal_consistent ms).lines_step (journal_quiet ms) (h m List.mem_concat_self)).ordered hpast

section Times

theorem pairwise_time (ms : List (Move L K T P)) :
    (journal hooks survives cache ms).entries.Pairwise (·.time < ·.time) := by
  induction ms using List.reverseRecOn with
  | nil => exact List.Pairwise.nil
  | append_singleton ms m ih =>
    rw [journal_concat, next_entries]
    refine List.pairwise_append.mpr ⟨ih, List.pairwise_singleton _ _, ?_⟩
    intro e he e' he'
    obtain rfl := List.mem_singleton.mp he'
    have hlt := (List.getElem?_eq_some_iff.mp (entry_of_mem he).1).1
    exact Nat.lt_of_lt_of_eq hlt (journal_length ms).symm

omit [DecidableEq L] [DecidableEq K] in
theorem time_lt_iff {kind : Move L K T P → Bool} {j : Journal L K D T P}
    (h : Increasing (Journal.loadsOf kind j.entries)) (ht : j.entries.Pairwise (·.time < ·.time)) {n n' : Nat}
    {e e' : Entry L K D T P} (he : e ∈ j.own n) (he' : e' ∈ j.own n') (hk : kind e.move = true)
    (hk' : kind e'.move = true) : e.time < e'.time ↔ n < n' := by
  let number (e : Entry L K D T P) : Option Nat := if kind e.move then e.load else none
  let Agrees (e e' : Entry L K D T P) : Prop :=
    ∀ n n', number e = some n → number e' = some n' → (e.time < e'.time ↔ n < n')
  have hpairs := ht.and (List.pairwise_filterMap.mp h)
  have hall : ∀ e ∈ j.entries, ∀ e' ∈ j.entries, Agrees e e' := by
    apply List.Pairwise.forall_of_forall_of_flip
    · intro e _ n n' hn hn'
      obtain rfl := Option.some.inj (hn.symm.trans hn')
      omega
    · refine hpairs.imp ?_
      intro e e' hlt n n' hn hn'
      exact iff_of_true hlt.1 (hlt.2 n hn n' hn')
    · refine hpairs.imp ?_
      intro e e' hlt n n' hn hn'
      have hnum : n' < n := hlt.2 n' hn' n hn
      have htime := hlt.1
      omega
  obtain ⟨he, hn⟩ := Journal.mem_own.mp he
  obtain ⟨he', hn'⟩ := Journal.mem_own.mp he'
  exact hall e he e' he' n n' (by simp only [number, hk, if_true, hn]) (by simp only [number, hk', if_true, hn'])

end Times

end TabDeck.Binder

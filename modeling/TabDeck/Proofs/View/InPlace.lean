import TabDeck.Proofs.View.Marks
import TabDeck.Proofs.View.Table
/-!
Taking holders out and putting them back is the same as changing them in their place, as long as no script touches a
view that is out.
-/
namespace TabDeck.View

variable {C K H R : Type} [DecidableEq K]

section Sparing

variable {key : K} {had : Bool} {marks more past mid after : List (Mark K)}

def Mark.leaves (key : K) (had : Bool) : Mark K → Bool
  | .made other => if other = key then true else had
  | m => (m.says? key).getD had

def Sparing (key : K) : Bool → List (Mark K) → Prop
  | _, [] => True
  | had, m :: marks => (m = .made key → had = false) ∧ Sparing key (m.leaves key had) marks

theorem sparing_append :
    Sparing key had (marks ++ more) ↔ Sparing key had marks ∧ Sparing key (marks.foldl (Mark.leaves key) had) more := by
  induction marks generalizing had with
  | nil => simp [Sparing]
  | cons m marks ih => simp only [List.cons_append, Sparing, List.foldl_cons, ih, and_assoc]

theorem Mark.says?_of_leaves {m : Mark K} (h : m.leaves key true = false) : m.says? key = some false := by
  cases m with
  | made other => exact absurd h (by simp [leaves])
  | returned other | removed other => exact (Option.getD_eq_iff.mp h).resolve_right nofun
  | cleared => rfl

theorem exists_removal_of_foldl (h : mid.foldl (Mark.leaves key) true = false) :
    ∃ m ∈ mid, m.says? key = some false := by
  induction mid with
  | nil => cases h
  | cons m mid ih =>
    rw [List.foldl_cons] at h
    cases hm : m.leaves key true with
    | true =>
      rw [hm] at h
      obtain ⟨m', hm', hsays⟩ := ih h
      exact ⟨m', List.mem_cons_of_mem m hm', hsays⟩
    | false => exact ⟨m, List.mem_cons_self, Mark.says?_of_leaves hm⟩

theorem Sparing.exists_removal (h : Sparing key had (past ++ .made key :: (mid ++ .made key :: after))) :
    ∃ m ∈ mid, m.says? key = some false := by
  obtain ⟨-, -, hmade⟩ := sparing_append.mp h
  obtain ⟨-, habsent, -⟩ := sparing_append.mp hmade
  refine exists_removal_of_foldl ?_
  rw [← habsent rfl, Mark.leaves, if_pos rfl]

end Sparing

mutual

/-- No script touches a view while its holder is out: neither while the holder is lent, as those of `out` are, nor, by
making another one, while it is being made, as those of `making` are. -/
def Holders.Apart (s : Holders C K H) (out making : List K) : Step K H → Prop
  | .withOrInsert key made create script =>
    match key.or s.current with
    | none => True
    | some key => key ∉ out ∧ key ∉ making ∧
      match s.holder? key with
      | some h => (s.takeOut key).RunApart (some h) (key :: out) making script
      | none =>
        s.RunApart none out (key :: making) create ∧
          (s.run none create).holders.RunApart (some made) (key :: out) making script
  | .withHolder key script =>
    match s.holder? key with
    | none => True
    | some h => (s.takeOut key).RunApart (some h) (key :: out) making script
  | .remove key => key ∉ out
  | .clear => out = []
  | .context | .setCurrent _ | .has _ | .summary | .edit _ => True

def Holders.RunApart (s : Holders C K H) (lent : Option H) (out making : List K) : List (Step K H) → Prop
  | [] => True
  | step :: rest =>
    s.Apart out making step ∧ (s.step lent step).holders.RunApart (s.step lent step).lent out making rest

end

structure Lent (held : Option H) (t : Table C K H) (out : List K) (lent : Option K) : Prop where
  held : held = lent.bind t.holders.lookup
  isOut (key : K) (h : key ∈ lent) : key ∈ out
  isSome (key : K) (h : key ∈ lent) : (t.holders.lookup key).isSome = true

structure Agree (s : Holders C K H) (held : Option H) (t : Table C K H) (out : List K) (lent : Option K) : Prop
    extends Lent held t out lent where
  context : s.context = t.context
  current : s.current = t.current
  distinct : (s.shelf.map Prod.fst).Nodup
  holder (key : K) : s.holder? key = t.seen? out key

section Lent

variable {held : Option H} {t t' : Table C K H} {out : List K} {lent : Option K} {key : K} {h : H}

theorem Lent.none (t : Table C K H) (out : List K) : Lent none t out none := ⟨rfl, nofun, nofun⟩

theorem Lent.some (hh : t.holders.lookup key = some h) : Lent (some h) t (key :: out) (some key) where
  held := hh.symm
  isOut other hother := by
    obtain rfl := Option.some.inj hother
    exact List.mem_cons_self
  isSome other hother := by
    obtain rfl := Option.some.inj hother
    exact Option.isSome_of_eq_some hh

theorem Lent.kept (hl : Lent held t out lent)
    (hkept : ∀ key ∈ lent, t'.holders.lookup key = t.holders.lookup key) : Lent held t' out lent where
  held := by
    rw [hl.held]
    cases lent with
    | none => rfl
    | some key => exact (hkept key rfl).symm
  isOut := hl.isOut
  isSome key hkey := (congrArg Option.isSome (hkept key hkey)).trans (hl.isSome key hkey)

theorem Lent.edited (hl : Lent held t out lent) (f : H → H) :
    Lent (held.map f) (lent.elim t (t.edit · f)) out lent := by
  cases lent with
  | none =>
    rw [hl.held]
    exact .none t out
  | some key =>
    have hedit : (t.edit key f).holders.lookup key = held.map f := by
      rw [Table.lookup_edit_self, hl.held, Option.bind_some]
    refine ⟨hedit.symm, hl.isOut, fun other hother => ?_⟩
    obtain rfl := Option.some.inj hother
    change ((t.edit key f).holders.lookup key).isSome = true
    rw [Table.lookup_edit_self, Option.isSome_map]
    exact hl.isSome key rfl

end Lent

namespace Agree

variable {s : Holders C K H} {held : Option H} {t : Table C K H} {out : List K} {lent : Option K} {key : K} {h : H}

theorem count (ha : Agree s held t out lent) : s.count = t.count out := by
  have hkeys : (s.shelf.map Prod.fst).toFinset = t.holders.keys.filter (· ∉ out) := by
    ext key
    rw [List.mem_toFinset, ← isSome_lookup_iff, Finset.mem_filter, Finmap.mem_keys, ← Finmap.lookup_isSome]
    change (s.holder? key).isSome = true ↔ _
    rw [ha.holder, Table.seen?]
    split_ifs with hkey <;> simp [hkey]
  rw [Table.count, ← hkeys, List.toFinset_card_of_nodup ha.distinct, List.length_map]
  rfl

theorem summary (ha : Agree s held t out lent) : s.summary = t.summary out := by
  rw [Holders.summary, Table.summary, ha.context, ha.count]

theorem out_of_holder (ha : Agree s held t out lent) (hh : s.holder? key = some h) :
    key ∉ out ∧ t.holders.lookup key = some h := by
  rw [ha.holder] at hh
  by_cases hkey : key ∈ out
  · rw [Table.seen?_of_mem hkey] at hh
    cases hh
  · exact ⟨hkey, (Table.seen?_of_not_mem hkey).symm.trans hh⟩

theorem unlent (ha : Agree s held t out lent) : Agree s none t out none := { ha with toLent := .none t out }

theorem table_eq (ha : Agree s held t [] lent) : s.table = t := by
  refine Table.ext ha.context ha.current (Finmap.ext_lookup fun key => ?_)
  rw [Holders.lookup_table, ha.holder, Table.seen?_of_not_mem List.not_mem_nil]

theorem takeOut (ha : Agree s held t out lent) (hh : s.holder? key = some h) :
    Agree (s.takeOut key) (some h) t (key :: out) (some key) where
  toLent := .some (ha.out_of_holder hh).2
  context := ha.context
  current := ha.current
  distinct := ha.distinct.sublist (List.filter_sublist.map Prod.fst)
  holder other := by rw [Holders.holder?_takeOut, Table.seen?_cons, ha.holder]

theorem made (ha : Agree s held t out lent) (hh : s.holder? key = none) (h : H) :
    Agree s (some h) (t.set key h) (key :: out) (some key) where
  toLent := .some (Table.lookup_set.trans (if_pos rfl))
  context := ha.context
  current := ha.current
  distinct := ha.distinct
  holder other := by
    rw [Table.seen?_cons]
    split
    · next hother => rw [hother, hh]
    · next hother => rw [ha.holder, Table.seen?, Table.seen?, Table.lookup_set, if_neg hother]

theorem putBack {used : Bench C K H (List (Reply C K H))} {answers : Option (List (Reply C K H))}
    (hu : Agree used.holders used.lent t (key :: out) (some key)) (hl : Lent held t out lent) (hkey : key ∉ out) :
    Agree (used.putBack held key h answers).holders held t out lent where
  toLent := hl
  context := hu.context
  current := hu.current
  distinct := by
    refine List.nodup_cons.mpr ⟨fun hmem => ?_, hu.distinct.sublist (List.filter_sublist.map Prod.fst)⟩
    obtain ⟨e, he, hekey⟩ := List.mem_map.mp hmem
    exact absurd hekey (by simpa using (List.mem_filter.mp he).2)
  holder other := by
    obtain ⟨h', hh⟩ := Option.isSome_iff_exists.mp (hu.isSome key rfl)
    change (used.holders.put key (used.lent.getD h)).holder? other = t.seen? out other
    rw [Holders.holder?_put, hu.held, Option.bind_some, hh, Option.getD_some, hu.holder, Table.seen?_cons]
    split
    · next hother => rw [hother, Table.seen?_of_not_mem hkey, hh]
    · rfl

theorem removed (ha : Agree s held t out lent) (hkey : key ∉ out) :
    Agree (s.remove key) held (t.remove key) out lent where
  toLent := by
    apply ha.toLent.kept
    intro other hother
    exact Table.lookup_remove.trans (if_neg (ne_of_mem_of_not_mem (ha.isOut other hother) hkey))
  context := ha.context
  current := by
    change (if s.current = some key then none else s.current) = if t.current = some key then none else t.current
    rw [ha.current]
  distinct := ha.distinct.sublist (List.filter_sublist.map Prod.fst)
  holder other := by
    change (s.takeOut key).holder? other = (t.remove key).seen? out other
    rw [Holders.holder?_takeOut, ha.holder, Table.seen?, Table.seen?, Table.lookup_remove]
    split_ifs <;> rfl

theorem cleared (ha : Agree s held t [] lent) : Agree s.clear held t.clear [] lent where
  toLent := ha.toLent.kept fun other hother => absurd (ha.isOut other hother) List.not_mem_nil
  context := ha.context
  current := rfl
  distinct := List.nodup_nil
  holder other := ((Table.seen?_of_not_mem List.not_mem_nil).trans (Finmap.lookup_empty other)).symm

theorem edited (ha : Agree s held t out lent) (f : H → H) :
    Agree s (held.map f) (lent.elim t (t.edit · f)) out lent := by
  cases lent with
  | none =>
    rw [ha.held]
    exact ha.unlent
  | some key =>
    exact {
      toLent := ha.toLent.edited f
      context := ha.context
      current := ha.current
      distinct := ha.distinct
      holder other := by
        change s.holder? other = (t.edit key f).seen? out other
        rw [ha.holder, Table.seen?, Table.seen?]
        split
        · rfl
        · next hother =>
          have hne : other ≠ key := fun he => hother (he ▸ ha.isOut key rfl)
          exact (Table.lookup_edit_of_ne hne).symm }

end Agree

theorem agree_table {s : Holders C K H} (hs : (s.shelf.map Prod.fst).Nodup) : Agree s none s.table [] none where
  toLent := .none s.table []
  context := rfl
  current := rfl
  distinct := hs
  holder key := by rw [Table.seen?_of_not_mem List.not_mem_nil, Holders.lookup_table]

structure Course (t : Table C K H) (out making : List K) (lent : Option K) (marks : List (Mark K))
    (t' : Table C K H) : Prop where
  kept (key : K) (hout : key ∈ out) (hlent : key ∉ lent) : t'.holders.lookup key = t.holders.lookup key
  missing (key : K) (hmaking : key ∈ making) (h : t.holders.lookup key = none) : t'.holders.lookup key = none
  sparing (key : K) : Sparing key (t.holders.lookup key).isSome marks
  leaves (key : K) : marks.foldl (Mark.leaves key) (t.holders.lookup key).isSome = (t'.holders.lookup key).isSome

namespace Course

variable {t t' t'' : Table C K H} {out making : List K} {lent : Option K} {marks more : List (Mark K)} {key : K}

theorem same (h : t'.holders = t.holders) : Course t out making lent [] t' where
  kept key _ _ := congrArg (Finmap.lookup key) h
  missing key _ hnone := (congrArg (Finmap.lookup key) h).trans hnone
  sparing _ := trivial
  leaves key := congrArg (fun holders => (Finmap.lookup key holders).isSome) h.symm

theorem trans (h : Course t out making lent marks t') (h' : Course t' out making lent more t'') :
    Course t out making lent (marks ++ more) t'' where
  kept key hout hlent := (h'.kept key hout hlent).trans (h.kept key hout hlent)
  missing key hmaking hnone := h'.missing key hmaking (h.missing key hmaking hnone)
  sparing key := sparing_append.mpr ⟨h.sparing key, (h.leaves key).symm ▸ h'.sparing key⟩
  leaves key := by rw [List.foldl_append, h.leaves, h'.leaves]

theorem lend (h : Course t out making none marks t') : Course t out making lent marks t' where
  kept key hout _ := h.kept key hout nofun
  missing := h.missing
  sparing := h.sparing
  leaves := h.leaves

theorem ofMaking (h : Course t out (key :: making) none marks t') : Course t out making none marks t' where
  kept := h.kept
  missing other hmaking := h.missing other (List.mem_cons_of_mem key hmaking)
  sparing := h.sparing
  leaves := h.leaves

theorem ofScript (h : Course t (key :: out) making (some key) marks t') (hkey : key ∉ out) :
    Course t out making none marks t' where
  kept other hout _ :=
    h.kept other (List.mem_cons_of_mem key hout) fun he => ne_of_mem_of_not_mem hout hkey (Option.some.inj he).symm
  missing := h.missing
  sparing := h.sparing
  leaves := h.leaves

theorem made (hout : key ∉ out) (hmaking : key ∉ making) (hnone : t.holders.lookup key = none) (h : H) :
    Course t out making lent [.made key] (t.set key h) where
  kept other hother _ := Table.lookup_set.trans (if_neg (ne_of_mem_of_not_mem hother hout))
  missing other hother := (Table.lookup_set.trans (if_neg (ne_of_mem_of_not_mem hother hmaking))).trans
  sparing other := ⟨fun he => by rw [← Mark.made.inj he, hnone]; rfl, trivial⟩
  leaves other := by
    rw [Table.lookup_set, List.foldl_cons, List.foldl_nil, Mark.leaves]
    by_cases hother : other = key
    · rw [if_pos hother, if_pos hother.symm, Option.isSome_some]
    · rw [if_neg hother, if_neg (Ne.symm hother)]

theorem returned (h : (t.holders.lookup key).isSome = true) : Course t out making lent [.returned key] t where
  kept _ _ _ := rfl
  missing _ _ hnone := hnone
  sparing _ := by simp [Sparing]
  leaves other := by
    change (if key = other then some true else none).getD _ = _
    by_cases hother : key = other
    · rw [if_pos hother, ← hother, h, Option.getD_some]
    · rw [if_neg hother, Option.getD_none]

theorem removed (hout : key ∉ out) : Course t out making lent [.removed key] (t.remove key) where
  kept other hother _ := Table.lookup_remove.trans (if_neg (ne_of_mem_of_not_mem hother hout))
  missing other _ hnone := by rw [Table.lookup_remove, hnone, ite_self]
  sparing _ := by simp [Sparing]
  leaves other := by
    change (if key = other then some false else none).getD _ = _
    rw [Table.lookup_remove]
    by_cases hother : other = key
    · rw [if_pos hother, if_pos hother.symm, Option.getD_some, Option.isSome_none]
    · rw [if_neg hother, if_neg (Ne.symm hother), Option.getD_none]

theorem cleared : Course t [] making lent [.cleared] t.clear where
  kept _ hother _ := absurd hother List.not_mem_nil
  missing _ _ _ := Finmap.lookup_empty _
  sparing _ := by simp [Sparing]
  leaves other := (congrArg Option.isSome (Finmap.lookup_empty other)).symm

theorem edited (f : H → H) : Course t out making lent [] (lent.elim t (t.edit · f)) := by
  cases lent with
  | none => exact same rfl
  | some key =>
    have hsome (other : K) : ((t.edit key f).holders.lookup other).isSome = (t.holders.lookup other).isSome := by
      by_cases hother : other = key
      · rw [hother, Table.lookup_edit_self, Option.isSome_map]
      · rw [Table.lookup_edit_of_ne hother]
    exact {
      kept other _ hlent := Table.lookup_edit_of_ne fun he => hlent (congrArg some he.symm)
      missing other _ hnone := by
        rw [← Option.not_isSome_iff_eq_none]
        exact ne_true_of_eq_false ((hsome other).trans (congrArg Option.isSome hnone))
      sparing _ := trivial
      leaves other := (hsome other).symm }

theorem keeps_lent {held : Option H} (h : Course t out making none marks t') (hl : Lent held t out lent) :
    Lent held t' out lent := by
  apply hl.kept
  intro other hother
  exact h.kept other (hl.isOut other hother) nofun

end Course

structure Follows (b : Bench C K H R) (t : Table C K H) (after : Table C K H × R) (out making : List K)
    (lent : Option K) (marks : List (Mark K)) : Prop where
  agree : Agree b.holders b.lent after.1 out lent
  result : b.result = after.2
  course : Course t out making lent marks after.1

namespace Follows

variable {s : Holders C K H} {held : Option H} {b : Bench C K H R} {t t' : Table C K H} {after : Table C K H × R}
  {out making : List K} {lent : Option K} {marks more : List (Mark K)} {key : K}

theorem after_course (hc : Course t out making none marks t') (h : Follows b t' after out making lent more) :
    Follows b t after out making lent (marks ++ more) :=
  ⟨h.agree, h.result, hc.lend.trans h.course⟩

theorem putBack {used : Bench C K H (List (Reply C K H))} {after : Table C K H × List (Reply C K H)}
    (hu : Follows used t after (key :: out) making (some key) marks) (hl : Lent held t out lent) (hkey : key ∉ out)
    (h : H) (answers : Option (List (Reply C K H))) :
    Follows (used.putBack held key h answers) t (Table.used key answers after) out making lent
      (marks ++ [.returned key]) := by
  have hcourse := hu.course.ofScript hkey
  have hback := hu.agree.isSome key rfl
  refine ⟨hu.agree.putBack (hcourse.keeps_lent hl) hkey, ?_, hcourse.lend.trans (.returned hback)⟩
  obtain ⟨h', hh⟩ := Option.isSome_iff_exists.mp hback
  change Answer.nested answers (some (used.result, used.lent.getD h)) = _
  rw [hu.agree.held, Option.bind_some, hh, Option.getD_some, hu.result, Table.used, hh, Option.map_some]

theorem run_cons {steps : List (Step K H)} {step : Step K H}
    (hstep : Follows (s.step held step) t (t.step out lent step) out making lent (s.marks step))
    (hrest : Follows ((s.step held step).holders.run (s.step held step).lent steps) (t.step out lent step).1
      ((t.step out lent step).1.run out lent steps) out making lent
      ((s.step held step).holders.runMarks (s.step held step).lent steps)) :
    Follows (s.run held (step :: steps)) t (t.run out lent (step :: steps)) out making lent
      (s.runMarks held (step :: steps)) := by
  refine ⟨hrest.agree, ?_, hstep.course.trans hrest.course⟩
  rw [Holders.run, Table.run, hstep.result, hstep.agree.count, hstep.agree.current, hrest.result]

end Follows

mutual

theorem step_follows {s : Holders C K H} {held : Option H} {t : Table C K H} {out making : List K} {lent : Option K}
    (ha : Agree s held t out lent) : (step : Step K H) → (happart : s.Apart out making step) →
      Follows (s.step held step) t (t.step out lent step) out making lent (s.marks step)
  | .context, _ => ⟨ha, congrArg Answer.context ha.context, .same rfl⟩
  | .setCurrent key, _ => ⟨{ ha with current := rfl }, rfl, .same rfl⟩
  | .has key, _ => ⟨ha, congrArg (Answer.flag ∘ Option.isSome) (ha.holder key), .same rfl⟩
  | .summary, _ => ⟨ha, congrArg Answer.text ha.summary, .same rfl⟩
  | .edit f, _ => ⟨ha.edited f, congrArg Answer.holder (ha.edited f).held, .edited f⟩
  | .remove key, hout => ⟨ha.removed hout, congrArg Answer.holder (ha.holder key), .removed hout⟩
  | .clear, hout => by
    obtain rfl : out = [] := hout
    exact ⟨ha.cleared, rfl, .cleared⟩
  | .withHolder key script, h => by
    cases hh : s.holder? key with
    | none =>
      have hseen : t.seen? out key = none := (ha.holder key).symm.trans hh
      simp only [Holders.step, Holders.marks, Table.step, hh, hseen]
      exact ⟨ha, rfl, .same rfl⟩
    | some x =>
      have hseen : t.seen? out key = some x := (ha.holder key).symm.trans hh
      simp only [Holders.Apart, hh] at h
      simp only [Holders.step, Holders.marks, Table.step, hh, hseen]
      exact (run_follows (ha.takeOut hh) script h).putBack ha.toLent (ha.out_of_holder hh).1 x none
  | .withOrInsert named made create script, h => by
    cases hnamed : named.or s.current with
    | none =>
      have hnamed' : named.or t.current = none := ha.current ▸ hnamed
      simp only [Holders.step, Holders.marks, Table.step, hnamed, hnamed']
      exact ⟨ha, rfl, .same rfl⟩
    | some key =>
      have hnamed' : named.or t.current = some key := ha.current ▸ hnamed
      simp only [Holders.Apart, hnamed] at h
      obtain ⟨hout, hmaking, h⟩ := h
      cases hh : s.holder? key with
      | some x =>
        have hseen : t.seen? out key = some x := (ha.holder key).symm.trans hh
        simp only [hh] at h
        simp only [Holders.step, Holders.marks, Table.step, hnamed, hnamed', hh, hseen]
        exact (run_follows (ha.takeOut hh) script h).putBack ha.toLent hout x none
      | none =>
        have hseen : t.seen? out key = none := (ha.holder key).symm.trans hh
        simp only [hh] at h
        have hready : Follows (s.run none create) t (t.run out none create) out (key :: making) none
            (s.runMarks none create) := run_follows ha.unlent create h.1
        -- the view still has no holder when its own is made, so nothing is overwritten
        have hnone : (t.run out none create).1.holders.lookup key = none :=
          hready.course.missing key List.mem_cons_self ((Table.seen?_of_not_mem hout).symm.trans hseen)
        have hholder : (s.run none create).holders.holder? key = none :=
          (hready.agree.holder key).trans ((Table.seen?_of_not_mem hout).trans hnone)
        have hmade := hready.course.ofMaking.trans (.made hout hmaking hnone made)
        have hscript := (run_follows (hready.agree.made hholder made) script h.2).putBack (hmade.keeps_lent ha.toLent)
          hout made
          (some (t.run out none create).2)
        simp only [Holders.step, Holders.marks, Table.step, hnamed, hnamed', hh, hseen, hready.result]
        rw [List.append_cons]
        exact hscript.after_course hmade

theorem run_follows {s : Holders C K H} {held : Option H} {t : Table C K H} {out making : List K} {lent : Option K}
    (ha : Agree s held t out lent) : (steps : List (Step K H)) → (happart : s.RunApart held out making steps) →
      Follows (s.run held steps) t (t.run out lent steps) out making lent (s.runMarks held steps)
  | [], _ => ⟨ha, rfl, .same rfl⟩
  | step :: steps, h =>
    have hstep := step_follows ha step h.1
    hstep.run_cons (run_follows hstep.agree steps h.2)

end

namespace Holders

/-- As long as no script touches a view that is out, the answers and the holders in the end are those of a map that is
changed in place, and between two holders that are made for a view, one is removed. -/
theorem run_inPlace {s : Holders C K H} (hs : (s.shelf.map Prod.fst).Nodup) {steps : List (Step K H)}
    (happart : s.RunApart none [] [] steps) :
    (s.run none steps).result = (s.table.run [] none steps).2 ∧
    (s.run none steps).holders.table = (s.table.run [] none steps).1 ∧
    ((s.run none steps).holders.shelf.map Prod.fst).Nodup ∧
    ∀ key past mid after, s.runMarks none steps = past ++ .made key :: (mid ++ .made key :: after) →
      ∃ m ∈ mid, m.says? key = some false := by
  obtain ⟨hagree, hresult, hcourse⟩ := run_follows (agree_table hs) steps happart
  refine ⟨hresult, hagree.table_eq, hagree.distinct, fun key past mid after hmarks => ?_⟩
  have hsparing := hcourse.sparing key
  rw [hmarks] at hsparing
  exact hsparing.exists_removal

theorem run_inPlace_nested :
    let s : Holders Unit Nat Nat := ofContext none
    let steps : List (Step Nat Nat) := [
      .withOrInsert (some 1) 10 [.withOrInsert (some 2) 20 [.clear] [.edit (· + 1)]]
        [.has 1, .summary, .withHolder 2 [.edit (· * 2), .setCurrent (some 3)], .edit (· + 5),
          .withOrInsert none 30 [] []],
      .remove 1, .withOrInsert (some 1) 7 [] []]
    s.RunApart none [] [] steps ∧ (s.run none steps).result = (s.table.run [] none steps).2 ∧
      (s.run none steps).holders.table = (s.table.run [] none steps).1 ∧
      (s.run none steps).holders.shelf = [(1, 7), (3, 30), (2, 42)] := by
  intro s steps
  have happart : s.RunApart none [] [] steps := by
    simp [steps, s, Holders.RunApart, Holders.Apart, Holders.holder?, Holders.takeOut, Holders.put, Holders.step,
      Holders.run, Bench.putBack, ofContext, clear, remove, List.lookup_cons]
  have hkeys : (s.shelf.map Prod.fst).Nodup := List.nodup_nil
  obtain ⟨hresult, htable, -, -⟩ := run_inPlace hkeys happart
  exact ⟨happart, hresult, htable, by decide +kernel⟩

end Holders

end TabDeck.View

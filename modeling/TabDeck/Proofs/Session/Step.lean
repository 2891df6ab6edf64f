import TabDeck.Session.Registry

namespace TabDeck.Session.Registry

variable {X : Type}

section Runs

variable (host : Nat → Parameter → String)

def run (r : Registry X) : List (Op X) → Turn X (List Answer)
  | [] => ⟨r, [], []⟩
  | op :: ops =>
    let first := r.step host op
    let others := first.registry.run ops
    ⟨others.registry, first.events ++ others.events, first.result :: others.result⟩

theorem run_append (r : Registry X) (ops rest : List (Op X)) :
    r.run host (ops ++ rest) =
      let first := r.run host ops
      let others := first.registry.run host rest
      ⟨others.registry, first.events ++ others.events, first.result ++ others.result⟩ := by
  induction ops generalizing r with
  | nil => rfl
  | cons op ops ih =>
    rw [List.cons_append, run, ih]
    simp only [run, List.append_assoc, List.cons_append]

theorem run_concat (r : Registry X) (ops : List (Op X)) (op : Op X) :
    r.run host (ops ++ [op]) =
      let first := r.run host ops
      let last := first.registry.step host op
      ⟨last.registry, first.events ++ last.events, first.result ++ [last.result]⟩ := by
  rw [run_append]
  simp only [run, List.append_nil]

end Runs

structure Steady (r after : Registry X) : Prop where
  listed : after.listed = r.listed
  openedX : after.openedX = r.openedX
  listedX : after.listedX = r.listedX
  lockHeld : after.lockHeld = r.lockHeld

theorem Steady.refl (r : Registry X) : r.Steady r := ⟨rfl, rfl, rfl, rfl⟩

theorem Steady.trans {r s t : Registry X} (h : r.Steady s) (h' : s.Steady t) : r.Steady t :=
  ⟨h'.listed.trans h.listed, h'.openedX.trans h.openedX, h'.listedX.trans h.listedX, h'.lockHeld.trans h.lockHeld⟩

theorem Steady.status {r after : Registry X} (h : r.Steady after) : after.status = r.status := by
  rw [Registry.status, h.listed, h.listedX, h.lockHeld]
  rfl

theorem steady_modify (r : Registry X) (session : Nat) (f : Terminal → Terminal) : r.Steady (r.modify session f) :=
  ⟨rfl, rfl, rfl, rfl⟩

theorem steady_finish (r : Registry X) (session : Nat) : r.Steady (r.finish session).registry := by
  rw [finish]
  cases r.opened[session]? with
  | none => exact .refl r
  | some t => exact steady_modify ..

theorem steady_finishAll (r : Registry X) (sessions : List Nat) : r.Steady (r.finishAll sessions).registry := by
  induction sessions generalizing r with
  | nil => exact .refl r
  | cons session rest ih => exact (steady_finish r session).trans (ih _)

theorem steady_stopAll (r : Registry X) : r.Steady r.stopAll.registry := steady_finishAll r r.listed

theorem position?_lt {r : Registry X} {handle : String} {i : Nat} (h : r.position? handle = some i) :
    i < r.listed.length := (List.findIdx?_eq_some_iff_getElem.mp h).1

end TabDeck.Session.Registry

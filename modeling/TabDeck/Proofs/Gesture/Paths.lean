import TabDeck.Proofs.Gesture.Tracking

namespace TabDeck.Gesture.Drag

def offAxis (moves : List Move) : List Move := moves.filter fun m => m.position?.isNone

def offPlane (moves : List Move) : List Move := moves.filter fun m => m.point?.isNone

section Projections

def plane (d : Drag) : Drag := { d with positionStart := none, dragDistance := 0, positionReached := false }

def axis (d : Drag) : Drag := { d with start := none, deltaX := 0, deltaY := 0, dragging := false }

theorem plane_step (d : Drag) (m : Move) :
    (d.step m).plane = if m.position?.isNone then d.plane.step m else d.plane := by
  cases m <;> rfl

theorem axis_step (d : Drag) (m : Move) : (d.step m).axis = if m.point?.isNone then d.axis.step m else d.axis := by
  cases m <;> rfl

variable {view : Drag → Drag} {keep : Move → Bool}

theorem view_run (h : ∀ d m, view (d.step m) = if keep m then (view d).step m else view d) (d : Drag)
    (moves : List Move) : view (d.run moves) = (view d).run (moves.filter keep) := by
  induction moves generalizing d with
  | nil => rfl
  | cons m moves ih =>
    rw [run, List.foldl_cons, ← run, ih, h, List.filter_cons]
    cases keep m <;> rfl

theorem view_run_filter (h : ∀ d m, view (d.step m) = if keep m then (view d).step m else view d) (d : Drag)
    (moves : List Move) : view (d.run (moves.filter keep)) = view (d.run moves) := by
  rw [view_run h, view_run h, List.filter_filter]
  simp only [Bool.and_self]

end Projections

section Latches

variable {d : Drag} {moves : List Move}

theorem latched_before {latch : Drag → Bool}
    (h : ∀ m ∈ moves, ∀ d, latch (d.step m) = true → latch d = true ∧ m ≠ .reset)
    (hrun : latch (d.run moves) = true) : latch d = true ∧ .reset ∉ moves := by
  induction moves generalizing d with
  | nil => exact ⟨hrun, List.not_mem_nil⟩
  | cons m moves ih =>
    obtain ⟨hstep, hrest⟩ := ih (fun m' hm' => h m' (List.mem_cons_of_mem m hm')) hrun
    obtain ⟨hd, hm⟩ := h m List.mem_cons_self d hstep
    refine ⟨hd, fun hmem => ?_⟩
    rcases List.mem_cons.mp hmem with he | hmem
    · exact hm he.symm
    · exact hrest hmem

theorem reached_of_latch {keep : Move → Bool} {latch : Drag → Bool} (hreset : keep .reset = true)
    (hlatch : ∀ d : Drag, latch d = true → d.isThresholdReached = true)
    (hstep : ∀ m d, keep m = true → latch (d.step m) = true → latch d = true ∧ m ≠ .reset)
    (h : latch (d.run (moves.filter keep)) = true) : (d.run moves).isThresholdReached = true := by
  have hkept : ∀ m ∈ moves.filter keep, ∀ d : Drag, latch (d.step m) = true → latch d = true ∧ m ≠ .reset :=
    fun m hm d => hstep m d (List.of_mem_filter hm)
  obtain ⟨hd, hnone⟩ := latched_before hkept h
  exact run_reached (fun hmem => hnone (List.mem_filter.mpr ⟨hmem, hreset⟩)) (hlatch d hd)

theorem position_latch (m : Move) (d : Drag) (hm : m.position?.isNone = true)
    (h : (d.step m).positionReached = true) : d.positionReached = true ∧ m ≠ .reset := by
  cases m with
  | update x y => exact ⟨h, nofun⟩
  | position p => cases hm
  | reset => cases h

theorem dragging_latch (m : Move) (d : Drag) (hm : m.point?.isNone = true) (h : (d.step m).dragging = true) :
    d.dragging = true ∧ m ≠ .reset := by
  cases m with
  | update x y => cases hm
  | position p => exact ⟨h, nofun⟩
  | reset => cases h

end Latches

structure Apart (d inPlane onAxis : Drag) : Prop where
  start : d.start = inPlane.start
  deltaX : d.deltaX = inPlane.deltaX
  deltaY : d.deltaY = inPlane.deltaY
  distance : d.distance = inPlane.distance
  positionStart : d.positionStart = onAxis.positionStart
  dragDistance : d.dragDistance = onAxis.dragDistance
  reached : d.isThresholdReached = (inPlane.isThresholdReached || onAxis.isThresholdReached)

theorem run_apart_filter (d : Drag) (moves : List Move) :
    Apart (d.run moves) (d.run (offAxis moves)) (d.run (offPlane moves)) := by
  have hplane : (d.run (offAxis moves)).plane = (d.run moves).plane := view_run_filter plane_step d moves
  have haxis : (d.run (offPlane moves)).axis = (d.run moves).axis := view_run_filter axis_step d moves
  obtain ⟨-, hstart, hdeltaX, hdeltaY, hdragging, -⟩ := Drag.mk.inj hplane
  obtain ⟨-, -, -, -, -, hpositionStart, hdragDistance, hpassed⟩ := Drag.mk.inj haxis
  refine ⟨hstart.symm, hdeltaX.symm, hdeltaY.symm, ?_, hpositionStart.symm, hdragDistance.symm, ?_⟩
  · rw [distance, distance, hdeltaX, hdeltaY]
  · -- a reduced run can also be past the threshold by the path whose moves it lacks, if that was so from the start
    rw [Bool.eq_iff_iff, Bool.or_eq_true_iff]
    constructor
    · intro h
      rcases Bool.or_eq_true_iff.mp h with h | h
      · exact .inl (Bool.or_eq_true_iff.mpr (.inl (hdragging.trans h)))
      · exact .inr (Bool.or_eq_true_iff.mpr (.inr (hpassed.trans h)))
    · rintro (h | h)
      · rcases Bool.or_eq_true_iff.mp h with h | h
        · exact Bool.or_eq_true_iff.mpr (.inl (hdragging.symm.trans h))
        · exact reached_of_latch rfl (fun _ hd => Bool.or_eq_true_iff.mpr (.inr hd)) position_latch h
      · rcases Bool.or_eq_true_iff.mp h with h | h
        · exact reached_of_latch rfl (fun _ hd => Bool.or_eq_true_iff.mpr (.inl hd)) dragging_latch h
        · exact Bool.or_eq_true_iff.mpr (.inr (hpassed.symm.trans h))

theorem take_filter (keep : Move → Bool) (moves : List Move) (n : Nat) :
    (moves.filter keep).take ((moves.take n).filter keep).length = (moves.take n).filter keep := by
  have hsplit : moves.filter keep = (moves.take n).filter keep ++ (moves.drop n).filter keep := by
    rw [← List.filter_append, List.take_append_drop]
  rw [hsplit, List.take_left]

/-- At each point of a run; the others stand there when they have made what is left to them of its moves. -/
theorem run_apart (d : Drag) (moves : List Move) (n : Nat) :
    Apart (d.run (moves.take n)) (d.run ((offAxis moves).take (offAxis (moves.take n)).length))
      (d.run ((offPlane moves).take (offPlane (moves.take n)).length)) := by
  have haxis : (offAxis moves).take (offAxis (moves.take n)).length = offAxis (moves.take n) := take_filter ..
  have hplane : (offPlane moves).take (offPlane (moves.take n)).length = offPlane (moves.take n) := take_filter ..
  rw [haxis, hplane]
  exact run_apart_filter d (moves.take n)

end TabDeck.Gesture.Drag

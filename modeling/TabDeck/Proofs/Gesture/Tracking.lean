import Mathlib.Data.List.DropRight
import TabDeck.Gesture.Drag

namespace TabDeck.Gesture.Drag

namespace Move

def isReset : Move → Bool
  | .reset => true
  | _ => false

def point? : Move → Option (Float32 × Float32)
  | .update x y => some (x, y)
  | _ => none

def position? : Move → Option Float32
  | .position p => some p
  | _ => none

end Move

def gesture (moves : List Move) : List Move := moves.rtakeWhile fun m => !m.isReset

def fed {α : Type} (place? : Move → Option α) (moves : List Move) : List α := (gesture moves).filterMap place?

def points (moves : List Move) : List (Float32 × Float32) := fed Move.point? moves

def positions (moves : List Move) : List Float32 := fed Move.position? moves

def run (d : Drag) (moves : List Move) : Drag := moves.foldl step d

section Measures

variable {α : Type}

def latest (measure : α → α → Float32) : List α → Float32
  | [] => 0
  | first :: rest => measure first (rest.getLastD first)

def Exceeds (measure : α → α → Float32) (threshold : Float32) (places : List α) : Prop :=
  ∃ first ∈ places.head?, ∃ p ∈ places, threshold < measure first p

def exceeds (measure : α → α → Float32) (threshold : Float32) : List α → Bool
  | [] => false
  | first :: rest => (first :: rest).any fun p => threshold < measure first p

variable {measure : α → α → Float32} {threshold : Float32}

theorem exceeds_iff {places : List α} : exceeds measure threshold places = true ↔ Exceeds measure threshold places := by
  cases places with
  | nil => simp [exceeds, Exceeds]
  | cons first rest => simp only [exceeds, Exceeds, List.head?_cons, Option.mem_def, Option.some_inj, exists_eq_left',
      List.any_eq_true, decide_eq_true_iff]

theorem latest_concat (places : List α) (p : α) : latest measure (places ++ [p]) = measure (places.head?.getD p) p := by
  cases places with
  | nil => rfl
  | cons first rest =>
    rw [List.cons_append, latest, List.getLastD_concat]
    rfl

theorem exceeds_concat (places : List α) (p : α) : exceeds measure threshold (places ++ [p]) =
    (exceeds measure threshold places || decide (threshold < measure (places.head?.getD p) p)) := by
  cases places with
  | nil => exact (Bool.or_false _).trans (Bool.false_or _).symm
  | cons first rest =>
    -- the first place stays, so that only the new one is to be compared with it
    rw [List.cons_append, exceeds, exceeds, ← List.cons_append, List.any_append]
    exact congrArg _ (Bool.or_false _)

end Measures

def apart (o p : Float32 × Float32) : Float32 := ((p.1 - o.1) * (p.1 - o.1) + (p.2 - o.2) * (p.2 - o.2)).sqrt

def gap (o p : Float32) : Float32 := (p - o).abs

/-- The state of a drag that was fed these places since it was new or reset. -/
def tracked (threshold : Float32) (points : List (Float32 × Float32)) (positions : List Float32) : Drag where
  threshold
  start := points.head?
  deltaX := latest (fun o p => p.1 - o.1) points
  deltaY := latest (fun o p => p.2 - o.2) points
  dragging := exceeds apart threshold points
  positionStart := positions.head?
  dragDistance := if exceeds gap threshold positions then latest (fun o p => p - o) positions else 0
  positionReached := exceeds gap threshold positions

section Tracking

variable {threshold : Float32} {points : List (Float32 × Float32)} {positions : List Float32}

theorem update_tracked (x y : Float32) :
    (tracked threshold points positions).update x y = tracked threshold (points ++ [(x, y)]) positions := by
  simp only [tracked, update, latest_concat, exceeds_concat, List.head?_concat]
  rfl

theorem updatePosition_tracked (p : Float32) :
    (tracked threshold points positions).updatePosition p = tracked threshold points (positions ++ [p]) := by
  -- the distance is kept only from the first position on that exceeds the threshold, and is 0 until then
  have hkept (old new : Bool) (before now : Float32) :
      (if old || new then now else if old then before else 0) = if old || new then now else 0 := by
    cases old <;> rfl
  simp only [tracked, updatePosition, latest_concat, exceeds_concat, List.head?_concat, gap]
  congr 1
  exact hkept ..

end Tracking

section Gesture

variable {α : Type} {moves later : List Move}

theorem gesture_reset (moves : List Move) : gesture (moves ++ [.reset]) = [] :=
  List.rtakeWhile_concat_neg _ _ _ (by decide)

theorem gesture_concat {m : Move} (h : m ≠ .reset) : gesture (moves ++ [m]) = gesture moves ++ [m] := by
  refine List.rtakeWhile_concat_pos _ _ _ ?_
  cases m with
  | reset => exact absurd rfl h
  | update x y => rfl
  | position p => rfl

theorem fed_reset (place? : Move → Option α) (moves : List Move) : fed place? (moves ++ [.reset]) = [] := by
  rw [fed, gesture_reset, List.filterMap_nil]

theorem fed_concat (place? : Move → Option α) {m : Move} (h : m ≠ .reset) :
    fed place? (moves ++ [m]) = fed place? moves ++ (place? m).toList := by
  rw [fed, gesture_concat h, List.filterMap_append]
  cases hplace : place? m with
  | none => rw [List.filterMap_cons_none hplace]; rfl
  | some p => rw [List.filterMap_cons_some hplace]; rfl

theorem run_append (d : Drag) (moves later : List Move) : d.run (moves ++ later) = (d.run moves).run later :=
  List.foldl_append

theorem step_tracked (threshold : Float32) (moves : List Move) (m : Move) :
    (tracked threshold (points moves) (positions moves)).step m =
      tracked threshold (points (moves ++ [m])) (positions (moves ++ [m])) := by
  cases m with
  | update x y =>
    have hm : Move.update x y ≠ .reset := nofun
    rw [step, update_tracked]
    simp only [points, positions, fed_concat _ hm]
    exact congrArg _ (List.append_nil _).symm
  | position p =>
    have hm : Move.position p ≠ .reset := nofun
    rw [step, updatePosition_tracked]
    simp only [points, positions, fed_concat _ hm]
    exact congrArg (tracked threshold · _) (List.append_nil _).symm
  | reset =>
    simp only [points, positions, fed_reset]
    rfl

theorem run_tracked (threshold : Float32) (moves : List Move) :
    (ofThreshold threshold).run moves = tracked threshold (points moves) (positions moves) := by
  induction moves using List.reverseRecOn with
  | nil => rfl
  | append_singleton moves m ih =>
    rw [run_append, ih]
    exact step_tracked threshold moves m

theorem step_reached {d : Drag} {m : Move} (hm : m ≠ .reset) (h : d.isThresholdReached = true) :
    (d.step m).isThresholdReached = true := by
  have hd := Bool.or_eq_true_iff.mp h
  cases m with
  | update x y => exact Bool.or_eq_true_iff.mpr (hd.imp_left fun hdrag => Bool.or_eq_true_iff.mpr (.inl hdrag))
  | position p => exact Bool.or_eq_true_iff.mpr (hd.imp_right fun hpass => Bool.or_eq_true_iff.mpr (.inl hpass))
  | reset => exact absurd rfl hm

theorem run_reached {d : Drag} (hlater : .reset ∉ later) (h : d.isThresholdReached = true) :
    (d.run later).isThresholdReached = true := by
  induction later generalizing d with
  | nil => exact h
  | cons m later ih =>
    obtain ⟨hm, hlater⟩ := not_or.mp (List.mem_cons.not.mp hlater)
    exact ih hlater (step_reached (Ne.symm hm) h)

theorem eq_nil_of_untouched (hpoints : points moves = []) (hpositions : positions moves = []) : gesture moves = [] := by
  rw [List.eq_nil_iff_forall_not_mem]
  intro m hm
  have hpoint := List.filterMap_eq_nil_iff.mp hpoints m hm
  have hposition := List.filterMap_eq_nil_iff.mp hpositions m hm
  have hreset := List.mem_rtakeWhile_imp hm
  cases m with
  | update x y => cases hpoint
  | position p => cases hposition
  | reset => cases hreset

end Gesture

structure Reports (d : Drag) (threshold : Float32) (moves : List Move) : Prop where
  reached : d.isThresholdReached = true ↔
    Exceeds apart threshold (points moves) ∨ Exceeds gap threshold (positions moves)
  start : d.start = (points moves).head?
  positionStart : d.positionStart = (positions moves).head?
  deltaX : d.deltaX = latest (fun o p => p.1 - o.1) (points moves)
  deltaY : d.deltaY = latest (fun o p => p.2 - o.2) (points moves)
  passed : Exceeds gap threshold (positions moves) → d.dragDistance = latest (fun o p => p - o) (positions moves)
  unpassed : ¬ Exceeds gap threshold (positions moves) → d.dragDistance = 0
  isReset : d.isReset = true ↔ gesture moves = []

theorem reports_tracked (threshold : Float32) (moves : List Move) :
    (tracked threshold (points moves) (positions moves)).Reports threshold moves where
  reached := by rw [isThresholdReached, Bool.or_eq_true_iff, ← exceeds_iff, ← exceeds_iff]; rfl
  start := rfl
  positionStart := rfl
  deltaX := rfl
  deltaY := rfl
  passed h := if_pos (exceeds_iff.mpr h)
  unpassed h := if_neg fun hexceeds => h (exceeds_iff.mp hexceeds)
  isReset := by
    rw [isReset, Bool.and_eq_true_iff, Option.isNone_iff_eq_none, Option.isNone_iff_eq_none]
    constructor
    · rintro ⟨hpoints, hpositions⟩
      exact eq_nil_of_untouched (List.head?_eq_none_iff.mp hpoints) (List.head?_eq_none_iff.mp hpositions)
    · intro h
      simp only [tracked, points, positions, fed, h]
      exact ⟨rfl, rfl⟩

theorem run_reports (threshold : Float32) (moves : List Move) :
    ((ofThreshold threshold).run moves).Reports threshold moves ∧
      (∀ later, .reset ∉ later → ((ofThreshold threshold).run moves).isThresholdReached = true →
        ((ofThreshold threshold).run (moves ++ later)).isThresholdReached = true) ∧
      ∀ later, (ofThreshold threshold).run (moves ++ .reset :: later) = (ofThreshold threshold).run later := by
  refine ⟨?_, fun later hlater h => ?_, fun later => ?_⟩
  · rw [run_tracked]
    exact reports_tracked threshold moves
  · rw [run_append]
    exact run_reached hlater h
  · rw [run_append, run_tracked]
    rfl

theorem run_reports_latched :
    let moves : List Move := [.update 0 0, .update 3 4, .position 100, .position (0 / 0), .position 85]
    let later : List Move := [.update 0 0, .position 100]
    .reset ∉ later ∧ ((ofThreshold 5).run (moves.take 4)).isThresholdReached = false ∧
      ((ofThreshold 5).run moves).isThresholdReached = true ∧
      ((ofThreshold 5).run (moves ++ later)).isThresholdReached = true ∧
      Exceeds gap 5 (positions moves) ∧ ((ofThreshold 5).run moves).dragDistance = 85 - 100 := by
  intro moves later
  obtain ⟨hreports, hlatch, -⟩ := run_reports 5 moves
  have hlater : .reset ∉ later := by simp [later]
  have hreached : ((ofThreshold 5).run moves).isThresholdReached = true := by decide +kernel
  have hpassed : Exceeds gap 5 (positions moves) := exceeds_iff.mp (by decide +kernel)
  exact ⟨hlater, by decide +kernel, hreached, hlatch later hlater hreached, hpassed, hreports.passed hpassed⟩

end TabDeck.Gesture.Drag

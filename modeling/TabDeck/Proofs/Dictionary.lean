import TabDeck.Order
import TabDeck.Proofs.Lookup

namespace TabDeck.Dictionary

variable {α β γ : Type} [Ord α] [Ord γ]

def Ascending (entries : List (α × β)) : Prop := entries.Pairwise fun e e' => compare e.1 e'.1 = .lt

instance (entries : List (α × β)) : Decidable (Ascending entries) :=
  inferInstanceAs (Decidable (entries.Pairwise fun e e' => compare e.1 e'.1 = .lt))

theorem mem_insert {key : α} {value : β} {entries : List (α × β)} {e : α × β} (h : e ∈ insert key value entries) :
    e = (key, value) ∨ e ∈ entries := by
  induction entries with
  | nil => exact .inl (List.mem_singleton.mp h)
  | cons e' entries ih =>
    rw [insert] at h
    split at h
    · exact List.mem_cons.mp h
    · exact (List.mem_cons.mp h).imp_right (List.mem_cons_of_mem e')
    · rcases List.mem_cons.mp h with rfl | h
      · exact .inr List.mem_cons_self
      · exact (ih h).imp_right (List.mem_cons_of_mem e')

section Renaming

variable {f : α → γ} (hf : ∀ k k', compare (f k) (f k') = compare k k')
include hf

theorem insert_map (key : α) (value : β) (entries : List (α × β)) :
    insert (f key) value (entries.map (Prod.map f id)) = (insert key value entries).map (Prod.map f id) := by
  induction entries with
  | nil => rfl
  | cons e entries ih =>
    obtain ⟨k, v⟩ := e
    simp only [List.map_cons, Prod.map, insert, hf]
    cases compare key k with
    | lt => rfl
    | eq => rfl
    | gt => exact congrArg ((f k, v) :: ·) ih

theorem foldl_insert_map (done entries : List (α × β)) :
    (entries.map (Prod.map f id)).foldl (fun d e => insert e.1 e.2 d) (done.map (Prod.map f id)) =
      (entries.foldl (fun d e => insert e.1 e.2 d) done).map (Prod.map f id) := by
  induction entries generalizing done with
  | nil => rfl
  | cons e entries ih =>
    rw [List.map_cons, List.foldl_cons, List.foldl_cons, ← ih]
    exact congrArg (List.foldl _ · _) (insert_map hf e.1 e.2 done)

theorem ofList_map (entries : List (α × β)) :
    ofList (entries.map (Prod.map f id)) = (ofList entries).map (Prod.map f id) := foldl_insert_map hf [] entries

end Renaming

section Last

variable [Std.OrientedOrd α]

theorem insert_last {key : α} {value : β} {entries : List (α × β)} (h : ∀ e ∈ entries, compare e.1 key = .lt) :
    insert key value entries = entries ++ [(key, value)] := by
  induction entries with
  | nil => rfl
  | cons e entries ih =>
    obtain ⟨k, v⟩ := e
    have hgt : compare key k = .gt := Std.OrientedCmp.gt_of_lt (h _ List.mem_cons_self)
    rw [insert, hgt]
    exact congrArg ((k, v) :: ·) (ih fun e he => h e (List.mem_cons_of_mem _ he))

theorem foldl_insert {done entries : List (α × β)} (h : Ascending (done ++ entries)) :
    entries.foldl (fun d e => insert e.1 e.2 d) done = done ++ entries := by
  induction entries generalizing done with
  | nil => exact (List.append_nil done).symm
  | cons e entries ih =>
    have hlast : ∀ e' ∈ done, compare e'.1 e.1 = .lt := fun e' he =>
      (List.pairwise_append.mp h).2.2 e' he e List.mem_cons_self
    rw [List.foldl_cons, insert_last hlast]
    rw [List.append_cons] at h
    exact (ih h).trans (List.append_cons done e entries).symm

theorem ofList_ascending {entries : List (α × β)} (h : Ascending entries) : ofList entries = entries := foldl_insert h

end Last

section Ascending

variable [Std.TransOrd α]

theorem ascending_insert (key : α) (value : β) {entries : List (α × β)} (h : Ascending entries) :
    Ascending (insert key value entries) := by
  induction entries with
  | nil => exact List.pairwise_singleton _ _
  | cons e entries ih =>
    obtain ⟨he, hrest⟩ := List.pairwise_cons.mp h
    rw [insert]
    split
    · next hlt =>
      refine List.pairwise_cons.mpr ⟨fun e' he' => ?_, h⟩
      rcases List.mem_cons.mp he' with rfl | he'
      · exact hlt
      · exact Std.TransCmp.lt_trans hlt (he e' he')
    · next heq => exact List.pairwise_cons.mpr ⟨fun e' he' => Std.TransCmp.lt_of_eq_of_lt heq (he e' he'), hrest⟩
    · next hgt =>
      refine List.pairwise_cons.mpr ⟨fun e' he' => ?_, ih hrest⟩
      rcases mem_insert he' with rfl | he'
      · exact Std.OrientedCmp.lt_of_gt hgt
      · exact he e' he'

theorem ascending_foldl_insert {done : List (α × β)} (h : Ascending done) (entries : List (α × β)) :
    Ascending (entries.foldl (fun d e => insert e.1 e.2 d) done) := by
  induction entries generalizing done with
  | nil => exact h
  | cons e entries ih => exact ih (ascending_insert e.1 e.2 h)

theorem ascending_ofList (entries : List (α × β)) : Ascending (ofList entries) :=
  ascending_foldl_insert List.Pairwise.nil entries

end Ascending

section Lookup

variable [Std.LawfulEqOrd α] [DecidableEq α] {key other : α} {value : β}

theorem lookup_insert_self (entries : List (α × β)) : (insert key value entries).lookup key = some value := by
  induction entries with
  | nil => exact List.lookup_cons_self
  | cons e entries ih =>
    rw [insert]
    split
    · exact List.lookup_cons_self
    · exact List.lookup_cons_self
    · next hgt =>
      have hne : key ≠ e.1 := by
        rintro rfl
        have hself : compare e.1 e.1 = .eq := Std.ReflCmp.compare_self
        cases hself.symm.trans hgt
      exact (lookup_cons_of_ne hne).trans ih

theorem lookup_insert_of_ne (h : other ≠ key) (entries : List (α × β)) :
    (insert key value entries).lookup other = entries.lookup other := by
  induction entries with
  | nil => exact lookup_cons_of_ne h
  | cons e entries ih =>
    rw [insert]
    split
    · exact lookup_cons_of_ne h
    · next heq =>
      have hkey : other ≠ e.1 := Std.LawfulEqCmp.eq_of_compare heq ▸ h
      exact (lookup_cons_of_ne h).trans (lookup_cons_of_ne hkey).symm
    · rw [List.lookup_cons, List.lookup_cons, ih]

theorem lookup_foldl_insert (done entries : List (α × β)) :
    (entries.foldl (fun d e => insert e.1 e.2 d) done).lookup key =
      (entries.reverse.lookup key).or (done.lookup key) := by
  induction entries generalizing done with
  | nil => rfl
  | cons e entries ih =>
    rw [List.foldl_cons, ih, List.reverse_cons, List.lookup_append, Option.or_assoc]
    congr 1
    by_cases hkey : key = e.1
    · subst hkey
      rw [lookup_insert_self, List.lookup_cons_self, Option.some_or]
    · rw [lookup_insert_of_ne hkey, lookup_cons_of_ne hkey, List.lookup_nil, Option.none_or]

theorem lookup_ofList (entries : List (α × β)) : (ofList entries).lookup key = entries.reverse.lookup key :=
  (lookup_foldl_insert [] entries).trans Option.or_none

end Lookup

end TabDeck.Dictionary

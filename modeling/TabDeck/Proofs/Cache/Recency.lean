import Mathlib.Data.Finset.Card
import Mathlib.Data.List.Induction
import TabDeck.Proofs.Cache.Entries
/-!
Which keys a cache holds after a run: one that was put stays for as long as fewer other keys than the capacity are
used.
-/
namespace TabDeck

section Recent

variable {K : Type} [DecidableEq K]

def firsts : List K → List K
  | [] => []
  | k :: ks => k :: (firsts ks).filter (· != k)

theorem mem_firsts {k : K} {ks : List K} : k ∈ firsts ks ↔ k ∈ ks := by
  induction ks with
  | nil => rfl
  | cons x ks ih => by_cases hk : k = x <;> simp [firsts, ih, hk]

theorem nodup_firsts (ks : List K) : (firsts ks).Nodup := by
  induction ks with
  | nil => exact List.nodup_nil
  | cons x ks ih => exact List.nodup_cons.mpr ⟨by simp, ih.filter _⟩

theorem length_firsts (ks : List K) : (firsts ks).length = ks.toFinset.card := by
  rw [← List.toFinset_card_of_nodup (nodup_firsts ks)]
  congr 1
  ext k
  simp [mem_firsts]

theorem takeWhile_filter_of_ne {k x : K} (h : k ≠ x) (ks : List K) :
    (ks.filter (· != x)).takeWhile (· != k) = (ks.takeWhile (· != k)).filter (· != x) := by
  induction ks with
  | nil => rfl
  | cons y ks ih =>
    by_cases hy : y = k
    · simp [hy, h]
    · by_cases hx : y = x
      · rw [List.filter_cons_of_neg (by simpa using hx), ih, List.takeWhile_cons_of_pos (by simpa using hy),
          List.filter_cons_of_neg (by simpa using hx)]
      · rw [List.filter_cons_of_pos (by simpa using hx), List.takeWhile_cons_of_pos (by simpa using hy),
          List.takeWhile_cons_of_pos (by simpa using hy), List.filter_cons_of_pos (by simpa using hx), ih]

theorem takeWhile_firsts (k : K) (ks : List K) :
    (firsts ks).takeWhile (· != k) = firsts (ks.takeWhile (· != k)) := by
  induction ks with
  | nil => rfl
  | cons x ks ih =>
    by_cases hx : x = k
    · simp [firsts, hx]
    · rw [firsts, List.takeWhile_cons_of_pos (by simpa using hx), List.takeWhile_cons_of_pos (by simpa using hx),
        takeWhile_filter_of_ne (Ne.symm hx), ih, firsts]

theorem mem_take_iff {k : K} {ks : List K} (n : Nat) :
    k ∈ ks.take n ↔ k ∈ ks ∧ (ks.takeWhile (· != k)).length < n := by
  induction ks generalizing n with
  | nil => simp
  | cons x ks ih =>
    cases n with
    | zero => simp
    | succ n =>
      by_cases hx : x = k
      · simp [hx]
      · rw [List.take_succ_cons, List.mem_cons, List.mem_cons, ih,
          List.takeWhile_cons_of_pos (by simpa using hx), List.length_cons]
        simp [Ne.symm hx]

theorem take_filter_take {k : K} {ks : List K} (h : ks.Nodup) (n : Nat) :
    ((ks.take (n + 1)).filter (· != k)).take n = (ks.filter (· != k)).take n := by
  induction ks generalizing n with
  | nil => rfl
  | cons x ks ih =>
    obtain ⟨hx, hks⟩ := List.nodup_cons.mp h
    rw [List.take_succ_cons]
    by_cases hk : x = k
    · -- the value stands nowhere else, so nothing more is left out
      subst hk
      have hall : ∀ y ∈ ks, (y != x) = true := fun y hy => by simpa using ne_of_mem_of_not_mem hy hx
      rw [List.filter_cons_of_neg (by simp), List.filter_cons_of_neg (by simp), List.filter_eq_self.mpr hall,
        List.filter_eq_self.mpr fun y hy => hall y (List.mem_of_mem_take hy), List.take_take, Nat.min_self]
    · rw [List.filter_cons_of_pos (by simpa using hk), List.filter_cons_of_pos (by simpa using hk)]
      cases n with
      | zero => rfl
      | succ n => rw [List.take_succ_cons, List.take_succ_cons, ih hks]

end Recent

namespace Cache

variable {K D : Type} [DecidableEq K]

def keys (c : Cache K D) : List K := c.entries.map Prod.fst

def run (c : Cache K D) (ops : List (Op K D)) : Cache K D := ops.foldl step c

/-- The key that an operation uses. To look for a key that is not there, or only whether it is there, is no use. -/
def used? (c : Cache K D) : Op K D → Option K
  | .put key _ => some key
  | .get key => if c.contains key then some key else none
  | .pop _ => none
  | .contains _ => none
  | .evictAll => none

def uses (c : Cache K D) : List (Op K D) → List K
  | [] => []
  | op :: ops => uses (c.step op) ops ++ (c.used? op).toList

def usedAfter (key : K) (used : List K) : List K := used.takeWhile (· != key)

def Op.value? (key : K) : Op K D → Option D
  | .put k value => if k = key then some value else none
  | _ => none

def lastPut? (key : K) (ops : List (Op K D)) : Option D := ops.reverse.findSome? (Op.value? key)

def Op.Keeping (op : Op K D) : Prop := op ≠ .evictAll ∧ ∀ key, op ≠ .pop key

section Step

variable {c : Cache K D} {key : K} {value : D}

theorem mem_keys_iff : key ∈ c.keys ↔ c.contains key = true := isSome_lookup_iff.symm

theorem keys_without : (c.without key).map Prod.fst = c.keys.filter (· != key) := by
  rw [keys, List.filter_map]
  rfl

theorem keys_put : (c.put key value).keys = (key :: c.keys.filter (· != key)).take c.capacity := by
  change (((key, value) :: c.without key).take c.capacity).map Prod.fst = _
  rw [List.map_take, List.map_cons, keys_without]

theorem keys_touch (hs : c.size ≤ c.capacity) (h : c.contains key = true) :
    (c.touch key).keys = (key :: c.keys.filter (· != key)).take c.capacity := by
  obtain ⟨d, hd⟩ := Option.isSome_iff_exists.mp h
  have hkeys : (c.touch key).keys = key :: c.keys.filter (· != key) := by
    rw [touch, hd, ← keys_without]
    rfl
  -- a hit takes a key from its place, so there is room for it
  have hlen : (c.touch key).keys.length ≤ c.capacity := by
    rw [keys, List.length_map]
    exact size_touch hs
  rw [← List.take_of_length_le hlen, hkeys]

theorem keys_step_of_used {op : Op K D} (hs : c.size ≤ c.capacity) (h : c.used? op = some key) :
    (c.step op).keys = (key :: c.keys.filter (· != key)).take c.capacity := by
  cases op with
  | put k v =>
    cases h
    exact keys_put
  | get k =>
    by_cases hk : c.contains k = true
    · obtain rfl : k = key := by simpa [used?, hk] using h
      exact keys_touch hs hk
    · simp [used?, hk] at h
  | pop k => cases h
  | contains k => cases h
  | evictAll => cases h

theorem touch_of_not_contains (h : c.contains key = false) : c.touch key = c := by
  have hnone : c.peek? key = none := by simpa [contains] using h
  rw [touch, hnone]

theorem step_of_not_used {op : Op K D} (hop : op.Keeping) (h : c.used? op = none) : c.step op = c := by
  cases op with
  | put k v => cases h
  | get k => exact touch_of_not_contains (by simpa [used?] using h)
  | pop k => exact absurd rfl (hop.2 k)
  | contains k => rfl
  | evictAll => exact absurd rfl hop.1

end Step

section Run

variable {c : Cache K D} {ops : List (Op K D)} {op : Op K D} {key : K}

theorem run_append (ops rest : List (Op K D)) : c.run (ops ++ rest) = (c.run ops).run rest := List.foldl_append

theorem run_concat : c.run (ops ++ [op]) = (c.run ops).step op := run_append ops [op]

theorem uses_concat : c.uses (ops ++ [op]) = ((c.run ops).used? op).toList ++ c.uses ops := by
  induction ops generalizing c with
  | nil => simp [uses, run]
  | cons first ops ih =>
    rw [List.cons_append, uses, ih, uses, List.append_assoc]
    rfl

theorem lastPut?_concat : lastPut? key (ops ++ [op]) = (op.value? key).or (lastPut? key ops) := by
  rw [lastPut?, List.reverse_concat, List.findSome?_cons]
  cases op.value? key <;> rfl

theorem capacity_run (ops : List (Op K D)) : (c.run ops).capacity = c.capacity := by
  induction ops using List.reverseRecOn with
  | nil => rfl
  | append_singleton ops op ih => rw [run_concat, capacity_step, ih]

theorem size_run (h : c.size ≤ c.capacity) (ops : List (Op K D)) : (c.run ops).size ≤ c.capacity := by
  induction ops using List.reverseRecOn with
  | nil => exact h
  | append_singleton ops op ih =>
    rw [← capacity_run ops] at ih ⊢
    rw [run_concat]
    exact size_step op ih

theorem keys_run (hc : c.entries = []) (hops : ∀ op ∈ ops, op.Keeping) :
    (c.run ops).keys = (firsts (c.uses ops)).take c.capacity := by
  have hsize (ops : List (Op K D)) : (c.run ops).size ≤ (c.run ops).capacity := by
    rw [capacity_run]
    exact size_run (by rw [size, hc]; exact Nat.zero_le _) ops
  induction ops using List.reverseRecOn with
  | nil =>
    change c.entries.map Prod.fst = _
    simp [hc, uses, firsts]
  | append_singleton ops op ih =>
    have hkeys := ih fun o ho => hops o (List.mem_append_left _ ho)
    rw [run_concat, uses_concat]
    cases h : (c.run ops).used? op with
    | none =>
      rw [step_of_not_used (hops op List.mem_concat_self) h, hkeys]
      rfl
    | some key =>
      obtain ⟨n, hn⟩ := Nat.exists_eq_succ_of_ne_zero (Nat.ne_of_gt c.capacity_pos)
      rw [keys_step_of_used (hsize ops) h, hkeys, capacity_run, hn, Option.toList_some, List.singleton_append, firsts,
        List.take_succ_cons, List.take_succ_cons, take_filter_take (nodup_firsts _)]

theorem peek?_run (hc : c.entries = []) (hops : ∀ op ∈ ops, op.Keeping) {v : D}
    (h : (c.run ops).peek? key = some v) : lastPut? key ops = some v := by
  induction ops using List.reverseRecOn with
  | nil =>
    change c.entries.lookup key = some v at h
    rw [hc] at h
    cases h
  | append_singleton ops op ih =>
    have hlast := ih fun o ho => hops o (List.mem_append_left _ ho)
    have hop := hops op List.mem_concat_self
    rw [run_concat] at h
    rw [lastPut?_concat]
    cases op with
    | put k value =>
      by_cases hk : k = key
      · subst hk
        have hv : some value = some v := peek?_put_self.symm.trans h
        simpa [Op.value?] using hv
      · rw [Op.value?, if_neg hk, Option.none_or]
        exact hlast (peek?_put_of_ne (Ne.symm hk) h)
    | get k =>
      have hv : (c.run ops).peek? key = some v := peek?_touch.symm.trans h
      exact hlast hv
    | contains k => exact hlast h
    | pop k => exact absurd rfl (hop.2 k)
    | evictAll => exact absurd rfl hop.1

theorem mem_uses_of_put {v : D} (h : .put key v ∈ ops) : key ∈ c.uses ops := by
  induction ops generalizing c with
  | nil => exact absurd h List.not_mem_nil
  | cons op ops ih =>
    rw [uses]
    rcases List.mem_cons.mp h with rfl | h
    · exact List.mem_append_right _ (List.mem_singleton.mpr rfl)
    · exact List.mem_append_left _ (ih h)

theorem put_of_lastPut? {v : D} (h : lastPut? key ops = some v) : .put key v ∈ ops := by
  obtain ⟨op, hop, hv⟩ := List.exists_of_findSome?_eq_some h
  cases op with
  | put k value =>
    obtain ⟨rfl, rfl⟩ : k = key ∧ value = v := by simpa [Op.value?] using hv
    exact List.mem_reverse.mp hop
  | _ => cases hv

theorem contains_run_iff (hc : c.entries = []) (hops : ∀ op ∈ ops, op.Keeping) (key : K) :
    (c.run ops).contains key = true ↔
      (∃ v, .put key v ∈ ops) ∧ (usedAfter key (c.uses ops)).toFinset.card < c.capacity := by
  have hmem : (c.run ops).contains key = true ↔
      key ∈ c.uses ops ∧ (usedAfter key (c.uses ops)).toFinset.card < c.capacity := by
    rw [← mem_keys_iff, keys_run hc hops, mem_take_iff, mem_firsts, takeWhile_firsts, length_firsts, usedAfter]
  constructor
  · intro h
    obtain ⟨v, hv⟩ := Option.isSome_iff_exists.mp h
    exact ⟨⟨v, put_of_lastPut? (peek?_run hc hops hv)⟩, (hmem.mp h).2⟩
  · rintro ⟨⟨v, hv⟩, hcard⟩
    exact hmem.mpr ⟨mem_uses_of_put hv, hcard⟩

theorem nodup_keys_run (hc : c.entries = []) (hops : ∀ op ∈ ops, op.Keeping) : (c.run ops).keys.Nodup := by
  rw [keys_run hc hops]
  exact (nodup_firsts _).sublist (List.take_sublist _ _)

end Run

structure Recency (capacity : Nat) (c : Cache K D) (ops : List (Op K D)) : Prop where
  cached (key : K) : (c.run ops).contains key = true ↔
    (∃ v, .put key v ∈ ops) ∧ (usedAfter key (c.uses ops)).toFinset.card < capacity
  value (key : K) (v : D) : (c.run ops).peek? key = some v → lastPut? key ops = some v
  replaced (before after : List (Op K D)) (key : K) (v : D) : ops = before ++ .put key v :: after →
    (c.run before).answer? (.put key v) = if (c.run before).contains key then lastPut? key before else none
  unused (before after : List (Op K D)) (key : K) (op : Op K D) : ops = before ++ op :: after →
    op = .contains key ∨ op = .get key ∧ (c.run before).contains key = false →
    ∀ later, c.run (before ++ op :: later) = c.run (before ++ later)
  distinct : (c.run ops).keys.Nodup
  bounded : (c.run ops).size ≤ capacity

theorem run_recency {capacity : Nat} (h : 0 < capacity) :
    ∃ cache : Cache K D, create capacity = .ok cache ∧ ∀ past ops,
      (past = [] ∨ past.getLast? = some .evictAll) → (∀ op ∈ ops, op.Keeping) →
      Recency capacity (cache.run past) ops := by
  refine ⟨⟨capacity, [], h⟩, dif_pos h, ?_⟩
  intro past ops hpast hops
  generalize hc : (⟨capacity, [], h⟩ : Cache K D).run past = c
  obtain ⟨hentries, rfl⟩ : c.entries = [] ∧ c.capacity = capacity := by
    subst hc
    refine ⟨?_, capacity_run past⟩
    rcases hpast with rfl | hlast
    · rfl
    · obtain ⟨earlier, rfl⟩ := List.getLast?_eq_some_iff.mp hlast
      rw [run_concat]
      rfl
  refine ⟨contains_run_iff hentries hops, fun key v => peek?_run hentries hops, ?_, ?_,
    nodup_keys_run hentries hops, size_run (by rw [size, hentries]; exact Nat.zero_le _) ops⟩
  · rintro before after key v rfl
    have hbefore : ∀ op ∈ before, op.Keeping := fun o ho => hops o (List.mem_append_left _ ho)
    change (c.run before).peek? key = _
    cases hv : (c.run before).peek? key with
    | none => rw [if_neg (by simp [contains, hv])]
    | some d => rw [if_pos (by simp [contains, hv]), peek?_run hentries hbefore hv]
  · intro before after key op _ hop later
    have hstep : (c.run before).step op = c.run before := by
      rcases hop with rfl | ⟨rfl, hmiss⟩
      · rfl
      · exact touch_of_not_contains hmiss
    rw [run_append, run_append]
    exact congrArg (fun c : Cache K D => c.run later) hstep

theorem run_recency_hit :
    let ops : List (Op Nat String) := [.put 1 "one", .put 2 "two", .get 1, .get 9, .contains 2, .put 3 "three"]
    0 < 2 ∧ (∀ op ∈ ops, op.Keeping) ∧ ∃ cache : Cache Nat String, create 2 = .ok cache ∧
      Recency 2 (cache.run [.put 7 "seven", .evictAll]) ops ∧
      ((cache.run [.put 7 "seven", .evictAll]).run ops).keys = [3, 1] := by
  intro ops
  have hops : ∀ op ∈ ops, op.Keeping := by simp [ops, Op.Keeping]
  obtain ⟨cache, hc, hrun⟩ := run_recency (K := Nat) (D := String) (by decide : 0 < 2)
  obtain rfl : ⟨2, [], by decide⟩ = cache := Except.ok.inj hc
  exact ⟨by decide, hops, _, hc, hrun _ _ (.inr rfl) hops, by decide⟩

end Cache

end TabDeck

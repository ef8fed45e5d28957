import Mathlib.Data.List.Nodup
import Mathlib.Data.List.Perm.Basic
import Mathlib.Logic.Function.Iterate
import MessagingIdentity.Serial

namespace MessagingIdentity.Serial

theorem toNat_next (n : UInt32) :
    (next n).toNat = min n.toNat largest.toNat % largest.toNat + 1 := by
  have hl : largest.toNat = 2147483647 := rfl
  unfold next
  split
  next h =>
    have hn : n.toNat < 2147483647 := UInt32.lt_iff_toNat_lt.mp h
    rw [UInt32.toNat_add, UInt32.toNat_one, hl]
    omega
  next h =>
    have hn : ¬n.toNat < 2147483647 := fun hn ↦ h (UInt32.lt_iff_toNat_lt.mpr hn)
    rw [UInt32.toNat_one, hl]
    omega

/-- The numbers count up from the seed and start anew after the largest. -/
theorem toNat_iterate_next (seed : UInt32) (k : ℕ) :
    (next^[k + 1] seed).toNat = (min seed.toNat largest.toNat + k) % largest.toNat + 1 := by
  induction k with
  | zero => exact toNat_next seed
  | succ k ih =>
    have hle : (min seed.toNat largest.toNat + k) % largest.toNat + 1 ≤ largest.toNat :=
      Nat.mod_lt _ (by decide)
    rw [Function.iterate_succ_apply', toNat_next, ih, Nat.min_eq_left hle, Nat.mod_add_mod]
    rfl

theorem iterate_next_range (seed : UInt32) (k : ℕ) :
    1 ≤ next^[k + 1] seed ∧ next^[k + 1] seed ≤ largest := by
  have h := toNat_iterate_next seed k
  have hlt := Nat.mod_lt (min seed.toNat largest.toNat + k) (y := largest.toNat) (by decide)
  simp only [UInt32.le_iff_toNat_le, UInt32.toNat_one]
  omega

theorem iterate_next_inj (seed : UInt32) {a j k : ℕ} (hj : a ≤ j ∧ j < a + largest.toNat)
    (hk : a ≤ k ∧ k < a + largest.toNat) (h : next^[j + 1] seed = next^[k + 1] seed) : j = k := by
  have hn := congrArg UInt32.toNat h
  rw [toNat_iterate_next, toNat_iterate_next, Nat.add_right_cancel_iff] at hn
  have hl : largest.toNat = 2147483647 := rfl
  rw [hl] at hj hk hn
  omega

theorem draws_eq_map (seed : UInt32) (count : ℕ) :
    draws seed count = (List.range count).map fun k ↦ next^[k + 1] seed := by
  induction count generalizing seed with
  | zero => rfl
  | succ count ih =>
    rw [draws, ih, List.range_succ_eq_map, List.map_cons, List.map_map]
    rfl

example : draws 2147483645 3 = [2147483646, 2147483647, 1] := by decide

namespace State

/-- The calls that have swapped, each with the place of its swap and the number it returns, or will
return when its thread gets to it. -/
def calls (s : State) : List (ℕ × UInt32) :=
  s.swapped.map (fun w ↦ (w.place, next w.previous)) ++ s.returned

def aloneCalls (seed : UInt32) (count : ℕ) : List (ℕ × UInt32) :=
  (List.range count).map fun k ↦ (k, next^[k + 1] seed)

/-- The counter has been swapped along the sequence of the seed, and each swap belongs to one call. -/
structure Follows (seed : UInt32) (s : State) : Prop where
  counter : s.counter = next^[s.swaps] seed
  calls : s.calls.Perm (aloneCalls seed s.swaps)

theorem follows_start (seed : UInt32) : Follows seed (start seed) := ⟨rfl, .nil⟩

theorem aloneCalls_succ (seed : UInt32) (count : ℕ) :
    ((count, next^[count + 1] seed) :: aloneCalls seed count).Perm (aloneCalls seed (count + 1)) := by
  rw [aloneCalls, aloneCalls, List.range_succ, List.map_append]
  exact (List.perm_append_singleton _ _).symm

variable {seed : UInt32} {s : State}

/-- A swap succeeds only if the counter is the number loaded, however long ago that was. -/
theorem Follows.swapped (h : Follows seed s) (t : ℕ) (loaded : List (ℕ × UInt32)) :
    Follows seed ⟨next s.counter, s.swaps + 1, loaded, ⟨t, s.swaps, s.counter⟩ :: s.swapped,
      s.returned⟩ := by
  have hnext : next s.counter = next^[s.swaps + 1] seed := by
    rw [h.counter, Function.iterate_succ_apply']
  refine ⟨hnext, ?_⟩
  have hcall : ((s.swaps, next s.counter) :: s.calls).Perm
      ((s.swaps, next^[s.swaps + 1] seed) :: aloneCalls seed s.swaps) :=
    hnext ▸ h.calls.cons _
  exact hcall.trans (aloneCalls_succ seed s.swaps)

theorem Follows.returned (h : Follows seed s) {w : Swap} (hw : w ∈ s.swapped) :
    Follows seed { s with
      swapped := s.swapped.erase w, returned := (w.place, next w.previous) :: s.returned } := by
  refine ⟨h.counter, ?_⟩
  have hmoved := ((List.perm_cons_erase hw).map fun w ↦ (w.place, next w.previous)).append_right
    s.returned
  exact (List.perm_middle.trans hmoved.symm).trans h.calls

/-- A step leaves the state alone, begins a call, loads anew after a failed swap, swaps the number
that the counter still holds, or returns. -/
theorem step_cases (s : State) (e : Event) :
    s.step e = s ∨
      (∃ t, ¬s.calling t ∧ s.step e = { s with loaded := (t, s.counter) :: s.loaded }) ∨
      (∃ t n, s.loaded.lookup t = some n ∧
        s.step e = { s with loaded := (t, s.counter) :: s.loaded.filter (·.1 ≠ t) }) ∨
      (∃ t, s.loaded.lookup t = some s.counter ∧
        s.step e = ⟨next s.counter, s.swaps + 1, s.loaded.filter (·.1 ≠ t),
          ⟨t, s.swaps, s.counter⟩ :: s.swapped, s.returned⟩) ∨
      ∃ w ∈ s.swapped, s.step e = { s with
        swapped := s.swapped.erase w, returned := (w.place, next w.previous) :: s.returned } := by
  cases e with
  | load t =>
    by_cases ht : s.calling t
    · exact .inl (if_pos ht)
    · exact .inr (.inl ⟨t, ht, if_neg ht⟩)
  | swap t spurious =>
    unfold State.step
    dsimp only
    split
    · exact .inl rfl
    next n hn =>
      split
      next hsame =>
        obtain rfl := of_decide_eq_true (Bool.and_eq_true_iff.mp hsame).1
        exact .inr (.inr (.inr (.inl ⟨t, hn, rfl⟩)))
      next => exact .inr (.inr (.inl ⟨t, n, hn, rfl⟩))
  | finish t =>
    unfold State.step
    dsimp only
    split
    · exact .inl rfl
    next w hw => exact .inr (.inr (.inr (.inr ⟨w, List.mem_of_find?_eq_some hw, rfl⟩)))

theorem Follows.step (h : Follows seed s) (e : Event) : Follows seed (s.step e) := by
  obtain he | ⟨t, -, he⟩ | ⟨t, n, -, he⟩ | ⟨t, -, he⟩ | ⟨w, hw, he⟩ := s.step_cases e <;> rw [he]
  · exact h
  · exact ⟨h.counter, h.calls⟩
  · exact ⟨h.counter, h.calls⟩
  · exact h.swapped t _
  · exact h.returned hw

theorem Follows.run (h : Follows seed s) (events : List Event) : Follows seed (s.run events) := by
  induction events generalizing s with
  | nil => exact h
  | cons e events ih => exact ih (h.step e)

theorem Follows.eq_of_mem (h : Follows seed s) {c : ℕ × UInt32} (hc : c ∈ s.calls) :
    c.2 = next^[c.1 + 1] seed := by
  obtain ⟨k, -, rfl⟩ := List.mem_map.mp (h.calls.mem_iff.mp hc)
  rfl

theorem Follows.map {α : Type} (h : Follows seed s) (f : ℕ × UInt32 → α) :
    (s.calls.map f).Perm ((List.range s.swaps).map fun k ↦ f (k, next^[k + 1] seed)) := by
  have hmap := h.calls.map f
  rwa [aloneCalls, List.map_map] at hmap

theorem Follows.numbers (h : Follows seed s) :
    (s.calls.map Prod.snd).Perm (draws seed s.swaps) := by
  rw [draws_eq_map]
  exact h.map Prod.snd

theorem Follows.places (h : Follows seed s) : (s.calls.map Prod.fst).Perm (List.range s.swaps) :=
  (h.map Prod.fst).trans (List.map_id _ ▸ .refl _)

theorem Follows.nodup (h : Follows seed s) : s.calls.Nodup :=
  .of_map Prod.fst (h.places.nodup_iff.mpr List.nodup_range)

theorem Follows.nodup_window (h : Follows seed s) (a : ℕ) :
    ((s.calls.filter fun c ↦ a ≤ c.1 ∧ c.1 < a + largest.toNat).map Prod.snd).Nodup := by
  refine (h.nodup.filter _).map_on fun c hc d hd hcd ↦ ?_
  obtain ⟨hc, hca⟩ := List.mem_filter.mp hc
  obtain ⟨hd, hda⟩ := List.mem_filter.mp hd
  have hplace : c.1 = d.1 := by
    refine iterate_next_inj seed (of_decide_eq_true hca) (of_decide_eq_true hda) ?_
    rw [← h.eq_of_mem hc, ← h.eq_of_mem hd, hcd]
  exact Prod.ext hplace hcd

/-- No thread is in two calls at once. -/
structure Apart (s : State) : Prop where
  threads : (s.swapped.map Swap.thread).Nodup
  loaded : ∀ w ∈ s.swapped, s.loaded.lookup w.thread = none

theorem apart_start (seed : UInt32) : Apart (start seed) := ⟨List.nodup_nil, List.forall_mem_nil _⟩

theorem lookup_filter_self (t : ℕ) (loaded : List (ℕ × UInt32)) :
    (loaded.filter (·.1 ≠ t)).lookup t = none := by
  refine List.lookup_eq_none_iff.mpr fun p hp ↦ bne_iff_ne.mpr ?_
  exact (of_decide_eq_true (List.mem_filter.mp hp).2).symm

theorem lookup_filter_of_ne {t u : ℕ} (hu : u ≠ t) (loaded : List (ℕ × UInt32)) :
    (loaded.filter (·.1 ≠ t)).lookup u = loaded.lookup u := by
  induction loaded with
  | nil => rfl
  | cons p loaded ih =>
    obtain ⟨v, n⟩ := p
    by_cases hv : v = t
    · subst hv
      rw [List.filter_cons_of_neg (by simp), ih, List.lookup_cons, beq_false_of_ne hu]
    · rw [List.filter_cons_of_pos (by simpa using hv), List.lookup_cons, List.lookup_cons, ih]

theorem Apart.ne_of_lookup (h : Apart s) {t : ℕ} {n : UInt32} (ht : s.loaded.lookup t = some n)
    {w : Swap} (hw : w ∈ s.swapped) : w.thread ≠ t := fun hwt ↦ by
  have hnone := h.loaded w hw
  rw [hwt, ht] at hnone
  cases hnone

theorem Apart.find_thread (h : Apart s) {w : Swap} (hw : w ∈ s.swapped) :
    s.swapped.find? (·.thread = w.thread) = some w := by
  cases hv : s.swapped.find? (·.thread = w.thread) with
  | none => exact absurd (decide_eq_true rfl) (List.find?_eq_none.mp hv w hw)
  | some v =>
    have hthread : v.thread = w.thread := by simpa using List.find?_some hv
    rw [List.inj_on_of_nodup_map h.threads (List.mem_of_find?_eq_some hv) hw hthread]

theorem calling_iff {t : ℕ} :
    s.calling t ↔ (s.loaded.lookup t).isSome ∨ ∃ w ∈ s.swapped, w.thread = t := by
  simp [calling]

theorem Apart.load (h : Apart s) {t : ℕ} (ht : ¬s.calling t) :
    Apart { s with loaded := (t, s.counter) :: s.loaded } := by
  refine ⟨h.threads, fun w hw ↦ ?_⟩
  have hwt : w.thread ≠ t := fun hwt ↦ ht (calling_iff.mpr (.inr ⟨w, hw, hwt⟩))
  rw [List.lookup_cons, beq_false_of_ne hwt]
  exact h.loaded w hw

theorem Apart.reload (h : Apart s) {t : ℕ} {n : UInt32} (ht : s.loaded.lookup t = some n) :
    Apart { s with loaded := (t, s.counter) :: s.loaded.filter (·.1 ≠ t) } := by
  refine ⟨h.threads, fun w hw ↦ ?_⟩
  have hwt := h.ne_of_lookup ht hw
  rw [List.lookup_cons, beq_false_of_ne hwt, lookup_filter_of_ne hwt]
  exact h.loaded w hw

theorem Apart.swapped (h : Apart s) {t : ℕ} (ht : s.loaded.lookup t = some s.counter) :
    Apart ⟨next s.counter, s.swaps + 1, s.loaded.filter (·.1 ≠ t),
      ⟨t, s.swaps, s.counter⟩ :: s.swapped, s.returned⟩ := by
  refine ⟨List.nodup_cons.mpr ⟨fun hmem ↦ ?_, h.threads⟩, List.forall_mem_cons.mpr
    ⟨lookup_filter_self t s.loaded, fun w hw ↦ ?_⟩⟩
  · obtain ⟨w, hw, hwt⟩ := List.mem_map.mp hmem
    exact h.ne_of_lookup ht hw hwt
  · rw [lookup_filter_of_ne (h.ne_of_lookup ht hw)]
    exact h.loaded w hw

theorem Apart.returned (h : Apart s) (w : Swap) (returned : List (ℕ × UInt32)) :
    Apart { s with swapped := s.swapped.erase w, returned := returned } :=
  ⟨h.threads.sublist (List.erase_sublist.map _),
    fun v hv ↦ h.loaded v (List.mem_of_mem_erase hv)⟩

theorem Apart.step (h : Apart s) (e : Event) : Apart (s.step e) := by
  obtain he | ⟨t, ht, he⟩ | ⟨t, n, ht, he⟩ | ⟨t, ht, he⟩ | ⟨w, -, he⟩ := s.step_cases e <;> rw [he]
  · exact h
  · exact h.load ht
  · exact h.reload ht
  · exact h.swapped ht
  · exact h.returned w _

theorem Apart.run (h : Apart s) (events : List Event) : Apart (s.run events) := by
  induction events generalizing s with
  | nil => exact h
  | cons e events ih => exact ih (h.step e)

theorem step_finish {t : ℕ} {w : Swap} (hw : s.swapped.find? (·.thread = t) = some w) :
    s.step (.finish t) = { s with
      swapped := s.swapped.erase w, returned := (w.place, next w.previous) :: s.returned } := by
  unfold State.step
  simp only [hw]

/-- The pending calls return, one after the other. -/
def finishes (s : State) : List Event :=
  s.swapped.map fun w ↦ .finish w.thread

theorem run_finishes (s : State) :
    s.run s.finishes = { s with
      swapped := []
      returned := (s.swapped.map fun w ↦ (w.place, next w.previous)).reverse ++ s.returned } := by
  obtain ⟨counter, swaps, loaded, swapped, returned⟩ := s
  induction swapped generalizing returned with
  | nil => rfl
  | cons w swapped ih =>
    have hw : (w :: swapped).find? (·.thread = w.thread) = some w :=
      List.find?_cons_of_pos (decide_eq_true rfl)
    have hstep : State.step ⟨counter, swaps, loaded, w :: swapped, returned⟩ (.finish w.thread) =
        ⟨counter, swaps, loaded, swapped, (w.place, next w.previous) :: returned⟩ := by
      rw [step_finish hw, List.erase_cons_head]
    change State.run (State.step _ (.finish w.thread)) _ = _
    rw [hstep]
    refine (ih ((w.place, next w.previous) :: returned)).trans ?_
    rw [List.map_cons, List.reverse_cons, List.append_assoc]
    rfl

/-- A thread that takes all steps of a call, its second swap for a number loaded too long ago. -/
def alone (t : ℕ) : List Event :=
  [.load t, .swap t false, .swap t false, .finish t]

theorem step_swap_counter {t : ℕ} (ht : s.loaded.lookup t = some s.counter) :
    s.step (.swap t false) = ⟨next s.counter, s.swaps + 1, s.loaded.filter (·.1 ≠ t),
      ⟨t, s.swaps, s.counter⟩ :: s.swapped, s.returned⟩ := by
  unfold State.step
  simp only [ht]
  rfl

theorem step_swap_none {t : ℕ} (ht : s.loaded.lookup t = none) (spurious : Bool) :
    s.step (.swap t spurious) = s := by
  unfold State.step
  simp only [ht]

theorem step_swap_stale {t : ℕ} {n : UInt32} (ht : s.loaded.lookup t = some n)
    (hn : n ≠ s.counter) :
    s.step (.swap t false) = { s with
      loaded := (t, s.counter) :: s.loaded.filter (·.1 ≠ t) } := by
  unfold State.step
  simp only [ht, hn, decide_false]
  rfl

theorem swap_finish_returns {t : ℕ} (ht : s.loaded.lookup t = some s.counter) :
    ∃ c, ((s.step (.swap t false)).step (.finish t)).returned = c :: s.returned := by
  have hfind : (s.step (.swap t false)).swapped.find? (·.thread = t) =
      some ⟨t, s.swaps, s.counter⟩ := by
    rw [step_swap_counter ht]
    exact List.find?_cons_of_pos (decide_eq_true rfl)
  refine ⟨(s.swaps, next s.counter), ?_⟩
  rw [step_finish hfind, step_swap_counter ht]

theorem swap_swap_finish_returns {t : ℕ} (ht : s.loaded.lookup t = some s.counter) :
    ∃ c, (((s.step (.swap t false)).step (.swap t false)).step (.finish t)).returned =
      c :: s.returned := by
  have hnone : (s.step (.swap t false)).loaded.lookup t = none := by
    rw [step_swap_counter ht]
    exact lookup_filter_self t s.loaded
  rw [step_swap_none hnone]
  exact swap_finish_returns ht

/-- Whatever the others have done, a thread that is let run comes back with a number. -/
theorem Apart.alone_returns (h : Apart s) (t : ℕ) :
    ∃ c, (s.run (alone t)).returned = c :: s.returned := by
  change ∃ c, ((((s.step (.load t)).step (.swap t false)).step (.swap t false)).step
    (.finish t)).returned = c :: s.returned
  cases hl : s.loaded.lookup t with
  | some n =>
    have hload : s.step (.load t) = s := if_pos (calling_iff.mpr (.inl (by rw [hl]; rfl)))
    rw [hload]
    by_cases hn : n = s.counter
    · exact swap_swap_finish_returns (hn ▸ hl)
    · rw [step_swap_stale hl hn]
      exact swap_finish_returns List.lookup_cons_self
  | none =>
    by_cases hpending : ∃ w ∈ s.swapped, w.thread = t
    · have hload : s.step (.load t) = s := if_pos (calling_iff.mpr (.inr hpending))
      obtain ⟨w, hw, rfl⟩ := hpending
      rw [hload, step_swap_none hl, step_swap_none hl, step_finish (h.find_thread hw)]
      exact ⟨_, rfl⟩
    · have hidle : ¬s.calling t := fun hcall ↦
        (calling_iff.mp hcall).elim (by rw [hl]; exact nofun) hpending
      have hload : s.step (.load t) = { s with loaded := (t, s.counter) :: s.loaded } :=
        if_neg hidle
      rw [hload]
      exact swap_swap_finish_returns List.lookup_cons_self

theorem finished_perm_calls (s : State) : (s.run s.finishes).returned.Perm s.calls := by
  rw [run_finishes]
  exact (List.reverse_perm _).append_right _

theorem Follows.numbers_toNat (h : Follows seed s) :
    (s.calls.map fun c ↦ (c.1, c.2.toNat)).Perm
      ((List.range s.swaps).map fun k ↦
        (k, (min seed.toNat largest.toNat + k) % largest.toNat + 1)) := by
  have hnumbers := List.map_congr_left (l := List.range s.swaps)
    fun k _ ↦ congrArg (Prod.mk k) (toNat_iterate_next seed k)
  exact hnumbers ▸ h.map fun c ↦ (c.1, c.2.toNat)

/-- However the steps of threads are interleaved, all numbers returned are in range. A call whose
swap has succeeded returns the number that follows the one it has replaced. Once the pending calls
have returned, the numbers returned are those that count up from the seed and start anew after the
largest, one for each swap and in the order of the swaps; as many swaps in a row as there are numbers
are for different ones. No thread is ever kept from finishing a call. -/
theorem every_swap_returned_once (seed : UInt32) (events : List Event) :
    let s := (start seed).run events
    let t := s.run s.finishes
    (∀ c ∈ s.returned, 1 ≤ c.2 ∧ c.2 ≤ 2147483647) ∧
      (∀ w ∈ s.swapped,
        (s.step (.finish w.thread)).returned = (w.place, next w.previous) :: s.returned) ∧
      (t.swapped = [] ∧ t.swaps = s.swaps ∧ s.returned <:+ t.returned) ∧
      (t.returned.map fun c ↦ (c.1, c.2.toNat)).Perm
        ((List.range s.swaps).map fun k ↦
          (k, (min seed.toNat 2147483647 + k) % 2147483647 + 1)) ∧
      (t.returned.map Prod.snd).Perm (draws seed s.swaps) ∧
      (∀ a, ((t.returned.filter fun c ↦ a ≤ c.1 ∧ c.1 < a + 2147483647).map Prod.snd).Nodup) ∧
      ∀ thread, ∃ c, (s.run (alone thread)).returned = c :: s.returned := by
  have h := (follows_start seed).run events
  have hapart := (apart_start seed).run events
  intro s t
  have hperm : t.returned.Perm s.calls := finished_perm_calls s
  refine ⟨fun c hc ↦ ?range, fun w hw ↦ ?pending, ?finished, ?numbers, ?draws, fun a ↦ ?window,
    hapart.alone_returns⟩
  case range =>
    rw [h.eq_of_mem (List.mem_append_right _ hc)]
    exact iterate_next_range seed c.1
  case pending => rw [step_finish (hapart.find_thread hw)]
  case finished =>
    rw [show t = _ from run_finishes s]
    exact ⟨rfl, rfl, List.suffix_append _ _⟩
  case numbers => exact (hperm.map _).trans h.numbers_toNat
  case draws => exact (hperm.map _).trans h.numbers
  case window =>
    exact (((hperm.filter _).map Prod.snd).nodup_iff).mpr (h.nodup_window a)

/-- Two threads around the largest number. The second swaps first, the first has its number
overtaken and then fails once more for no reason, and it returns before the second. -/
theorem every_swap_returned_once_of_two_threads :
    let s := (start 2147483646).run [.load 0, .load 1, .swap 1 false, .swap 0 false, .swap 0 true,
      .swap 0 false, .finish 0]
    s.returned = [(1, 1)] ∧ s.swapped = [⟨1, 0, 2147483646⟩] ∧ s.swaps = 2 ∧
      (s.run s.finishes).returned = [(0, 2147483647), (1, 1)] ∧
      ((s.run s.finishes).returned.map fun c ↦ (c.1, c.2.toNat)).Perm [(0, 2147483647), (1, 1)] := by
  have h := (every_swap_returned_once 2147483646 [.load 0, .load 1, .swap 1 false, .swap 0 false,
    .swap 0 true, .swap 0 false, .finish 0]).2.2.2.1
  exact ⟨by decide, by decide, by decide, by decide, h⟩

theorem run_calls (threads : List ℕ) (n : UInt32) (swaps : ℕ) (returned : List (ℕ × UInt32)) :
    ((run ⟨n, swaps, [], [], returned⟩
      (threads.flatMap fun t ↦ [.load t, .swap t false, .finish t])).returned.map Prod.snd).reverse =
      (returned.map Prod.snd).reverse ++ draws n threads.length := by
  induction threads generalizing n swaps returned with
  | nil => exact (List.append_nil _).symm
  | cons t threads ih =>
    have hcall : run ⟨n, swaps, [], [], returned⟩ [.load t, .swap t false, .finish t] =
        ⟨next n, swaps + 1, [], [], (swaps, next n) :: returned⟩ := by
      simp [run, step, calling]
    rw [List.flatMap_cons, run, List.foldl_append, ← run, ← run, hcall, ih, List.map_cons,
      List.reverse_cons, List.append_assoc]
    rfl

/-- Threads that come one after the other draw what a single caller does. -/
theorem run_inTurn (seed : UInt32) (threads count : ℕ) :
    (((start seed).run (inTurn threads count)).returned.map Prod.snd).reverse =
      draws seed (threads * count) := by
  have hround (t : ℕ) : (List.replicate count [Event.load t, .swap t false, .finish t]).flatten =
      (List.replicate count t).flatMap fun t ↦ [.load t, .swap t false, .finish t] := by
    rw [List.flatMap_def, List.map_replicate]
  have hevents : inTurn threads count = ((List.range threads).flatMap (List.replicate count)).flatMap
      fun t ↦ [.load t, .swap t false, .finish t] := by
    simp only [inTurn, List.flatMap_assoc, hround]
  have hlength : ((List.range threads).flatMap (List.replicate count)).length = threads * count := by
    rw [List.length_flatMap]
    simp
  rw [hevents, start, run_calls, hlength]
  rfl

end State

end MessagingIdentity.Serial

import MessagingIdentity.Proofs.CacheTables

namespace MessagingIdentity.Cache

/-- What can happen to a cache. Each sweep has an order of its own. -/
inductive Event (κ ν : Type) where
  | put (key : κ) (value : ν)
  | get (key : κ)
  | sweep (walk : Walk κ ν)

variable {κ ν : Type} [DecidableEq κ]

def step (c : Cache κ ν) : Event κ ν → Cache κ ν
  | .put key value => c.put key value
  | .get _ => c
  | .sweep walk => (c.reduce walk.order).2

/-- The cache after some events, the first of them first. -/
def run (events : List (Event κ ν)) : Cache κ ν := events.foldl step empty

def Event.valueFor? (key : κ) : Event κ ν → Option ν
  | put k value => if key = k then some value else none
  | get _ => none
  | sweep _ => none

/-- The value that a key was put with most recently. -/
def lastPut? (events : List (Event κ ν)) (key : κ) : Option ν :=
  events.reverse.findSome? (Event.valueFor? key)

theorem run_append (events later : List (Event κ ν)) :
    run (events ++ later) = later.foldl step (run events) := List.foldl_append

theorem lastPut?_concat (events : List (Event κ ν)) (e : Event κ ν) (key : κ) :
    lastPut? (events ++ [e]) key = (e.valueFor? key).or (lastPut? events key) := by
  rw [lastPut?, List.reverse_append, List.findSome?_append]
  cases he : e.valueFor? key <;> simp [he, lastPut?]

theorem Tidy.step {c : Cache κ ν} (h : c.Tidy) (e : Event κ ν) : (c.step e).Tidy := by
  cases e with
  | put key value => exact h.put key value
  | get key => exact h
  | sweep walk => exact h.sweep walk

theorem run_tidy (events : List (Event κ ν)) : (run events).Tidy := by
  induction events using List.reverseRecOn with
  | nil => exact empty_tidy
  | append_singleton events e ih =>
    rw [run_append]
    exact ih.step e

/-- What an event leaves under a key: the value that it puts there, else what was there before, unless
the event is a sweep, which may have dropped it. -/
theorem Tidy.get?_step {c : Cache κ ν} (h : c.Tidy) (e : Event κ ν) (key : κ) :
    (c.step e).get? key = none ∨ (c.step e).get? key = (e.valueFor? key).or (c.get? key) := by
  cases e with
  | put k value =>
    refine .inr ?_
    rw [Cache.step, get?_put, Event.valueFor?]
    split <;> rfl
  | get k => exact .inr rfl
  | sweep walk =>
    cases hget : (c.step (.sweep walk)).get? key with
    | none => exact .inl rfl
    | some value => exact .inr (h.get?_of_get?_sweep walk hget).symm

theorem get?_run (events : List (Event κ ν)) (key : κ) :
    (run events).get? key = none ∨ (run events).get? key = lastPut? events key := by
  induction events using List.reverseRecOn with
  | nil => exact .inl rfl
  | append_singleton events e ih =>
    rw [run_append, lastPut?_concat]
    rcases (run_tidy events).get?_step e key with hnone | hkept
    · exact .inl hnone
    · rw [List.foldl_cons, List.foldl_nil, hkept]
      cases e.valueFor? key with
      | some value => exact .inr rfl
      | none => exact ih

def Event.Spares (key : κ) : Event κ ν → Prop
  | put k _ => key ≠ k
  | get _ => True
  | sweep _ => False

theorem get?_foldl_of_spares {later : List (Event κ ν)} {key : κ} (h : ∀ e ∈ later, e.Spares key)
    (c : Cache κ ν) : (later.foldl step c).get? key = c.get? key := by
  induction later generalizing c with
  | nil => rfl
  | cons e later ih =>
    obtain ⟨he, hlater⟩ := List.forall_mem_cons.mp h
    rw [List.foldl_cons, ih hlater]
    cases e with
    | put k value => rw [step, get?_put, if_neg he]
    | get k => rfl
    | sweep walk => exact he.elim

theorem get?_of_put_since (before : List (Event κ ν)) {key : κ} {after : List (Event κ ν)}
    (h : ∀ e ∈ after, e.Spares key) (value : ν) :
    (run (before ++ .put key value :: after)).get? key = some value := by
  rw [run_append, List.foldl_cons, get?_foldl_of_spares h, step, get?_put, if_pos rfl]

/-- A cache forgets, but what it still has is true: a key has the value it was last put with or none,
and it has that value if there was no sweep since. A sweep of a cache, in any order, counts and drops
one half of it, rounded up, and leaves the other half as it was; a put changes its own key alone; and
the size is the number of keys that are found. -/
theorem history_run (events : List (Event κ ν)) :
    (∀ key, (run events).get? key = none ∨ (run events).get? key = lastPut? events key) ∧
    (∀ before key value after, events = before ++ .put key value :: after →
      (∀ e ∈ after, e.Spares key) → (run events).get? key = some value) ∧
    (∀ walk : Walk κ ν,
      ((run events).reduce walk.order).1 = ((run events).size + 1) / 2 ∧
      ((run events).reduce walk.order).2.size = (run events).size / 2 ∧
      ∀ key value, ((run events).reduce walk.order).2.get? key = some value →
        (run events).get? key = some value) ∧
    (∀ key value other, other ≠ key →
      ((run events).put key value).get? other = (run events).get? other) ∧
    (run events).size = {key | ((run events).get? key).isSome = true}.ncard := by
  have htidy := run_tidy events
  refine ⟨get?_run events, ?_, ?_, ?_, htidy.size_eq_ncard⟩
  · rintro before key value after rfl h
    exact get?_of_put_since before h value
  · intro walk
    have hsize := size_sweep walk (run events)
    refine ⟨?_, hsize, fun key value ↦ htidy.get?_of_get?_sweep walk⟩
    rw [reduce, hsize]
    dsimp only
    omega
  · intro key value other hne
    rw [get?_put, if_neg hne]

theorem history_run_two_puts : (run [.get 1, .put 1 10, .put 2 20, .get 1]).get? 1 = some 10 := by
  obtain ⟨-, hsince, -⟩ := history_run [.get 1, .put 1 10, .put 2 20, .get 1]
  refine hsince [.get 1] 1 10 [.put 2 20, .get 1] rfl fun e he ↦ ?_
  rcases List.mem_pair.mp he with rfl | rfl
  · exact Nat.one_lt_two.ne
  · trivial

end MessagingIdentity.Cache

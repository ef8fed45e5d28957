namespace MessagingIdentity.Serial

def largest : UInt32 := 0x7fffffff

def next (n : UInt32) : UInt32 := if n < largest then n + 1 else 1

def draws (seed : UInt32) : Nat → List UInt32
  | 0 => []
  | count + 1 => next seed :: draws (next seed) count

/-- What a thread does next. A swap may fail for no reason at all. -/
inductive Event where
  | load (thread : Nat)
  | swap (thread : Nat) (spurious : Bool)
  | finish (thread : Nat)

/-- A swap that has succeeded: how many have before it, and the number it has replaced. -/
structure Swap where
  thread : Nat
  place : Nat
  previous : UInt32
deriving DecidableEq

/-- The counter and how often it has been swapped, the number each thread has loaded, the swaps whose
threads have yet to return, and the numbers returned, the latest first, each with the place of its
swap. -/
structure State where
  counter : UInt32
  swaps : Nat
  loaded : List (Nat × UInt32)
  swapped : List Swap
  returned : List (Nat × UInt32)

def State.start (seed : UInt32) : State := ⟨seed, 0, [], [], []⟩

def State.calling (s : State) (t : Nat) : Bool :=
  (s.loaded.lookup t).isSome || s.swapped.any (·.thread = t)

/-- One step. A call begins with a load, a swap of a thread that has loaded nothing does nothing, and
one that fails leaves the thread with a fresh load. What a call returns is worked out once more, from
the number that its swap has replaced. -/
def State.step (s : State) : Event → State
  | .load t => if s.calling t then s else { s with loaded := (t, s.counter) :: s.loaded }
  | .swap t spurious =>
    match s.loaded.lookup t with
    | none => s
    | some n =>
      let others := s.loaded.filter (·.1 ≠ t)
      if n = s.counter && !spurious then
        { s with counter := next n, swaps := s.swaps + 1, loaded := others,
                 swapped := ⟨t, s.swaps, n⟩ :: s.swapped }
      else { s with loaded := (t, s.counter) :: others }
  | .finish t =>
    match s.swapped.find? (·.thread = t) with
    | none => s
    | some w =>
      { s with swapped := s.swapped.erase w, returned := (w.place, next w.previous) :: s.returned }

def State.run (s : State) (events : List Event) : State := events.foldl State.step s

def inTurn (threads count : Nat) : List Event :=
  (List.range threads).flatMap fun t ↦
    (List.replicate count [Event.load t, Event.swap t false, Event.finish t]).flatten

end MessagingIdentity.Serial

import MessagingIdentity.Association

namespace MessagingIdentity

structure Cache (κ ν : Type) where
  entries : List (κ × ν)

def everySecond {α : Type} : List α → List α
  | _ :: x :: rest => x :: everySecond rest
  | _ => []

/-- An order in which the entries of a table are walked through; it may differ from one walk to the
next. -/
abbrev Order (κ ν : Type) := List (κ × ν) → List (κ × ν)

namespace Cache

variable {κ ν : Type}

def empty : Cache κ ν := ⟨[]⟩

def size (c : Cache κ ν) : Nat := c.entries.length

def isEmpty (c : Cache κ ν) : Bool := c.entries.isEmpty

variable [DecidableEq κ]

def get? (c : Cache κ ν) (key : κ) : Option ν := c.entries.lookup key

def put (c : Cache κ ν) (key : κ) (value : ν) : Cache κ ν := ⟨assign key value c.entries⟩

/-- Drops the first of the entries, the third, the fifth and so on, in the given order. -/
def sweep (order : Order κ ν) (c : Cache κ ν) : Cache κ ν := ⟨everySecond (order c.entries)⟩

def reduce (order : Order κ ν) (c : Cache κ ν) : Nat × Cache κ ν :=
  let c' := c.sweep order
  (c.size - c'.size, c')

end Cache

end MessagingIdentity

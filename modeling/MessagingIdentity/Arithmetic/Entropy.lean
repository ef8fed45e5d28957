import MessagingIdentity.Bytes

namespace MessagingIdentity

/-- An endless tape of random bytes. -/
abbrev Entropy := Nat → UInt8

namespace Entropy

def draw (e : Entropy) (k : Nat) : Bytes := (List.range k).map e

def advance (e : Entropy) (k : Nat) : Entropy := fun i ↦ e (k + i)

def drawNonzero (e : Entropy) (k : Nat) : Bytes :=
  (e.draw k).map fun b ↦ if b = 0 then 1 else b

/-- Random bytes that the system is asked for. It may have none, and then says why. -/
abbrev Source := Except String Entropy

instance : Coe Entropy Source := ⟨.ok⟩

def Source.draw (s : Source) (k : Nat) : Except String Bytes := s.map fun e ↦ Entropy.draw e k

end Entropy

end MessagingIdentity

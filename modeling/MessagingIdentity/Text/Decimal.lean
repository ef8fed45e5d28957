namespace MessagingIdentity.Text

def digits? (cs : List Char) : Option Nat :=
  if !cs.isEmpty && cs.all Char.isDigit then
    some (cs.foldl (fun n c ↦ n * 10 + (c.toNat - '0'.toNat)) 0)
  else none

/-- The number below `2 ^ bits` that a text denotes; a plus sign may stand before its digits. -/
def natural? (bits : Nat) (s : String) : Option Nat :=
  let n? := match s.toList with
    | '+' :: cs => digits? cs
    | cs => digits? cs
  n?.filter (· < Nat.pow 2 bits)

def integer? (s : String) : Option Int :=
  match s.toList with
  | '+' :: cs => (digits? cs).map Int.ofNat
  | '-' :: cs => (digits? cs).map fun n ↦ -(n : Int)
  | cs => (digits? cs).map Int.ofNat

end MessagingIdentity.Text

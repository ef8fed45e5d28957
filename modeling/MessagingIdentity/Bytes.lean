namespace MessagingIdentity

abbrev Bytes := List UInt8

namespace Bytes

def ofText (s : String) : Bytes := s.toUTF8.data.toList

def toText? (b : Bytes) : Option String := String.fromUTF8? ⟨b.toArray⟩

def toNat (b : Bytes) : Nat := b.foldl (fun n x ↦ n * 256 + x.toNat) 0

/-- The low `k` bytes of a number, most significant first. -/
def ofNat : Nat → Nat → Bytes
  | 0, _ => []
  | k + 1, n => ofNat k (n / 256) ++ [n.toUInt8]

def toNatLittle (b : Bytes) : Nat := b.foldr (fun x n ↦ n * 256 + x.toNat) 0

def ofNatLittle : Nat → Nat → Bytes
  | 0, _ => []
  | k + 1, n => n.toUInt8 :: ofNatLittle k (n / 256)

/-- How many bytes the shortest big-endian form has; zero takes one byte. -/
def widthOf (n : Nat) : Nat := n.log2 / 8 + 1

def minimal (n : Nat) : Bytes := ofNat (widthOf n) n

end Bytes

/-- Consecutive pieces of `k + 1` elements; the last may be shorter. The fuel is the length. -/
def piecesAux {α : Type} (k : Nat) : Nat → List α → List (List α)
  | 0, _ => []
  | _ + 1, [] => []
  | fuel + 1, xs => xs.take (k + 1) :: piecesAux k fuel (xs.drop (k + 1))

def pieces {α : Type} (k : Nat) (xs : List α) : List (List α) :=
  match k with
  | 0 => []
  | k + 1 => piecesAux k xs.length xs

end MessagingIdentity

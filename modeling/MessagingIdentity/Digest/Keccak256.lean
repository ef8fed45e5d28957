import MessagingIdentity.Bytes

namespace MessagingIdentity.Digest.Keccak256

/-- The lanes of the permutation: the lane of column `x` and row `y` stands at `x + 5 * y`. -/
abbrev State := Vector UInt64 25

def initial : State := Vector.replicate 25 0

def roundConstants : List UInt64 :=
  [0x0000000000000001, 0x0000000000008082, 0x800000000000808a, 0x8000000080008000,
   0x000000000000808b, 0x0000000080000001, 0x8000000080008081, 0x8000000000008009,
   0x000000000000008a, 0x0000000000000088, 0x0000000080008009, 0x000000008000000a,
   0x000000008000808b, 0x800000000000008b, 0x8000000000008089, 0x8000000000008003,
   0x8000000000008002, 0x8000000000000080, 0x000000000000800a, 0x800000008000000a,
   0x8000000080008081, 0x8000000000008080, 0x0000000080000001, 0x8000000080008008]

def rotations : Vector UInt64 25 :=
  #v[0, 1, 62, 28, 27, 36, 44, 6, 55, 20, 3, 10, 43, 25, 39, 41, 45, 15, 21, 8, 18, 2, 61, 56, 14]

def rotateLeft (x : UInt64) (n : UInt64) : UInt64 :=
  if n = 0 then x else (x <<< n) ||| (x >>> (64 - n))

def lane (s : State) (x y : Nat) : UInt64 := s[x % 5 + 5 * (y % 5)]

def parity (s : State) (x : Nat) : UInt64 :=
  lane s x 0 ^^^ lane s x 1 ^^^ lane s x 2 ^^^ lane s x 3 ^^^ lane s x 4

def theta (s : State) : State :=
  let columns : Vector UInt64 5 := Vector.ofFn fun x ↦ parity s x
  let d : Vector UInt64 5 := Vector.ofFn fun x ↦
    columns[(x.val + 4) % 5] ^^^ rotateLeft columns[(x.val + 1) % 5] 1
  Vector.ofFn fun i ↦ s[i] ^^^ d[i.val % 5]

/-- Rotates the lanes and moves them: column `y`, row `2x + 3y` receives column `x`, row `y`. -/
def rhoPi (s : State) : State :=
  let r : State := Vector.ofFn fun i ↦ rotateLeft s[i] rotations[i]
  Vector.ofFn fun i ↦ lane r (i.val % 5 + 3 * (i.val / 5)) (i.val % 5)

def chi (s : State) : State :=
  Vector.ofFn fun i ↦
    s[i] ^^^ (~~~(lane s (i.val + 1 - 5 * (i.val / 5)) (i.val / 5)) &&&
      lane s (i.val + 2 - 5 * (i.val / 5)) (i.val / 5))

def round (s : State) (constant : UInt64) : State :=
  let t := chi (rhoPi (theta s))
  t.set 0 (t[0] ^^^ constant)

def permute (s : State) : State := roundConstants.foldl round s

def rate : Nat := 136

def absorb (s : State) (block : Bytes) : State :=
  let words := ((pieces 8 block).map fun b ↦ (Bytes.toNatLittle b).toUInt64).toArray
  permute (Vector.ofFn fun i ↦ s[i] ^^^ words.getD i.val 0)

/-- Pads to a multiple of the rate, without domain bits; one byte of padding is both the first and
the last. -/
def pad (m : Bytes) : Bytes :=
  match rate - m.length % rate with
  | 0 => m
  | 1 => m ++ [0x81]
  | k + 2 => m ++ 0x01 :: List.replicate k 0 ++ [0x80]

end MessagingIdentity.Digest.Keccak256

namespace MessagingIdentity.Digest

def keccak256 (m : Bytes) : Bytes :=
  let s := (pieces Keccak256.rate (Keccak256.pad m)).foldl Keccak256.absorb Keccak256.initial
  (s.toList.take 4).flatMap fun w ↦ Bytes.ofNatLittle 8 w.toNat

end MessagingIdentity.Digest

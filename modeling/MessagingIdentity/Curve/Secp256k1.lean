import MessagingIdentity.Arithmetic.Modular
import MessagingIdentity.Bytes

namespace MessagingIdentity.Secp256k1

def fieldOrder : Nat := 0xfffffffffffffffffffffffffffffffffffffffffffffffffffffffefffffc2f

def groupOrder : Nat := 0xfffffffffffffffffffffffffffffffebaaedce6af48a03bbfd25e8cd0364141

instance : @NeZero Nat Zero.ofOfNat0 fieldOrder := ⟨Nat.succ_ne_zero _⟩

instance : @NeZero Nat Zero.ofOfNat0 groupOrder := ⟨Nat.succ_ne_zero _⟩

abbrev Coordinate := Fin fieldOrder

def Coordinate.power (x : Coordinate) (e : Nat) : Coordinate :=
  Fin.ofNat fieldOrder (Modular.pow x.val e fieldOrder)

/-- The inverse of a field element; zero is sent to zero. -/
def Coordinate.inverse (x : Coordinate) : Coordinate := x.power (fieldOrder - 2)

def cubic (x : Coordinate) : Coordinate := x * x * x + 7

inductive Point where
  | infinity
  | affine (x y : Coordinate)
deriving DecidableEq

namespace Point

/-- The third point of the line of the given slope through `(x, y)` and a point above `u`,
reflected. -/
def third (slope x y u : Coordinate) : Point :=
  let v := slope * slope - x - u
  affine v (slope * (x - v) - y)

def add : Point → Point → Point
  | infinity, q => q
  | p, infinity => p
  | affine x y, affine u v =>
    if x = u then
      if y = -v then infinity else third (3 * x * x * Coordinate.inverse (2 * y)) x y u
    else third ((v - y) * Coordinate.inverse (u - x)) x y u

/-- The multiple `k • p` for `k` of at most `fuel` bits: doubles the point and halves `k`. -/
def mulAux : Nat → Nat → Point → Point
  | 0, _, _ => infinity
  | fuel + 1, k, p =>
    let r := mulAux fuel (k / 2) (add p p)
    if k % 2 = 1 then add p r else r

def mul (k : Nat) (p : Point) : Point := mulAux (k.log2 + 1) k p

def generator : Point :=
  affine 0x79be667ef9dcbbac55a06295ce870b07029bfcdb2dce28d959f2815b16f81798
    0x483ada7726a3c4655da4fbfc0e1108a8fd17b448a68554199c47d08ffb10d4b8

end Point

structure CurvePoint where
  x : Coordinate
  y : Coordinate
  equation : y * y = cubic x
deriving DecidableEq

namespace CurvePoint

def ofCoordinates? (x y : Coordinate) : Option CurvePoint :=
  if h : y * y = cubic x then some ⟨x, y, h⟩ else none

def toPoint (p : CurvePoint) : Point := .affine p.x p.y

def ofScalar? (k : Nat) : Option CurvePoint :=
  match Point.mul k .generator with
  | .infinity => none
  | .affine x y => ofCoordinates? x y

def coordinate? (b : Bytes) : Option Coordinate :=
  if h : b.toNat < fieldOrder then some ⟨b.toNat, h⟩ else none

def decompress? (x : Coordinate) (odd : Bool) : Option CurvePoint :=
  let r := (cubic x).power ((fieldOrder + 1) / 4)
  ofCoordinates? x (if (r.val % 2 = 1) = odd then r else -r)

def coordinates (p : CurvePoint) : Bytes := Bytes.ofNat 32 p.x.val ++ Bytes.ofNat 32 p.y.val

def uncompressed (p : CurvePoint) : Bytes := 4 :: p.coordinates

def compressed (p : CurvePoint) : Bytes :=
  (if p.y.val % 2 = 1 then 3 else 2) :: Bytes.ofNat 32 p.x.val

/-- Reads a point: both coordinates behind 4, or one of them behind 2 or 3, or behind 5, where the
other one is the even one. -/
def ofBytes? : Bytes → Option CurvePoint
  | [] => none
  | tag :: rest =>
    if tag = 4 then
      if rest.length = 64 then do
        ofCoordinates? (← coordinate? (rest.take 32)) (← coordinate? (rest.drop 32))
      else none
    else if tag = 2 ∨ tag = 3 ∨ tag = 5 then
      if rest.length = 32 then do
        decompress? (← coordinate? rest) (tag = 3)
      else none
    else none

end CurvePoint

end MessagingIdentity.Secp256k1

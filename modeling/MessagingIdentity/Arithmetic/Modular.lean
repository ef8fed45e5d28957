namespace MessagingIdentity.Modular

/-- The power `b ^ e` modulo `m` for exponents of at most `fuel` bits: squares the base and halves
the exponent. -/
def powAux (m : Nat) : Nat → Nat → Nat → Nat
  | 0, _, _ => 1 % m
  | fuel + 1, b, e =>
    let r := powAux m fuel (b * b % m) (e / 2)
    if e % 2 = 1 then b * r % m else r

def pow (b e m : Nat) : Nat := powAux m (e.log2 + 1) (b % m) e

/-- Euclid's algorithm on two remainders, each with its coefficient: the greatest common divisor
and its coefficient. -/
def euclid : Nat → Nat → Int → Nat → Int → Nat × Int
  | 0, r, s, _, _ => (r, s)
  | fuel + 1, r, s, r', s' =>
    if r' = 0 then (r, s) else euclid fuel r' s' (r % r') (s - (r / r' : Nat) * s')

def inverse? (a m : Nat) : Option Nat :=
  let (g, s) := euclid (2 * m.log2 + 4) (a % m) 1 m 0
  if g = 1 then some (s % (m : Int)).toNat else none

end MessagingIdentity.Modular

import MessagingIdentity.Arithmetic.Modular
import MessagingIdentity.Bytes

namespace MessagingIdentity.Rsa

/-- The modulus of a public key that is read, or of one that a message is encrypted or decrypted with,
may have at most so many bits. -/
def maxModulusBits : Nat := 4096

/-- A public key: an odd modulus and a smaller odd exponent from 2 up to 2³³ − 1. -/
structure PublicKey where
  modulus : Nat
  exponent : Nat
  modulus_odd : modulus % 2 = 1
  exponent_odd : exponent % 2 = 1
  two_le_exponent : 2 ≤ exponent
  exponent_lt : exponent < 0x200000000
  exponent_lt_modulus : exponent < modulus
deriving DecidableEq

namespace PublicKey

def ofNumbers? (n e : Nat) : Option PublicKey :=
  if h : n % 2 = 1 ∧ e % 2 = 1 ∧ 2 ≤ e ∧ e < 0x200000000 ∧ e < n then
    some ⟨n, e, h.1, h.2.1, h.2.2.1, h.2.2.2.1, h.2.2.2.2⟩
  else none

def size (k : PublicKey) : Nat := Bytes.widthOf k.modulus

def apply (k : PublicKey) (m : Nat) : Nat := Modular.pow m k.exponent k.modulus

end PublicKey

structure PrivateKey where
  toPublic : PublicKey
  exponent : Nat
  p : Nat
  q : Nat
  modulus_eq : toPublic.modulus = p * q
  inverse_p : exponent * toPublic.exponent % (p - 1) = 1
  inverse_q : exponent * toPublic.exponent % (q - 1) = 1
deriving DecidableEq

inductive OperationError where
  | outOfRange
  | mismatch
deriving DecidableEq

namespace PrivateKey

def ofNumbers? (n e d p q : Nat) : Option PrivateKey := do
  let k ← PublicKey.ofNumbers? n e
  if h : k.modulus = p * q ∧ d * k.exponent % (p - 1) = 1 ∧ d * k.exponent % (q - 1) = 1 then
    return ⟨k, d, p, q, h.1, h.2.1, h.2.2⟩
  else none

def size (k : PrivateKey) : Nat := k.toPublic.size

def exponentP (k : PrivateKey) : Nat := k.exponent % (k.p - 1)

def exponentQ (k : PrivateKey) : Nat := k.exponent % (k.q - 1)

def coefficient? (k : PrivateKey) : Option Nat := Modular.inverse? k.q k.p

/-- The inverse of the public operation on a number below the modulus: by the two factors where
they have no common one, else by the private exponent. -/
def invert (k : PrivateKey) (c : Nat) : Nat :=
  match k.coefficient? with
  | some t =>
    let a := Modular.pow c k.exponentP k.p
    let b := Modular.pow c k.exponentQ k.q
    (a + k.p - b % k.p) * t % k.p * k.q + b
  | none => Modular.pow c k.exponent k.toPublic.modulus

/-- The raw operation, checked: the public operation must lead back. -/
def apply (k : PrivateKey) (c : Nat) : Except OperationError Nat :=
  if k.toPublic.modulus ≤ c then .error .outOfRange
  else
    let m := k.invert c
    if k.toPublic.apply m = c then .ok m else .error .mismatch

end PrivateKey

end MessagingIdentity.Rsa

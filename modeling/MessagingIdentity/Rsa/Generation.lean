import MessagingIdentity.Arithmetic.Entropy
import MessagingIdentity.Arithmetic.Primality
import MessagingIdentity.Rsa.Key

namespace MessagingIdentity.Rsa

def factorBytes : Nat := 64

def freshExponent : Nat := 65537

def startingPoint (b : Bytes) : Nat :=
  let n := b.toNat % Nat.pow 2 (8 * b.length - 2)
  3 * Nat.pow 2 (8 * b.length - 2) + n / 2 * 2 + 1

/-- A probable prime near a random starting point to which the fresh exponent can belong. -/
def freshFactor? (e : Entropy) : Option Nat :=
  Primality.search (fun p ↦ (p - 1) % freshExponent ≠ 0) 20000 (startingPoint (e.draw factorBytes))

def PrivateKey.generate? (e : Entropy) : Option PrivateKey := do
  let p ← freshFactor? e
  let q ← freshFactor? (e.advance factorBytes)
  let d ← Modular.inverse? freshExponent ((p - 1) * (q - 1))
  PrivateKey.ofNumbers? (p * q) freshExponent d p q

end MessagingIdentity.Rsa

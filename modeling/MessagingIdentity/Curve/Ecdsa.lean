import MessagingIdentity.Asn1.Der
import MessagingIdentity.Curve.Secp256k1
import MessagingIdentity.Digest.Combined

namespace MessagingIdentity.Ecdsa

open Secp256k1 Digest

structure Signature where
  r : Nat
  s : Nat
  r_pos : 0 < r
  r_lt : r < groupOrder
  s_pos : 0 < s
  s_lt : s < groupOrder
deriving DecidableEq

namespace Signature

def ofNumbers? (r s : Nat) : Option Signature :=
  if h : 0 < r ∧ r < groupOrder ∧ 0 < s ∧ s < groupOrder then
    some ⟨r, s, h.1, h.2.1, h.2.2.1, h.2.2.2⟩
  else none

def raw (g : Signature) : Bytes := Bytes.ofNat 32 g.r ++ Bytes.ofNat 32 g.s

def der (g : Signature) : Bytes := Der.sequence [Der.integer g.r, Der.integer g.s]

def ofRaw? (b : Bytes) : Option Signature :=
  if b.length = 64 then ofNumbers? (Bytes.toNat (b.take 32)) (Bytes.toNat (b.drop 32)) else none

def ofDer? (b : Bytes) : Option Signature := do
  let (ns, rest) ← Der.readNaturals 2 (← Der.only Der.tagSequence b)
  match ns, rest with
  | [r, s], [] => ofNumbers? r s
  | _, _ => none

/-- Reads either form: up to 64 bytes only the raw one can be meant. -/
def ofBytes? (b : Bytes) : Option Signature := if 64 < b.length then ofDer? b else ofRaw? b

def negate (g : Signature) : Signature :=
  ⟨g.r, groupOrder - g.s, g.r_pos, g.r_lt, by have := g.s_lt; omega,
    by have := g.s_pos; have := g.s_lt; omega⟩

/-- Of a signature and its negation, the one whose second number is in the lower half. -/
def normalize (g : Signature) : Signature := if groupOrder / 2 < g.s then g.negate else g

end Signature

structure Nonces where
  key : Bytes
  value : Bytes

namespace Nonces

def mix (g : Nonces) (separator : UInt8) (material : Bytes) : Nonces :=
  let key := hmacSha256 g.key (g.value ++ separator :: material)
  ⟨key, hmacSha256 key g.value⟩

def start (secret : Nat) (digest : Bytes) : Nonces :=
  let material := Bytes.ofNat 32 secret ++ digest
  ((Nonces.mk (List.replicate 32 0) (List.replicate 32 1)).mix 0 material).mix 1 material

/-- The first nonce that is in range. The bound on the tries is the model's: deterministic signing
goes on until one is found. -/
def next : Nat → Nonces → Option Nat
  | 0, _ => none
  | fuel + 1, g =>
    let value := hmacSha256 g.key g.value
    let k := value.toNat
    if 0 < k ∧ k < groupOrder then some k else next fuel ((Nonces.mk g.key value).mix 0 [])

end Nonces

def scalarInverse (k : Nat) : Nat := Modular.pow k (groupOrder - 2) groupOrder

def signWith (secret nonce : Nat) (digest : Bytes) : Option Signature :=
  match Point.mul nonce .generator with
  | .infinity => none
  | .affine x _ =>
    let r := x.val % groupOrder
    let s := scalarInverse nonce * (digest.toNat + r * secret) % groupOrder
    (Signature.ofNumbers? r s).map Signature.normalize

def sign (secret : Nat) (digest : Bytes) : Option Signature := do
  signWith secret (← (Nonces.start secret digest).next 128) digest

def verify (p : CurvePoint) (digest : Bytes) (signature : Signature) : Bool :=
  let g := signature.normalize
  let w := scalarInverse g.s
  let a := digest.toNat * w % groupOrder
  let b := g.r * w % groupOrder
  match Point.add (Point.mul a .generator) (Point.mul b p.toPoint) with
  | .infinity => false
  | .affine x _ => x.val % groupOrder == g.r

end MessagingIdentity.Ecdsa

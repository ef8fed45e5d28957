import MessagingIdentity.Curve.Ecdsa
import MessagingIdentity.Arithmetic.Entropy
import MessagingIdentity.Key.Attributes

namespace MessagingIdentity

open Secp256k1

namespace CurveKey

def tag : String := "ECC"

def membersOf (data : String) : Json.Members := Json.Members.ofList
  [(Field.algorithm, .text tag), (Field.data, .text data), (Field.curve, .text "SECP256k1"),
    (Field.digest, .text "SHA256")]

def bytes (a : Attributes) : Except KeyError Bytes :=
  (Hexadecimal.decode (Text.trim a.data)).mapError fun e ↦ .invalidData (.hexadecimal e)

end CurveKey

/-- A public key on the curve, given by its attributes. A derived one also has its point at hand. -/
structure CurvePublicKey where
  attributes : Attributes
  point? : Option CurvePoint

namespace CurvePublicKey

def ofMembers (m : Json.Members) : Except KeyError CurvePublicKey :=
  (Attributes.ofMembers m).map (⟨·, none⟩)

/-- The point: the bytes of the data, behind the byte 4 if there are 64 of them. -/
def point (k : CurvePublicKey) : Except KeyError CurvePoint :=
  match k.point? with
  | some p => .ok p
  | none => do
    let b ← CurveKey.bytes k.attributes
    match CurvePoint.ofBytes? (if b.length = 64 then 4 :: b else b) with
    | some p => return p
    | none => throw (.invalidData .curvePoint)

def data (k : CurvePublicKey) : Except KeyError Bytes := k.point.map CurvePoint.uncompressed

def rawData (k : CurvePublicKey) : Except KeyError Bytes := do
  let _ ← k.point
  CurveKey.bytes k.attributes

def verify (k : CurvePublicKey) (m signature : Bytes) : Bool :=
  match k.point, Ecdsa.Signature.ofBytes? signature with
  | .ok p, some g => Ecdsa.verify p (Digest.sha256 m) g
  | _, _ => false

end CurvePublicKey

structure CurvePrivateKey where
  attributes : Attributes

namespace CurvePrivateKey

def ofMembers (m : Json.Members) : Except KeyError CurvePrivateKey :=
  (Attributes.ofMembers m).map mk

def generate (e : Entropy) : Except KeyError CurvePrivateKey :=
  let scalar := 1 + Bytes.toNat (e.draw 32) % (groupOrder - 1)
  ofMembers (CurveKey.membersOf (Hexadecimal.encode (Bytes.ofNat 32 scalar)))

def scalar (k : CurvePrivateKey) : Except KeyError Nat := do
  let b ← CurveKey.bytes k.attributes
  if b.length ≠ 32 then throw (.invalidData (.scalarLength b.length))
  let d := Bytes.toNat b
  if d = 0 ∨ groupOrder ≤ d then throw (.invalidData .scalarRange)
  return d

def data (k : CurvePrivateKey) : Except KeyError Bytes := k.scalar.map (Bytes.ofNat 32)

def sign (k : CurvePrivateKey) (m : Bytes) : Except KeyError Bytes := do
  match Ecdsa.sign (← k.scalar) (Digest.sha256 m) with
  | some g => return g.der
  | none => throw (.other .curveSigning)

def publicKey (k : CurvePrivateKey) : Except KeyError CurvePublicKey := do
  match CurvePoint.ofScalar? (← k.scalar) with
  | some p =>
    let a ← Attributes.ofMembers (CurveKey.membersOf (Hexadecimal.encode p.uncompressed))
    return ⟨a, some p⟩
  | none => throw (.invalidData .curvePoint)

end CurvePrivateKey

end MessagingIdentity

import MessagingIdentity.Address.Error
import MessagingIdentity.Curve.Secp256k1
import MessagingIdentity.Digest.Keccak256
import MessagingIdentity.Encoding.Hexadecimal

namespace MessagingIdentity

structure HashedAddress where
  text : String
deriving DecidableEq

namespace HashedAddress

def textSize : Nat := 42

def skipped : Nat := 12

def nibbles (b : Bytes) : List Nat := b.flatMap fun x ↦ [x.toNat / 16, x.toNat % 16]

/-- A letter stays in lower case where the half byte beside it is below eight. -/
def caseBy (c : Char) (nibble : Nat) : Char := if 8 ≤ nibble then c.toUpper else c

def checksumCase (digits : List Char) : List Char :=
  digits.zipWith caseBy (nibbles (Digest.keccak256 (Bytes.ofText (String.ofList digits))))

def digitsOf (coordinates : Bytes) : List Char :=
  ((Digest.keccak256 coordinates).drop skipped).flatMap Hexadecimal.pair

def ofCoordinates (coordinates : Bytes) : HashedAddress :=
  ⟨String.ofList ('0' :: 'x' :: checksumCase (digitsOf coordinates))⟩

/-- The address of a public key: a point without compression, with or without its leading byte, or a
compressed one. Only the last is tested to lie on the curve. -/
def generate (key : Bytes) : Except AddressError HashedAddress :=
  if key.length = 65 then .ok (ofCoordinates key.tail)
  else if key.length = 64 then .ok (ofCoordinates key)
  else if key.length = 33 then
    match Secp256k1.CurvePoint.ofBytes? key with
    | some p => .ok (ofCoordinates p.uncompressed.tail)
    | none => .error (.format .keyPoint)
  else .error (.format (.keyLength key.length))

def isDigit (c : Char) : Bool :=
  c.isDigit || ('a' ≤ c && c ≤ 'f') || ('A' ≤ c && c ≤ 'F')

/-- Reads an address. The case of its letters is not tested. -/
def parse (s : String) : Except AddressError HashedAddress :=
  if s.utf8ByteSize = textSize then
    match s.toList with
    | '0' :: 'x' :: digits =>
      if digits.all isDigit then .ok ⟨s⟩ else .error (.format (.nonHexadecimal s))
    | _ => .error (.format (.unmarked s))
  else .error (.length s.utf8ByteSize)

def digits (a : HashedAddress) : List Char := a.text.toList.drop 2

def isChecksummed (a : HashedAddress) : Bool :=
  checksumCase (a.digits.map Char.toLower) == a.digits

end HashedAddress

end MessagingIdentity

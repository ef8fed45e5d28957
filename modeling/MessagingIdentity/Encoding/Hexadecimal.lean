import MessagingIdentity.Bytes

namespace MessagingIdentity.Hexadecimal

inductive DecodeError where
  | oddLength
  | invalidDigit (byte : UInt8) (index : Nat)
deriving DecidableEq, Repr

def digit (n : Nat) : Char := Nat.digitChar n

def pair (b : UInt8) : List Char := [digit (b.toNat / 16), digit (b.toNat % 16)]

def encode (b : Bytes) : String := String.ofList (b.flatMap pair)

def value? (b : UInt8) : Option Nat :=
  let n := b.toNat
  if 48 ≤ n ∧ n ≤ 57 then some (n - 48)
  else if 97 ≤ n ∧ n ≤ 102 then some (n - 87)
  else if 65 ≤ n ∧ n ≤ 70 then some (n - 55)
  else none

def decodeFrom (i : Nat) : Bytes → Except DecodeError Bytes
  | [] => .ok []
  | [_] => .error .oddLength
  | a :: b :: rest =>
    match value? a, value? b with
    | none, _ => .error (.invalidDigit a i)
    | some _, none => .error (.invalidDigit b (i + 1))
    | some x, some y => (decodeFrom (i + 2) rest).map ((x * 16 + y).toUInt8 :: ·)

/-- Reads the UTF-8 form of a text; an odd length is refused before any digit is looked at. -/
def decode (s : String) : Except DecodeError Bytes :=
  let b := Bytes.ofText s
  if b.length % 2 = 1 then .error .oddLength else decodeFrom 0 b

end MessagingIdentity.Hexadecimal

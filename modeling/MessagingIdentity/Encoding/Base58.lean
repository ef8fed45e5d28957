import MessagingIdentity.Bytes

namespace MessagingIdentity.Base58

inductive DecodeError where
  | invalidCharacter (c : Char) (index : Nat)
  | nonAscii (index : Nat)
deriving DecidableEq, Repr

def alphabet : List Char :=
  "123456789ABCDEFGHJKLMNPQRSTUVWXYZabcdefghijkmnopqrstuvwxyz".toList

def digit (n : Nat) : Char := alphabet.getD n '1'

def value? (c : Char) : Option Nat := alphabet.findIdx? (· = c)

def digitsOf (base : Nat) : Nat → Nat → List Nat
  | 0, _ => []
  | fuel + 1, n => if n = 0 then [] else n % base :: digitsOf base fuel (n / base)

def valueOf (base : Nat) (ds : List Nat) : Nat := ds.foldl (fun n d ↦ n * base + d) 0

def encode (b : Bytes) : String :=
  let zeros := (b.takeWhile (· = 0)).length
  let digits := (digitsOf 58 (2 * b.length) b.toNat).reverse
  String.ofList (List.replicate zeros '1' ++ digits.map digit)

def digitValues (i : Nat) : Bytes → Except DecodeError (List Nat)
  | [] => .ok []
  | b :: rest =>
    if 127 < b.toNat then .error (.nonAscii i)
    else
      let c := Char.ofNat b.toNat
      match value? c with
      | none => .error (.invalidCharacter c i)
      | some v => (digitValues (i + 1) rest).map (v :: ·)

def decode (s : String) : Except DecodeError Bytes :=
  (digitValues 0 (Bytes.ofText s)).map fun ds ↦
    let zeros := (ds.takeWhile (· = 0)).length
    let bytes := (digitsOf 256 ds.length (valueOf 58 ds)).reverse
    List.replicate zeros 0 ++ bytes.map Nat.toUInt8

end MessagingIdentity.Base58

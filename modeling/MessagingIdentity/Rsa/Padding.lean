import MessagingIdentity.Arithmetic.Entropy
import MessagingIdentity.Digest.Sha256
import MessagingIdentity.Rsa.Key

namespace MessagingIdentity.Rsa

def paddingOverhead : Nat := 11

inductive PaddingError where
  | modulusTooLarge
  | messageTooLong
  | operation (e : OperationError)
  | invalidPadding
deriving DecidableEq

def PaddingError.message : PaddingError → String
  | modulusTooLarge => "modulus too large"
  | messageTooLong => "message too long"
  | operation .outOfRange => "decryption error"
  | operation .mismatch => "internal error"
  | invalidPadding => "decryption error"

def digestHeader : Bytes :=
  [0x30, 0x31, 0x30, 0x0d, 0x06, 0x09, 0x60, 0x86, 0x48, 0x01, 0x65, 0x03, 0x04, 0x02, 0x01, 0x05,
    0x00, 0x04, 0x20]

/-- The block that is signed for a digest: 0, 1, bytes 255, 0, and the named digest. -/
def signatureBlock? (size : Nat) (digest : Bytes) : Option Bytes :=
  let named := digestHeader ++ digest
  if size < named.length + paddingOverhead then none
  else some (0 :: 1 :: List.replicate (size - named.length - 3) 255 ++ 0 :: named)

/-- The block that is encrypted for a message: 0, 2, nonzero random bytes, 0, and the message. -/
def encryptionBlock? (size : Nat) (m : Bytes) (e : Entropy) : Option Bytes :=
  if size < m.length + paddingOverhead then none
  else some (0 :: 2 :: e.drawNonzero (size - m.length - 3) ++ 0 :: m)

/-- The message in a block: behind the first zero, which follows at least eight other bytes. -/
def messageOfBlock? : Bytes → Option Bytes
  | 0 :: 2 :: rest =>
    let random := rest.takeWhile (· ≠ 0)
    if random.length < 8 then none
    else
      match rest.drop random.length with
      | 0 :: m => some m
      | _ => none
  | _ => none

namespace PrivateKey

def sign (k : PrivateKey) (digest : Bytes) : Except PaddingError Bytes := do
  match signatureBlock? k.size digest with
  | none => throw .messageTooLong
  | some block =>
    let m ← (k.apply block.toNat).mapError .operation
    return Bytes.ofNat k.size m

def decryptBlock (k : PrivateKey) (block : Bytes) : Except PaddingError Bytes := do
  if Nat.pow 2 maxModulusBits ≤ k.toPublic.modulus then throw .modulusTooLarge
  let m ← (k.apply block.toNat).mapError .operation
  match messageOfBlock? (Bytes.ofNat k.size m) with
  | some message => return message
  | none => throw .invalidPadding

end PrivateKey

namespace PublicKey

def verify (k : PublicKey) (digest signature : Bytes) : Bool :=
  signature.length == k.size && signature.toNat < k.modulus &&
    signatureBlock? k.size digest == some (Bytes.ofNat k.size (k.apply signature.toNat))

def encryptBlock (k : PublicKey) (m : Bytes) (e : Entropy) : Except PaddingError Bytes :=
  if Nat.pow 2 maxModulusBits ≤ k.modulus then .error .modulusTooLarge
  else
    match encryptionBlock? k.size m e with
    | none => .error .messageTooLong
    | some block => .ok (Bytes.ofNat k.size (k.apply block.toNat))

end PublicKey

end MessagingIdentity.Rsa

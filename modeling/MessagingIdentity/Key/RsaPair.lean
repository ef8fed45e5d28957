import MessagingIdentity.Asn1.Pem
import MessagingIdentity.Key.Attributes
import MessagingIdentity.Rsa.Encoding
import MessagingIdentity.Rsa.Generation
import MessagingIdentity.Rsa.Padding

namespace MessagingIdentity

namespace RsaKey

def tag : String := "RSA"

def membersOf (data : String) : Json.Members := Json.Members.ofList
  [(Field.algorithm, .text tag), (Field.data, .text data), (Field.mode, .text "ECB"),
    (Field.padding, .text "PKCS1"), (Field.digest, .text "SHA256")]

/-- The binary form that the data of a key holds: armoured, if it has the start of an armour. -/
def bytes (a : Attributes) : Except KeyError Bytes :=
  if Pem.occurs "-----BEGIN".toList a.data.toList then
    match Pem.parse a.data with
    | some (_, content) => .ok content
    | none => .error (.other .armour)
  else Transport.decode a.data

end RsaKey

structure RsaPublicKey where
  attributes : Attributes
  numbers? : Option Rsa.PublicKey

namespace RsaPublicKey

def ofMembers (m : Json.Members) : Except KeyError RsaPublicKey :=
  (Attributes.ofMembers m).map (⟨·, none⟩)

def numbers (k : RsaPublicKey) : Except KeyError Rsa.PublicKey :=
  match k.numbers? with
  | some n => .ok n
  | none => do
    match Rsa.PublicKey.ofDer? (← RsaKey.bytes k.attributes) with
    | some n => return n
    | none => throw (.invalidData .rsaPublic)

def data (k : RsaPublicKey) : Except KeyError Bytes := k.numbers.map (Bytes.minimal ·.modulus)

def size (k : RsaPublicKey) : Except KeyError Nat := k.numbers.map Rsa.PublicKey.size

def verify (k : RsaPublicKey) (m signature : Bytes) : Bool :=
  match k.numbers with
  | .ok n => n.verify (Digest.sha256 m) signature
  | .error _ => false

def encryptPieces (n : Rsa.PublicKey) : List Bytes → Entropy → Except KeyError Bytes
  | [], _ => .ok []
  | m :: ms, e => do
    let c ← (n.encryptBlock m e).mapError fun err ↦ .other (.rsaEncryption err)
    return c ++ (← encryptPieces n ms (e.advance n.size))

def encrypt (k : RsaPublicKey) (m : Bytes) (e : Entropy) : Except KeyError Bytes := do
  let n ← k.numbers
  if n.size ≤ Rsa.paddingOverhead then throw (.invalidData (.modulusTooSmall n.size))
  encryptPieces n (pieces (n.size - Rsa.paddingOverhead) m) e

end RsaPublicKey

structure RsaPrivateKey where
  attributes : Attributes

namespace RsaPrivateKey

def ofMembers (m : Json.Members) : Except KeyError RsaPrivateKey := (Attributes.ofMembers m).map mk

def generate (e : Entropy) : Except KeyError RsaPrivateKey :=
  match (Rsa.PrivateKey.generate? e).bind (·.wrappedDer?) with
  | some der => ofMembers (RsaKey.membersOf (Pem.encode "PRIVATE KEY" der))
  | none => .error (.other .rsaGeneration)

def numbers (k : RsaPrivateKey) : Except KeyError Rsa.PrivateKey := do
  match Rsa.PrivateKey.ofDer? (← RsaKey.bytes k.attributes) with
  | some n => return n
  | none => throw (.invalidData .rsaPrivate)

def data (k : RsaPrivateKey) : Except KeyError Bytes := do
  match (← k.numbers).plainDer? with
  | some der => return der
  | none => throw (.other .rsaEncoding)

def size (k : RsaPrivateKey) : Except KeyError Nat := k.numbers.map Rsa.PrivateKey.size

def publicKey (k : RsaPrivateKey) : Except KeyError RsaPublicKey := do
  let n := (← k.numbers).toPublic
  let a ← Attributes.ofMembers (RsaKey.membersOf (Pem.encode "PUBLIC KEY" n.wrappedDer))
  return ⟨a, some n⟩

def sign (k : RsaPrivateKey) (m : Bytes) : Except KeyError Bytes := do
  ((← k.numbers).sign (Digest.sha256 m)).mapError fun e ↦ .other (.rsaSigning e)

def decryptPieces (n : Rsa.PrivateKey) : List Bytes → Except KeyError Bytes
  | [] => .ok []
  | c :: cs => do
    let m ← (n.decryptBlock c).mapError fun e ↦ .decryption (.block e)
    return m ++ (← decryptPieces n cs)

def decrypt (k : RsaPrivateKey) (c : Bytes) : Except KeyError Bytes := do
  let n ← k.numbers
  if c.length % n.size ≠ 0 then throw (.decryption (.length c.length n.size))
  decryptPieces n (pieces n.size c)

end RsaPrivateKey

end MessagingIdentity

import MessagingIdentity.Asn1.Der
import MessagingIdentity.Rsa.Key

namespace MessagingIdentity.Rsa

open Der

def algorithmIdentifier : Bytes :=
  sequence [element tagObject [0x2a, 0x86, 0x48, 0x86, 0xf7, 0x0d, 0x01, 0x01, 0x01],
    element tagNull []]

namespace PublicKey

def plainDer (k : PublicKey) : Bytes := sequence [integer k.modulus, integer k.exponent]

def wrappedDer (k : PublicKey) : Bytes :=
  sequence [algorithmIdentifier, element tagBitString (0 :: k.plainDer)]

def ofPlainDer? (b : Bytes) : Option PublicKey := do
  let (ns, rest) ← readNaturals 2 (← only tagSequence b)
  match ns, rest with
  | [n, e], [] => if n < Nat.pow 2 maxModulusBits then ofNumbers? n e else none
  | _, _ => none

def ofWrappedDer? (b : Bytes) : Option PublicKey := do
  let content ← only tagSequence b
  let (algorithm, rest) ← expect tagSequence content
  let bits ← only tagBitString rest
  match bits with
  | 0 :: plain =>
    if element tagSequence algorithm = algorithmIdentifier then ofPlainDer? plain else none
  | _ => none

def ofDer? (b : Bytes) : Option PublicKey := (ofWrappedDer? b).orElse fun _ ↦ ofPlainDer? b

end PublicKey

namespace PrivateKey

/-- The sequence of the version, the numbers of the key, and those derived from them; there is none
when the factors have a common one, or when it is longer than a length can say. -/
def plainDer? (k : PrivateKey) : Option Bytes := do
  let t ← k.coefficient?
  let der := Der.sequence ([0, k.toPublic.modulus, k.toPublic.exponent, k.exponent, k.p, k.q,
    k.exponentP, k.exponentQ, t].map integer)
  if der.length < 0x10000000 then return der else none

def wrappedDer? (k : PrivateKey) : Option Bytes :=
  k.plainDer?.map fun plain ↦
    sequence [integer 0, algorithmIdentifier, element tagOctetString plain]

/-- Reads the plain form; the derived numbers need not be right. -/
def ofPlainDer? (b : Bytes) : Option PrivateKey := do
  let (ns, rest) ← readNaturals 9 (← only tagSequence b)
  match ns, rest with
  | [0, n, e, d, p, q, _, _, _], [] => ofNumbers? n e d p q
  | _, _ => none

def isContextTag (number : UInt8) (tag : UInt8) : Bool := tag &&& 0xdf == 0x80 + number

/-- Whether the elements behind the key are such as may stand there: first those numbered 0, then,
for version one, a bit string numbered 1, then any context-specific ones. -/
def extensionsAllowed (version : Nat) : Nat → Bytes → Bool
  | 0, _ => false
  | _ + 1, [] => version == 0
  | fuel + 1, b =>
    match read b with
    | none => false
    | some (e, rest) =>
      if isContextTag 0 e.tag then extensionsAllowed version fuel rest
      else if isContextTag 1 e.tag then
        version == 1 && e.tag == 0x81 && e.content.head? == some 0 && othersAllowed fuel rest
      else version == 0 && othersAllowed fuel b
where
  othersAllowed : Nat → Bytes → Bool
    | _, [] => true
    | 0, _ => false
    | fuel + 1, b =>
      match read b with
      | some (e, rest) => e.tag &&& 0xc0 == 0x80 && othersAllowed fuel rest
      | none => false

def ofWrappedDer? (b : Bytes) : Option PrivateKey := do
  let content ← only tagSequence b
  let (version, rest) ← readNatural content
  let (algorithm, rest) ← expect tagSequence rest
  let (plain, rest) ← expect tagOctetString rest
  if version ≤ 1 ∧ element tagSequence algorithm = algorithmIdentifier ∧
      extensionsAllowed version (rest.length + 1) rest then
    ofPlainDer? plain
  else none

def ofDer? (b : Bytes) : Option PrivateKey := (ofPlainDer? b).orElse fun _ ↦ ofWrappedDer? b

end PrivateKey

end MessagingIdentity.Rsa

import MessagingIdentity.Aes.Chaining
import MessagingIdentity.Arithmetic.Entropy
import MessagingIdentity.Key.Attributes

namespace MessagingIdentity

structure AesKey where
  attributes : Attributes

namespace AesKey

def tag : String := "AES"

def ofMembers (m : Json.Members) : Except KeyError AesKey := (Attributes.ofMembers m).map mk

def generate (e : Entropy.Source) : Except KeyError AesKey := do
  let bytes ← (e.draw 32).mapError fun reason ↦ .other (.keyDraw reason)
  ofMembers (Json.Members.ofList
    [(Field.algorithm, .text tag), (Field.data, .text (Base64.encode bytes))])

/-- The bytes of the key: 16, 24 or 32, and as many as the attributes declare, if they do. -/
def data (k : AesKey) : Except KeyError Bytes := do
  let bytes ← Transport.decode k.attributes.data
  if bytes.length ∉ [16, 24, 32] then
    throw (.invalidData (.aesLength bytes.length))
  let declared := k.attributes.members.natural Field.keySize bytes.length
  if declared ≠ bytes.length then
    throw (.invalidData (.aesDeclared declared bytes.length))
  return bytes

/-- The text of the initial block: the first that is a text among the members of both names, of the
parameters and then of the key. -/
def ivText (k : AesKey) (params : Json.Members) : Option String :=
  [params, k.attributes.members].flatMap (fun m ↦ [m.text? Field.iv, m.text? Field.ivLower])
    |>.findSome? id

def iv (k : AesKey) (params : Json.Members) : Except KeyError (Option Bytes) := do
  match k.ivText params with
  | none => return none
  | some s =>
    let bytes ← Transport.decode s
    if bytes.isEmpty then return none
    if bytes.length ≠ Aes.blockSize then throw (.invalidIv Aes.blockSize bytes.length)
    return some bytes

/-- Encrypts; where no initial block is prescribed, a random one is taken and set in the parameters.
The parameters as they are afterwards come with every outcome. -/
def encrypt (k : AesKey) (m : Bytes) (params : Json.Members) (e : Entropy.Source) :
    Except KeyError Bytes × Json.Members :=
  match k.iv params with
  | .error err => (.error err, params)
  | .ok (some iv) => (k.data.map fun key ↦ Aes.encrypt key (Aes.blockOf iv) m, params)
  | .ok none =>
    match e.draw Aes.blockSize with
    | .error reason => (.error (.other (.ivDraw reason)), params)
    | .ok iv =>
      (k.data.map fun key ↦ Aes.encrypt key (Aes.blockOf iv) m,
        params.insert Field.iv (.text (Base64.encode iv)))

def decrypt (k : AesKey) (c : Bytes) (params : Json.Members) : Except KeyError Bytes := do
  let iv := (← k.iv params).getD (List.replicate Aes.blockSize 0)
  match Aes.decrypt? (← k.data) (Aes.blockOf iv) c with
  | some m => return m
  | none => throw (.decryption .padding)

end AesKey

inductive SymmetricKey where
  | aes (k : AesKey)
  | plain

namespace SymmetricKey

def plainTag : String := "PLAIN"

def algorithm : SymmetricKey → String
  | aes k => k.attributes.algorithm
  | plain => plainTag

def members : SymmetricKey → Json.Members
  | aes k => k.attributes.members
  | plain => [(Field.algorithm, .text plainTag)]

def data : SymmetricKey → Except KeyError Bytes
  | aes k => k.data
  | plain => .ok []

def encrypt (k : SymmetricKey) (m : Bytes) (params : Json.Members) (e : Entropy.Source) :
    Except KeyError Bytes × Json.Members :=
  match k with
  | aes k => k.encrypt m params e
  | plain => (.ok m, params)

def decrypt (k : SymmetricKey) (c : Bytes) (params : Json.Members) : Except KeyError Bytes :=
  match k with
  | aes k => k.decrypt c params
  | plain => .ok c

def describe : SymmetricKey → String
  | aes k => "AesKey \x7b algorithm: " ++ Text.quoted k.attributes.algorithm ++ ", .. \x7d"
  | plain => "PlainKey"

end SymmetricKey

end MessagingIdentity

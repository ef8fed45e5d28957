import MessagingIdentity.Key.CurvePair
import MessagingIdentity.Key.RsaPair

namespace MessagingIdentity

inductive PublicKey where
  | rsa (k : RsaPublicKey)
  | curve (k : CurvePublicKey)

namespace PublicKey

def attributes : PublicKey → Attributes
  | rsa k => k.attributes
  | curve k => k.attributes

def algorithm (k : PublicKey) : String := k.attributes.algorithm

def members (k : PublicKey) : Json.Members := k.attributes.members

def data : PublicKey → Except KeyError Bytes
  | rsa k => k.data
  | curve k => k.data

/-- The bytes that addresses are derived from: of a key on the curve as its attributes hold them. -/
def rawData : PublicKey → Except KeyError Bytes
  | rsa k => k.data
  | curve k => k.rawData

def verify (k : PublicKey) (m signature : Bytes) : Bool :=
  match k with
  | rsa k => k.verify m signature
  | curve k => k.verify m signature

def encrypt (k : PublicKey) (m : Bytes) (params : Json.Members) (e : Entropy) :
    Except KeyError Bytes × Json.Members :=
  match k with
  | rsa k => (k.encrypt m e, params)
  | curve k => (.error (.unsupported k.attributes.algorithm "encryption"), params)

def sameFamily : PublicKey → PublicKey → Bool
  | rsa _, rsa _ => true
  | curve _, curve _ => true
  | _, _ => false

/-- Keys of one family are equal by their canonical bytes, or, where one of them has none, by the
data of their attributes. -/
def equal (a b : PublicKey) : Bool :=
  sameFamily a b &&
    match a.data, b.data with
    | .ok x, .ok y => x == y
    | _, _ => a.attributes.data == b.attributes.data

def describe (k : PublicKey) : String :=
  let name := match k with
    | rsa _ => "RsaPublicKey"
    | curve _ => "EccPublicKey"
  name ++ " \x7b algorithm: " ++ Text.quoted k.algorithm ++ ", data: " ++
    Text.quotedOption (some k.attributes.data) ++ " \x7d"

end PublicKey

inductive PrivateKey where
  | rsa (k : RsaPrivateKey)
  | curve (k : CurvePrivateKey)

namespace PrivateKey

def attributes : PrivateKey → Attributes
  | rsa k => k.attributes
  | curve k => k.attributes

def algorithm (k : PrivateKey) : String := k.attributes.algorithm

def members (k : PrivateKey) : Json.Members := k.attributes.members

def data : PrivateKey → Except KeyError Bytes
  | rsa k => k.data
  | curve k => k.data

def publicKey : PrivateKey → Except KeyError PublicKey
  | rsa k => k.publicKey.map .rsa
  | curve k => k.publicKey.map .curve

def sign (k : PrivateKey) (m : Bytes) : Except KeyError Bytes :=
  match k with
  | rsa k => k.sign m
  | curve k => k.sign m

def decrypt (k : PrivateKey) (c : Bytes) : Except KeyError Bytes :=
  match k with
  | rsa k => k.decrypt c
  | curve k => .error (.unsupported k.attributes.algorithm "decryption")

def describe (k : PrivateKey) : String :=
  let name := match k with
    | rsa _ => "RsaPrivateKey"
    | curve _ => "EccPrivateKey"
  name ++ " \x7b algorithm: " ++ Text.quoted k.algorithm ++ ", .. \x7d"

end PrivateKey

end MessagingIdentity

import MessagingIdentity.Key.Asymmetric
import MessagingIdentity.Key.Symmetric

namespace MessagingIdentity

inductive SymmetricFamily where
  | aes
  | plain
deriving DecidableEq

inductive PairFamily where
  | rsa
  | curve
deriving DecidableEq

namespace SymmetricFamily

def generate (f : SymmetricFamily) (e : Entropy.Source) : Except KeyError SymmetricKey :=
  match f with
  | aes => (AesKey.generate e).map .aes
  | plain => .ok .plain

def read (f : SymmetricFamily) (m : Json.Members) : Except KeyError SymmetricKey :=
  match f with
  | aes => (AesKey.ofMembers m).map .aes
  | plain => .ok .plain

end SymmetricFamily

namespace PairFamily

def generate (f : PairFamily) (e : Entropy) : Except KeyError PrivateKey :=
  match f with
  | rsa => (RsaPrivateKey.generate e).map .rsa
  | curve => (CurvePrivateKey.generate e).map .curve

def readPrivate (f : PairFamily) (m : Json.Members) : Except KeyError PrivateKey :=
  match f with
  | rsa => (RsaPrivateKey.ofMembers m).map .rsa
  | curve => (CurvePrivateKey.ofMembers m).map .curve

def readPublic (f : PairFamily) (m : Json.Members) : Except KeyError PublicKey :=
  match f with
  | rsa => (RsaPublicKey.ofMembers m).map .rsa
  | curve => (CurvePublicKey.ofMembers m).map .curve

end PairFamily

/-- The families by tag, for each kind of key. Of two entries for one tag the first counts. -/
structure Registry where
  symmetric : List (String × SymmetricFamily)
  signing : List (String × PairFamily)
  verifying : List (String × PairFamily)

namespace Registry

def empty : Registry := ⟨[], [], []⟩

def pairDefaults : List (String × PairFamily) :=
  [("RSA", .rsa), ("SHA256withRSA", .rsa), ("RSA/ECB/PKCS1Padding", .rsa), ("ECC", .curve),
    ("SHA256withECDSA", .curve)]

def defaults : Registry :=
  ⟨[("AES", .aes), ("AES/CBC/PKCS7Padding", .aes), ("PLAIN", .plain)], pairDefaults, pairDefaults⟩

def registerSymmetric (r : Registry) (tag : String) (f : SymmetricFamily) : Registry :=
  { r with symmetric := (tag, f) :: r.symmetric }

def registerPrivate (r : Registry) (tag : String) (f : PairFamily) : Registry :=
  { r with signing := (tag, f) :: r.signing }

def registerPublic (r : Registry) (tag : String) (f : PairFamily) : Registry :=
  { r with verifying := (tag, f) :: r.verifying }

def family {α : Type} (entries : List (String × α)) (tag : String) : Except KeyError α :=
  match entries.lookup tag with
  | some f => .ok f
  | none => .error (.unknownAlgorithm tag)

def generateSymmetric (r : Registry) (tag : String) (e : Entropy.Source) :
    Except KeyError SymmetricKey := do
  (← family r.symmetric tag).generate e

def generatePrivate (r : Registry) (tag : String) (e : Entropy) : Except KeyError PrivateKey := do
  (← family r.signing tag).generate e

def readSymmetric (r : Registry) (m : Json.Members) : Except KeyError SymmetricKey := do
  (← family r.symmetric (← m.algorithm)).read m

def readPrivate (r : Registry) (m : Json.Members) : Except KeyError PrivateKey := do
  (← family r.signing (← m.algorithm)).readPrivate m

def readPublic (r : Registry) (m : Json.Members) : Except KeyError PublicKey := do
  (← family r.verifying (← m.algorithm)).readPublic m

end Registry

def SymmetricKey.parse (m : Json.Members) : Except KeyError SymmetricKey :=
  Registry.defaults.readSymmetric m

def PrivateKey.parse (m : Json.Members) : Except KeyError PrivateKey :=
  Registry.defaults.readPrivate m

def PublicKey.parse (m : Json.Members) : Except KeyError PublicKey :=
  Registry.defaults.readPublic m

end MessagingIdentity

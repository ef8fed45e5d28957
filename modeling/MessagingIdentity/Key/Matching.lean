import MessagingIdentity.Key.Asymmetric
import MessagingIdentity.Key.Symmetric

namespace MessagingIdentity

def probe : Bytes := Bytes.ofText "dimid key probe: every key pair should agree on this sentence"

/-- Whether the decryption recovers the probe from its encryption with empty parameters. -/
def undoes (encryption : Except KeyError Bytes × Json.Members)
    (decrypt : Bytes → Json.Members → Except KeyError Bytes) : Bool :=
  match encryption with
  | (.ok c, params) =>
    match decrypt c params with
    | .ok m => m == probe
    | .error _ => false
  | (.error _, _) => false

namespace SymmetricKey

def decryptedBy (a b : SymmetricKey) (e : Entropy.Source) : Bool :=
  undoes (a.encrypt probe [] e) b.decrypt

def decryptedByPrivate (a : SymmetricKey) (b : PrivateKey) (e : Entropy.Source) : Bool :=
  undoes (a.encrypt probe [] e) fun c _ ↦ b.decrypt c

/-- Keys of one kind are equal if they are one and the same, or the second decrypts what the first
encrypts. -/
def equal (same : Bool) (a b : SymmetricKey) (e : Entropy.Source) : Bool :=
  match a, b with
  | aes _, aes _ => same || decryptedBy a b e
  | plain, plain => decryptedBy a b e
  | _, _ => false

end SymmetricKey

namespace PublicKey

def decryptedBy (a : PublicKey) (b : PrivateKey) (e : Entropy) : Bool :=
  undoes (a.encrypt probe [] e) fun c _ ↦ b.decrypt c

def decryptedBySymmetric (a : PublicKey) (b : SymmetricKey) (e : Entropy) : Bool :=
  undoes (a.encrypt probe [] e) b.decrypt

end PublicKey

namespace PrivateKey

def acceptedBy (a : PrivateKey) (b : PublicKey) : Bool :=
  match a.sign probe with
  | .ok signature => b.verify probe signature
  | .error _ => false

/-- Private keys are equal if they are one and the same, or the public key of the second accepts
what the first signs. -/
def equal (same : Bool) (a b : PrivateKey) : Bool :=
  same ||
    match b.publicKey with
    | .ok k => a.acceptedBy k
    | .error _ => false

end PrivateKey

end MessagingIdentity

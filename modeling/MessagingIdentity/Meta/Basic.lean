import MessagingIdentity.Identifier.Basic
import MessagingIdentity.Key.Registry
import MessagingIdentity.Meta.Scheme

namespace MessagingIdentity

namespace Field

def type : String := "type"
def key : String := "key"
def seed : String := "seed"
def fingerprint : String := "fingerprint"

end Field

/-- The public key of an entity and an optional seed. The fingerprint is the signature of the seed. -/
structure Meta where
  type : MetaType
  key : PublicKey
  seed : Option String
  fingerprint : Option Bytes

namespace Meta

def validate (m : Meta) : Except MetaError Unit := do
  match m.seed, m.fingerprint with
  | some seed, some fingerprint =>
    if !m.key.verify (Bytes.ofText seed) fingerprint then .error (.invalid .fingerprint)
  | none, none => if m.type = .mkm then .error (.invalid .seedMissing)
  | _, _ => .error .incompleteFingerprint
  match m.type, m.key with
  | .eth, .rsa _ => .error (.invalid .keyFamily)
  | _, _ => .ok ()

def isValid (m : Meta) : Bool := m.validate.isOk

def validated (m : Meta) : Except MetaError Meta := m.validate.map fun _ ↦ m

/-- The meta of a private key, which signs the seed. An empty seed counts as absent. -/
def generate (type : MetaType) (key : PrivateKey) (seed : Option String) :
    Except MetaError Meta := do
  let publicKey ← key.publicKey.mapError .key
  match seed.filter (· ≠ "") with
  | none => validated ⟨type, publicKey, none, none⟩
  | some s =>
    let fingerprint ← (key.sign (Bytes.ofText s)).mapError .key
    validated ⟨type, publicKey, some s, some fingerprint⟩

def keyOf (m : Json.Members) : Except MetaError PublicKey :=
  match m.get? Field.key with
  | some (.object key) => (PublicKey.parse key).mapError .key
  | some _ => .error (.invalid .keyForm)
  | none => .error (.missingField Field.key)

def fingerprintOf (m : Json.Members) : Except MetaError (Option Bytes) :=
  match m.text? Field.seed, m.text? Field.fingerprint with
  | some _, some s => ((Transport.decode s).map some).mapError .key
  | none, none => .ok none
  | _, _ => .error .incompleteFingerprint

def parse (m : Json.Members) : Except MetaError Meta := do
  let some tag := m.get? Field.type | .error (.missingField Field.type)
  let type ← MetaType.ofJson tag
  let key ← keyOf m
  let fingerprint ← fingerprintOf m
  validated ⟨type, key, m.text? Field.seed, fingerprint⟩

def members (m : Meta) : Json.Members :=
  Json.Members.ofList <|
    [(Field.type, Json.text m.type.tag), (Field.key, Json.object m.key.members)] ++
      (m.seed.map fun s ↦ (Field.seed, Json.text s)).toList ++
      (m.fingerprint.map fun b ↦ (Field.fingerprint, Json.text (Base64.encode b))).toList

def address (m : Meta) (network : EntityType) : Except MetaError Address :=
  match m.type with
  | .mkm =>
    match m.fingerprint with
    | some b => .ok (.checked (.generate b network))
    | none => .error (.missingField Field.fingerprint)
  | .btc => do
    let b ← m.key.rawData.mapError .key
    .ok (.checked (.generate b network))
  | .eth => do
    let b ← m.key.rawData.mapError .key
    let a ← (HashedAddress.generate b).mapError .address
    .ok (.hashed a)

def identifier (m : Meta) (network : EntityType) (terminal : Option String) :
    Except MetaError Identifier := do
  let address ← m.address network
  (Identifier.compose m.seed address terminal).mapError .identifier

def matchesIdentifier (m : Meta) (i : Identifier) : Bool :=
  i.name == m.seed &&
    match m.address i.network with
    | .ok a => a == i.address
    | .error _ => false

def matchesKey (m : Meta) (k : PublicKey) : Bool :=
  m.key.equal k ||
    match m.seed, m.fingerprint with
    | some seed, some fingerprint => k.verify (Bytes.ofText seed) fingerprint
    | _, _ => false

def describe (m : Meta) : String :=
  "Meta \x7b type: " ++ m.type.describe ++ ", key: " ++ m.key.describe ++ ", seed: " ++
    Text.quotedOption m.seed ++ ", .. \x7d"

end Meta

end MessagingIdentity

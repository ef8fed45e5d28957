import MessagingIdentity.BuildInfo
import MessagingIdentity.CommandLine.Command
import MessagingIdentity.CommandLine.State
import MessagingIdentity.Meta.Basic

namespace MessagingIdentity

inductive CommandError where
  | state (e : StateError)
  | init (e : StateError)
  | generation (e : KeyError)
  | key (e : KeyError)
  | signing (e : KeyError)
  | making (e : MetaError)
  | derivation (e : MetaError)
  | composition (e : MetaError)
  | identifier (e : IdentifierError)
  | publicKeyJson
  | signatureForm (e : Base64.DecodeError)
  | mismatch
deriving DecidableEq

def CommandError.message : CommandError → String
  | state e => e.message
  | init e => s!"init failed: {e.message}"
  | generation e => s!"key generation failed: {e.message}"
  | key e => s!"key error: {e.message}"
  | signing e => s!"signing failed: {e.message}"
  | making e => s!"meta error: {e.message}"
  | derivation e => s!"address derivation failed: {e.message}"
  | composition e => s!"identifier generation failed: {e.message}"
  | identifier e => s!"invalid identifier: {e.message}"
  | publicKeyJson => "invalid public key JSON: not a JSON object"
  | signatureForm e => s!"signature is not valid base64: {e.message}"
  | mismatch => "signature does not match"

structure Environment where
  home : Option String
  entropy : Entropy
  build : BuildInfo

namespace Execution

abbrev Outcome := Except CommandError String

def loadAll (directory : Except StateError String) (fs : FileSystem) :
    Except CommandError (State × PrivateKey) := do
  let d ← directory.mapError .state
  let s ← (State.load d fs).mapError .state
  let k ← (s.loadKey fs).mapError .state
  .ok (s, k)

def metaType (s : State) (o : MetaOptions) : Except CommandError MetaType :=
  match o.type with
  | some tag => (MetaType.parse tag).mapError .making
  | none => (MetaType.parse s.configuration.metaType).mapError fun e ↦ .state (.configuration e)

def metaOf (s : State) (k : PrivateKey) (o : MetaOptions) : Except CommandError Meta := do
  let type ← metaType s o
  (Meta.generate type k o.seed).mapError .making

def networkOf (s : State) (o : MetaOptions) : EntityType :=
  match o.network with
  | some byte => ⟨byte⟩
  | none => s.configuration.network

def init (directory : Except StateError String) (c : Configuration) (e : Entropy)
    (fs : FileSystem) : Outcome × FileSystem :=
  match directory with
  | .error err => (.error (.init err), fs)
  | .ok d =>
    match State.create d c e fs with
    | (.error err, fs) => (.error (.init err), fs)
    | (.ok s, fs) =>
      let lines :=
        ["Initialized dimid directory at: " ++ s.directory, "- Key: " ++ State.keyPath s.directory,
          "- Config: " ++ State.configurationPath s.directory,
          "- Algorithm: " ++ s.configuration.algorithm, "- Meta type: " ++ s.configuration.metaType,
          "- Network: " ++ toString s.configuration.network.byte.toNat]
      (.ok ("\n".intercalate lines), fs)

/-- Makes a key of a tag for pairs or, if there is none, for symmetric keys. -/
def generateKey (algorithm : String) (e : Entropy) : Outcome :=
  match Registry.defaults.generatePrivate algorithm e with
  | .ok k => .ok (Json.object k.members).pretty
  | .error (.unknownAlgorithm _) => do
    let k ← (Registry.defaults.generateSymmetric algorithm e).mapError .generation
    .ok (Json.object k.members).pretty
  | .error err => .error (.generation err)

def showKey (directory : Except StateError String) (secret : Bool) (fs : FileSystem) : Outcome := do
  let (_, k) ← loadAll directory fs
  if secret then .ok (Json.object k.members).pretty
  else
    let p ← k.publicKey.mapError .key
    .ok (Json.object p.members).pretty

def address (directory : Except StateError String) (o : MetaOptions) (showMeta : Bool)
    (fs : FileSystem) : Outcome := do
  let (s, k) ← loadAll directory fs
  let m ← metaOf s k o
  let a ← (m.address (networkOf s o)).mapError .derivation
  .ok (if showMeta then a.text ++ "\n" ++ (Json.object m.members).pretty else a.text)

def generateIdentifier (directory : Except StateError String) (o : MetaOptions)
    (terminal : Option String) (fs : FileSystem) : Outcome := do
  let (s, k) ← loadAll directory fs
  let m ← metaOf s k o
  let i ← (m.identifier (networkOf s o) terminal).mapError .composition
  .ok i.text

def kindOf (t : EntityType) : String :=
  if t.isBroadcast then "broadcast" else if t.isGroup then "group" else "user"

def parseIdentifier (text : String) : Outcome := do
  let i ← (Identifier.parse text).mapError .identifier
  let code := "0x" ++ Hexadecimal.encode [i.network.byte]
  .ok <| "\n".intercalate
    ["name:     " ++ i.name.getD "-", "address:  " ++ i.address.text,
      "terminal: " ++ i.terminal.getD "-", s!"network:  {i.network.display} ({code})",
      "kind:     " ++ kindOf i.network]

def sign (directory : Except StateError String) (message : String) (fs : FileSystem) : Outcome := do
  let (_, k) ← loadAll directory fs
  let b ← (k.sign (Bytes.ofText message)).mapError .signing
  .ok (Base64.encode b)

def verifyingKey (directory : Except StateError String) (told : Option String) (fs : FileSystem) :
    Except CommandError PublicKey :=
  match told with
  | some json =>
    match Json.parseMembers json with
    | none => .error .publicKeyJson
    | some m => (PublicKey.parse m).mapError .key
  | none => do
    let (_, k) ← loadAll directory fs
    k.publicKey.mapError .key

def verify (directory : Except StateError String) (message signature : String)
    (publicKey : Option String) (fs : FileSystem) : Outcome := do
  let k ← verifyingKey directory publicKey fs
  let b ← (Base64.decode (Text.trim signature)).mapError .signatureForm
  if k.verify (Bytes.ofText message) b then .ok "signature OK" else .error .mismatch

end Execution

def Invocation.run (i : Invocation) (env : Environment) (fs : FileSystem) :
    Execution.Outcome × FileSystem :=
  let directory := State.directoryOf env.home i.directory
  match i.command with
  | .init c => Execution.init directory c env.entropy fs
  | .generateKey algorithm => (Execution.generateKey algorithm env.entropy, fs)
  | .showKey secret => (Execution.showKey directory secret fs, fs)
  | .address o showMeta => (Execution.address directory o showMeta fs, fs)
  | .generateIdentifier o terminal => (Execution.generateIdentifier directory o terminal fs, fs)
  | .parseIdentifier text => (Execution.parseIdentifier text, fs)
  | .sign message => (Execution.sign directory message fs, fs)
  | .verify message signature publicKey =>
    (Execution.verify directory message signature publicKey fs, fs)
  | .version => (.ok env.build.display, fs)

end MessagingIdentity

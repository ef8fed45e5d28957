import MessagingIdentity.CommandLine.Configuration
import MessagingIdentity.CommandLine.FileSystem
import MessagingIdentity.Json.Parser
import MessagingIdentity.Key.Registry

namespace MessagingIdentity

inductive StateError where
  | missing
  | present
  | noHome
  | missingFile (name : String)
  | key (e : KeyError)
  | configuration (e : MetaError)
  | file (e : FileError)
  | json
  | toml
deriving DecidableEq

def StateError.message : StateError → String
  | missing => "dimid directory not initialized. Run 'dimid init' first"
  | present => "dimid directory already initialized"
  | noHome => "no home directory found"
  | missingFile name => s!"missing required file: {name}"
  | key e => s!"invalid key: {e.message}"
  | configuration e => s!"invalid config: {e.message}"
  | file e => s!"IO error: {e.message}"
  | json => "JSON error: not a JSON object"
  | toml => "TOML deserialization error: not a configuration"

structure State where
  directory : String
  configuration : Configuration

namespace State

def keyFile : String := "key.json"
def configurationFile : String := "config.toml"

def keyPath (directory : String) : String := Path.join directory keyFile

def configurationPath (directory : String) : String := Path.join directory configurationFile

def directoryOf (home told : Option String) : Except StateError String :=
  match told, home with
  | some d, _ => .ok d
  | none, some h => .ok (Path.join h ".dimid")
  | none, none => .error .noHome

def store (directory : String) (key : PrivateKey) (c : Configuration) : FileSystem.Change :=
  (FileSystem.makeDirectories (Path.ofText directory)).andThen <|
    (FileSystem.write (Path.ofText (keyPath directory))
      (Bytes.ofText (Json.object key.members).pretty)).andThen <|
    FileSystem.write (Path.ofText (configurationPath directory)) (Bytes.ofText c.print)

/-- Makes the state directory with a new key, unless something is there already. Nothing is written
before all else has gone well. -/
def create (directory : String) (c : Configuration) (e : Entropy) (fs : FileSystem) :
    Except StateError State × FileSystem :=
  if fs.contains (Path.ofText directory) then (.error .present, fs)
  else
    match MetaType.parse c.metaType with
    | .error err => (.error (.configuration err), fs)
    | .ok _ =>
      match Registry.defaults.generatePrivate c.algorithm e with
      | .error err => (.error (.key err), fs)
      | .ok key =>
        match store directory key c fs with
        | (.error err, fs) => (.error (.file err), fs)
        | (.ok (), fs) => (.ok ⟨directory, c⟩, fs)

/-- Reads the state directory. The key is only looked for. -/
def load (directory : String) (fs : FileSystem) : Except StateError State := do
  if !fs.contains (Path.ofText directory) then .error .missing
  if !fs.contains (Path.ofText (keyPath directory)) then .error (.missingFile keyFile)
  if !fs.contains (Path.ofText (configurationPath directory)) then
    .error (.missingFile configurationFile)
  let text ← (fs.readText (Path.ofText (configurationPath directory))).mapError .file
  match Configuration.parse text with
  | some c => .ok ⟨directory, c⟩
  | none => .error .toml

/-- Reads the key, and tests that its data is readable. -/
def loadKey (s : State) (fs : FileSystem) : Except StateError PrivateKey := do
  let text ← (fs.readText (Path.ofText (keyPath s.directory))).mapError .file
  match Json.parseMembers text with
  | none => .error .json
  | some m =>
    let key ← (PrivateKey.parse m).mapError .key
    let _ ← key.data.mapError .key
    .ok key

end State

end MessagingIdentity

import MessagingIdentity.CommandLine.Arguments
import MessagingIdentity.CommandLine.Execution

namespace MessagingIdentity.Program

/-- What a run of the program leaves: the text on standard output, the lines on standard error, and
the exit code. -/
structure Report where
  output : String
  complaints : List String
  exit : UInt32

def usage : String := "\n".intercalate
  ["Generate and inspect DIM identities", "",
    "Usage: dimid [--config-path <PATH>] <COMMAND>", "",
    "Commands:",
    "  init [--algorithm <TAG>] [--meta-type <TYPE>] [--network <BYTE>] [--log-level <LEVEL>]",
    "  key generate [--algorithm <TAG>]",
    "  key show [--private]",
    "  address [--seed <SEED>] [--meta-type <TYPE>] [--network <BYTE>] [--show-meta]",
    "  id generate [--seed <SEED>] [--meta-type <TYPE>] [--network <BYTE>] [--terminal <TERMINAL>]",
    "  id parse <ID>",
    "  sign <MESSAGE>",
    "  verify <MESSAGE> <SIGNATURE> [--public-key <JSON>]",
    "  version",
    "  help [COMMAND]"]

def levelComplaint (i : Invocation) (env : Environment) (fs : FileSystem) : List String :=
  let loaded := do State.load (← State.directoryOf env.home i.directory) fs
  match loaded with
  | .error _ => []
  | .ok s =>
    let level := s.configuration.logLevel
    match LogLevel.parse? level with
    | some _ => []
    | none => ["Warning: unknown log level " ++ Text.quoted level ++ ", using info"]

def run (args : List String) (env : Environment) (fs : FileSystem) : Report × FileSystem :=
  match Arguments.parse args with
  | .error .help => (⟨usage ++ "\n", [], 0⟩, fs)
  | .error .usage => (⟨"", [usage], 2⟩, fs)
  | .ok i =>
    let complaints := levelComplaint i env fs
    match i.run env fs with
    | (.ok s, fs) => (⟨s ++ "\n", complaints, 0⟩, fs)
    | (.error e, fs) => (⟨"", complaints ++ ["Error: " ++ e.message], 1⟩, fs)

end MessagingIdentity.Program

import MessagingIdentity.CommandLine.Program

namespace MessagingIdentity.Main

def build : BuildInfo := ⟨"0.1.0", "release", "", "unknown", "none"⟩

def tapeSize : Nat := 0x100000

def tapeOf (bytes : ByteArray) : Entropy := fun i ↦
  if h : i % tapeSize < bytes.size then bytes[i % tapeSize] else 0

def nodeAt (p : Path) : IO (Option FileSystem.Node) := do
  try
    let content ← IO.FS.readBinFile p.text
    return some (.file content.data.toList)
  catch _ =>
    try
      let _ ← IO.FS.Handle.mk p.text .read
      return some .directory
    catch _ => return none

def placesOf (directory : String) : List Path :=
  ((Path.ofText directory).above ++
    [Path.ofText (State.keyPath directory), Path.ofText (State.configurationPath directory)]).map
      Path.place

def snapshot (places : List Path) : IO FileSystem := do
  let mut nodes := []
  for p in places do
    match ← nodeAt p with
    | some n => nodes := assign p n nodes
    | none => pure ()
  return ⟨nodes⟩

def store (before after : FileSystem) : IO Unit := do
  for (p, n) in after.nodes do
    if before.nodes.lookup p ≠ some n then
      match n with
      | .directory => IO.FS.createDirAll p.text
      | .file content => IO.FS.writeBinFile p.text ⟨content.toArray⟩

def directoryOf (home : Option String) (args : List String) : Option String :=
  match Arguments.parse args with
  | .error _ => none
  | .ok i => (State.directoryOf home i.directory).toOption

def run (args : List String) : IO UInt32 := do
  let home := (← IO.getEnv "HOME").filter (· ≠ "")
  let tape := tapeOf (← IO.getRandomBytes tapeSize.toUSize)
  let before ← snapshot ((directoryOf home args).elim [] placesOf)
  let (report, after) := Program.run args ⟨home, tape, build⟩ before
  store before after
  IO.print report.output
  for line in report.complaints do
    IO.eprintln line
  return report.exit

end MessagingIdentity.Main

def main (args : List String) : IO UInt32 := MessagingIdentity.Main.run args

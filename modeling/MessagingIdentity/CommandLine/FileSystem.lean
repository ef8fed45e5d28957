import MessagingIdentity.Association
import MessagingIdentity.Bytes

namespace MessagingIdentity

/-- A path: the steps on the way, down into a name or back up by `..`. A path from the working
directory begins with a dot. A step without a name goes nowhere, but needs a directory to start in:
a slash at the end of a text is such a step, a dot there is two of them. -/
abbrev Path := List String

namespace Path

def steps (cs : List Char) : List String :=
  ((cs.splitOn '/').map String.ofList).filter fun n ↦ !(n == "" || n == ".")

def ending (cs : List Char) : List String :=
  if ((cs.splitOn '/').filter (· ≠ [])).getLast? = some ['.'] then ["", ""]
  else if cs.getLast? = some '/' then [""]
  else []

def ofText (s : String) : Path :=
  match s.toList with
  | '/' :: _ => steps s.toList ++ ending s.toList
  | _ => "." :: steps s.toList ++ ending s.toList

/-- The path without what is at its end. What is above it is found from here. -/
def bare (p : Path) : Path := p.filter (· ≠ "")

def text : Path → String
  | "." :: names => "/".intercalate ("." :: names)
  | names => "/" ++ "/".intercalate names

def above (p : Path) : List Path := (List.range (p.length + 1)).map p.take

def join (directory name : String) : String :=
  match directory.toList.getLast? with
  | none => name
  | some '/' => directory ++ name
  | _ => directory ++ "/" ++ name

/-- A place that is always there: the root, the working directory, and what is above that. -/
def isBase (p : Path) : Bool := p == [] || (p.head? == some "." && p.tail.all (· == ".."))

/-- The place that is one step away. Above the root is the root. -/
def go (here : Path) (step : String) : Path :=
  if step = "" then here
  else if step = ".." ∧ (here = [] ∨ isBase here = false) then here.dropLast else here ++ [step]

def place (p : Path) : Path := p.foldl go []

end Path

inductive FileSystem.Node where
  | directory
  | file (content : Bytes)
deriving DecidableEq

/-- All files and directories by their places, except those that are always there. Symbolic links
and permissions are left out. -/
structure FileSystem where
  nodes : List (Path × FileSystem.Node)

inductive FileError where
  | missing
  | occupied
  | notDirectory
  | isDirectory
  | notText
deriving DecidableEq

def FileError.message : FileError → String
  | missing => "No such file or directory (os error 2)"
  | occupied => "File exists (os error 17)"
  | notDirectory => "Not a directory (os error 20)"
  | isDirectory => "Is a directory (os error 21)"
  | notText => "stream did not contain valid UTF-8"

namespace FileSystem

def at? (fs : FileSystem) (place : Path) : Option Node :=
  if Path.isBase place then some .directory else fs.nodes.lookup place

/-- The place that some steps lead to. Whether anything is there is left open. -/
def follow (fs : FileSystem) (here : Path) : List String → Except FileError Path
  | [] => .ok here
  | n :: rest =>
    match fs.at? here with
    | some .directory => fs.follow (Path.go here n) rest
    | some (.file _) => .error .notDirectory
    | none => .error .missing

def locate (fs : FileSystem) (p : Path) : Except FileError Path := fs.follow [] p

def node? (fs : FileSystem) (p : Path) : Option Node :=
  match fs.locate p with
  | .ok place => fs.at? place
  | .error _ => none

def contains (fs : FileSystem) (p : Path) : Bool := (fs.node? p).isSome

def read (fs : FileSystem) (p : Path) : Except FileError Bytes := do
  match fs.at? (← fs.locate p) with
  | some (.file content) => .ok content
  | some .directory => .error .isDirectory
  | none => .error .missing

def readText (fs : FileSystem) (p : Path) : Except FileError String := do
  match Bytes.toText? (← fs.read p) with
  | some s => .ok s
  | none => .error .notText

/-- An attempt to change files. What has been changed before it fails stays changed. -/
abbrev Change := FileSystem → Except FileError Unit × FileSystem

def Change.andThen (first second : Change) : Change := fun fs ↦
  match first fs with
  | (.ok (), fs) => second fs
  | (.error e, fs) => (.error e, fs)

/-- Makes a directory. A slash at the end of its path does not count. -/
def makeDirectory (p : Path) : Change := fun fs ↦
  match fs.locate (if p.getLast? = some "" then p.dropLast else p) with
  | .error e => (.error e, fs)
  | .ok place =>
    match fs.at? place with
    | some _ => (.error .occupied, fs)
    | none => (.ok (), ⟨assign place .directory fs.nodes⟩)

def ensureDirectory (p : Path) : Change := fun fs ↦
  match makeDirectory p fs with
  | (.ok (), fs) => (.ok (), fs)
  | (.error e, fs) => if fs.node? p = some .directory then (.ok (), fs) else (.error e, fs)

/-- Makes the directory of a path, after those above it that are missing. The steps of the path are
told as well, the last one first. -/
def makeUpwards : List String → Path → Change
  | [], _ => fun fs ↦ (.ok (), fs)
  | _ :: above, p => fun fs ↦
    match makeDirectory p fs with
    | (.error .missing, fs) => (makeUpwards above above.reverse).andThen (ensureDirectory p) fs
    | _ => ensureDirectory p fs

def makeDirectories (p : Path) : Change := makeUpwards p.bare.reverse p

def write (p : Path) (content : Bytes) : Change := fun fs ↦
  match fs.locate p with
  | .error e => (.error e, fs)
  | .ok place =>
    match fs.at? place with
    | some .directory => (.error .isDirectory, fs)
    | _ => (.ok (), ⟨assign place (.file content) fs.nodes⟩)

end FileSystem

end MessagingIdentity

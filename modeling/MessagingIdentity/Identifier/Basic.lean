import MessagingIdentity.Address.Basic
import MessagingIdentity.Identifier.Error

namespace MessagingIdentity

structure Identifier where
  text : String
  name : Option String
  address : Address
  terminal : Option String

namespace Identifier

/-- An empty part counts as absent. -/
def present (part : Option String) : Option String := part.filter (· ≠ "")

def concat (name : Option String) (address : Address) (terminal : Option String) : String :=
  let head := match present name with
    | some s => s ++ "@"
    | none => ""
  let tail := match present terminal with
    | some s => "/" ++ s
    | none => ""
  head ++ address.text ++ tail

def isSeparator (c : Char) : Bool := c == '@' || c == '/'

def checkPart (part : Component) : Option String → Except IdentifierError Unit
  | some s => if s.toList.any isSeparator then .error (.component part s) else .ok ()
  | none => .ok ()

def compose (name : Option String) (address : Address) (terminal : Option String) :
    Except IdentifierError Identifier := do
  checkPart .name (present name)
  checkPart .terminal (present terminal)
  .ok ⟨concat name address terminal, present name, address, present terminal⟩

/-- What stands before and behind the first separator of a kind; all stands before one that is
missing. -/
def cut (separator : Char) (cs : List Char) : List Char × Option (List Char) :=
  match cs.dropWhile (· ≠ separator) with
  | [] => (cs, none)
  | _ :: behind => (cs.takeWhile (· ≠ separator), some behind)

/-- The parts of a text. A part beside the address may not be empty, and each separator occurs at
most once, the one of the name before the one of the terminal. -/
def parts? (cs : List Char) : Option (Option (List Char) × List Char × Option (List Char)) :=
  if 1 < cs.count '/' || 1 < cs.count '@' then none
  else
    let (rest, terminal) := cut '/' cs
    let (name, address) := match cut '@' rest with
      | (address, none) => (none, address)
      | (name, some address) => (some name, address)
    let refused := rest.isEmpty || name.any List.isEmpty ||
      terminal.any fun t ↦ t.isEmpty || t.contains '@'
    if refused then none else some (name, address, terminal)

def parse (s : String) : Except IdentifierError Identifier :=
  if s = "" then .error .empty
  else
    match parts? s.toList with
    | none => .error (.misplacedSeparator s)
    | some (name, address, terminal) =>
      match Address.parse (String.ofList address) with
      | .error e => .error (.address e)
      | .ok a => .ok ⟨s, name.map String.ofList, a, terminal.map String.ofList⟩

def network (i : Identifier) : EntityType := i.address.network

def ofBroadcast (name : String) (b : Broadcast) : Identifier :=
  ⟨concat (some name) (.broadcast b) none, some name, .broadcast b, none⟩

def anyone : Identifier := ofBroadcast "anyone" .anywhere
def everyone : Identifier := ofBroadcast "everyone" .everywhere
def founder : Identifier := ofBroadcast "moky" .anywhere

instance : BEq Identifier :=
  ⟨fun a b ↦ a.text == b.text || (a.address == b.address && a.name == b.name)⟩

def hashKey (i : Identifier) : Option String × String := (i.name, i.address.hashKey)

def describe (i : Identifier) : String := s!"Identifier({i.text})"

end Identifier

end MessagingIdentity

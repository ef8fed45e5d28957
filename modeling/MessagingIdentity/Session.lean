import MessagingIdentity.Cache
import MessagingIdentity.Meta.Basic

namespace MessagingIdentity

structure Session where
  addresses : Cache String Address
  identifiers : Cache String Identifier

namespace Session

def empty : Session := ⟨.empty, .empty⟩

abbrev Step (α : Type) := Session → α × Session

def keepAddress : Except MetaError Address → Step (Except MetaError Address)
  | .error e => fun s ↦ (.error e, s)
  | .ok a => fun s ↦ (.ok a, { s with addresses := s.addresses.put a.text a })

def generateAddress (m : Meta) (network : EntityType) : Step (Except MetaError Address) :=
  keepAddress (m.address network)

def parseAddress (text : String) : Step (Except AddressError Address) := fun s ↦
  match s.addresses.get? text with
  | some a => (.ok a, s)
  | none =>
    match Address.parse text with
    | .error e => (.error e, s)
    | .ok a => (.ok a, { s with addresses := s.addresses.put text a })

def createIdentifier (name : Option String) (address : Address) (terminal : Option String) :
    Step (Except IdentifierError Identifier) := fun s ↦
  let text := Identifier.concat name address terminal
  match s.identifiers.get? text with
  | some i => (.ok i, s)
  | none =>
    match Identifier.compose name address terminal with
    | .error e => (.error e, s)
    | .ok i => (.ok i, { s with identifiers := s.identifiers.put text i })

/-- The identifier of a meta at its address, with its seed as the name; the address is kept too. -/
def keepIdentifier (m : Meta) (address : Except MetaError Address) (terminal : Option String) :
    Step (Except MetaError Identifier) := fun s ↦
  match keepAddress address s with
  | (.error e, s) => (.error e, s)
  | (.ok a, s) =>
    let (i, s) := createIdentifier m.seed a terminal s
    (i.mapError .identifier, s)

def generateIdentifier (m : Meta) (network : EntityType) (terminal : Option String) :
    Step (Except MetaError Identifier) :=
  keepIdentifier m (m.address network) terminal

def parseIdentifier (text : String) : Step (Except IdentifierError Identifier) := fun s ↦
  match s.identifiers.get? text with
  | some i => (.ok i, s)
  | none =>
    match Identifier.parse text with
    | .error e => (.error e, s)
    | .ok i => (.ok i, { s with identifiers := s.identifiers.put text i })

def reduceMemory (addressOrder : Order String Address) (identifierOrder : Order String Identifier) :
    Step Nat := fun s ↦
  let (n, addresses) := s.addresses.reduce addressOrder
  let (k, identifiers) := s.identifiers.reduce identifierOrder
  (n + k, ⟨addresses, identifiers⟩)

end Session

end MessagingIdentity

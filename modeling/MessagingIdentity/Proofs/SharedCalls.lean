import MessagingIdentity.Meta.Memo
import MessagingIdentity.Proofs.AddressTexts
import MessagingIdentity.Proofs.CacheTables
import MessagingIdentity.Session

namespace MessagingIdentity

/-- A question to the library. Metas are called by their names. -/
inductive Call (ι : Type) where
  | parseAddress (text : String)
  | parseIdentifier (text : String)
  | createIdentifier (name : Option String) (address : Address) (made : address.Made)
      (terminal : Option String)
  | generateAddress (owner : ι) (network : EntityType)
  | generateIdentifier (owner : ι) (network : EntityType) (terminal : Option String)

inductive Answer where
  | address (r : Except AddressError Address)
  | identifier (r : Except IdentifierError Identifier)
  | metaAddress (r : Except MetaError Address)
  | metaIdentifier (r : Except MetaError Identifier)

/-- What can happen to the state that callers share: a call, a sweep of both caches, or that a meta is
asked for an address without the caches. -/
inductive Event (ι : Type) where
  | call (c : Call ι)
  | sweep (addresses : Walk String Address) (identifiers : Walk String Identifier)
  | ask (owner : ι) (network : EntityType)

/-- The shared caches, and what each meta remembers. -/
structure Memory (ι : Type) where
  session : Session
  memos : ι → Meta.Memo

variable {ι : Type}

/-- The answer that is worked out from the arguments alone. -/
def Call.plain (metas : ι → Meta) : Call ι → Answer
  | parseAddress text => .address (Address.parse text)
  | parseIdentifier text => .identifier (Identifier.parse text)
  | createIdentifier name address _ terminal =>
    .identifier (Identifier.compose name address terminal)
  | generateAddress owner network => .metaAddress ((metas owner).address network)
  | generateIdentifier owner network terminal =>
    .metaIdentifier ((metas owner).identifier network terminal)

namespace Memory

def empty : Memory ι := ⟨.empty, fun _ ↦ []⟩

variable [DecidableEq ι]

/-- The address of a meta, which remembers it. -/
def ask (metas : ι → Meta) (owner : ι) (network : EntityType) (w : Memory ι) :
    Except MetaError Address × Memory ι :=
  let (r, memo) := (metas owner).addressWith network (w.memos owner)
  (r, { w with memos := fun j ↦ if j = owner then memo else w.memos j })

/-- The answer of a call in the shared state, and what it leaves. -/
def answer (metas : ι → Meta) (w : Memory ι) : Call ι → Answer × Memory ι
  | .parseAddress text =>
    let (r, s) := w.session.parseAddress text
    (.address r, { w with session := s })
  | .parseIdentifier text =>
    let (r, s) := w.session.parseIdentifier text
    (.identifier r, { w with session := s })
  | .createIdentifier name address _ terminal =>
    let (r, s) := Session.createIdentifier name address terminal w.session
    (.identifier r, { w with session := s })
  | .generateAddress owner network =>
    let (a, w) := w.ask metas owner network
    let (r, s) := Session.keepAddress a w.session
    (.metaAddress r, { w with session := s })
  | .generateIdentifier owner network terminal =>
    let (a, w) := w.ask metas owner network
    let (r, s) := Session.keepIdentifier (metas owner) a terminal w.session
    (.metaIdentifier r, { w with session := s })

def step (metas : ι → Meta) (w : Memory ι) : Event ι → Memory ι
  | .call c => (w.answer metas c).2
  | .sweep addresses identifiers =>
    { w with session := (Session.reduceMemory addresses.order identifiers.order w.session).2 }
  | .ask owner network => (w.ask metas owner network).2

/-- The state after some events, from empty caches and metas that remember nothing. -/
def run (metas : ι → Meta) (events : List (Event ι)) : Memory ι := events.foldl (step metas) empty

end Memory

end MessagingIdentity

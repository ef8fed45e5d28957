import MessagingIdentity.Meta.Basic

namespace MessagingIdentity.Meta

abbrev Memo := List (EntityType × Address)

/-- The network under which an address is kept; an address without a network byte is kept once. -/
def memoKey (m : Meta) (network : EntityType) : EntityType :=
  match m.type with
  | .eth => .user
  | _ => network

/-- The address on a network, from the memo if it is there. Only an address is kept, not a
failure. -/
def addressWith (m : Meta) (network : EntityType) (memo : Memo) : Except MetaError Address × Memo :=
  let key := m.memoKey network
  match memo.lookup key with
  | some a => (.ok a, memo)
  | none =>
    match m.address key with
    | .ok a => (.ok a, (key, a) :: memo)
    | .error e => (.error e, memo)

/-- Whether an identifier belongs to the meta, whose address is asked for only if the names agree. -/
def matchesWith (m : Meta) (i : Identifier) (memo : Memo) : Bool × Memo :=
  if i.name == m.seed then
    match m.addressWith i.network memo with
    | (.ok a, memo) => (a == i.address, memo)
    | (.error _, memo) => (false, memo)
  else (false, memo)

end MessagingIdentity.Meta

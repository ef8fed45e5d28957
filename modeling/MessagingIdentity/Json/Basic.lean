import MessagingIdentity.Json.Real

namespace MessagingIdentity

/-- A number: an integer that was written without fraction and exponent and fits 64 bits, or
any other. -/
inductive Json.Number where
  | integer (i : Int)
  | real (x : Json.Real)
deriving DecidableEq

inductive Json where
  | null
  | bool (b : Bool)
  | number (n : Json.Number)
  | text (s : String)
  | list (items : List Json)
  | object (members : List (String × Json))

namespace Json

instance : Inhabited Json := ⟨null⟩

abbrev Members := List (String × Json)

def ofNat (n : Nat) : Json := number (.integer n)

def text? : Json → Option String
  | text s => some s
  | _ => none

namespace Members

def insert (name : String) (value : Json) : Members → Members
  | [] => [(name, value)]
  | (k, v) :: rest =>
    if name = k then (name, value) :: rest
    else if name < k then (name, value) :: (k, v) :: rest
    else (k, v) :: insert name value rest

def ofList (members : List (String × Json)) : Members :=
  members.foldl (fun m (k, v) ↦ m.insert k v) []

def get? (name : String) (m : Members) : Option Json := m.lookup name

def text? (name : String) (m : Members) : Option String := (m.get? name).bind Json.text?

end Members

def ofMembers (members : List (String × Json)) : Json := object (Members.ofList members)

end Json

end MessagingIdentity

import MessagingIdentity.Address.Checked
import MessagingIdentity.Address.Hashed

namespace MessagingIdentity

inductive Broadcast where
  | anywhere
  | everywhere
deriving DecidableEq

namespace Broadcast

def text : Broadcast → String
  | anywhere => "anywhere"
  | everywhere => "everywhere"

def network : Broadcast → EntityType
  | anywhere => .any
  | everywhere => .every

def named? (s : String) : Option Broadcast :=
  [anywhere, everywhere].find? fun b ↦ s.toList.map Char.toLower == b.text.toList

end Broadcast

inductive Address where
  | checked (a : CheckedAddress)
  | hashed (a : HashedAddress)
  | broadcast (b : Broadcast)

namespace Address

def anywhere : Address := broadcast .anywhere
def everywhere : Address := broadcast .everywhere

def text : Address → String
  | checked a => a.text
  | hashed a => a.text
  | broadcast b => b.text

/-- The network; an address without a network byte belongs to a user. -/
def network : Address → EntityType
  | checked a => a.network
  | hashed _ => .user
  | broadcast b => b.network

/-- Reads an address: a broadcast name, a text of 26 to 35 bytes with a check code, or a text of 42
bytes without one. -/
def parse (s : String) : Except AddressError Address :=
  let size := s.utf8ByteSize
  if size = 0 then .error .empty
  else
    match Broadcast.named? s with
    | some b => .ok (broadcast b)
    | none =>
      if 26 ≤ size ∧ size ≤ 35 then (CheckedAddress.parse s).map checked
      else if size = HashedAddress.textSize then (HashedAddress.parse s).map hashed
      else .error (.length size)

instance : BEq Address := ⟨fun a b ↦ a.text == b.text⟩

def hashKey (a : Address) : String := a.text

def describe (a : Address) : String := s!"Address({a.text}, {a.network.display})"

end Address

end MessagingIdentity

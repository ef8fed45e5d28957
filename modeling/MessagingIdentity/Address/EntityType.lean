import MessagingIdentity.Encoding.Hexadecimal

namespace MessagingIdentity

structure EntityType where
  byte : UInt8
deriving DecidableEq, Repr

namespace EntityType

def user : EntityType := ⟨0x00⟩
def group : EntityType := ⟨0x01⟩
def station : EntityType := ⟨0x02⟩
def provider : EntityType := ⟨0x03⟩
def bot : EntityType := ⟨0x04⟩
def contentProvider : EntityType := ⟨0x05⟩
def supervisor : EntityType := ⟨0x06⟩
def company : EntityType := ⟨0x07⟩
def any : EntityType := ⟨0x80⟩
def every : EntityType := ⟨0x81⟩

def isGroup (t : EntityType) : Bool := t.byte &&& 0x01 == 0x01

def isUser (t : EntityType) : Bool := t.byte &&& 0x01 == 0x00

def isBroadcast (t : EntityType) : Bool := t.byte &&& 0x80 == 0x80

def names : List (EntityType × String) :=
  [(user, "user"), (group, "group"), (station, "station"), (provider, "isp"), (bot, "bot"),
    (contentProvider, "icp"), (supervisor, "supervisor"), (company, "company"), (any, "any"),
    (every, "every")]

def display (t : EntityType) : String :=
  (names.lookup t).getD ("0x" ++ Hexadecimal.encode [t.byte])

end EntityType

end MessagingIdentity

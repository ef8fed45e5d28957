import MessagingIdentity.Json.Printer
import MessagingIdentity.Meta.Error
import MessagingIdentity.Text.Blank

namespace MessagingIdentity

/-- What an address is made of: the fingerprint (`mkm`), the bytes of the public key (`btc`), or its
point on the curve (`eth`). -/
inductive MetaType where
  | mkm
  | btc
  | eth
deriving DecidableEq

namespace MetaType

def tag : MetaType → String
  | mkm => "1"
  | btc => "2"
  | eth => "4"

def tags : List (String × MetaType) :=
  [("1", mkm), ("mkm", mkm), ("2", btc), ("btc", btc), ("4", eth), ("eth", eth)]

def parse (s : String) : Except MetaError MetaType :=
  match tags.lookup (String.ofList ((Text.trimChars s.toList).map Char.toLower)) with
  | some t => .ok t
  | none => .error (.unknownType s)

def ofJson : Json → Except MetaError MetaType
  | .text s => parse s
  | .number n => parse (String.ofList n.print)
  | v => .error (.unknownType v.compact)

def describe : MetaType → String
  | mkm => "Mkm"
  | btc => "Btc"
  | eth => "Eth"

end MetaType

end MessagingIdentity

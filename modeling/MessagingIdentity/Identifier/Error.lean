import MessagingIdentity.Address.Error

namespace MessagingIdentity

inductive Identifier.Component where
  | name
  | terminal
deriving DecidableEq

inductive IdentifierError where
  | empty
  | misplacedSeparator (text : String)
  | component (part : Identifier.Component) (value : String)
  | address (e : AddressError)
deriving DecidableEq

def Identifier.Component.text : Identifier.Component → String
  | name => "name"
  | terminal => "terminal"

def IdentifierError.message : IdentifierError → String
  | empty => "empty identifier"
  | misplacedSeparator s => s!"misplaced separator in identifier: {s}"
  | component part value => s!"invalid identifier component {part.text}: {value}"
  | address e => s!"invalid address in identifier: {e.message}"

end MessagingIdentity

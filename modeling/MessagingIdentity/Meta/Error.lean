import MessagingIdentity.Identifier.Error
import MessagingIdentity.Key.Error

namespace MessagingIdentity

inductive MetaError.Defect where
  | keyForm
  | fingerprint
  | seedMissing
  | keyFamily
deriving DecidableEq

inductive MetaError where
  | missingField (name : String)
  | unknownType (tag : String)
  | incompleteFingerprint
  | invalid (cause : MetaError.Defect)
  | key (e : KeyError)
  | address (e : AddressError)
  | identifier (e : IdentifierError)
deriving DecidableEq

namespace MetaError

def Defect.message : Defect → String
  | keyForm => "key must be an object"
  | fingerprint => "fingerprint does not match seed"
  | seedMissing => "MKM meta requires a seed"
  | keyFamily => "ETH meta requires an ECC key"

def message : MetaError → String
  | missingField name => s!"missing meta field: {name}"
  | unknownType tag => s!"unknown meta type: {tag}"
  | incompleteFingerprint => "meta seed and fingerprint must be both present or both absent"
  | invalid cause => s!"invalid meta: {cause.message}"
  | key e => s!"meta key error: {e.message}"
  | address e => s!"meta address error: {e.message}"
  | identifier e => s!"meta identifier error: {e.message}"

end MetaError

end MessagingIdentity

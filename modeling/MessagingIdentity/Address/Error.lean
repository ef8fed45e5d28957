import MessagingIdentity.Encoding.Base58
import MessagingIdentity.Text.Quoted

namespace MessagingIdentity

inductive AddressError.Format where
  | payloadLength (actual : Nat)
  | unmarked (text : String)
  | nonHexadecimal (text : String)
  | keyPoint
  | keyLength (actual : Nat)
deriving DecidableEq

inductive AddressError where
  | empty
  | length (actual : Nat)
  | base58 (e : Base58.DecodeError)
  | checkCode
  | format (cause : AddressError.Format)
deriving DecidableEq

namespace Base58

def DecodeError.message : DecodeError → String
  | invalidCharacter c i =>
    s!"provided string contained invalid character {Text.quotedChar c} at byte {i}"
  | nonAscii i => s!"provided string contained non-ascii character starting at byte {i}"

end Base58

namespace AddressError

def Format.message : Format → String
  | payloadLength n => s!"decoded address must be 25 bytes, got {n}"
  | unmarked s => s!"missing 0x prefix: {s}"
  | nonHexadecimal s => s!"non-hex characters: {s}"
  | keyPoint => "public key: signature error"
  | keyLength n => s!"unsupported public key length: {n}"

def message : AddressError → String
  | empty => "empty address"
  | length n => s!"unrecognized address length: {n}"
  | base58 e => s!"base58 decode error: {e.message}"
  | checkCode => "address check code mismatch"
  | format cause => s!"invalid address format: {cause.message}"

end AddressError

end MessagingIdentity

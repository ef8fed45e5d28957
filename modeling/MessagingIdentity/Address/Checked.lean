import MessagingIdentity.Address.EntityType
import MessagingIdentity.Address.Error
import MessagingIdentity.Digest.Combined

namespace MessagingIdentity

structure CheckedAddress where
  text : String
  network : EntityType
deriving DecidableEq

namespace CheckedAddress

def headSize : Nat := 21

def codeSize : Nat := 4

def checkCode (head : Bytes) : Bytes := (Digest.doubleSha256 head).take codeSize

def textOf (head : Bytes) : String := Base58.encode (head ++ checkCode head)

def generate (source : Bytes) (network : EntityType) : CheckedAddress :=
  ⟨textOf (network.byte :: Digest.hash160 source), network⟩

def parse (s : String) : Except AddressError CheckedAddress :=
  match Base58.decode s with
  | .error e => .error (.base58 e)
  | .ok payload =>
    if payload.length = headSize + codeSize then
      if checkCode (payload.take headSize) = payload.drop headSize then
        .ok ⟨s, ⟨payload.headD 0⟩⟩
      else .error .checkCode
    else .error (.format (.payloadLength payload.length))

end CheckedAddress

end MessagingIdentity

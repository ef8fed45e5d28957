import MessagingIdentity.Encoding.Base64
import MessagingIdentity.Encoding.Hexadecimal
import MessagingIdentity.Rsa.Padding
import MessagingIdentity.Text.Quoted

namespace MessagingIdentity

inductive KeyError.Data where
  | base64 (e : Base64.DecodeError)
  | hexadecimal (e : Hexadecimal.DecodeError)
  | scalarLength (actual : Nat)
  | scalarRange
  | curvePoint
  | rsaPrivate
  | rsaPublic
  | modulusTooSmall (size : Nat)
  | aesLength (actual : Nat)
  | aesDeclared (declared actual : Nat)
deriving DecidableEq

inductive KeyError.Cipher where
  | padding
  | length (actual size : Nat)
  | block (e : Rsa.PaddingError)
deriving DecidableEq

inductive KeyError.Other where
  | armour
  | rsaEncoding
  | rsaGeneration
  | rsaSigning (e : Rsa.PaddingError)
  | rsaEncryption (e : Rsa.PaddingError)
  | curveSigning
  | keyDraw (reason : String)
  | ivDraw (reason : String)
deriving DecidableEq

inductive KeyError where
  | missingField (name : String)
  | unknownAlgorithm (tag : String)
  | invalidData (cause : KeyError.Data)
  | invalidIv (expected actual : Nat)
  | unsupported (algorithm operation : String)
  | decryption (cause : KeyError.Cipher)
  | other (cause : KeyError.Other)
deriving DecidableEq

namespace Hexadecimal

def DecodeError.message : DecodeError → String
  | oddLength => "Odd number of digits"
  | invalidDigit b i =>
    s!"Invalid character {Text.quotedChar (Char.ofNat b.toNat)} at position {i}"

end Hexadecimal

namespace KeyError

def Data.message : Data → String
  | base64 e => s!"base64 decode error: {e.message}"
  | hexadecimal e => s!"hex decode error: {e.message}"
  | scalarLength n => s!"ECC private key must be 32 bytes, got {n}"
  | scalarRange => "ECC private key: signature error"
  | curvePoint => "ECC public key: signature error"
  | rsaPrivate => "RSA private key: not a valid encoding of a private key"
  | rsaPublic => "RSA public key: not a valid encoding of a public key"
  | modulusTooSmall n => s!"RSA modulus of {n} bytes is too small for PKCS#1 v1.5 padding"
  | aesLength n => s!"invalid AES key size, expected 16, 24 or 32, got {n}"
  | aesDeclared d n => s!"AES keySize {d} does not match {n} key bytes"

def Cipher.message : Cipher → String
  | padding => "invalid PKCS#7 padding"
  | length n size => s!"ciphertext length {n} is not a multiple of {size}"
  | block e => e.message

def Other.message : Other → String
  | armour => "failed to parse PEM: no well-formed block"
  | rsaEncoding => "failed to encode RSA key: the factors have a common divisor or are too large"
  | rsaGeneration => "failed to generate RSA key: no prime found"
  | rsaSigning e => s!"RSA signing failed: {e.message}"
  | rsaEncryption e => s!"RSA encryption failed: {e.message}"
  | curveSigning => "ECDSA signing failed: signature error"
  | keyDraw reason => s!"failed to generate key bytes: {reason}"
  | ivDraw reason => s!"failed to generate IV: {reason}"

def message : KeyError → String
  | missingField name => s!"missing key field: {name}"
  | unknownAlgorithm tag => s!"no key factory registered for algorithm: {tag}"
  | invalidData cause => s!"invalid key data: {cause.message}"
  | invalidIv expected actual =>
    s!"invalid initialization vector size, expected {expected}, got {actual}"
  | unsupported algorithm operation => s!"{algorithm} key does not support {operation}"
  | decryption cause => s!"decryption failed: {cause.message}"
  | other cause => s!"key error: {cause.message}"

end KeyError

end MessagingIdentity

import MessagingIdentity.Digest.Ripemd160
import MessagingIdentity.Digest.Sha256

namespace MessagingIdentity.Digest

def doubleSha256 (m : Bytes) : Bytes := sha256 (sha256 m)

def hash160 (m : Bytes) : Bytes := ripemd160 (sha256 m)

def hmacSha256 (key m : Bytes) : Bytes :=
  let k := key ++ List.replicate (64 - key.length) 0
  sha256 (k.map (· ^^^ 0x5c) ++ sha256 (k.map (· ^^^ 0x36) ++ m))

end MessagingIdentity.Digest

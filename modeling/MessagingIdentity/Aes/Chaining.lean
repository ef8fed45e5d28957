import MessagingIdentity.Aes.Cipher

namespace MessagingIdentity.Aes

def blockSize : Nat := 16

/-- From one to sixteen bytes, each telling how many there are, up to a multiple of the block
size. -/
def pad (m : Bytes) : Bytes :=
  let k := blockSize - m.length % blockSize
  m ++ List.replicate k k.toUInt8

def unpad? (b : Bytes) : Option Bytes :=
  let k := (b.getLast?.getD 0).toNat
  let m := b.take (b.length - k)
  if 1 ≤ k ∧ k ≤ blockSize ∧ b = m ++ List.replicate k k.toUInt8 then some m else none

/-- Encrypts blocks, each mixed with the encrypted one before it. -/
def chain (ks : List Block) : Block → List Block → List Block
  | _, [] => []
  | previous, b :: bs =>
    let c := encryptBlock ks (xor b previous)
    c :: chain ks c bs

def unchain (ks : List Block) : Block → List Block → List Block
  | _, [] => []
  | previous, c :: cs => xor (decryptBlock ks c) previous :: unchain ks c cs

def encrypt (key : Bytes) (iv : Block) (m : Bytes) : Bytes :=
  (chain (roundKeys key) iv ((pieces blockSize (pad m)).map blockOf)).flatMap (·.toList)

def decrypt? (key : Bytes) (iv : Block) (c : Bytes) : Option Bytes :=
  if c.length % blockSize ≠ 0 then none
  else unpad? ((unchain (roundKeys key) iv ((pieces blockSize c).map blockOf)).flatMap (·.toList))

end MessagingIdentity.Aes

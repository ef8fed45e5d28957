import MessagingIdentity.Bytes

namespace MessagingIdentity.Der

structure Element where
  tag : UInt8
  content : Bytes
deriving DecidableEq

def tagInteger : UInt8 := 0x02
def tagBitString : UInt8 := 0x03
def tagOctetString : UInt8 := 0x04
def tagNull : UInt8 := 0x05
def tagObject : UInt8 := 0x06
def tagSequence : UInt8 := 0x30

def lengthBytes (n : Nat) : Bytes :=
  if n < 128 then [n.toUInt8]
  else (128 + Bytes.widthOf n).toUInt8 :: Bytes.minimal n

def element (tag : UInt8) (content : Bytes) : Bytes :=
  tag :: lengthBytes content.length ++ content

/-- The content of a non-negative integer: the shortest big-endian form whose first bit is zero. -/
def integerContent (n : Nat) : Bytes :=
  let b := Bytes.minimal n
  if b.headD 0 < 128 then b else 0 :: b

def integer (n : Nat) : Bytes := element tagInteger (integerContent n)

def sequence (parts : List Bytes) : Bytes := element tagSequence parts.flatten

/-- The universal tags that are known, and tags of the other classes with a number below 31. -/
def isKnownTag (t : UInt8) : Bool :=
  t ∈ [0x01, 0x02, 0x03, 0x04, 0x05, 0x06, 0x09, 0x0a, 0x0c, 0x12, 0x13, 0x14, 0x15, 0x16, 0x17,
    0x18, 0x1a, 0x1b, 0x1c, 0x1e, 0x30, 0x31] ||
    (64 ≤ t && t % 32 ≠ 31)

/-- A length of at most four bytes in its shortest form, and what follows it. -/
def readLength : Bytes → Option (Nat × Bytes)
  | [] => none
  | b :: rest =>
    if b < 128 then some (b.toNat, rest)
    else
      let k := b.toNat - 128
      let n := Bytes.toNat (rest.take k)
      if 1 ≤ k ∧ k ≤ 4 ∧ k ≤ rest.length ∧ lengthBytes n = b :: rest.take k ∧ n < 0x10000000 then
        some (n, rest.drop k)
      else none

def read : Bytes → Option (Element × Bytes)
  | [] => none
  | tag :: rest => do
    let (n, rest) ← readLength rest
    if isKnownTag tag ∧ n ≤ rest.length then
      return (⟨tag, rest.take n⟩, rest.drop n)
    else none

def expect (tag : UInt8) (b : Bytes) : Option (Bytes × Bytes) := do
  let (e, rest) ← read b
  if e.tag = tag then return (e.content, rest) else none

/-- The value of an integer's content: not empty, not negative, and in its shortest form. -/
def natural? : Bytes → Option Nat
  | [] => none
  | [b] => if b < 128 then some b.toNat else none
  | a :: b :: rest =>
    if 128 ≤ a ∨ (a = 0 ∧ b < 128) then none else some (Bytes.toNat (a :: b :: rest))

def readNatural (b : Bytes) : Option (Nat × Bytes) := do
  let (content, rest) ← expect tagInteger b
  return (← natural? content, rest)

def readNaturals : Nat → Bytes → Option (List Nat × Bytes)
  | 0, b => some ([], b)
  | k + 1, b => do
    let (n, rest) ← readNatural b
    let (ns, rest) ← readNaturals k rest
    return (n :: ns, rest)

def only (tag : UInt8) (b : Bytes) : Option Bytes := do
  let (content, rest) ← expect tag b
  if rest.isEmpty then return content else none

end MessagingIdentity.Der

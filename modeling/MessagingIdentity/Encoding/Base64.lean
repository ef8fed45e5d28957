import MessagingIdentity.Bytes

namespace MessagingIdentity.Base64

inductive DecodeError where
  | invalidByte (index : Nat) (byte : UInt8)
  | invalidLength (length : Nat)
  | invalidLastSymbol (index : Nat) (byte : UInt8)
  | invalidPadding
deriving DecidableEq, Repr

def DecodeError.message : DecodeError → String
  | invalidByte i b => s!"Invalid symbol {b.toNat}, offset {i}."
  | invalidLength n => s!"Invalid input length: {n}"
  | invalidLastSymbol i b => s!"Invalid last symbol {b.toNat}, offset {i}."
  | invalidPadding => "Invalid padding"

def symbol (n : Nat) : UInt8 :=
  if n < 26 then (n + 65).toUInt8
  else if n < 52 then (n + 71).toUInt8
  else if n < 62 then (n - 4).toUInt8
  else if n = 62 then 43
  else 47

def value? (b : UInt8) : Option Nat :=
  let n := b.toNat
  if 65 ≤ n ∧ n ≤ 90 then some (n - 65)
  else if 97 ≤ n ∧ n ≤ 122 then some (n - 71)
  else if 48 ≤ n ∧ n ≤ 57 then some (n + 4)
  else if n = 43 then some 62
  else if n = 47 then some 63
  else none

def pad : UInt8 := 61

def symbols : Bytes → Bytes
  | [] => []
  | [a] => [symbol (a.toNat / 4), symbol (a.toNat % 4 * 16), pad, pad]
  | [a, b] =>
    [symbol (a.toNat / 4), symbol (a.toNat % 4 * 16 + b.toNat / 16), symbol (b.toNat % 16 * 4), pad]
  | a :: b :: c :: rest =>
    symbol (a.toNat / 4) :: symbol (a.toNat % 4 * 16 + b.toNat / 16) ::
      symbol (b.toNat % 16 * 4 + c.toNat / 64) :: symbol (c.toNat % 64) :: symbols rest

def encode (b : Bytes) : String :=
  String.ofList ((symbols b).map fun s ↦ Char.ofNat s.toNat)

def firstInvalid (i : Nat) : Bytes → Option (Nat × UInt8)
  | [] => none
  | b :: rest => if (value? b).isNone then some (i, b) else firstInvalid (i + 1) rest

/-- The numbers of the symbols at the end of a text, up to the padding, which may stand only
behind two of them and with nothing but padding after it. -/
def tailValues (i : Nat) (seen : Nat) : Bytes → Except DecodeError (List Nat)
  | [] => .ok []
  | b :: rest =>
    if b = pad then
      if seen < 2 ∨ ¬ rest.all (· = pad) then .error (.invalidByte i b) else .ok []
    else
      match value? b with
      | none => .error (.invalidByte i b)
      | some v => (tailValues (i + 1) (seen + 1) rest).map (v :: ·)

def decodeTail (i : Nat) (t : Bytes) : Except DecodeError Bytes := do
  let vs ← tailValues i 0 t
  let last := t.getD (vs.length - 1) 0
  match vs with
  | [] => if t.isEmpty then return [] else throw (.invalidLength i)
  | [_] => throw (.invalidLength (i + 1))
  | [a, b] =>
    if t.length ≠ 4 then throw .invalidPadding
    else if b % 16 ≠ 0 then throw (.invalidLastSymbol (i + 1) last)
    else return [(a * 4 + b / 16).toUInt8]
  | [a, b, c] =>
    if t.length ≠ 4 then throw .invalidPadding
    else if c % 4 ≠ 0 then throw (.invalidLastSymbol (i + 2) last)
    else return [(a * 4 + b / 16).toUInt8, (b % 16 * 16 + c / 4).toUInt8]
  | a :: b :: c :: d :: _ =>
    return [(a * 4 + b / 16).toUInt8, (b % 16 * 16 + c / 4).toUInt8, (c % 4 * 64 + d).toUInt8]

def decodeFrom (i : Nat) : Bytes → Except DecodeError Bytes
  | a :: b :: c :: d :: e :: rest =>
    match value? a, value? b, value? c, value? d with
    | some w, some x, some y, some z =>
      (decodeFrom (i + 4) (e :: rest)).map fun out ↦
        (w * 4 + x / 16).toUInt8 :: (x % 16 * 16 + y / 4).toUInt8 :: (y % 4 * 64 + z).toUInt8 :: out
    | _, _, _, _ =>
      match firstInvalid i [a, b, c, d] with
      | some (j, bad) => .error (.invalidByte j bad)
      | none => .error .invalidPadding
  | t => decodeTail i t

/-- Reads the UTF-8 form of a text. When one byte stands behind the last four and is neither symbol
nor padding, it is the fault that is reported. -/
def decodeBytes (t : Bytes) : Except DecodeError Bytes :=
  match t.getLast? with
  | some b =>
    if t.length % 4 = 1 ∧ b ≠ pad ∧ (value? b).isNone then .error (.invalidByte (t.length - 1) b)
    else decodeFrom 0 t
  | none => .ok []

def decode (s : String) : Except DecodeError Bytes := decodeBytes (Bytes.ofText s)

end MessagingIdentity.Base64

import MessagingIdentity.Bytes

namespace MessagingIdentity.Digest.Ripemd160

structure State where
  a : UInt32
  b : UInt32
  c : UInt32
  d : UInt32
  e : UInt32

def initial : State := ⟨0x67452301, 0xefcdab89, 0x98badcfe, 0x10325476, 0xc3d2e1f0⟩

def mix : Nat → UInt32 → UInt32 → UInt32 → UInt32
  | 0, x, y, z => x ^^^ y ^^^ z
  | 1, x, y, z => (x &&& y) ||| (~~~x &&& z)
  | 2, x, y, z => (x ||| ~~~y) ^^^ z
  | 3, x, y, z => (x &&& z) ||| (y &&& ~~~z)
  | _, x, y, z => x ^^^ (y ||| ~~~z)

def leftConstants : List UInt32 := [0x00000000, 0x5a827999, 0x6ed9eba1, 0x8f1bbcdc, 0xa953fd4e]

def rightConstants : List UInt32 := [0x50a28be6, 0x5c4dd124, 0x6d703ef3, 0x7a6d76e9, 0x00000000]

def leftWords : List (List Nat) :=
  [[0, 1, 2, 3, 4, 5, 6, 7, 8, 9, 10, 11, 12, 13, 14, 15],
   [7, 4, 13, 1, 10, 6, 15, 3, 12, 0, 9, 5, 2, 14, 11, 8],
   [3, 10, 14, 4, 9, 15, 8, 1, 2, 7, 0, 6, 13, 11, 5, 12],
   [1, 9, 11, 10, 0, 8, 12, 4, 13, 3, 7, 15, 14, 5, 6, 2],
   [4, 0, 5, 9, 7, 12, 2, 10, 14, 1, 3, 8, 11, 6, 15, 13]]

def rightWords : List (List Nat) :=
  [[5, 14, 7, 0, 9, 2, 11, 4, 13, 6, 15, 8, 1, 10, 3, 12],
   [6, 11, 3, 7, 0, 13, 5, 10, 14, 15, 8, 12, 4, 9, 1, 2],
   [15, 5, 1, 3, 7, 14, 6, 9, 11, 8, 12, 2, 10, 0, 4, 13],
   [8, 6, 4, 1, 3, 11, 15, 0, 5, 12, 2, 13, 9, 7, 10, 14],
   [12, 15, 10, 4, 1, 5, 8, 7, 6, 2, 13, 14, 0, 3, 9, 11]]

def leftShifts : List (List UInt32) :=
  [[11, 14, 15, 12, 5, 8, 7, 9, 11, 13, 14, 15, 6, 7, 9, 8],
   [7, 6, 8, 13, 11, 9, 7, 15, 7, 12, 15, 9, 11, 7, 13, 12],
   [11, 13, 6, 7, 14, 9, 13, 15, 14, 8, 13, 6, 5, 12, 7, 5],
   [11, 12, 14, 15, 14, 15, 9, 8, 9, 14, 5, 6, 8, 6, 5, 12],
   [9, 15, 5, 11, 6, 8, 13, 12, 5, 12, 13, 14, 11, 8, 5, 6]]

def rightShifts : List (List UInt32) :=
  [[8, 9, 9, 11, 13, 15, 15, 5, 7, 7, 8, 11, 14, 14, 12, 6],
   [9, 13, 15, 7, 12, 8, 9, 11, 7, 7, 12, 7, 6, 15, 13, 11],
   [9, 7, 15, 11, 8, 6, 6, 14, 12, 13, 5, 14, 13, 13, 7, 5],
   [15, 5, 8, 11, 14, 14, 6, 14, 6, 9, 12, 9, 12, 5, 15, 8],
   [8, 5, 12, 9, 12, 5, 14, 6, 8, 13, 6, 5, 15, 13, 11, 11]]

def rotateLeft (x : UInt32) (n : UInt32) : UInt32 := (x <<< n) ||| (x >>> (32 - n))

structure Step where
  function : Nat
  constant : UInt32
  word : Nat
  shift : UInt32

def line (functions : List Nat) (constants : List UInt32) (words : List (List Nat))
    (shifts : List (List UInt32)) : List Step :=
  (functions.zip (constants.zip (words.zip shifts))).flatMap fun (f, k, ws, ss) ↦
    (ws.zip ss).map fun (w, s) ↦ ⟨f, k, w, s⟩

def leftLine : List Step := line [0, 1, 2, 3, 4] leftConstants leftWords leftShifts

def rightLine : List Step := line [4, 3, 2, 1, 0] rightConstants rightWords rightShifts

def step (message : Array UInt32) (s : State) (p : Step) : State :=
  let sum := s.a + mix p.function s.b s.c s.d + message.getD p.word 0 + p.constant
  let t := rotateLeft sum p.shift
  ⟨s.e, t + s.e, s.b, rotateLeft s.c 10, s.d⟩

def compress (s : State) (block : Bytes) : State :=
  let message := ((pieces 4 block).map fun b ↦ (Bytes.toNatLittle b).toUInt32).toArray
  let l := leftLine.foldl (step message) s
  let r := rightLine.foldl (step message) s
  ⟨s.b + l.c + r.d, s.c + l.d + r.e, s.d + l.e + r.a, s.e + l.a + r.b, s.a + l.b + r.c⟩

def pad (m : Bytes) : Bytes :=
  m ++ 0x80 :: List.replicate ((119 - m.length % 64) % 64) 0 ++ Bytes.ofNatLittle 8 (8 * m.length)

def State.toBytes (s : State) : Bytes :=
  [s.a, s.b, s.c, s.d, s.e].flatMap fun w ↦ Bytes.ofNatLittle 4 w.toNat

end MessagingIdentity.Digest.Ripemd160

namespace MessagingIdentity.Digest

def ripemd160 (m : Bytes) : Bytes :=
  ((pieces 64 (Ripemd160.pad m)).foldl Ripemd160.compress Ripemd160.initial).toBytes

end MessagingIdentity.Digest

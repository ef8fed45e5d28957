import MessagingIdentity.Digest.Combined
import MessagingIdentity.Proofs.BigEndian
import MessagingIdentity.Proofs.Pieces

namespace MessagingIdentity.Digest

namespace Sha256

def wordLimit : ℕ := 0x100000000

structure Numbers where
  a : ℕ
  b : ℕ
  c : ℕ
  d : ℕ
  e : ℕ
  f : ℕ
  g : ℕ
  h : ℕ

namespace Numbers

def rotate (x n : ℕ) : ℕ := x >>> n ||| (x <<< (32 - n)) % wordLimit

def wordAt (window place : ℕ) : ℕ := window >>> (32 * place) % wordLimit

/-- The next window: the first word goes, and the one made of the words 14, 9, 1 and 0 comes. -/
def slide (window : ℕ) : ℕ :=
  let w1 := wordAt window 1
  let w14 := wordAt window 14
  let s0 := rotate w1 7 ^^^ rotate w1 18 ^^^ w1 >>> 3
  let s1 := rotate w14 17 ^^^ rotate w14 19 ^^^ w14 >>> 10
  window >>> 32 + ((window % wordLimit + s0 + wordAt window 9 + s1) % wordLimit) <<< 480

def step (s : Numbers) (kw : ℕ) : Numbers :=
  let s1 := rotate s.e 6 ^^^ rotate s.e 11 ^^^ rotate s.e 25
  let choice := (s.e &&& s.f) ^^^ ((wordLimit - 1 - s.e) &&& s.g)
  let t1 := s.h + s1 + choice + kw
  let s0 := rotate s.a 2 ^^^ rotate s.a 13 ^^^ rotate s.a 22
  let majority := (s.a &&& s.b) ^^^ (s.a &&& s.c) ^^^ (s.b &&& s.c)
  ⟨(t1 + (s0 + majority)) % wordLimit, s.a, s.b, s.c, (s.d + t1) % wordLimit, s.e, s.f, s.g⟩

def rounds : List ℕ → ℕ → Numbers → Numbers
  | [], _, s => s
  | k :: ks, window, s => rounds ks (slide window) (step s (k + window % wordLimit))

def add (s t : Numbers) : Numbers :=
  ⟨(s.a + t.a) % wordLimit, (s.b + t.b) % wordLimit, (s.c + t.c) % wordLimit,
    (s.d + t.d) % wordLimit, (s.e + t.e) % wordLimit, (s.f + t.f) % wordLimit,
    (s.g + t.g) % wordLimit, (s.h + t.h) % wordLimit⟩

def constants : List ℕ :=
  [0x428a2f98, 0x71374491, 0xb5c0fbcf, 0xe9b5dba5, 0x3956c25b, 0x59f111f1, 0x923f82a4, 0xab1c5ed5,
   0xd807aa98, 0x12835b01, 0x243185be, 0x550c7dc3, 0x72be5d74, 0x80deb1fe, 0x9bdc06a7, 0xc19bf174,
   0xe49b69c1, 0xefbe4786, 0x0fc19dc6, 0x240ca1cc, 0x2de92c6f, 0x4a7484aa, 0x5cb0a9dc, 0x76f988da,
   0x983e5152, 0xa831c66d, 0xb00327c8, 0xbf597fc7, 0xc6e00bf3, 0xd5a79147, 0x06ca6351, 0x14292967,
   0x27b70a85, 0x2e1b2138, 0x4d2c6dfc, 0x53380d13, 0x650a7354, 0x766a0abb, 0x81c2c92e, 0x92722c85,
   0xa2bfe8a1, 0xa81a664b, 0xc24b8b70, 0xc76c51a3, 0xd192e819, 0xd6990624, 0xf40e3585, 0x106aa070,
   0x19a4c116, 0x1e376c08, 0x2748774c, 0x34b0bcb5, 0x391c0cb3, 0x4ed8aa4a, 0x5b9cca4f, 0x682e6ff3,
   0x748f82ee, 0x78a5636f, 0x84c87814, 0x8cc70208, 0x90befffa, 0xa4506ceb, 0xbef9a3f7, 0xc67178f2]

def window (block : Bytes) : ℕ :=
  (pieces 4 block).foldr (fun word n ↦ Bytes.toNat word + n <<< 32) 0

def compress (s : Numbers) (block : Bytes) : Numbers := s.add (rounds constants (window block) s)

def initial : Numbers :=
  ⟨0x6a09e667, 0xbb67ae85, 0x3c6ef372, 0xa54ff53a, 0x510e527f, 0x9b05688c, 0x1f83d9ab, 0x5be0cd19⟩

def toBytes (s : Numbers) : Bytes := [s.a, s.b, s.c, s.d, s.e, s.f, s.g, s.h].flatMap (Bytes.ofNat 4)

def digest (m : Bytes) : Bytes := ((pieces 64 (pad m)).foldl compress initial).toBytes

end Numbers

def State.numbers (s : State) : Numbers :=
  ⟨s.a.toNat, s.b.toNat, s.c.toNat, s.d.toNat, s.e.toNat, s.f.toNat, s.g.toNat, s.h.toNat⟩

theorem toNat_rotateRight (x : UInt32) {n : UInt32} (hpos : 0 < n.toNat) (h : n.toNat < 32) :
    (rotateRight x n).toNat = Numbers.rotate x.toNat n.toNat := by
  have hle : n ≤ 32 := UInt32.le_iff_toNat_le.mpr (Nat.le_of_lt h)
  have hsub : (32 - n).toNat % 32 = 32 - n.toNat := by
    rw [UInt32.toNat_sub_of_le _ _ hle]
    exact Nat.mod_eq_of_lt (Nat.sub_lt (by decide) hpos)
  rw [rotateRight, UInt32.toNat_or, UInt32.toNat_shiftRight, UInt32.toNat_shiftLeft, hsub,
    Nat.mod_eq_of_lt h]
  rfl

theorem numbers_step (s : State) (k w : UInt32) :
    (step s (k, w)).numbers = s.numbers.step (k.toNat + w.toNat) := by
  have hrotate (x n : UInt32) (h : 0 < n.toNat ∧ n.toNat < 32) := toNat_rotateRight x h.1 h.2
  rw [Numbers.step, State.numbers, State.numbers, step]
  simp only [UInt32.toNat_add, UInt32.toNat_xor, UInt32.toNat_and, UInt32.toNat_not,
    hrotate _ 6 (by decide), hrotate _ 11 (by decide), hrotate _ 25 (by decide),
    hrotate _ 2 (by decide), hrotate _ 13 (by decide), hrotate _ 22 (by decide),
    Nat.mod_add_mod, Nat.add_mod_mod, Nat.add_assoc]
  rfl

/-- The words of a window as one number, the first in the lowest place. -/
def pack (ws : List UInt32) : ℕ := ws.foldr (fun w n ↦ w.toNat + n <<< 32) 0

variable {w v : UInt32} {ws : List UInt32}

theorem pack_cons : pack (w :: ws) = w.toNat + pack ws * wordLimit := by
  rw [pack, List.foldr_cons, Nat.shiftLeft_eq]
  rfl

theorem pack_cons_mod : pack (w :: ws) % wordLimit = w.toNat := by
  rw [pack_cons, Nat.add_mul_mod_self_right]
  exact Nat.mod_eq_of_lt w.toNat_lt

theorem pack_cons_shiftRight : pack (w :: ws) >>> 32 = pack ws := by
  have hlow : w.toNat / wordLimit = 0 := Nat.div_eq_of_lt w.toNat_lt
  have hpow : 2 ^ 32 = wordLimit := rfl
  rw [pack_cons, Nat.shiftRight_eq_div_pow, hpow, Nat.add_mul_div_right _ _ (by decide), hlow,
    Nat.zero_add]

theorem wordAt_pack (k : ℕ) (ws : List UInt32) :
    Numbers.wordAt (pack ws) k = (ws.getD k 0).toNat := by
  induction ws generalizing k with
  | nil =>
    rw [Numbers.wordAt, pack, List.foldr_nil, Nat.zero_shiftRight, Nat.zero_mod, List.getD_nil]
    rfl
  | cons w ws ih =>
    cases k with
    | zero =>
      rw [Numbers.wordAt, Nat.mul_zero, Nat.shiftRight_zero, pack_cons_mod, List.getD_cons_zero]
    | succ k =>
      rw [List.getD_cons_succ, ← ih, Numbers.wordAt, Nat.mul_succ, Nat.add_comm, Nat.shiftRight_add,
        pack_cons_shiftRight, Numbers.wordAt]

theorem pack_append_singleton (ws : List UInt32) (v : UInt32) :
    pack (ws ++ [v]) = pack ws + v.toNat <<< (32 * ws.length) := by
  induction ws with
  | nil => rw [List.nil_append, pack_cons, pack, List.foldr_nil, Nat.zero_mul, List.length_nil,
      Nat.mul_zero, Nat.shiftLeft_zero, Nat.zero_add, Nat.add_zero]
  | cons w ws ih =>
    have hpow : 2 ^ (32 * (ws.length + 1)) = 2 ^ (32 * ws.length) * wordLimit := by
      rw [Nat.mul_succ, Nat.pow_add]
      rfl
    rw [List.cons_append, pack_cons, pack_cons, ih, List.length_cons, Nat.shiftLeft_eq,
      Nat.shiftLeft_eq, hpow, Nat.add_mul, Nat.mul_assoc, Nat.add_assoc]

def successor (w : UInt32) (ws : List UInt32) : UInt32 :=
  let w1 := ws.getD 0 0
  let w14 := ws.getD 13 0
  w + (rotateRight w1 7 ^^^ rotateRight w1 18 ^^^ (w1 >>> 3)) + ws.getD 8 0 +
    (rotateRight w14 17 ^^^ rotateRight w14 19 ^^^ (w14 >>> 10))

theorem slide_pack (h : ws.length = 15) :
    Numbers.slide (pack (w :: ws)) = pack (ws ++ [successor w ws]) := by
  have hrotate (x n : UInt32) (h : 0 < n.toNat ∧ n.toNat < 32) := toNat_rotateRight x h.1 h.2
  have hplace : 32 * 15 = 480 := rfl
  have hpow : 2 ^ 32 = wordLimit := rfl
  rw [pack_append_singleton, h, hplace]
  unfold Numbers.slide successor
  simp only [pack_cons_shiftRight, pack_cons_mod, wordAt_pack, List.getD_cons_succ]
  simp only [UInt32.toNat_add, UInt32.toNat_xor, UInt32.toNat_shiftRight,
    hrotate _ 7 (by decide), hrotate _ 18 (by decide), hrotate _ 17 (by decide),
    hrotate _ 19 (by decide), Nat.mod_add_mod, hpow]
  rfl

theorem numbers_rounds (ks : List UInt32) {ws : List UInt32} (h : ws.length = 16) (s : State) :
    ((ks.zip (schedule ks.length ws)).foldl step s).numbers =
      Numbers.rounds (ks.map UInt32.toNat) (pack ws) s.numbers := by
  induction ks generalizing ws s with
  | nil => rfl
  | cons k ks ih =>
    obtain ⟨w, ws, rfl⟩ := List.exists_cons_of_length_eq_add_one h
    have hws : ws.length = 15 := Nat.succ.inj h
    have hschedule : schedule (k :: ks).length (w :: ws) =
        w :: schedule ks.length (ws ++ [successor w ws]) := rfl
    have hnext : (ws ++ [successor w ws]).length = 16 := by
      rw [List.length_append, hws, List.length_singleton]
    rw [hschedule, List.zip_cons_cons, List.foldl_cons, ih hnext, List.map_cons, Numbers.rounds,
      slide_pack hws, numbers_step, pack_cons_mod]

theorem toNat_word {b : Bytes} (h : b.length ≤ 4) : (word b).toNat = Bytes.toNat b := by
  induction b using List.reverseRecOn with
  | nil => rfl
  | append_singleton b x ih =>
    rw [List.length_append, List.length_singleton] at h
    have hlt : Bytes.toNat b < 256 ^ 3 :=
      (Bytes.toNat_lt b).trans_le (Nat.pow_le_pow_right (by decide) (by omega))
    have hshift : Bytes.toNat b <<< 8 % 2 ^ 32 = Bytes.toNat b <<< 8 := by
      rw [Nat.shiftLeft_eq]
      exact Nat.mod_eq_of_lt (by omega)
    have hword : word (b ++ [x]) = (word b <<< 8) ||| x.toUInt32 := by
      rw [word, List.foldl_append]
      rfl
    have height : UInt32.toNat 8 % 32 = 8 := rfl
    rw [hword, UInt32.toNat_or, UInt32.toNat_shiftLeft, ih (by omega), UInt8.toNat_toUInt32, height,
      hshift, ← Nat.shiftLeft_add_eq_or_of_lt x.toNat_lt, Nat.shiftLeft_eq,
      Bytes.toNat_append_singleton]

theorem pack_words {block : Bytes} (h : 4 ∣ block.length) :
    pack ((pieces 4 block).map word) = Numbers.window block := by
  have hword : ∀ b ∈ pieces 4 block, (word b).toNat = Bytes.toNat b := fun b hb ↦
    toNat_word (length_of_mem_pieces h b hb).le
  rw [pack, List.foldr_map, Numbers.window]
  generalize pieces 4 block = words at hword
  induction words with
  | nil => rw [List.foldr_nil, List.foldr_nil]
  | cons b words ih =>
    rw [List.foldr_cons, List.foldr_cons, hword b List.mem_cons_self,
      ih fun c hc ↦ hword c (List.mem_cons_of_mem b hc)]

theorem length_words {block : Bytes} (h : block.length = 64) : (pieces 4 block).length = 16 := by
  have hdvd : 4 ∣ block.length := h ▸ by decide
  have hmul := length_pieces_mul (by decide) hdvd
  omega

theorem numbers_add (s t : State) : State.numbers ⟨s.a + t.a, s.b + t.b, s.c + t.c, s.d + t.d,
    s.e + t.e, s.f + t.f, s.g + t.g, s.h + t.h⟩ = s.numbers.add t.numbers := rfl

theorem map_roundConstants : roundConstants.map UInt32.toNat = Numbers.constants := rfl

theorem numbers_compress {block : Bytes} (h : block.length = 64) (s : State) :
    (compress s block).numbers = s.numbers.compress block := by
  have hwords : ((pieces 4 block).map word).length = 16 := by
    rw [List.length_map, length_words h]
  have hcount : roundConstants.length = 64 := rfl
  have hrounds := numbers_rounds roundConstants hwords s
  rw [pack_words (h ▸ by decide), hcount, map_roundConstants] at hrounds
  rw [Numbers.compress, ← hrounds, ← numbers_add, compress]

theorem length_pad (m : Bytes) : 64 ∣ (pad m).length := by
  simp only [pad, List.length_append, List.length_cons, List.length_replicate, Bytes.length_ofNat]
  omega

theorem numbers_foldl (s : State) {blocks : List Bytes} (h : ∀ b ∈ blocks, b.length = 64) :
    (blocks.foldl compress s).numbers = blocks.foldl Numbers.compress s.numbers := by
  induction blocks generalizing s with
  | nil => rfl
  | cons b blocks ih =>
    rw [List.foldl_cons, List.foldl_cons, ih _ fun c hc ↦ h c (List.mem_cons_of_mem b hc),
      numbers_compress (h b List.mem_cons_self)]

theorem toBytes_numbers (s : State) : s.numbers.toBytes = s.toBytes := rfl

end Sha256

/-- The digest is the one that is computed with numbers. -/
theorem sha256_eq_digest (m : Bytes) : sha256 m = Sha256.Numbers.digest m := by
  rw [sha256, ← Sha256.toBytes_numbers,
    Sha256.numbers_foldl _ (length_of_mem_pieces (Sha256.length_pad m))]
  rfl

def hmacDigest (key m : Bytes) : Bytes :=
  let k := key ++ List.replicate (64 - key.length) 0
  Sha256.Numbers.digest (k.map (· ^^^ 0x5c) ++ Sha256.Numbers.digest (k.map (· ^^^ 0x36) ++ m))

theorem hmacSha256_eq_digest (key m : Bytes) : hmacSha256 key m = hmacDigest key m := by
  rw [hmacSha256, hmacDigest]
  simp only [sha256_eq_digest]

end MessagingIdentity.Digest

import MessagingIdentity.Aes.Chaining
import MessagingIdentity.Proofs.BlockCipherInverse
import MessagingIdentity.Proofs.Pieces
import MessagingIdentity.Proofs.TextBytes
import Mathlib.Data.List.GetD

namespace MessagingIdentity.Aes

theorem unchain_chain (ks : List Block) (previous : Block) (bs : List Block) :
    unchain ks previous (chain ks previous bs) = bs := by
  induction bs generalizing previous with
  | nil => rfl
  | cons b bs ih => rw [chain, unchain, decryptBlock_encryptBlock, xor_xor, ih]

theorem chain_unchain (ks : List Block) (previous : Block) (cs : List Block) :
    chain ks previous (unchain ks previous cs) = cs := by
  induction cs generalizing previous with
  | nil => rfl
  | cons c cs ih => rw [unchain, chain, xor_xor, encryptBlock_decryptBlock, ih]

def toBlocks (b : Bytes) : List Block := (pieces blockSize b).map blockOf

def ofBlocks (bs : List Block) : Bytes := bs.flatMap (·.toList)

theorem toList_blockOf {b : Bytes} (h : b.length = blockSize) : (blockOf b).toList = b := by
  apply List.ext_getElem
  · rw [Vector.length_toList, h, blockSize]
  · intro i _ hi
    simp only [blockOf, Vector.getElem_toList, Vector.getElem_ofFn]
    exact List.getD_eq_getElem b 0 hi

theorem blockOf_toList (s : Block) : blockOf s.toList = s := by
  refine Vector.ext fun i hi ↦ ?_
  have hi' : i < s.toList.length := by rwa [Vector.length_toList]
  simp only [blockOf, Vector.getElem_ofFn]
  rw [List.getD_eq_getElem s.toList 0 hi', Vector.getElem_toList]

theorem length_ofBlocks (bs : List Block) : (ofBlocks bs).length = blockSize * bs.length := by
  induction bs with
  | nil => rfl
  | cons b bs ih =>
    rw [ofBlocks, List.flatMap_cons, List.length_append, ← ofBlocks, ih, Vector.length_toList,
      List.length_cons, blockSize]
    omega

theorem toBlocks_ofBlocks (bs : List Block) : toBlocks (ofBlocks bs) = bs := by
  have hpieces : pieces blockSize (ofBlocks bs) = bs.map (·.toList) := by
    refine pieces_flatten (by decide) fun p hp ↦ ?_
    obtain ⟨b, -, rfl⟩ := List.mem_map.mp hp
    exact Vector.length_toList
  rw [toBlocks, hpieces, List.map_map]
  exact (List.map_congr_left fun b _ ↦ blockOf_toList b).trans (List.map_id bs)

theorem ofBlocks_toBlocks {b : Bytes} (h : blockSize ∣ b.length) : ofBlocks (toBlocks b) = b := by
  have hpieces : (pieces blockSize b).map (fun p ↦ (blockOf p).toList) = pieces blockSize b :=
    (List.map_congr_left fun p hp ↦ toList_blockOf (length_of_mem_pieces h p hp)).trans (List.map_id _)
  rw [ofBlocks, toBlocks, List.flatMap_map, List.flatMap_def, hpieces, flatten_pieces (by decide)]

theorem length_pad (m : Bytes) : (pad m).length = blockSize * (m.length / blockSize + 1) := by
  simp only [pad, List.length_append, List.length_replicate, blockSize]
  omega

theorem unpad?_append (m : Bytes) {k : ℕ} (hpos : 1 ≤ k) (hle : k ≤ blockSize) :
    unpad? (m ++ List.replicate k k.toUInt8) = some m := by
  have hbyte : k.toUInt8.toNat = k := Bytes.toNat_toUInt8 (hle.trans_lt (by decide))
  have hlast : ((m ++ List.replicate k k.toUInt8).getLast?.getD 0).toNat = k := by
    rw [List.getLast?_append, List.getLast?_replicate, if_neg (by omega)]
    exact hbyte
  have htake : (m ++ List.replicate k k.toUInt8).take
      ((m ++ List.replicate k k.toUInt8).length - k) = m := by
    rw [List.length_append, List.length_replicate, Nat.add_sub_cancel, List.take_left]
  rw [unpad?, hlast, htake, if_pos ⟨hpos, hle, rfl⟩]

theorem eq_append_of_unpad? {b m : Bytes} (h : unpad? b = some m) :
    ∃ k, 1 ≤ k ∧ k ≤ blockSize ∧ b = m ++ List.replicate k k.toUInt8 := by
  rw [unpad?] at h
  split at h
  next hk =>
    obtain rfl := Option.some.inj h
    exact ⟨_, hk⟩
  · cases h

theorem unpad?_pad (m : Bytes) : unpad? (pad m) = some m := by
  rw [pad]
  apply unpad?_append
  · rw [blockSize]
    omega
  · exact Nat.sub_le _ _

/-- In whole blocks, the length of the padding leaves no choice. -/
theorem eq_pad_of_unpad? {b m : Bytes} (hb : blockSize ∣ b.length) (h : unpad? b = some m) :
    b = pad m := by
  obtain ⟨k, hpos, hle, rfl⟩ := eq_append_of_unpad? h
  have hk : k = blockSize - m.length % blockSize := by
    rw [List.length_append, List.length_replicate] at hb
    rw [blockSize] at hb hle ⊢
    omega
  rw [pad, ← hk]

theorem encrypt_eq (key : Bytes) (iv : Block) (m : Bytes) :
    encrypt key iv m = ofBlocks (chain (roundKeys key) iv (toBlocks (pad m))) := rfl

theorem length_chain (ks : List Block) (previous : Block) (bs : List Block) :
    (chain ks previous bs).length = bs.length := by
  induction bs generalizing previous with
  | nil => rfl
  | cons b bs ih => rw [chain, List.length_cons, ih, List.length_cons]

theorem length_encrypt (key : Bytes) (iv : Block) (m : Bytes) :
    (encrypt key iv m).length = blockSize * (m.length / blockSize + 1) := by
  rw [encrypt_eq, length_ofBlocks, length_chain, ← length_ofBlocks,
    ofBlocks_toBlocks ⟨_, length_pad m⟩, length_pad]

theorem decrypt?_encrypt (key : Bytes) (iv : Block) (m : Bytes) :
    decrypt? key iv (encrypt key iv m) = some m := by
  have hlength : ¬ (encrypt key iv m).length % blockSize ≠ 0 := by
    rw [encrypt_eq, length_ofBlocks, Nat.mul_mod_right]
    exact not_not_intro rfl
  rw [decrypt?, if_neg hlength]
  change unpad? (ofBlocks (unchain (roundKeys key) iv (toBlocks (encrypt key iv m)))) = some m
  rw [encrypt_eq, toBlocks_ofBlocks, unchain_chain, ofBlocks_toBlocks ⟨_, length_pad m⟩, unpad?_pad]

theorem eq_encrypt_of_decrypt? {key : Bytes} {iv : Block} {c m : Bytes}
    (h : decrypt? key iv c = some m) : c = encrypt key iv m := by
  rw [decrypt?] at h
  split at h
  · cases h
  next hc =>
    have hc : blockSize ∣ c.length := Nat.dvd_of_mod_eq_zero (not_not.mp hc)
    change unpad? (ofBlocks (unchain (roundKeys key) iv (toBlocks c))) = some m at h
    have hpad := eq_pad_of_unpad? ⟨_, length_ofBlocks _⟩ h
    rw [encrypt_eq, ← hpad, toBlocks_ofBlocks, chain_unchain, ofBlocks_toBlocks hc]

theorem decrypt?_eq_some_iff {key : Bytes} {iv : Block} {c m : Bytes} :
    decrypt? key iv c = some m ↔ c = encrypt key iv m :=
  ⟨eq_encrypt_of_decrypt?, fun h ↦ h ▸ decrypt?_encrypt key iv m⟩

theorem chain_injective {ks : List Block} {bs : List Block} (hbs : bs ≠ []) {iv iv' : Block}
    (h : chain ks iv bs = chain ks iv' bs) : iv = iv' := by
  cases bs with
  | nil => exact absurd rfl hbs
  | cons b bs =>
    have hhead : encryptBlock ks (xor b iv) = encryptBlock ks (xor b iv') := (List.cons.inj h).1
    have hxor := Function.LeftInverse.injective (decryptBlock_encryptBlock ks) hhead
    refine Vector.ext fun i hi ↦ ?_
    have hi := congrArg (fun s : Block ↦ s[i]) hxor
    simpa [xor] using hi

theorem encrypt_injective {key m : Bytes} {iv iv' : Block} (h : encrypt key iv m = encrypt key iv' m) :
    iv = iv' := by
  have hne : toBlocks (pad m) ≠ [] := by
    intro hnil
    have hlength := length_ofBlocks (toBlocks (pad m))
    rw [ofBlocks_toBlocks ⟨_, length_pad m⟩, hnil, length_pad, blockSize, List.length_nil] at hlength
    omega
  have hchain : chain (roundKeys key) iv (toBlocks (pad m)) =
      chain (roundKeys key) iv' (toBlocks (pad m)) := by
    rw [← toBlocks_ofBlocks (chain _ iv _), ← encrypt_eq, h, encrypt_eq, toBlocks_ofBlocks]
  exact chain_injective hne hchain

end MessagingIdentity.Aes

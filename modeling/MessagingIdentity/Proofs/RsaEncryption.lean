import MessagingIdentity.Proofs.Pieces
import MessagingIdentity.Proofs.RsaSignatures

namespace MessagingIdentity

theorem Entropy.ne_zero_of_mem_drawNonzero {e : Entropy} {k : ℕ} {b : UInt8}
    (h : b ∈ e.drawNonzero k) : b ≠ 0 := by
  obtain ⟨c, -, rfl⟩ := List.mem_map.mp h
  by_cases hc : c = 0
  · rw [if_pos hc]
    decide
  · rwa [if_neg hc]

namespace Rsa

variable {size : ℕ} {m c : Bytes} {e : Entropy}

theorem messageOfBlock?_append {r : Bytes} (hr : ∀ b ∈ r, b ≠ 0) (hlength : 8 ≤ r.length)
    (m : Bytes) : messageOfBlock? (0 :: (2 :: r ++ 0 :: m)) = some m := by
  have htake : (r ++ 0 :: m).takeWhile (· ≠ 0) = r := by
    rw [List.takeWhile_append_of_pos fun b hb ↦ decide_eq_true (hr b hb)]
    simp
  rw [List.cons_append, messageOfBlock?, htake, if_neg (Nat.not_lt.mpr hlength), List.drop_left]
  rfl

theorem exists_encryptionBlock? (h : m.length + 11 ≤ size) (e : Entropy) :
    ∃ b, encryptionBlock? size m e = some (0 :: b) ∧ (0 :: b).length = size ∧
      messageOfBlock? (0 :: b) = some m := by
  have hrandom := e.length_drawNonzero (size - m.length - 3)
  rw [encryptionBlock?, paddingOverhead, if_neg (Nat.not_lt.mpr h), List.cons_append]
  refine ⟨_, rfl, ?_, messageOfBlock?_append (fun b ↦ Entropy.ne_zero_of_mem_drawNonzero) ?_ m⟩
  · rw [List.length_cons, List.length_append, List.length_cons, List.length_cons, hrandom]
    omega
  · omega

theorem PrivateKey.HasPrimes.exists_encryptBlock {k : PrivateKey} (hk : k.HasPrimes)
    (hfits : k.toPublic.Fits) (h : m.length + 11 ≤ k.toPublic.size) (e : Entropy) :
    ∃ c, k.toPublic.encryptBlock m e = .ok c ∧ c.length = k.size ∧ k.decryptBlock c = .ok m := by
  obtain ⟨b, hblock, hlength, hmessage⟩ := exists_encryptionBlock? h e
  have hlt : Bytes.toNat (0 :: b) < k.toPublic.modulus := PublicKey.toNat_block_lt hlength
  have hvalue : Bytes.toNat (Bytes.ofNat k.size (k.toPublic.apply (Bytes.toNat (0 :: b)))) =
      k.toPublic.apply (Bytes.toNat (0 :: b)) :=
    Bytes.toNat_ofNat_of_lt ((k.toPublic.apply_lt _).trans (Bytes.lt_pow_widthOf _))
  have happly := hk.apply_eq_ok_iff.mpr ⟨hlt, rfl⟩
  refine ⟨Bytes.ofNat k.size (k.toPublic.apply (Bytes.toNat (0 :: b))), ?_, Bytes.length_ofNat _ _, ?_⟩
  · rw [PublicKey.encryptBlock, if_neg (Nat.not_le.mpr hfits), hblock]
    rfl
  · rw [PrivateKey.decryptBlock, if_neg (Nat.not_le.mpr hfits), hvalue, happly]
    simp only [bind, Except.bind, pure, Except.pure, Except.mapError]
    rw [Bytes.ofNat_toNat_of_length (k := k.size) hlength, hmessage]

end Rsa

open RsaPublicKey RsaPrivateKey

variable {n : Rsa.PrivateKey}

/-- Pieces that leave room for the padding are encrypted to as many blocks, whatever is drawn, and
decrypted from them. -/
theorem exists_encryptPieces (hn : n.HasPrimes) (hfits : n.toPublic.Fits) (ms : List Bytes)
    (h : ∀ m ∈ ms, m.length + 11 ≤ n.size) (e : Entropy) :
    ∃ cs, encryptPieces n.toPublic ms e = .ok cs.flatten ∧ cs.length = ms.length ∧
      (∀ c ∈ cs, c.length = n.size) ∧ decryptPieces n cs = .ok ms.flatten := by
  induction ms generalizing e with
  | nil => exact ⟨[], rfl, rfl, nofun, rfl⟩
  | cons m ms ih =>
    obtain ⟨hm, hms⟩ := List.forall_mem_cons.mp h
    obtain ⟨c, hc, hlength, hdecrypt⟩ := hn.exists_encryptBlock hfits hm e
    obtain ⟨cs, hcs, hcount, hlengths, hdecrypts⟩ := ih hms (e.advance n.toPublic.size)
    refine ⟨c :: cs, ?_, congrArg (· + 1) hcount, List.forall_mem_cons.mpr ⟨hlength, hlengths⟩, ?_⟩
    · rw [encryptPieces, hc, hcs]
      rfl
    · rw [decryptPieces, hdecrypt, hdecrypts]
      rfl

theorem decryptPieces_append (n : Rsa.PrivateKey) (cs cs' : List Bytes) :
    decryptPieces n (cs ++ cs') =
      decryptPieces n cs >>= fun m ↦ (decryptPieces n cs').map (m ++ ·) := by
  induction cs with
  | nil =>
    rw [List.nil_append, decryptPieces]
    cases decryptPieces n cs' <;> rfl
  | cons c cs ih =>
    rw [List.cons_append, decryptPieces, decryptPieces, ih]
    cases n.decryptBlock c with
    | error err => rfl
    | ok m =>
      cases decryptPieces n cs with
      | error err => rfl
      | ok m' =>
        cases decryptPieces n cs' with
        | error err => rfl
        | ok m'' => exact congrArg Except.ok (List.append_assoc m m' m'').symm

theorem RsaPublicKey.encrypt_of_numbers {l : RsaPublicKey} {n : Rsa.PublicKey}
    (hl : l.numbers = .ok n) (m : Bytes) (e : Entropy) : l.encrypt m e =
      if n.size ≤ 11 then .error (.invalidData (.modulusTooSmall n.size))
      else encryptPieces n (pieces (n.size - 11) m) e := by
  rw [encrypt, hl]
  rfl

namespace RsaPrivateKey

variable {k : RsaPrivateKey}

theorem size_ne_zero (n : Rsa.PrivateKey) : n.size ≠ 0 := Nat.succ_ne_zero _

theorem decrypt_of_dvd (hn : k.numbers = .ok n) {c : Bytes} (hc : n.size ∣ c.length) :
    k.decrypt c = decryptPieces n (pieces n.size c) := by
  rw [decrypt, hn]
  simp only [bind, Except.bind]
  rw [if_neg (not_not_intro (Nat.mod_eq_zero_of_dvd hc))]

theorem decrypt_append (hn : k.numbers = .ok n) {c c' : Bytes} (hc : n.size ∣ c.length)
    (hc' : n.size ∣ c'.length) :
    k.decrypt (c ++ c') = k.decrypt c >>= fun m ↦ (k.decrypt c').map (m ++ ·) := by
  have hsum : n.size ∣ (c ++ c').length := by
    rw [List.length_append]
    exact Nat.dvd_add hc hc'
  rw [decrypt_of_dvd hn hsum, decrypt_of_dvd hn hc, decrypt_of_dvd hn hc',
    pieces_append (size_ne_zero n) hc hc', decryptPieces_append]

theorem exists_encrypt (hn : k.numbers = .ok n) {l : RsaPublicKey}
    (hl : l.numbers = .ok n.toPublic) (hprimes : n.HasPrimes) (hfits : n.toPublic.Fits)
    (hsize : 12 ≤ n.size) (m : Bytes) (e : Entropy) :
    ∃ c, l.encrypt m e = .ok c ∧ c.length = m.length ⌈/⌉ (n.size - 11) * n.size ∧
      k.decrypt c = .ok m := by
  have hpiece : n.size - 11 ≠ 0 := by omega
  have hroom : ∀ p ∈ pieces (n.size - 11) m, p.length + 11 ≤ n.size := by
    intro p hp
    have := length_le_of_mem_pieces _ m p hp
    omega
  obtain ⟨cs, hcs, hcount, hlengths, hdecrypt⟩ := exists_encryptPieces hprimes hfits _ hroom e
  have hlength : cs.flatten.length = m.length ⌈/⌉ (n.size - 11) * n.size := by
    rw [length_flatten_of_forall hlengths, hcount, length_pieces hpiece]
  refine ⟨cs.flatten, ?_, hlength, ?_⟩
  · rw [RsaPublicKey.encrypt_of_numbers hl]
    exact (if_neg (Nat.not_le.mpr hsize)).trans hcs
  · rw [decrypt_of_dvd hn (Dvd.intro_left _ hlength.symm), pieces_flatten (size_ne_zero n) hlengths,
      hdecrypt, flatten_pieces hpiece]

/-- With two different primes and a modulus of 12 bytes to 4096 bits, every message is encrypted, to a
whole number of blocks, and decrypted from them. A smaller modulus encrypts nothing. What is put
together of whole blocks is decrypted part by part, and not at all if one part is not. -/
theorem decrypt_encrypt_pieces (hn : k.numbers = .ok n) : ∃ l, k.publicKey = .ok l ∧
    (n.HasPrimes → n.toPublic.Fits → 12 ≤ n.size → ∀ m e, ∃ c, l.encrypt m e = .ok c ∧
      c.length = m.length ⌈/⌉ (n.size - 11) * n.size ∧ k.decrypt c = .ok m) ∧
    (n.size ≤ 11 → ∀ m e, l.encrypt m e = .error (.invalidData (.modulusTooSmall n.size))) ∧
    ∀ c c', n.size ∣ c.length → n.size ∣ c'.length →
      k.decrypt (c ++ c') = k.decrypt c >>= fun m ↦ (k.decrypt c').map (m ++ ·) := by
  obtain ⟨l, hl⟩ := exists_publicKey hn
  have hnumbers := numbers_publicKey hn hl
  refine ⟨l, hl, fun hprimes hfits hsize ↦ ?_, fun hsize ↦ ?_, fun c c' ↦ ?_⟩
  · exact exists_encrypt hn hnumbers hprimes hfits hsize
  · intro m e
    rw [RsaPublicKey.encrypt_of_numbers hnumbers]
    exact if_pos hsize
  · exact decrypt_append hn

theorem decrypt_encrypt_pieces_mersenne : ∃ der k l, mersenneNumbers.plainDer? = some der ∧
    PrivateKey.parse (RsaKey.membersOf (Base64.encode der)) = .ok (.rsa k) ∧
      k.numbers = .ok mersenneNumbers ∧ k.publicKey = .ok l ∧
      ∀ m e, ∃ c, l.encrypt m e = .ok c ∧ c.length = m.length ⌈/⌉ 70 * 81 ∧
        k.decrypt c = .ok m := by
  obtain ⟨der, k, hder, hk, hn⟩ := parse_mersenneNumbers
  obtain ⟨l, hl, h, -⟩ := decrypt_encrypt_pieces hn
  have hsize : mersenneNumbers.size = 81 := by decide +kernel
  have hfits : mersenneNumbers.toPublic.Fits := by
    unfold Rsa.PublicKey.Fits
    decide +kernel
  rw [hsize] at h
  exact ⟨der, k, l, hder, hk, hn, hl, h hasPrimes_mersenneNumbers hfits (by decide)⟩

end RsaPrivateKey

end MessagingIdentity

import MessagingIdentity.Proofs.DerivedPublicKey
import MessagingIdentity.Proofs.DigestLengths
import MessagingIdentity.Proofs.RsaPermutation
import Mathlib.NumberTheory.LucasLehmer

namespace MessagingIdentity

namespace Rsa

variable {size : ℕ} {m block : Bytes}

theorem le_size_of_block (h : signatureBlock? size (Digest.sha256 m) = some block) : 62 ≤ size := by
  have hsize := (length_signatureBlock? h).2
  rwa [Digest.length_sha256] at hsize

theorem PublicKey.length_of_verify {k : PublicKey} {s : Bytes}
    (h : k.verify (Digest.sha256 m) s = true) : s.length = k.size ∧ 62 ≤ k.size := by
  obtain ⟨hlength, -, block, hblock, -⟩ := verify_eq_true_iff.mp h
  exact ⟨hlength, le_size_of_block hblock⟩

end Rsa

namespace RsaPrivateKey

variable {k : RsaPrivateKey} {l : RsaPublicKey} {n : Rsa.PrivateKey} {m s : Bytes}

theorem numbers_publicKey (hn : k.numbers = .ok n) (hl : k.publicKey = .ok l) :
    l.numbers = .ok n.toPublic := by
  obtain ⟨n', hn', hpreset, -⟩ := publicKey_eq_ok_iff.mp hl
  obtain rfl := Except.ok.inj (hn.symm.trans hn')
  exact RsaPublicKey.numbers_of_preset hpreset

theorem verify_publicKey (hn : k.numbers = .ok n) (hl : k.publicKey = .ok l) (m s : Bytes) :
    l.verify m s = n.toPublic.verify (Digest.sha256 m) s :=
  RsaPublicKey.verify_of_numbers (numbers_publicKey hn hl) m s

theorem sign_of_numbers (hn : k.numbers = .ok n) (m : Bytes) :
    k.sign m = (n.sign (Digest.sha256 m)).mapError fun e ↦ .other (.rsaSigning e) := by
  rw [sign, hn]
  rfl

theorem sign_eq_ok_iff : k.sign m = .ok s ↔
    ∃ n, k.numbers = .ok n ∧ n.sign (Digest.sha256 m) = .ok s :=
  Except.bind_eq_ok_iff.trans
    (exists_congr fun _ ↦ and_congr_right fun _ ↦ Except.mapError_eq_ok_iff)

theorem sign_too_short (hn : k.numbers = .ok n) (hsize : n.size < 62) (m : Bytes) :
    k.sign m = .error (.other (.rsaSigning .messageTooLong)) := by
  rw [sign_of_numbers hn, Rsa.PrivateKey.sign_eq_error (by rwa [Digest.length_sha256])]
  rfl

/-- The public key that is derived from a private key accepts its signatures, also if the factors are
not prime. If they are two different primes, a message has one signature, where the padded digest has
room, and no other one is accepted; where it has no room, there is none. -/
theorem sign_accepted_unique (hn : k.numbers = .ok n) : ∃ l, k.publicKey = .ok l ∧ ∀ m,
    (∀ s, k.sign m = .ok s → l.verify m s = true) ∧
      (n.HasPrimes → 62 ≤ n.size → ∃ s, k.sign m = .ok s ∧ ∀ s', l.verify m s' = true ↔ s' = s) ∧
      (n.size < 62 → k.sign m = .error (.other (.rsaSigning .messageTooLong)) ∧
        ∀ s', l.verify m s' = false) := by
  obtain ⟨l, hl⟩ := exists_publicKey hn
  have hverify := verify_publicKey hn hl
  have hsign {m s : Bytes} : k.sign m = .ok s ↔ n.sign (Digest.sha256 m) = .ok s := by
    rw [sign_of_numbers hn, Except.mapError_eq_ok_iff]
  refine ⟨l, hl, fun m ↦ ⟨fun s hs ↦ ?_, fun hprimes hsize ↦ ?_, fun hsize ↦ ⟨?_, fun s ↦ ?_⟩⟩⟩
  · rw [hverify]
    exact Rsa.PrivateKey.verify_of_sign (hsign.mp hs)
  · have hroom : (Digest.sha256 m).length + 30 ≤ n.size := by rwa [Digest.length_sha256]
    obtain ⟨s, hs⟩ := hprimes.exists_sign hroom
    refine ⟨s, hsign.mpr hs, fun s' ↦ ?_⟩
    rw [hverify, ← hprimes.sign_eq_ok_iff_verify, hs, Except.ok.injEq, eq_comm]
  · exact sign_too_short hn hsize m
  · rw [hverify, Bool.eq_false_iff]
    exact fun h ↦ absurd (Rsa.PublicKey.length_of_verify h).2 (Nat.not_le.mpr hsize)

/-- A key of 648 bits, whose factors are the Mersenne primes of the exponents 127 and 521. -/
def mersenneNumbers : Rsa.PrivateKey where
  toPublic := ⟨mersenne 127 * mersenne 521, 13, by decide +kernel, by decide, by decide, by decide,
    by decide +kernel⟩
  exponent := (1 + 9 * (mersenne 127 - 1) * (mersenne 521 - 1)) / 13
  p := mersenne 127
  q := mersenne 521
  modulus_eq := rfl
  inverse_p := by decide +kernel
  inverse_q := by decide +kernel

theorem hasPrimes_mersenneNumbers : mersenneNumbers.HasPrimes where
  prime_p := lucas_lehmer_sufficiency _ (by norm_num) (by norm_num)
  prime_q := lucas_lehmer_sufficiency _ (by norm_num) (by norm_num)
  ne := by decide +kernel

theorem parse_mersenneNumbers : ∃ der k, mersenneNumbers.plainDer? = some der ∧
    PrivateKey.parse (RsaKey.membersOf (Base64.encode der)) = .ok (.rsa k) ∧
      k.numbers = .ok mersenneNumbers := by
  obtain ⟨der, hder, hread⟩ :=
    Rsa.PrivateKey.ofDer?_plainDer (k := mersenneNumbers) (w := 127) (by decide) (by decide +kernel)
  obtain ⟨k, hk, hn⟩ := PrivateKey.parse_of_der hread
  exact ⟨der, k, hder, hk, hn⟩

theorem sign_accepted_unique_mersenne : ∃ der k l, mersenneNumbers.plainDer? = some der ∧
    PrivateKey.parse (RsaKey.membersOf (Base64.encode der)) = .ok (.rsa k) ∧
      k.numbers = .ok mersenneNumbers ∧ k.publicKey = .ok l ∧
      ∀ m, ∃ s, k.sign m = .ok s ∧ ∀ s', l.verify m s' = true ↔ s' = s := by
  obtain ⟨der, k, hder, hk, hn⟩ := parse_mersenneNumbers
  obtain ⟨l, hl, h⟩ := sign_accepted_unique hn
  exact ⟨der, k, l, hder, hk, hn, hl, fun m ↦ (h m).2.1 hasPrimes_mersenneNumbers (by decide +kernel)⟩

end RsaPrivateKey

end MessagingIdentity

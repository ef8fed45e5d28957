import MessagingIdentity.Proofs.BigEndian
import MessagingIdentity.Proofs.ModularPowers
import MessagingIdentity.Proofs.Outcomes
import MessagingIdentity.Rsa.Padding

namespace MessagingIdentity.Rsa

theorem PublicKey.apply_lt (k : PublicKey) (m : ℕ) : k.apply m < k.modulus :=
  Modular.pow_lt _ _ (Nat.zero_lt_of_lt k.exponent_lt_modulus)

namespace PrivateKey

/-- The factors are two different primes. -/
structure HasPrimes (k : PrivateKey) : Prop where
  prime_p : k.p.Prime
  prime_q : k.q.Prime
  ne : k.p ≠ k.q

variable {k : PrivateKey} {r : ℕ}

theorem HasPrimes.eq_of_natCast_eq (hk : k.HasPrimes) {x y : ℕ} (hx : x < k.toPublic.modulus)
    (hy : y < k.toPublic.modulus) (hp : (x : ZMod k.p) = y) (hq : (x : ZMod k.q) = y) : x = y := by
  have hcoprime : k.p.Coprime k.q := (Nat.coprime_primes hk.prime_p hk.prime_q).mpr hk.ne
  rw [ZMod.natCast_eq_natCast_iff] at hp hq
  have h := (Nat.modEq_and_modEq_iff_modEq_mul hcoprime).mp ⟨hp, hq⟩
  rw [← k.modulus_eq] at h
  exact h.eq_of_lt_of_lt hx hy

/-- The private exponent, also if reduced, undoes the public one modulo a factor. -/
theorem pow_exponent_apply (hr : r.Prime) (hdvd : r ∣ k.toPublic.modulus)
    (hinverse : k.exponent * k.toPublic.exponent % (r - 1) = 1) (m : ℕ) {d : ℕ}
    (hd : d % (r - 1) = k.exponent % (r - 1)) :
    ((k.toPublic.apply m : ℕ) : ZMod r) ^ d = m := by
  rw [PublicKey.apply, Modular.natCast_pow_of_dvd hdvd, ← pow_mul]
  refine Modular.pow_mul_eq_self hr ?_ _
  rw [Nat.mul_mod, hd, ← Nat.mul_mod, Nat.mul_comm, hinverse]

/-- The number that is put together from a remainder for each factor leaves these remainders. -/
theorem recombine_spec {p q t : ℕ} (hp : 0 < p) (ht : (t : ZMod p) * q = 1) (a : ℕ) {b : ℕ}
    (hb : b < q) :
    (((a + p - b % p) * t % p * q + b : ℕ) : ZMod p) = a ∧
      (((a + p - b % p) * t % p * q + b : ℕ) : ZMod q) = b ∧
      (a + p - b % p) * t % p * q + b < p * q := by
  have hle : b % p ≤ a + p := (Nat.mod_lt b hp).le.trans (Nat.le_add_left p a)
  refine ⟨?_, ?_, ?_⟩
  · rw [Nat.cast_add, Nat.cast_mul, ZMod.natCast_mod, Nat.cast_mul, mul_assoc, ht, mul_one,
      Nat.cast_sub hle, Nat.cast_add, ZMod.natCast_self, ZMod.natCast_mod, add_zero, sub_add_cancel]
  · rw [Nat.cast_add, Nat.cast_mul, ZMod.natCast_self, mul_zero, zero_add]
  · have hdigit : (a + p - b % p) * t % p + 1 ≤ p := Nat.mod_lt _ hp
    calc (a + p - b % p) * t % p * q + b
        < ((a + p - b % p) * t % p + 1) * q := by rw [Nat.add_mul, Nat.one_mul]; omega
      _ ≤ p * q := Nat.mul_le_mul_right q hdigit

/-- The private operation undoes the public one. -/
theorem HasPrimes.invert_apply (hk : k.HasPrimes) {m : ℕ} (hm : m < k.toPublic.modulus) :
    k.invert (k.toPublic.apply m) = m := by
  have hp : k.p ∣ k.toPublic.modulus := Dvd.intro _ k.modulus_eq.symm
  have hq : k.q ∣ k.toPublic.modulus := Dvd.intro_left _ k.modulus_eq.symm
  have hpow (d : ℕ) (hd : d % (k.p - 1) = k.exponent % (k.p - 1)) :=
    pow_exponent_apply hk.prime_p hp k.inverse_p m hd
  have hpow' (d : ℕ) (hd : d % (k.q - 1) = k.exponent % (k.q - 1)) :=
    pow_exponent_apply hk.prime_q hq k.inverse_q m hd
  rw [invert]
  split
  next t ht =>
    obtain ⟨hmodp, hmodq, hlt⟩ := recombine_spec hk.prime_p.pos
      (Modular.mul_inverse? hk.prime_p.ne_zero ht)
      (Modular.pow (k.toPublic.apply m) k.exponentP k.p)
      (Modular.pow_lt (k.toPublic.apply m) k.exponentQ hk.prime_q.pos)
    rw [Modular.natCast_pow, exponentP, hpow _ (Nat.mod_mod _ _)] at hmodp
    rw [Modular.natCast_pow, exponentQ, hpow' _ (Nat.mod_mod _ _)] at hmodq
    exact hk.eq_of_natCast_eq (k.modulus_eq ▸ hlt) hm hmodp hmodq
  next =>
    refine hk.eq_of_natCast_eq (Modular.pow_lt _ _ (Nat.zero_lt_of_lt hm)) hm ?_ ?_
    · rw [Modular.natCast_pow_of_dvd hp, hpow _ rfl]
    · rw [Modular.natCast_pow_of_dvd hq, hpow' _ rfl]

theorem factors_pos (k : PrivateKey) : 0 < k.p ∧ 0 < k.q := by
  rw [← CanonicallyOrderedAdd.mul_pos, ← k.modulus_eq]
  exact Nat.zero_lt_of_lt k.toPublic.exponent_lt_modulus

theorem invert_lt (k : PrivateKey) (c : ℕ) : k.invert c < k.toPublic.modulus := by
  obtain ⟨hp, hq⟩ := k.factors_pos
  rw [invert]
  split
  next t ht =>
    rw [k.modulus_eq]
    exact (recombine_spec hp (Modular.mul_inverse? hp.ne' ht) _ (Modular.pow_lt _ _ hq)).2.2
  next => exact Modular.pow_lt _ _ (Nat.zero_lt_of_lt k.toPublic.exponent_lt_modulus)

/-- What the private operation gives was checked: the public one leads back from it. -/
theorem apply_of_apply_eq_ok {c m : ℕ} (h : k.apply c = .ok m) :
    m < k.toPublic.modulus ∧ k.toPublic.apply m = c := by
  rw [apply] at h
  dsimp only at h
  split at h
  · cases h
  split at h
  next hback =>
    obtain rfl := Except.ok.inj h
    exact ⟨k.invert_lt c, hback⟩
  · cases h

theorem HasPrimes.apply_eq_ok_iff (hk : k.HasPrimes) {c m : ℕ} :
    k.apply c = .ok m ↔ m < k.toPublic.modulus ∧ k.toPublic.apply m = c := by
  refine ⟨apply_of_apply_eq_ok, ?_⟩
  rintro ⟨hm, rfl⟩
  rw [apply, if_neg (Nat.not_le.mpr (k.toPublic.apply_lt m))]
  dsimp only
  rw [hk.invert_apply hm, if_pos rfl]

theorem HasPrimes.exists_apply (hk : k.HasPrimes) {c : ℕ} (hc : c < k.toPublic.modulus) :
    ∃ m, k.apply c = .ok m := by
  let f (m : Fin k.toPublic.modulus) : Fin k.toPublic.modulus :=
    ⟨k.toPublic.apply m, k.toPublic.apply_lt m⟩
  have hinjective : Function.Injective f := by
    intro m m' h
    have hvalue := congrArg k.invert (Fin.ext_iff.mp h)
    rw [hk.invert_apply m.isLt, hk.invert_apply m'.isLt] at hvalue
    exact Fin.ext hvalue
  obtain ⟨m, hm⟩ := Finite.injective_iff_surjective.mp hinjective ⟨c, hc⟩
  exact ⟨m, hk.apply_eq_ok_iff.mpr ⟨m.isLt, Fin.ext_iff.mp hm⟩⟩

end PrivateKey

theorem PublicKey.toNat_block_lt {k : PublicKey} {b : Bytes} (h : (0 :: b).length = k.size) :
    Bytes.toNat (0 :: b) < k.modulus := by
  have hpos : k.modulus ≠ 0 := (Nat.zero_lt_of_lt k.exponent_lt_modulus).ne'
  have hlength : b.length = k.modulus.log2 / 8 := Nat.succ.inj h
  calc Bytes.toNat (0 :: b) = Bytes.toNat b := by rw [Bytes.toNat_cons]; simp
    _ < 256 ^ (k.modulus.log2 / 8) := hlength ▸ Bytes.toNat_lt b
    _ ≤ k.modulus := Bytes.pow_le_of_ne_zero hpos

variable {size : ℕ} {digest block s : Bytes}

theorem length_named (digest : Bytes) : (digestHeader ++ digest).length = digest.length + 19 := by
  rw [List.length_append, Nat.add_comm]
  rfl

theorem length_signatureBlock? (h : signatureBlock? size digest = some block) :
    block.length = size ∧ digest.length + 30 ≤ size := by
  rw [signatureBlock?, length_named, paddingOverhead] at h
  split at h
  next => cases h
  next hsize =>
    obtain rfl := Option.some.inj h
    rw [List.length_append, List.length_cons, List.length_cons, List.length_replicate,
      List.length_cons, length_named]
    omega

theorem exists_signatureBlock? (h : digest.length + 30 ≤ size) :
    ∃ b, signatureBlock? size digest = some (0 :: b) := by
  rw [signatureBlock?, length_named, paddingOverhead, if_neg (by omega)]
  exact ⟨_, rfl⟩

theorem signatureBlock?_eq_none (h : size < digest.length + 30) :
    signatureBlock? size digest = none := by
  rw [signatureBlock?, length_named, paddingOverhead, if_pos (by omega)]

theorem PublicKey.verify_eq_true_iff {k : PublicKey} : k.verify digest s = true ↔
    s.length = k.size ∧ s.toNat < k.modulus ∧
      ∃ block, signatureBlock? k.size digest = some block ∧ k.apply s.toNat = block.toNat := by
  rw [verify, Bool.and_eq_true, Bool.and_eq_true, beq_iff_eq, beq_iff_eq, decide_eq_true_iff,
    and_assoc]
  have hvalue : Bytes.toNat (Bytes.ofNat k.size (k.apply s.toNat)) = k.apply s.toNat :=
    Bytes.toNat_ofNat_of_lt ((k.apply_lt _).trans (Bytes.lt_pow_widthOf _))
  refine and_congr_right fun _ ↦ and_congr_right fun _ ↦ ⟨fun h ↦ ⟨_, h, hvalue.symm⟩, ?_⟩
  rintro ⟨block, hblock, happly⟩
  rw [hblock, happly, Bytes.ofNat_toNat_of_length (length_signatureBlock? hblock).1]

namespace PrivateKey

theorem sign_eq_ok_iff {k : PrivateKey} : k.sign digest = .ok s ↔ ∃ block m,
    signatureBlock? k.size digest = some block ∧ k.apply block.toNat = .ok m ∧
      Bytes.ofNat k.size m = s := by
  rw [sign]
  cases signatureBlock? k.size digest with
  | none => exact iff_of_false nofun nofun
  | some block =>
    refine Except.bind_eq_ok_iff.trans ⟨?_, ?_⟩
    · rintro ⟨m, hm, h⟩
      exact ⟨block, m, rfl, Except.mapError_eq_ok_iff.mp hm, Except.ok.inj h⟩
    · rintro ⟨_, m, hblock, hm, rfl⟩
      obtain rfl := Option.some.inj hblock
      exact ⟨m, Except.mapError_eq_ok_iff.mpr hm, rfl⟩

theorem sign_eq_error {k : PrivateKey} (h : k.size < digest.length + 30) :
    k.sign digest = .error .messageTooLong := by
  rw [sign, signatureBlock?_eq_none h]
  rfl

theorem verify_of_sign {k : PrivateKey} (h : k.sign digest = .ok s) :
    k.toPublic.verify digest s = true := by
  obtain ⟨block, m, hblock, hm, rfl⟩ := sign_eq_ok_iff.mp h
  obtain ⟨hlt, hback⟩ := apply_of_apply_eq_ok hm
  have hvalue : Bytes.toNat (Bytes.ofNat k.size m) = m :=
    Bytes.toNat_ofNat_of_lt (hlt.trans (Bytes.lt_pow_widthOf _))
  rw [PublicKey.verify_eq_true_iff, hvalue]
  exact ⟨Bytes.length_ofNat _ _, hlt, block, hblock, hback⟩

/-- The signature that a key makes is the only one that its public key accepts. -/
theorem HasPrimes.sign_eq_ok_iff_verify {k : PrivateKey} (hk : k.HasPrimes) :
    k.sign digest = .ok s ↔ k.toPublic.verify digest s = true := by
  refine ⟨verify_of_sign, fun h ↦ ?_⟩
  obtain ⟨hlength, hlt, block, hblock, happly⟩ := PublicKey.verify_eq_true_iff.mp h
  refine sign_eq_ok_iff.mpr ⟨block, s.toNat, hblock, hk.apply_eq_ok_iff.mpr ⟨hlt, happly⟩, ?_⟩
  exact Bytes.ofNat_toNat_of_length hlength

theorem HasPrimes.exists_sign {k : PrivateKey} (hk : k.HasPrimes)
    (h : digest.length + 30 ≤ k.size) : ∃ s, k.sign digest = .ok s := by
  obtain ⟨b, hblock⟩ := exists_signatureBlock? h
  obtain ⟨m, hm⟩ :=
    hk.exists_apply (PublicKey.toNat_block_lt (length_signatureBlock? hblock).1)
  exact ⟨_, sign_eq_ok_iff.mpr ⟨_, m, hblock, hm, rfl⟩⟩

end PrivateKey

end MessagingIdentity.Rsa

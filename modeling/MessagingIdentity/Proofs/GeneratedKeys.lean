import MessagingIdentity.Proofs.JsonTexts
import MessagingIdentity.Proofs.PrivateKeyEquality
import MessagingIdentity.Proofs.ReloadedRsaKeys

namespace MessagingIdentity

theorem Modular.inverse?_lt {a m t : ℕ} (hm : 0 < m) (h : inverse? a m = some t) : t < m := by
  rw [inverse?] at h
  rcases heuclid : euclid (2 * m.log2 + 4) (a % m) 1 m 0 with ⟨g, s⟩
  rw [heuclid] at h
  dsimp only at h
  split at h
  · obtain rfl := Option.some.inj h
    have hlt := Int.emod_lt_of_pos s (Int.natCast_pos.mpr hm)
    omega
  · cases h

theorem Primality.search_range {accept : ℕ → Bool} {fuel n p : ℕ}
    (h : search accept fuel n = some p) : n ≤ p ∧ p ≤ n + 2 * fuel := by
  induction fuel generalizing n with
  | zero => cases h
  | succ fuel ih =>
    rw [search] at h
    split at h
    · obtain rfl := Option.some.inj h
      omega
    · have hrange := ih h
      omega

namespace Rsa

open Der

variable {e : Entropy} {k : PrivateKey} {b : Bytes} {p : ℕ}

theorem startingPoint_range (b : Bytes) :
    1 < startingPoint b ∧ startingPoint b ≤ 4 * Nat.pow 2 (8 * b.length - 2) := by
  have hpow : 0 < Nat.pow 2 (8 * b.length - 2) := Nat.pow_pos (by decide)
  have hlt := Nat.mod_lt b.toNat hpow
  rw [startingPoint]
  omega

theorem freshFactor?_range (h : freshFactor? e = some p) : 1 < p ∧ p < Nat.pow 256 65 := by
  obtain ⟨hle, hge⟩ := Primality.search_range h
  obtain ⟨hone, hstart⟩ := startingPoint_range (e.draw factorBytes)
  have hlength : (e.draw factorBytes).length = 64 := by simp [Entropy.draw, factorBytes]
  have hbound : 4 * Nat.pow 2 (8 * 64 - 2) + 2 * 20000 < Nat.pow 256 65 := by decide +kernel
  rw [hlength] at hstart
  omega

theorem ofNumbers?_eq_some {n d q : ℕ} {x : ℕ} (h : PrivateKey.ofNumbers? n x d p q = some k) :
    n = k.toPublic.modulus ∧ x = k.toPublic.exponent ∧ k.exponent = d ∧ k.p = p ∧ k.q = q := by
  obtain ⟨l, hl, h⟩ := Option.bind_eq_some_iff.mp h
  obtain ⟨hn, hx⟩ := PublicKey.ofNumbers?_eq_some_iff.mp hl
  split at h
  · obtain rfl := Option.some.inj h
    exact ⟨hn, hx, rfl, rfl, rfl⟩
  · cases h

theorem numbersWith_generate? (h : PrivateKey.generate? e = some k) {t : ℕ}
    (ht : k.coefficient? = some t) : ∀ n ∈ k.numbersWith t, n < Nat.pow 256 130 := by
  obtain ⟨p, hp, h⟩ := Option.bind_eq_some_iff.mp h
  obtain ⟨q, hq, h⟩ := Option.bind_eq_some_iff.mp h
  obtain ⟨d, hd, h⟩ := Option.bind_eq_some_iff.mp h
  obtain ⟨hmodulus, hexponent, rfl, rfl, rfl⟩ := ofNumbers?_eq_some h
  obtain ⟨hp₁, hp⟩ := freshFactor?_range hp
  obtain ⟨hq₁, hq⟩ := freshFactor?_range hq
  have hsmall : Nat.pow 256 65 ≤ Nat.pow 256 130 := by decide +kernel
  have hproduct : k.p * k.q < Nat.pow 256 130 :=
    (Nat.mul_lt_mul'' hp hq).trans_eq (by decide +kernel)
  have hpos : 0 < (k.p - 1) * (k.q - 1) := Nat.mul_pos (by omega) (by omega)
  have hd : k.exponent < Nat.pow 256 130 := calc
    k.exponent < (k.p - 1) * (k.q - 1) := Modular.inverse?_lt hpos hd
    _ ≤ k.p * k.q := Nat.mul_le_mul (Nat.sub_le _ _) (Nat.sub_le _ _)
    _ < _ := hproduct
  have ht : t < k.p := Modular.inverse?_lt (by omega) ht
  rw [PrivateKey.numbersWith]
  simp only [List.forall_mem_cons, PrivateKey.exponentP, PrivateKey.exponentQ, ← hmodulus, ← hexponent]
  refine ⟨by decide +kernel, hproduct, by decide +kernel, hd, by omega, by omega,
    (Nat.mod_le _ _).trans_lt hd, (Nat.mod_le _ _).trans_lt hd, by omega, List.forall_mem_nil _⟩

theorem ofDer?_generate? (h : PrivateKey.generate? e = some k) {der : Bytes}
    (hder : k.wrappedDer? = some der) : PrivateKey.ofDer? der = some k := by
  refine PrivateKey.ofDer?_of_wrappedDer? hder ?_
  obtain ⟨plain, hplain, rfl⟩ := PrivateKey.wrappedDer?_eq_some_iff.mp hder
  obtain ⟨t, ht, rfl, -⟩ := PrivateKey.plainDer?_eq_some_iff.mp hplain
  have hnumbers : ((k.numbersWith t).map integer).flatten.length ≤ 9 * (129 + 8) :=
    length_integers_le (by decide) (numbersWith_generate? h ht)
  have hplain := length_element_le (t := tagSequence) (hnumbers.trans_lt (by decide))
  have hoctets := length_element_le (t := tagOctetString)
    ((hplain.trans (Nat.add_le_add_right hnumbers 6)).trans_lt (by decide))
  have hidentifier : (integer 0).length = 3 ∧ algorithmIdentifier.length = 15 := by decide
  have hcontent : (integer 0 ++ (algorithmIdentifier ++ element tagOctetString
      (sequence ((k.numbersWith t).map integer)))).length ≤ 1300 := by
    rw [List.length_append, List.length_append, Der.sequence]
    omega
  have hlength := length_element_le (t := tagSequence) (hcontent.trans_lt (by decide))
  rw [lengthLimit]
  omega

end Rsa

theorem RsaKey.parseMembers_membersOf (data : String) :
    Json.parseMembers (Json.object (membersOf data)).pretty = some (membersOf data) :=
  Json.parseMembers_pretty [(Field.algorithm, tag), (Field.data, data), (Field.digest, "SHA256"),
    (Field.mode, "ECB"), (Field.padding, "PKCS1")] nofun rfl

theorem CurveKey.parseMembers_membersOf (data : String) :
    Json.parseMembers (Json.object (membersOf data)).pretty = some (membersOf data) :=
  Json.parseMembers_pretty [(Field.algorithm, tag), (Field.curve, "SECP256k1"), (Field.data, data),
    (Field.digest, "SHA256")] nofun rfl

/-- The canonical bytes of the pair that a family draws: of its private and of its public key. -/
def PairFamily.drawn? (f : PairFamily) (e : Entropy) : Option (Bytes × Bytes) :=
  match f with
  | rsa => do
    let n ← Rsa.PrivateKey.generate? e
    some (← n.plainDer?, Bytes.minimal n.toPublic.modulus)
  | curve => do
    let scalar := 1 + Bytes.toNat (e.draw 32) % (Secp256k1.groupOrder - 1)
    let p ← Secp256k1.CurvePoint.ofScalar? scalar
    some (Bytes.ofNat 32 scalar, p.uncompressed)

/-- What is written of the key is read as it, and it has these canonical bytes, of its own and of its
public key. -/
structure PrivateKey.Lasting (key : PrivateKey) (secret known : Bytes) : Prop where
  parseMembers_eq : Json.parseMembers (Json.object key.members).pretty = some key.members
  parse_eq : PrivateKey.parse key.members = .ok key
  data_eq : key.data = .ok secret
  publicKey_eq : ∃ k, key.publicKey = .ok k ∧ k.data = .ok known

variable {e : Entropy}

theorem RsaPrivateKey.generate_eq_ok {k : RsaPrivateKey} (h : generate e = .ok k) :
    ∃ n der, Rsa.PrivateKey.generate? e = some n ∧ n.wrappedDer? = some der ∧
      k.attributes.members = RsaKey.membersOf (Pem.encode "PRIVATE KEY" der) := by
  unfold generate at h
  split at h
  next der hder =>
    obtain ⟨n, hn, hder⟩ := Option.bind_eq_some_iff.mp hder
    obtain ⟨a, ha, rfl⟩ := Except.map_eq_ok_iff.mp h
    exact ⟨n, der, hn, hder, Attributes.members_of_ofMembers ha⟩
  · cases h

theorem RsaPrivateKey.lasting_of_generate {k : RsaPrivateKey} (h : generate e = .ok k) :
    ∃ secret known, PairFamily.rsa.drawn? e = some (secret, known) ∧
      (PrivateKey.rsa k).Lasting secret known := by
  obtain ⟨n, der, hn, hder, hmembers⟩ := generate_eq_ok h
  obtain ⟨plain, hplain, -⟩ := Rsa.PrivateKey.wrappedDer?_eq_some_iff.mp hder
  have hdata : k.attributes.data = Pem.encode "PRIVATE KEY" der :=
    Attributes.data_eq_of_members (hmembers ▸ rfl)
  have hnumbers : k.numbers = .ok n := numbers_of_bytes
    (RsaKey.bytes_of_armour hdata (by decide) (by decide)) (Rsa.ofDer?_generate? hn hder)
  have hfamily : Registry.family Registry.pairDefaults k.attributes.algorithm = .ok .rsa := by
    rw [Option.some.inj (k.attributes.algorithm_eq.symm.trans (hmembers ▸ rfl : _ = some RsaKey.tag))]
    rfl
  obtain ⟨l, hl⟩ := exists_publicKey hnumbers
  obtain ⟨n', hn', hpreset, -⟩ := publicKey_eq_ok_iff.mp hl
  obtain rfl := Except.ok.inj (hn'.symm.trans hnumbers)
  refine ⟨plain, Bytes.minimal n'.toPublic.modulus, ?_, ?_, ?_, ?_, ?_⟩
  · rw [PairFamily.drawn?, hn, Option.bind_eq_bind, Option.bind_some, hplain]
    rfl
  · rw [PrivateKey.members, PrivateKey.attributes, hmembers]
    exact RsaKey.parseMembers_membersOf _
  · exact PrivateKey.parse_of_rsa_family hfamily
  · exact data_eq_ok_iff.mpr ⟨_, hnumbers, hplain⟩
  · exact ⟨.rsa l, Except.map_eq_ok_iff.mpr ⟨l, hl, rfl⟩,
      RsaPublicKey.data_of_numbers (RsaPublicKey.numbers_of_preset hpreset)⟩

theorem CurvePrivateKey.ofMembers_membersOf {data : String} (h : data ≠ "") :
    ofMembers (CurveKey.membersOf data) = .ok ⟨CurveKey.attributesOf data h⟩ :=
  congrArg (Except.map mk) (CurveKey.attributesOf data h).ofMembers_members

theorem CurvePrivateKey.lasting_of_generate {k : CurvePrivateKey} (h : generate e = .ok k) :
    ∃ secret known, PairFamily.curve.drawn? e = some (secret, known) ∧
      (PrivateKey.curve k).Lasting secret known := by
  obtain ⟨d, hd⟩ : ∃ d, 1 + Bytes.toNat (e.draw 32) % (Secp256k1.groupOrder - 1) = d := ⟨_, rfl⟩
  have hpos : 0 < d := by omega
  have hlt : d < Secp256k1.groupOrder := by
    have hmod := Nat.mod_lt (Bytes.toNat (e.draw 32)) (show 0 < Secp256k1.groupOrder - 1 by decide)
    omega
  have hne : Hexadecimal.encode (Bytes.ofNat 32 d) ≠ "" :=
    Hexadecimal.encode_ne_empty (List.ne_nil_of_length_eq_add_one (Bytes.length_ofNat 32 d))
  obtain ⟨k', hk', hscalar⟩ := PrivateKey.parse_of_scalar hpos hlt
  obtain ⟨p, hp⟩ := Secp256k1.CurvePoint.exists_ofScalar? (Ecdsa.natCast_ne_zero_of_lt hpos hlt)
  have hdrawn : PairFamily.curve.drawn? e = some (Bytes.ofNat 32 d, p.uncompressed) := by
    rw [PairFamily.drawn?, hd, hp]
    rfl
  rw [generate, hd] at h
  generalize Hexadecimal.encode (Bytes.ofNat 32 d) = data at *
  rw [ofMembers_membersOf hne] at h
  obtain rfl := Except.ok.inj h
  have hparse := PrivateKey.parse_curve hne
  obtain rfl := PrivateKey.curve.inj (Except.ok.inj (hparse.symm.trans hk'))
  obtain ⟨l, hl, hpoint⟩ := exists_publicKey hscalar hp
  exact ⟨_, _, hdrawn, CurveKey.parseMembers_membersOf data, hparse, data_of_scalar hscalar, .curve l,
    Except.map_eq_ok_iff.mpr ⟨l, hl, rfl⟩, CurvePublicKey.data_of_point hpoint⟩

theorem CurvePrivateKey.scalar_of_data {k : CurvePrivateKey} {d : ℕ}
    (h : k.data = .ok (Bytes.ofNat 32 d)) (hlt : d < Secp256k1.groupOrder) : k.scalar = .ok d := by
  obtain ⟨d', hd', hbytes⟩ := Except.map_eq_ok_iff.mp h
  have hvalue := congrArg Bytes.toNat hbytes
  rw [Bytes.toNat_ofNat_of_lt ((scalar_range hd').2.trans (by decide)),
    Bytes.toNat_ofNat_of_lt (hlt.trans (by decide))] at hvalue
  rw [hd', hvalue]

theorem CurvePrivateKey.scalar_of_generate {k : CurvePrivateKey} (h : generate e = .ok k) :
    k.scalar = .ok (1 + Bytes.toNat (e.draw 32) % (Secp256k1.groupOrder - 1)) := by
  obtain ⟨secret, known, hdrawn, hlasting⟩ := lasting_of_generate h
  have hmod := Nat.mod_lt (Bytes.toNat (e.draw 32)) (show 0 < Secp256k1.groupOrder - 1 by decide)
  rw [PairFamily.drawn?] at hdrawn
  generalize Bytes.toNat (e.draw 32) % (Secp256k1.groupOrder - 1) = r at *
  obtain ⟨p, -, hpair⟩ := Option.bind_eq_some_iff.mp hdrawn
  obtain ⟨hsecret, -⟩ := Prod.mk.inj (Option.some.inj hpair)
  exact scalar_of_data (hsecret ▸ hlasting.data_eq) (by omega)

/-- A key that is generated has the canonical bytes of what was drawn, also after it was written and
read. -/
theorem PairFamily.lasting_of_generate {f : PairFamily} {key : PrivateKey}
    (h : f.generate e = .ok key) :
    ∃ secret known, f.drawn? e = some (secret, known) ∧ key.Lasting secret known := by
  cases f with
  | rsa =>
    rw [generate] at h
    obtain ⟨k, hk, rfl⟩ := Except.map_eq_ok_iff.mp h
    exact RsaPrivateKey.lasting_of_generate hk
  | curve =>
    rw [generate] at h
    obtain ⟨k, hk, rfl⟩ := Except.map_eq_ok_iff.mp h
    exact CurvePrivateKey.lasting_of_generate hk

end MessagingIdentity

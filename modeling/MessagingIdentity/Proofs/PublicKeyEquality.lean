import MessagingIdentity.Proofs.KeyForms

namespace MessagingIdentity

theorem RsaPublicKey.verify_of_numbers {k : RsaPublicKey} {n : Rsa.PublicKey} (h : k.numbers = .ok n)
    (m signature : Bytes) : k.verify m signature = n.verify (Digest.sha256 m) signature := by
  rw [verify, h]

theorem RsaPublicKey.verify_congr {k l : RsaPublicKey} (h : k.numbers = l.numbers)
    (m signature : Bytes) : k.verify m signature = l.verify m signature := by
  rw [verify, verify, h]

theorem CurvePublicKey.verify_congr {k l : CurvePublicKey} (h : k.point = l.point)
    (m signature : Bytes) : k.verify m signature = l.verify m signature := by
  rw [verify, verify, h]

theorem CurvePublicKey.verify_eq_true_iff {k : CurvePublicKey} {p : Secp256k1.CurvePoint}
    (h : k.point = .ok p) {m s : Bytes} : k.verify m s = true ↔
      ∃ g, Ecdsa.Signature.ofBytes? s = some g ∧ Ecdsa.verify p (Digest.sha256 m) g = true := by
  rw [verify, h]
  cases Ecdsa.Signature.ofBytes? s <;> simp

theorem RsaPublicKey.data_of_numbers {k : RsaPublicKey} {n : Rsa.PublicKey} (h : k.numbers = .ok n) :
    (PublicKey.rsa k).data = .ok (Bytes.minimal n.modulus) := Except.map_eq_ok_iff.mpr ⟨n, h, rfl⟩

theorem CurvePublicKey.data_of_point {k : CurvePublicKey} {p : Secp256k1.CurvePoint}
    (h : k.point = .ok p) : (PublicKey.curve k).data = .ok p.uncompressed :=
  Except.map_eq_ok_iff.mpr ⟨p, h, rfl⟩

namespace PublicKey

variable {a b : PublicKey} {x y : Bytes}

theorem equal_iff_of_data (ha : a.data = .ok x) (hb : b.data = .ok y) :
    a.equal b = true ↔ sameFamily a b = true ∧ x = y := by
  rw [equal, ha, hb, Bool.and_eq_true, beq_iff_eq]

theorem equal_rsa_iff {k l : RsaPublicKey} {n n' : Rsa.PublicKey} (hk : k.numbers = .ok n)
    (hl : l.numbers = .ok n') : equal (rsa k) (rsa l) = true ↔ n.modulus = n'.modulus := by
  rw [equal_iff_of_data (RsaPublicKey.data_of_numbers hk) (RsaPublicKey.data_of_numbers hl),
    Bytes.minimal_injective.eq_iff]
  exact and_iff_right rfl

theorem equal_curve_iff {k l : CurvePublicKey} {p q : Secp256k1.CurvePoint} (hk : k.point = .ok p)
    (hl : l.point = .ok q) : equal (curve k) (curve l) = true ↔ p = q := by
  rw [equal_iff_of_data (CurvePublicKey.data_of_point hk) (CurvePublicKey.data_of_point hl),
    Secp256k1.CurvePoint.uncompressed_injective.eq_iff]
  exact and_iff_right rfl

/-- Of two RSA keys, both raise to the same power. -/
def SameExponent : PublicKey → PublicKey → Prop
  | rsa k, rsa l => ∀ n n', k.numbers = .ok n → l.numbers = .ok n' → n.exponent = n'.exponent
  | _, _ => True

/-- Equal keys with readable bytes are interchangeable for verification, but for RSA keys of different
exponents. -/
theorem verify_eq_of_equal (ha : a.data = .ok x) (hb : b.data = .ok y) (hequal : a.equal b = true)
    (hexponent : SameExponent a b) (m signature : Bytes) :
    a.verify m signature = b.verify m signature := by
  cases a with
  | rsa k =>
    cases b with
    | curve l => cases hequal
    | rsa l =>
      obtain ⟨n, hn, -⟩ := Except.map_eq_ok_iff.mp ha
      obtain ⟨n', hn', -⟩ := Except.map_eq_ok_iff.mp hb
      obtain rfl : n = n' := Rsa.PublicKey.ext_numbers ((equal_rsa_iff hn hn').mp hequal)
        (hexponent n n' hn hn')
      exact RsaPublicKey.verify_congr (hn.trans hn'.symm) m signature
  | curve k =>
    cases b with
    | rsa l => cases hequal
    | curve l =>
      obtain ⟨p, hp, -⟩ := Except.map_eq_ok_iff.mp ha
      obtain ⟨q, hq, -⟩ := Except.map_eq_ok_iff.mp hb
      obtain rfl : p = q := (equal_curve_iff hp hq).mp hequal
      exact CurvePublicKey.verify_congr (hp.trans hq.symm) m signature

def trial? (m : Json.Members) : Option (ℕ × ℕ) :=
  match parse m with
  | .ok (rsa k) => k.numbers.toOption.map fun n ↦ (n.modulus, n.exponent)
  | _ => none

theorem of_trial? {m : Json.Members} {modulus exponent : ℕ}
    (h : trial? m = some (modulus, exponent)) :
    ∃ k n, parse m = .ok (rsa k) ∧ k.numbers = .ok n ∧ n.modulus = modulus ∧
      n.exponent = exponent := by
  unfold trial? at h
  split at h
  next k hk =>
    cases hn : k.numbers with
    | error err =>
      rw [hn] at h
      cases h
    | ok n =>
      rw [hn] at h
      obtain ⟨hmodulus, hexponent⟩ := Prod.mk.inj (Option.some.inj h)
      exact ⟨k, n, hk, hn, hmodulus, hexponent⟩
  next => cases h

def sampleModulus : ℕ :=
  0xcd58ccb5c85f8fde95de564e4a1c496a5018e3ed2d9e2d79c1938cba6935da34 <<< 256 +
    0x215227b9a064df500a9c2e164b3cfce8299e687b2c8b1c1f1ed75c8e056e23db

/-- The members of a key with that modulus and the exponent 3, in the plain form. -/
def cubeMembers : Json.Members := RsaKey.membersOf <|
  "MEYCQQDNWMy1yF+P3pXeVk5KHElqUBjj7S2eLXnBk4y6aTXaNCFSJ7mgZN9QCpwu" ++
    "Fks8/Ogpnmh7LIscHx7XXI4FbiPbAgED"

theorem trial?_cubeMembers : trial? cubeMembers = some (sampleModulus, 3) := by decide +kernel

def wrappedCubeMembers : Json.Members := RsaKey.membersOf <|
  "MFowDQYJKoZIhvcNAQEBBQADSQAwRgJBAM1YzLXIX4/eld5WTkocSWpQGOPtLZ4t" ++
    "ecGTjLppNdo0IVInuaBk31AKnC4WSzz86CmeaHssixwfHtdcjgVuI9sCAQM="

def fermatMembers : Json.Members := RsaKey.membersOf <|
  "MEgCQQDNWMy1yF+P3pXeVk5KHElqUBjj7S2eLXnBk4y6aTXaNCFSJ7mgZN9QCpwu" ++
    "Fks8/Ogpnmh7LIscHx7XXI4FbiPbAgMBAAE="

def cubeSignature : Bytes :=
  Bytes.ofNat 32 0x01fe3aa5c497a327f9caafea158d8e467464bdfe4f07611eb78bd80ca3885bb8 ++
    Bytes.ofNat 32 0x93f6375cec52bcf49201214e71dd511c0206ea99227b5fc923d4eb4d5a0e3482

theorem verify_eq_of_equal_wrapped : ∃ a b x,
    parse cubeMembers = .ok a ∧ parse wrappedCubeMembers = .ok b ∧
      a.data = .ok x ∧ b.data = .ok x ∧ a.equal b = true ∧ SameExponent a b ∧
      ∀ m signature, a.verify m signature = b.verify m signature := by
  have hwrapped : trial? wrappedCubeMembers = some (sampleModulus, 3) := by decide +kernel
  obtain ⟨k, n, ha, hk, hmodulus, hexponent⟩ := of_trial? trial?_cubeMembers
  obtain ⟨l, n', hb, hl, hmodulus', hexponent'⟩ := of_trial? hwrapped
  obtain rfl : n = n' :=
    Rsa.PublicKey.ext_numbers (hmodulus.trans hmodulus'.symm) (hexponent.trans hexponent'.symm)
  have hx := RsaPublicKey.data_of_numbers hk
  have hy := RsaPublicKey.data_of_numbers hl
  have hequal : equal (rsa k) (rsa l) = true := (equal_rsa_iff hk hl).mpr rfl
  have hsame : SameExponent (rsa k) (rsa l) := by
    intro n₁ n₂ h₁ h₂
    obtain rfl := Except.ok.inj (hk.symm.trans h₁)
    obtain rfl := Except.ok.inj (hl.symm.trans h₂)
    rfl
  exact ⟨rsa k, rsa l, _, ha, hb, hx, hy, hequal, hsame, verify_eq_of_equal hx hy hequal hsame⟩

/-- Two equal keys, one of which accepts a signature that the other rejects. -/
theorem equal_not_interchangeable : ∃ a b x,
    parse cubeMembers = .ok a ∧ parse fermatMembers = .ok b ∧
      a.data = .ok x ∧ b.data = .ok x ∧ a.equal b = true ∧
      a.verify (Bytes.ofText "hello") cubeSignature = true ∧
      b.verify (Bytes.ofText "hello") cubeSignature = false := by
  have hfermat : trial? fermatMembers = some (sampleModulus, 65537) := by decide +kernel
  obtain ⟨k, n, ha, hk, hmodulus, hexponent⟩ := of_trial? trial?_cubeMembers
  obtain ⟨l, n', hb, hl, hmodulus', hexponent'⟩ := of_trial? hfermat
  have hsame : n.modulus = n'.modulus := hmodulus.trans hmodulus'.symm
  have hx := RsaPublicKey.data_of_numbers hk
  have hy := RsaPublicKey.data_of_numbers hl
  rw [← hsame] at hy
  refine ⟨rsa k, rsa l, _, ha, hb, hx, hy, (equal_rsa_iff hk hl).mpr hsame, ?_, ?_⟩
  · have hverify : (Rsa.PublicKey.ofNumbers? sampleModulus 3).map
        (·.verify (Digest.sha256 (Bytes.ofText "hello")) cubeSignature) = some true := by
      decide +kernel
    rw [Rsa.PublicKey.ofNumbers?_eq_some_iff.mpr ⟨hmodulus.symm, hexponent.symm⟩] at hverify
    exact (RsaPublicKey.verify_of_numbers hk _ _).trans (Option.some.inj hverify)
  · have hverify : (Rsa.PublicKey.ofNumbers? sampleModulus 65537).map
        (·.verify (Digest.sha256 (Bytes.ofText "hello")) cubeSignature) = some false := by
      decide +kernel
    rw [Rsa.PublicKey.ofNumbers?_eq_some_iff.mpr ⟨hmodulus'.symm, hexponent'.symm⟩] at hverify
    exact (RsaPublicKey.verify_of_numbers hl _ _).trans (Option.some.inj hverify)

end PublicKey

end MessagingIdentity

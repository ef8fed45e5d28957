import MessagingIdentity.Proofs.RsaSignatures
import MessagingIdentity.Proofs.SignatureChecks

namespace MessagingIdentity

open Secp256k1

namespace CurvePrivateKey

variable {k : CurvePrivateKey} {m s : Bytes} {d : ℕ}

theorem scalar_range (h : k.scalar = .ok d) : 0 < d ∧ d < groupOrder := by
  obtain ⟨b, -, h⟩ := Except.bind_eq_ok_iff.mp h
  dsimp only at h
  split at h
  · cases h
  split at h
  · cases h
  next hrange =>
    obtain rfl := Except.ok.inj h
    omega

theorem sign_eq_ok_iff : k.sign m = .ok s ↔ ∃ d, k.scalar = .ok d ∧
    ∃ g, Ecdsa.sign d (Digest.sha256 m) = some g ∧ g.der = s := by
  refine Except.bind_eq_ok_iff.trans (exists_congr fun d ↦ and_congr_right fun _ ↦ ?_)
  cases Ecdsa.sign d (Digest.sha256 m) with
  | none => exact iff_of_false nofun nofun
  | some g => simp [pure, Except.pure]

theorem data_of_scalar (h : k.scalar = .ok d) : k.data = .ok (Bytes.ofNat 32 d) := by
  rw [data, h]
  rfl

end CurvePrivateKey

def CurveKey.attributesOf (data : String) (h : data ≠ "") : Attributes :=
  ⟨membersOf data, tag, data, rfl, rfl, h⟩

theorem CurvePrivateKey.exists_publicKey {k : CurvePrivateKey} {d : ℕ} {p : CurvePoint}
    (hd : k.scalar = .ok d) (hp : CurvePoint.ofScalar? d = some p) :
    ∃ l, k.publicKey = .ok l ∧ l.point = .ok p :=
  ⟨⟨CurveKey.attributesOf _ (Hexadecimal.encode_ne_empty (List.cons_ne_nil _ _)), some p⟩,
    publicKey_eq_ok_iff.mpr ⟨d, hd, p, hp, rfl, rfl⟩, rfl⟩

namespace PrivateKey

variable {a b : PrivateKey} {m s : Bytes} {same : Bool}

/-- The public key of the private one accepts a signature of a message. -/
def Accepts (b : PrivateKey) (m s : Bytes) : Prop :=
  ∃ l, b.publicKey = .ok l ∧ l.verify m s = true

theorem equal_iff : equal same a b = true ↔
    same = true ∨ ∃ s, a.sign probe = .ok s ∧ b.Accepts probe s := by
  rw [equal, Bool.or_eq_true]
  refine or_congr_right ?_
  cases hb : b.publicKey with
  | error err => exact iff_of_false nofun fun ⟨_, _, _, h, _⟩ ↦ nomatch hb.symm.trans h
  | ok l =>
    dsimp only
    rw [acceptedBy]
    cases ha : a.sign probe with
    | error err => exact iff_of_false nofun fun ⟨_, h, _⟩ ↦ nomatch h
    | ok s =>
      constructor
      · exact fun h ↦ ⟨s, rfl, l, hb, h⟩
      · rintro ⟨_, hs, l', hl, h⟩
        obtain rfl := Except.ok.inj hs
        obtain rfl := Except.ok.inj (hb.symm.trans hl)
        exact h

theorem accepts_rsa_iff {k : RsaPrivateKey} : (rsa k).Accepts m s ↔
    ∃ n, k.numbers = .ok n ∧ n.toPublic.verify (Digest.sha256 m) s = true := by
  constructor
  · rintro ⟨l', hl', h⟩
    obtain ⟨l, hl, rfl⟩ := Except.map_eq_ok_iff.mp hl'
    obtain ⟨n, hn, -⟩ := RsaPrivateKey.publicKey_eq_ok_iff.mp hl
    exact ⟨n, hn, RsaPrivateKey.verify_publicKey hn hl m s ▸ h⟩
  · rintro ⟨n, hn, h⟩
    obtain ⟨l, hl⟩ := RsaPrivateKey.exists_publicKey hn
    exact ⟨.rsa l, Except.map_eq_ok_iff.mpr ⟨l, hl, rfl⟩,
      (RsaPrivateKey.verify_publicKey hn hl m s).trans h⟩

theorem accepts_curve_iff {k : CurvePrivateKey} : (curve k).Accepts m s ↔
    ∃ d, k.scalar = .ok d ∧ ∃ p, CurvePoint.ofScalar? d = some p ∧
      ∃ g, Ecdsa.Signature.ofBytes? s = some g ∧
        Ecdsa.verify p (Digest.sha256 m) g = true := by
  constructor
  · rintro ⟨l', hl', h⟩
    obtain ⟨l, hl, rfl⟩ := Except.map_eq_ok_iff.mp hl'
    obtain ⟨d, hd, p, hp, hpreset, -⟩ := CurvePrivateKey.publicKey_eq_ok_iff.mp hl
    have hpoint := CurvePublicKey.point_of_preset hpreset
    exact ⟨d, hd, p, hp, (CurvePublicKey.verify_eq_true_iff hpoint).mp h⟩
  · rintro ⟨d, hd, p, hp, h⟩
    obtain ⟨l, hl, hpoint⟩ := CurvePrivateKey.exists_publicKey hd hp
    exact ⟨.curve l, Except.map_eq_ok_iff.mpr ⟨l, hl, rfl⟩,
      (CurvePublicKey.verify_eq_true_iff hpoint).mpr h⟩

/-- A signature that no other scalar is taken for: it names one point, is read in the form that it is
written in, and does not mirror the two scalars. -/
structure TellsApart (x y : ℕ) (g : Ecdsa.Signature) : Prop where
  one_point : fieldOrder ≤ groupOrder + g.r
  length_ne : g.der.length ≠ 64
  not_mirrored : ¬ Ecdsa.Mirrored x y (Digest.sha256 probe) g

/-- The signature of the probe, if there is one, tells the scalars apart. -/
def Apart (x y : ℕ) : Prop :=
  ∀ g, Ecdsa.sign x (Digest.sha256 probe) = some g → TellsApart x y g

/-- Keys whose comparison may not depend on their order: RSA keys with prime factors, scalars whose
signatures of the probe tell them apart if they differ, and keys of different families, if the modulus
has no size that both a padded digest and a signature on the curve could have. -/
def Decisive : PrivateKey → PrivateKey → Prop
  | rsa k, rsa l => (∀ n, k.numbers = .ok n → n.HasPrimes) ∧ ∀ n, l.numbers = .ok n → n.HasPrimes
  | curve k, curve l => ∀ x y, k.scalar = .ok x → l.scalar = .ok y → x ≠ y → Apart x y ∧ Apart y x
  | rsa k, curve _ => ∀ n, k.numbers = .ok n → n.size < 62 ∨ 72 < n.size
  | curve _, rsa k => ∀ n, k.numbers = .ok n → n.size < 62 ∨ 72 < n.size

theorem Decisive.symm (h : Decisive a b) : Decisive b a := by
  cases a <;> cases b
  · exact And.symm h
  · exact h
  · exact h
  · exact fun x y hx hy hne ↦ (h y x hy hx hne.symm).symm

/-- The key of the scalar `y` accepts the signature of the probe that is made with the scalar `x`. -/
def ProbeAccepted (x y : ℕ) : Prop :=
  ∃ g p g', Ecdsa.sign x (Digest.sha256 probe) = some g ∧ CurvePoint.ofScalar? y = some p ∧
    Ecdsa.Signature.ofBytes? g.der = some g' ∧ Ecdsa.verify p (Digest.sha256 probe) g' = true

theorem signed_accepted_curve_iff {k l : CurvePrivateKey} :
    (∃ s, (curve k).sign probe = .ok s ∧ (curve l).Accepts probe s) ↔
      ∃ x y, k.scalar = .ok x ∧ l.scalar = .ok y ∧ ProbeAccepted x y := by
  simp only [accepts_curve_iff, sign, CurvePrivateKey.sign_eq_ok_iff]
  constructor
  · rintro ⟨_, ⟨x, hx, g, hg, rfl⟩, y, hy, p, hp, g', hg', h⟩
    exact ⟨x, y, hx, hy, g, p, g', hg, hp, hg', h⟩
  · rintro ⟨x, y, hx, hy, g, p, g', hg, hp, hg', h⟩
    exact ⟨g.der, ⟨x, hx, g, hg, rfl⟩, y, hy, p, hp, g', hg', h⟩

theorem eq_of_probeAccepted {x y : ℕ} (hx : x < groupOrder) (hy : y < groupOrder)
    (hapart : x ≠ y → Apart x y) (h : ProbeAccepted x y) : x = y := by
  by_contra hne
  obtain ⟨g, p, g', hg, hp, hg', h⟩ := h
  obtain ⟨hone, hlength, hmirror⟩ := hapart hne g hg
  obtain rfl := Ecdsa.eq_of_ofBytes?_der hlength hg'
  rcases (Ecdsa.verify_sign_iff hg (CurvePoint.represents_of_ofScalar? hp) hone).mp h with hyx | h
  · rw [ZMod.natCast_eq_natCast_iff', Nat.mod_eq_of_lt hx, Nat.mod_eq_of_lt hy] at hyx
    exact hne hyx.symm
  · exact hmirror h

theorem length_sign_rsa {k : RsaPrivateKey} (h : (rsa k).sign m = .ok s) :
    ∃ n, k.numbers = .ok n ∧ s.length = n.size ∧ 62 ≤ n.size := by
  obtain ⟨n, hn, hs⟩ := RsaPrivateKey.sign_eq_ok_iff.mp h
  exact ⟨n, hn, Rsa.PublicKey.length_of_verify (Rsa.PrivateKey.verify_of_sign hs)⟩

theorem length_accepts_rsa {k : RsaPrivateKey} (h : (rsa k).Accepts m s) :
    ∃ n, k.numbers = .ok n ∧ s.length = n.size ∧ 62 ≤ n.size := by
  obtain ⟨n, hn, h⟩ := accepts_rsa_iff.mp h
  exact ⟨n, hn, Rsa.PublicKey.length_of_verify h⟩

theorem length_sign_curve {k : CurvePrivateKey} (h : (curve k).sign m = .ok s) :
    s.length ≤ 72 := by
  rw [sign, CurvePrivateKey.sign_eq_ok_iff] at h
  obtain ⟨d, -, g, -, rfl⟩ := h
  exact Ecdsa.length_der_le g

theorem length_accepts_curve {k : CurvePrivateKey} (h : (curve k).Accepts m s) :
    s.length ≤ 72 := by
  obtain ⟨d, -, p, -, g, hg, -⟩ := accepts_curve_iff.mp h
  exact Ecdsa.length_of_ofBytes? hg

theorem Decisive.accepts (h : Decisive a b) (hs : a.sign probe = .ok s) (hb : b.Accepts probe s) :
    ∃ s, b.sign probe = .ok s ∧ a.Accepts probe s := by
  cases a with
  | rsa k =>
    cases b with
    | rsa l =>
      obtain ⟨n, hn, hs⟩ := RsaPrivateKey.sign_eq_ok_iff.mp hs
      obtain ⟨n', hn', hb⟩ := accepts_rsa_iff.mp hb
      refine ⟨s, RsaPrivateKey.sign_eq_ok_iff.mpr ⟨n', hn', ?_⟩, accepts_rsa_iff.mpr ⟨n, hn, ?_⟩⟩
      · exact (h.2 n' hn').sign_eq_ok_iff_verify.mpr hb
      · exact (h.1 n hn).sign_eq_ok_iff_verify.mp hs
    | curve l =>
      exfalso
      obtain ⟨n, hn, hlength, hle⟩ := length_sign_rsa hs
      have hshort := length_accepts_curve hb
      have hgap := h n hn
      omega
  | curve k =>
    cases b with
    | rsa l =>
      exfalso
      obtain ⟨n, hn, hlength, hle⟩ := length_accepts_rsa hb
      have hshort := length_sign_curve hs
      have hgap := h n hn
      omega
    | curve l =>
      obtain ⟨x, y, hx, hy, hprobe⟩ := signed_accepted_curve_iff.mp ⟨s, hs, hb⟩
      obtain rfl : x = y := eq_of_probeAccepted (CurvePrivateKey.scalar_range hx).2
        (CurvePrivateKey.scalar_range hy).2 (fun hne ↦ (h x y hx hy hne).1) hprobe
      exact signed_accepted_curve_iff.mpr ⟨x, x, hy, hx, hprobe⟩

theorem Decisive.equal_of_equal (h : Decisive a b) (hequal : equal same a b = true) :
    equal same b a = true := by
  rcases equal_iff.mp hequal with hptr | ⟨s, hs, hb⟩
  · exact equal_iff.mpr (.inl hptr)
  · exact equal_iff.mpr (.inr (h.accepts hs hb))

theorem Decisive.data_eq_of_equal {k l : CurvePrivateKey} {x y : Bytes}
    (h : Decisive (curve k) (curve l)) (hsame : same = true → curve k = curve l)
    (hx : k.data = .ok x) (hy : l.data = .ok y)
    (hequal : equal same (curve k) (curve l) = true) : x = y := by
  obtain ⟨d, hd, rfl⟩ := Except.map_eq_ok_iff.mp hx
  obtain ⟨d', hd', rfl⟩ := Except.map_eq_ok_iff.mp hy
  rcases equal_iff.mp hequal with hptr | haccepted
  · cases hsame hptr
    rw [Except.ok.inj (hd.symm.trans hd')]
  · obtain ⟨d₁, d₂, h₁, h₂, hprobe⟩ := signed_accepted_curve_iff.mp haccepted
    obtain rfl := Except.ok.inj (hd.symm.trans h₁)
    obtain rfl := Except.ok.inj (hd'.symm.trans h₂)
    rw [eq_of_probeAccepted (CurvePrivateKey.scalar_range hd).2 (CurvePrivateKey.scalar_range hd').2
      (fun hne ↦ (h d d' hd hd' hne).1) hprobe]

/-- Equality of private keys does not depend on their order, and equal keys on the curve have one
scalar, where no signature of the probe stands for two keys. -/
theorem equal_symm_and_data_eq (same : Bool) (hsame : same = true → a = b) (h : Decisive a b) :
    equal same a b = equal same b a ∧
      ∀ k l x y, a = curve k → b = curve l → k.data = .ok x → l.data = .ok y →
        equal same a b = true → x = y := by
  constructor
  · rw [Bool.eq_iff_iff]
    exact ⟨h.equal_of_equal, h.symm.equal_of_equal⟩
  · rintro k l x y rfl rfl hx hy hequal
    exact h.data_eq_of_equal hsame hx hy hequal

theorem parse_curve {data : String} (h : data ≠ "") :
    PrivateKey.parse (CurveKey.membersOf data) = .ok (curve ⟨CurveKey.attributesOf data h⟩) := by
  have hattributes := (CurveKey.attributesOf data h).ofMembers_members
  change (CurvePrivateKey.ofMembers (CurveKey.attributesOf data h).members).map curve = _
  rw [CurvePrivateKey.ofMembers, hattributes]
  rfl

theorem scalar_of_bytes {k : CurvePrivateKey} {c : Bytes} (h : CurveKey.bytes k.attributes = .ok c)
    (hlength : c.length = 32) (hpos : 0 < c.toNat) (hlt : c.toNat < groupOrder) :
    k.scalar = .ok c.toNat := by
  refine Except.bind_eq_ok_iff.mpr ⟨c, h, ?_⟩
  rw [if_neg (not_not_intro hlength)]
  exact if_neg (by omega)

theorem parse_of_scalar {d : ℕ} (hpos : 0 < d) (hlt : d < groupOrder) :
    ∃ k, PrivateKey.parse (CurveKey.membersOf (Hexadecimal.encode (Bytes.ofNat 32 d))) =
      .ok (curve k) ∧ k.scalar = .ok d := by
  obtain ⟨c, hc⟩ : ∃ c, c = Bytes.ofNat 32 d := ⟨_, rfl⟩
  have hlength : c.length = 32 := hc ▸ Bytes.length_ofNat 32 d
  have hvalue : c.toNat = d := hc ▸ Bytes.toNat_ofNat_of_lt (hlt.trans (by decide))
  have hne : c ≠ [] := List.ne_nil_of_length_eq_add_one hlength
  subst hvalue
  rw [← hc]
  exact ⟨_, parse_curve (Hexadecimal.encode_ne_empty hne),
    scalar_of_bytes (CurveKey.bytes_of_encode rfl) hlength hpos hlt⟩

def probeDigest : ℕ := 0xca59217c9373b4505e7784116d7ae36658ec423ac5beacb7acad45998bbc79c4

theorem sha256_probe : Digest.sha256 probe = Bytes.ofNat 32 probeDigest := by
  rw [Digest.sha256_eq_digest]
  decide +kernel

theorem toNat_sha256_probe : (Digest.sha256 probe).toNat = probeDigest := by
  rw [sha256_probe]
  exact Bytes.toNat_ofNat_of_lt (by decide)

/-- The scalar signs the probe with these two numbers. -/
def Signs (x r s : ℕ) : Prop :=
  ∃ g, Ecdsa.sign x (Digest.sha256 probe) = some g ∧ g.r = r ∧ g.s = s

variable {x y r t : ℕ}

/-- How a scalar signs the probe: with its first nonce, of which the point and both numbers follow. -/
structure Signing (x r t : ℕ) where
  nonce : ℕ
  u : Coordinate
  v : Coordinate
  firstNonce_eq : Ecdsa.firstNonce x (Bytes.ofNat 32 probeDigest) = nonce
  nonce_pos : 0 < nonce
  nonce_lt : nonce < groupOrder
  point_eq : (Scaled.mul nonce .generator).toPoint = .affine u v
  numbers_eq : (Ecdsa.Signature.ofNumbers? (u.val % groupOrder)
    (Ecdsa.scalarInverse nonce * (probeDigest + u.val % groupOrder * x) % groupOrder)).map
      (fun g ↦ (g.normalize.r, g.normalize.s)) = some (r, t)

theorem Signing.signs (h : Signing x r t) : Signs x r t := by
  obtain ⟨g, hg, hpair⟩ := Option.map_eq_some_iff.mp h.numbers_eq
  obtain ⟨hr, ht⟩ := Prod.mk.inj hpair
  have hnonce := h.firstNonce_eq
  have hpoint := h.point_eq
  rw [← sha256_probe] at hnonce
  rw [← mul_generator] at hpoint
  refine ⟨g.normalize, ?_, hr, ht⟩
  rw [Ecdsa.sign_of_firstNonce hnonce h.nonce_pos h.nonce_lt hpoint, toNat_sha256_probe, hg,
    Option.map_some]

theorem Signs.apart (h : Signs x r t) (hr : fieldOrder ≤ groupOrder + r)
    (hlength : (Der.sequence [Der.integer r, Der.integer t]).length ≠ 64)
    (hmirror : ¬ groupOrder ∣ r * (x + y) + 2 * probeDigest) : Apart x y := by
  intro g hg
  obtain ⟨g', hg', rfl, rfl⟩ := h
  obtain rfl := Option.some.inj (hg.symm.trans hg')
  refine ⟨hr, hlength, ?_⟩
  rwa [Ecdsa.Mirrored, toNat_sha256_probe]

theorem Signs.probeAccepted (h : Signs x r t) (hpos : 0 < y) (hlt : y < groupOrder)
    (hr : fieldOrder ≤ groupOrder + r)
    (hlength : 64 < (Der.sequence [Der.integer r, Der.integer t]).length)
    (hmirror : groupOrder ∣ r * (x + y) + 2 * probeDigest) : ProbeAccepted x y := by
  obtain ⟨g, hg, rfl, rfl⟩ := h
  obtain ⟨p, hp⟩ := CurvePoint.exists_ofScalar? (Ecdsa.natCast_ne_zero_of_lt hpos hlt)
  refine ⟨g, p, g, hg, hp, Ecdsa.ofBytes?_der hlength, ?_⟩
  refine (Ecdsa.verify_sign_iff hg (CurvePoint.represents_of_ofScalar? hp) hr).mpr (.inr ?_)
  rwa [Ecdsa.Mirrored, toNat_sha256_probe]

def signingOne : Signing 1 0x416acc95c0957629b0a3a2d65e77ca9efeb315ec146b8ab67aed77d63594ba25
    0x2498dd53a70b763adaf3cff78bc8afaf70b4378b5e889e0c1ba583d455a20e17 where
  nonce := 0x8cb05c3dd82609ba7882bd37441ce579133ff69a512c5e64a0a805e6f1a69a07
  u := 0x416acc95c0957629b0a3a2d65e77ca9efeb315ec146b8ab67aed77d63594ba25
  v := 0xd0f178cece7ba18abf7fddc93bc174472efcd7ef797fe2867930fa6077b19e55
  firstNonce_eq := by decide +kernel
  nonce_pos := by decide
  nonce_lt := by decide
  point_eq := by decide +kernel
  numbers_eq := by decide +kernel

def signingTwo : Signing 2 0xce2ee38754b867129dda2233aea8a6eab0f6dd8054b973c5d5ae0454798f53b5
    0x3996f47015b333ff1630030ce6aed6618981144ca44a8f1aa175568f1afecafb where
  nonce := 0x51d85b6975c408d943e07405b4caa2a03a692418740b48f9a707a5939fb9e0c3
  u := 0xce2ee38754b867129dda2233aea8a6eab0f6dd8054b973c5d5ae0454798f53b5
  v := 0x72ef2d456ca2ad733b76ad0b3c149d600831fb06c809d5dc5dd0e8c8efc75f3
  firstNonce_eq := by decide +kernel
  nonce_pos := by decide
  nonce_lt := by decide
  point_eq := by decide +kernel
  numbers_eq := by decide +kernel

theorem equal_symm_and_data_eq_one_two : ∃ a b x y,
    PrivateKey.parse (CurveKey.membersOf (Hexadecimal.encode (Bytes.ofNat 32 1))) = .ok a ∧
      PrivateKey.parse (CurveKey.membersOf (Hexadecimal.encode (Bytes.ofNat 32 2))) = .ok b ∧
      a.data = .ok x ∧ b.data = .ok y ∧ Decisive a b ∧ equal false a b = equal false b a ∧
      (equal false a b = true → x = y) := by
  obtain ⟨k, ha, hk⟩ := parse_of_scalar (d := 1) (by decide) (by decide)
  obtain ⟨l, hb, hl⟩ := parse_of_scalar (d := 2) (by decide) (by decide)
  have hdecisive : Decisive (curve k) (curve l) := by
    intro x y hx hy _
    obtain rfl := Except.ok.inj (hk.symm.trans hx)
    obtain rfl := Except.ok.inj (hl.symm.trans hy)
    exact ⟨signingOne.signs.apart (by decide) (by decide) (by decide),
      signingTwo.signs.apart (by decide) (by decide) (by decide)⟩
  obtain ⟨hequal, hdata⟩ := equal_symm_and_data_eq false nofun hdecisive
  exact ⟨curve k, curve l, _, _, ha, hb, CurvePrivateKey.data_of_scalar hk,
    CurvePrivateKey.data_of_scalar hl, hdecisive, hequal, hdata k l _ _ rfl rfl
      (CurvePrivateKey.data_of_scalar hk) (CurvePrivateKey.data_of_scalar hl)⟩

/-- The scalar whose key accepts the signature of the scalar 1. -/
def mirrorScalar : ℕ := 0xcfb7a3acfee4b4f3ad7d971625f7800e8550a6dbb21aa9a7273675f97ddc6e9c

def signingMirrored : Signing mirrorScalar
    0x204ce0f38e726fa3cf2ef2c4fedd13fab1959a95a666a38a34ccaf415cb14b3c
    0x3948f51eff592b29c0b54f22c3fe6c77f97e9660a07084628df163ff8f1751d2 where
  nonce := 0x1a6a12009510b2f3df142e90b1703088038f8a04438c9370f906ee17a709d9dc
  u := 0x204ce0f38e726fa3cf2ef2c4fedd13fab1959a95a666a38a34ccaf415cb14b3c
  v := 0x1a971bc79db0dfb12ac5871eaeb24b0ac0e7f9e3af146c79913e429ba62dd836
  firstNonce_eq := by decide +kernel
  nonce_pos := by decide
  nonce_lt := by decide
  point_eq := by decide +kernel
  numbers_eq := by decide +kernel

/-- Keys of different scalars that are equal in one order and not in the other. -/
theorem equal_of_mirrored_scalar : ∃ a b x y,
    PrivateKey.parse (CurveKey.membersOf (Hexadecimal.encode (Bytes.ofNat 32 1))) = .ok a ∧
      PrivateKey.parse (CurveKey.membersOf (Hexadecimal.encode (Bytes.ofNat 32 mirrorScalar))) =
        .ok b ∧
      a.data = .ok x ∧ b.data = .ok y ∧ x ≠ y ∧ equal false a b = true ∧
      equal false b a = false := by
  obtain ⟨k, ha, hk⟩ := parse_of_scalar (d := 1) (by decide) (by decide)
  obtain ⟨l, hb, hl⟩ := parse_of_scalar (d := mirrorScalar) (by decide) (by decide)
  refine ⟨curve k, curve l, _, _, ha, hb, CurvePrivateKey.data_of_scalar hk,
    CurvePrivateKey.data_of_scalar hl, by decide, ?_, ?_⟩
  · have hprobe : ProbeAccepted 1 mirrorScalar :=
      signingOne.signs.probeAccepted (by decide) (by decide) (by decide) (by decide) (by decide)
    exact equal_iff.mpr (.inr (signed_accepted_curve_iff.mpr ⟨1, mirrorScalar, hk, hl, hprobe⟩))
  · rw [Bool.eq_false_iff, Ne, equal_iff]
    rintro (hptr | haccepted)
    · cases hptr
    · obtain ⟨x, y, hx, hy, hprobe⟩ := signed_accepted_curve_iff.mp haccepted
      obtain rfl := Except.ok.inj (hl.symm.trans hx)
      obtain rfl := Except.ok.inj (hk.symm.trans hy)
      exact absurd (eq_of_probeAccepted (by decide) (by decide) (fun _ ↦ signingMirrored.signs.apart
        (by decide) (by decide) (by decide)) hprobe) (by decide)

end PrivateKey

end MessagingIdentity

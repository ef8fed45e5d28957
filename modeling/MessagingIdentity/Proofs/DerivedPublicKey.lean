import MessagingIdentity.Key.Matching
import MessagingIdentity.Proofs.PublicKeyEquality

namespace MessagingIdentity

open PublicKey

theorem RsaPrivateKey.publicKey_eq_ok_iff {k : RsaPrivateKey} {l : RsaPublicKey} :
    k.publicKey = .ok l ↔ ∃ n, k.numbers = .ok n ∧ l.numbers? = some n.toPublic ∧
      l.attributes.members =
        RsaKey.membersOf (Pem.encode "PUBLIC KEY" n.toPublic.wrappedDer) := by
  refine Except.bind_eq_ok_iff.trans (exists_congr fun n ↦ and_congr_right fun _ ↦ ?_)
  refine Except.bind_eq_ok_iff.trans ⟨?_, ?_⟩
  · rintro ⟨a, ha, h⟩
    obtain rfl := Except.ok.inj h
    exact ⟨rfl, Attributes.ofMembers_eq_ok_iff.mp ha⟩
  · rintro ⟨hnumbers, hmembers⟩
    obtain ⟨a, numbers?⟩ := l
    obtain rfl : numbers? = some n.toPublic := hnumbers
    exact ⟨a, Attributes.ofMembers_eq_ok_iff.mpr hmembers, rfl⟩

theorem CurvePrivateKey.publicKey_eq_ok_iff {k : CurvePrivateKey} {l : CurvePublicKey} :
    k.publicKey = .ok l ↔ ∃ d, k.scalar = .ok d ∧ ∃ p, Secp256k1.CurvePoint.ofScalar? d = some p ∧
      l.point? = some p ∧
      l.attributes.members = CurveKey.membersOf (Hexadecimal.encode p.uncompressed) := by
  refine Except.bind_eq_ok_iff.trans (exists_congr fun d ↦ and_congr_right fun _ ↦ ?_)
  cases Secp256k1.CurvePoint.ofScalar? d with
  | none => exact iff_of_false nofun nofun
  | some p =>
    refine Except.bind_eq_ok_iff.trans ⟨?_, ?_⟩
    · rintro ⟨a, ha, h⟩
      obtain rfl := Except.ok.inj h
      exact ⟨p, rfl, rfl, Attributes.ofMembers_eq_ok_iff.mp ha⟩
    · rintro ⟨_, hp, hpoint, hmembers⟩
      obtain rfl := Option.some.inj hp
      obtain ⟨a, point?⟩ := l
      obtain rfl : point? = some p := hpoint
      exact ⟨a, Attributes.ofMembers_eq_ok_iff.mpr hmembers, rfl⟩

theorem RsaPublicKey.numbers_of_preset {k : RsaPublicKey} {n : Rsa.PublicKey}
    (h : k.numbers? = some n) : k.numbers = .ok n := by
  rw [numbers, h]

theorem CurvePublicKey.point_of_preset {k : CurvePublicKey} {p : Secp256k1.CurvePoint}
    (h : k.point? = some p) : k.point = .ok p := by
  rw [point, h]

theorem Attributes.algorithm_members (a : Attributes) : a.members.algorithm = .ok a.algorithm := by
  rw [Json.Members.algorithm, a.algorithm_eq]

theorem PublicKey.parse_members {a : Attributes} {f : PairFamily}
    (h : Registry.family Registry.pairDefaults a.algorithm = .ok f) :
    PublicKey.parse a.members = f.readPublic a.members := by
  rw [PublicKey.parse, Registry.readPublic, a.algorithm_members]
  change (do (← Registry.family Registry.pairDefaults a.algorithm).readPublic a.members) = _
  rw [h]
  rfl

theorem PublicKey.parse_rsa {a : Attributes} {data : String} (h : a.members = RsaKey.membersOf data) :
    PublicKey.parse a.members = .ok (rsa ⟨a, none⟩) := by
  have htag : a.algorithm = RsaKey.tag :=
    Option.some.inj (a.algorithm_eq.symm.trans (h ▸ rfl))
  have hfamily : Registry.family Registry.pairDefaults a.algorithm = .ok .rsa := by
    rw [htag]
    rfl
  rw [parse_members hfamily, PairFamily.readPublic, RsaPublicKey.ofMembers,
    Attributes.ofMembers_members]
  rfl

theorem PublicKey.parse_of_curve_family {a : Attributes}
    (h : Registry.family Registry.pairDefaults a.algorithm = .ok .curve) :
    PublicKey.parse a.members = .ok (curve ⟨a, none⟩) := by
  rw [parse_members h, PairFamily.readPublic, CurvePublicKey.ofMembers, Attributes.ofMembers_members]
  rfl

theorem PublicKey.parse_curve {a : Attributes} {data : String}
    (h : a.members = CurveKey.membersOf data) :
    PublicKey.parse a.members = .ok (curve ⟨a, none⟩) := by
  have htag : a.algorithm = CurveKey.tag :=
    Option.some.inj (a.algorithm_eq.symm.trans (h ▸ rfl))
  refine parse_of_curve_family ?_
  rw [htag]
  rfl

variable {a : Attributes}

theorem RsaPublicKey.numbers_of_bytes {b : Bytes} (hb : RsaKey.bytes a = .ok b) :
    (RsaPublicKey.mk a none).numbers =
      (Rsa.PublicKey.ofDer? b).elim (.error (.invalidData .rsaPublic)) .ok := by
  rw [numbers]
  dsimp only
  rw [hb]
  simp only [bind, Except.bind]
  cases Rsa.PublicKey.ofDer? b <;> rfl

theorem RsaPublicKey.numbers_of_armour {n : Rsa.PublicKey}
    (h : a.members = RsaKey.membersOf (Pem.encode "PUBLIC KEY" n.wrappedDer)) :
    (n.Fits → (RsaPublicKey.mk a none).numbers = .ok n) ∧
      (¬ n.Fits → (RsaPublicKey.mk a none).numbers = .error (.invalidData .rsaPublic)) := by
  have hdata : a.data = Pem.encode "PUBLIC KEY" n.wrappedDer :=
    Attributes.data_eq_of_members (h ▸ rfl)
  have hbytes : RsaKey.bytes a = .ok n.wrappedDer :=
    RsaKey.bytes_of_armour hdata (by decide) (by decide)
  rw [numbers_of_bytes hbytes]
  constructor
  · intro hfits
    rw [Rsa.PublicKey.ofDer?_wrappedDer.mpr ⟨hfits, rfl⟩]
    rfl
  · intro hlarge
    cases hread : Rsa.PublicKey.ofDer? n.wrappedDer with
    | none => rfl
    | some n' =>
      obtain ⟨hfits, rfl⟩ := Rsa.PublicKey.ofDer?_wrappedDer.mp hread
      exact absurd hfits hlarge

theorem CurvePublicKey.point_of_bytes {b : Bytes} (hb : CurveKey.bytes a = .ok b)
    (hlength : b.length ≠ 64) : (CurvePublicKey.mk a none).point =
      (Secp256k1.CurvePoint.ofBytes? b).elim (.error (.invalidData .curvePoint)) .ok := by
  rw [point]
  dsimp only
  rw [hb]
  simp only [bind, Except.bind, if_neg hlength]
  cases Secp256k1.CurvePoint.ofBytes? b <;> rfl

theorem CurvePublicKey.point_of_uncompressed {p : Secp256k1.CurvePoint}
    (h : a.members = CurveKey.membersOf (Hexadecimal.encode p.uncompressed)) :
    (CurvePublicKey.mk a none).point = .ok p := by
  have hdata : a.data = Hexadecimal.encode p.uncompressed :=
    Attributes.data_eq_of_members (h ▸ rfl)
  have hlength : p.uncompressed.length ≠ 64 := by
    rw [Secp256k1.CurvePoint.uncompressed, List.length_cons, p.length_coordinates]
    decide
  rw [point_of_bytes (CurveKey.bytes_of_encode hdata) hlength, p.ofBytes?_uncompressed]
  rfl

/-- A curve key, or an RSA key with a modulus that is not too large to be read. -/
def PublicKey.Fits : PublicKey → Prop
  | rsa k => ∀ n, k.numbers = .ok n → n.Fits
  | curve _ => True

theorem PublicKey.fits_rsa_iff {k : RsaPublicKey} {n : Rsa.PublicKey} (h : k.numbers = .ok n) :
    (rsa k).Fits ↔ n.Fits :=
  ⟨fun hk ↦ hk n h, fun hn _ hn' ↦ Except.ok.inj (h.symm.trans hn') ▸ hn⟩

/-- The second key is what is read from the attributes of the first: equal to it, and with the same
bytes and the same signatures if the first fits, else with none. -/
structure PublicKey.Reread (pk pk' : PublicKey) : Prop where
  parse_eq : PublicKey.parse pk.members = .ok pk'
  equal : pk'.equal pk = true
  data_of_fits : pk.Fits → pk'.data = pk.data
  verify_of_fits : pk.Fits → ∀ m signature, pk'.verify m signature = pk.verify m signature
  data_of_not_fits : ¬ pk.Fits → pk'.data = .error (.invalidData .rsaPublic)
  verify_of_not_fits : ¬ pk.Fits → ∀ m signature, pk'.verify m signature = false

theorem RsaPrivateKey.reread_publicKey {k : RsaPrivateKey} {l : RsaPublicKey}
    (h : k.publicKey = .ok l) : (PublicKey.rsa l).Reread (.rsa ⟨l.attributes, none⟩) := by
  obtain ⟨n, -, hpreset, hmembers⟩ := publicKey_eq_ok_iff.mp h
  have hnumbers := RsaPublicKey.numbers_of_preset hpreset
  obtain ⟨hread, hunread⟩ := RsaPublicKey.numbers_of_armour hmembers
  have hnone (hn : ¬ n.toPublic.Fits) :
      (PublicKey.rsa ⟨l.attributes, none⟩).data = .error (.invalidData .rsaPublic) := by
    rw [PublicKey.data, RsaPublicKey.data, hunread hn]
    rfl
  have hfits : (PublicKey.rsa l).Fits ↔ n.toPublic.Fits := fits_rsa_iff hnumbers
  refine ⟨parse_rsa hmembers, ?_, fun hl ↦ ?_, fun hl ↦ ?_, fun hl ↦ ?_, fun hl m signature ↦ ?_⟩
  · by_cases hn : n.toPublic.Fits
    · exact (equal_rsa_iff (hread hn) hnumbers).mpr rfl
    · rw [PublicKey.equal, hnone hn]
      exact (Bool.true_and _).trans (beq_self_eq_true l.attributes.data)
  · rw [RsaPublicKey.data_of_numbers (hread (hfits.mp hl)), RsaPublicKey.data_of_numbers hnumbers]
  · exact RsaPublicKey.verify_congr ((hread (hfits.mp hl)).trans hnumbers.symm)
  · exact hnone fun hn ↦ hl (hfits.mpr hn)
  · rw [PublicKey.verify, RsaPublicKey.verify, hunread fun hn ↦ hl (hfits.mpr hn)]

theorem CurvePrivateKey.reread_publicKey {k : CurvePrivateKey} {l : CurvePublicKey}
    (h : k.publicKey = .ok l) : (PublicKey.curve l).Reread (.curve ⟨l.attributes, none⟩) := by
  obtain ⟨-, -, p, -, hpreset, hmembers⟩ := publicKey_eq_ok_iff.mp h
  have hpoint := CurvePublicKey.point_of_preset hpreset
  have hread := CurvePublicKey.point_of_uncompressed hmembers
  refine ⟨parse_curve hmembers, (equal_curve_iff hread hpoint).mpr rfl, fun _ ↦ ?_, fun _ ↦ ?_,
    fun hfits ↦ absurd trivial hfits, fun hfits ↦ absurd trivial hfits⟩
  · rw [CurvePublicKey.data_of_point hread, CurvePublicKey.data_of_point hpoint]
  · exact CurvePublicKey.verify_congr (hread.trans hpoint.symm)

theorem PrivateKey.data_of_publicKey {k : PrivateKey} {pk : PublicKey} (h : k.publicKey = .ok pk) :
    ∃ b, pk.data = .ok b := by
  cases k with
  | rsa k =>
    obtain ⟨l, hl, rfl⟩ := Except.map_eq_ok_iff.mp h
    obtain ⟨n, -, hpreset, -⟩ := RsaPrivateKey.publicKey_eq_ok_iff.mp hl
    exact ⟨_, RsaPublicKey.data_of_numbers (RsaPublicKey.numbers_of_preset hpreset)⟩
  | curve k =>
    obtain ⟨l, hl, rfl⟩ := Except.map_eq_ok_iff.mp h
    obtain ⟨-, -, p, -, hpreset, -⟩ := CurvePrivateKey.publicKey_eq_ok_iff.mp hl
    exact ⟨_, CurvePublicKey.data_of_point (CurvePublicKey.point_of_preset hpreset)⟩

theorem PrivateKey.exists_reread {k : PrivateKey} {pk : PublicKey} (h : k.publicKey = .ok pk) :
    ∃ pk', pk.Reread pk' := by
  cases k with
  | rsa k =>
    obtain ⟨l, hl, rfl⟩ := Except.map_eq_ok_iff.mp h
    exact ⟨_, RsaPrivateKey.reread_publicKey hl⟩
  | curve k =>
    obtain ⟨l, hl, rfl⟩ := Except.map_eq_ok_iff.mp h
    exact ⟨_, CurvePrivateKey.reread_publicKey hl⟩

/-- The key that is read from the attributes of a derived public key equals it. It has the same
canonical bytes exactly if the modulus is not too large. If so it also accepts the same signatures,
else it accepts none. -/
theorem PrivateKey.parse_members_publicKey {k : PrivateKey} {pk : PublicKey}
    (h : k.publicKey = .ok pk) :
    ∃ pk' b, PublicKey.parse pk.members = .ok pk' ∧ pk'.equal pk = true ∧ pk.data = .ok b ∧
      (pk'.data = .ok b ↔ pk.Fits) ∧
      (pk.Fits → ∀ m signature, pk'.verify m signature = pk.verify m signature) ∧
      (¬ pk.Fits → ∀ m signature, pk'.verify m signature = false) := by
  obtain ⟨b, hb⟩ := data_of_publicKey h
  obtain ⟨pk', hread⟩ := exists_reread h
  refine ⟨pk', b, hread.parse_eq, hread.equal, hb, ?_, hread.verify_of_fits, hread.verify_of_not_fits⟩
  refine ⟨fun hb' ↦ ?_, fun hfits ↦ (hread.data_of_fits hfits).trans hb⟩
  by_contra hfits
  cases (hread.data_of_not_fits hfits).symm.trans hb'

def RsaKey.attributesOf (data : String) (h : data ≠ "") : Attributes :=
  ⟨membersOf data, tag, data, rfl, rfl, h⟩

theorem RsaPrivateKey.exists_publicKey {k : RsaPrivateKey} {n : Rsa.PrivateKey}
    (h : k.numbers = .ok n) : ∃ l, k.publicKey = .ok l := by
  have hne : Pem.encode "PUBLIC KEY" n.toPublic.wrappedDer ≠ "" := by
    intro hempty
    have hoccurs := Pem.occurs_encode "PUBLIC KEY" n.toPublic.wrappedDer
    rw [hempty] at hoccurs
    exact absurd hoccurs (by decide)
  exact ⟨⟨RsaKey.attributesOf _ hne, some n.toPublic⟩, publicKey_eq_ok_iff.mpr ⟨n, h, rfl, rfl⟩⟩

theorem RsaPrivateKey.numbers_of_bytes {k : RsaPrivateKey} {n : Rsa.PrivateKey} {der : Bytes}
    (hb : RsaKey.bytes k.attributes = .ok der) (h : Rsa.PrivateKey.ofDer? der = some n) :
    k.numbers = .ok n := by
  rw [numbers, hb]
  simp only [bind, Except.bind, h]
  rfl

theorem PrivateKey.parse_of_rsa_family {a : Attributes}
    (h : Registry.family Registry.pairDefaults a.algorithm = .ok .rsa) :
    PrivateKey.parse a.members = .ok (.rsa ⟨a⟩) := by
  rw [PrivateKey.parse, Registry.readPrivate, a.algorithm_members]
  change (do (← Registry.family Registry.pairDefaults a.algorithm).readPrivate a.members) = _
  rw [h]
  change (RsaPrivateKey.ofMembers a.members).map PrivateKey.rsa = _
  rw [RsaPrivateKey.ofMembers, Attributes.ofMembers_members]
  rfl

theorem PrivateKey.parse_of_der {n : Rsa.PrivateKey} {der : Bytes}
    (h : Rsa.PrivateKey.ofDer? der = some n) :
    ∃ k, PrivateKey.parse (RsaKey.membersOf (Base64.encode der)) = .ok (.rsa k) ∧
      k.numbers = .ok n := by
  have hne : Base64.encode der ≠ "" := by
    refine Base64.encode_ne_empty ?_
    rintro rfl
    cases h
  exact ⟨⟨RsaKey.attributesOf _ hne⟩, parse_of_rsa_family (a := RsaKey.attributesOf _ hne) rfl,
    RsaPrivateKey.numbers_of_bytes (RsaKey.bytes_of_encode rfl) h⟩

def smallNumbers : Rsa.PrivateKey where
  toPublic := ⟨PublicKey.sampleModulus, 3, by decide, by decide, by decide, by decide,
    by decide⟩
  exponent := (1 + 2 * (0xf753a1751ff80b0ac145b234aa36ac40d53161f7fae1e8551624dd9e162ff40a *
    0xd48c4bd63fcbb4e1387ddc7d3f65578d4c273222bc512ef346d89293462a2170)) / 3
  p := 0xf753a1751ff80b0ac145b234aa36ac40d53161f7fae1e8551624dd9e162ff40b
  q := 0xd48c4bd63fcbb4e1387ddc7d3f65578d4c273222bc512ef346d89293462a2171
  modulus_eq := by decide
  inverse_p := by decide
  inverse_q := by decide

def largeNumbers : Rsa.PrivateKey where
  toPublic := ⟨(Nat.pow 2 2048 + 3211) * (Nat.pow 2 2048 + 7405), 3, by decide +kernel, by decide,
    by decide, by decide, by decide +kernel⟩
  exponent := (1 + 2 * ((Nat.pow 2 2048 + 3210) * (Nat.pow 2 2048 + 7404))) / 3
  p := Nat.pow 2 2048 + 3211
  q := Nat.pow 2 2048 + 7405
  modulus_eq := by decide +kernel
  inverse_p := by decide +kernel
  inverse_q := by decide +kernel

theorem PrivateKey.exists_reread_of_numbers {n : Rsa.PrivateKey} {w : ℕ} (hw : w < 65536)
    (h : (n.coefficient?.any fun t ↦ (n.numbersWith t).all (· < Nat.pow 256 (w + 1))) = true) :
    ∃ der k pk pk' b, n.plainDer? = some der ∧
      PrivateKey.parse (RsaKey.membersOf (Base64.encode der)) = .ok k ∧ k.publicKey = .ok pk ∧
      pk.Reread pk' ∧ (pk.Fits ↔ n.toPublic.Fits) ∧ pk.data = .ok b := by
  obtain ⟨der, hder, hread⟩ := Rsa.PrivateKey.ofDer?_plainDer hw h
  obtain ⟨k, hk, hnumbers⟩ := parse_of_der hread
  obtain ⟨l, hl⟩ := RsaPrivateKey.exists_publicKey hnumbers
  obtain ⟨n', hn', hpreset, -⟩ := RsaPrivateKey.publicKey_eq_ok_iff.mp hl
  obtain rfl := Except.ok.inj (hn'.symm.trans hnumbers)
  have hpublic := RsaPublicKey.numbers_of_preset hpreset
  exact ⟨der, .rsa k, .rsa l, _, _, hder, hk, Except.map_eq_ok_iff.mpr ⟨l, hl, rfl⟩,
    RsaPrivateKey.reread_publicKey hl, fits_rsa_iff hpublic, RsaPublicKey.data_of_numbers hpublic⟩

theorem PrivateKey.parse_members_publicKey_small : ∃ der k pk pk' b,
    smallNumbers.plainDer? = some der ∧
      PrivateKey.parse (RsaKey.membersOf (Base64.encode der)) = .ok k ∧ k.publicKey = .ok pk ∧
      pk.Fits ∧ PublicKey.parse pk.members = .ok pk' ∧ pk'.equal pk = true ∧ pk.data = .ok b ∧
      pk'.data = .ok b ∧ ∀ m signature, pk'.verify m signature = pk.verify m signature := by
  obtain ⟨der, k, pk, -, -, hder, hk, hpk, -, hfits, -⟩ :=
    exists_reread_of_numbers (n := smallNumbers) (w := 127) (by decide) (by decide +kernel)
  have hfits : pk.Fits := hfits.mpr (by unfold Rsa.PublicKey.Fits; decide +kernel)
  obtain ⟨pk', b, hparse, hequal, hb, hdata, hverify, -⟩ := parse_members_publicKey hpk
  exact ⟨der, k, pk, pk', b, hder, hk, hpk, hfits, hparse, hequal, hb, hdata.mpr hfits, hverify hfits⟩

theorem PrivateKey.reread_large_refused : ∃ der k pk pk' b,
    largeNumbers.plainDer? = some der ∧
      PrivateKey.parse (RsaKey.membersOf (Base64.encode der)) = .ok k ∧ k.publicKey = .ok pk ∧
      PublicKey.parse pk.members = .ok pk' ∧ pk.data = .ok b ∧ pk'.data ≠ .ok b ∧
      ∀ m signature, pk'.verify m signature = false := by
  obtain ⟨der, k, pk, pk', b, hder, hk, hpk, hread, hfits, hb⟩ :=
    exists_reread_of_numbers (n := largeNumbers) (w := 1023) (by decide) (by decide +kernel)
  have hlarge : ¬ pk.Fits := fun h ↦ absurd (hfits.mp h) (by unfold Rsa.PublicKey.Fits; decide +kernel)
  refine ⟨der, k, pk, pk', b, hder, hk, hpk, hread.parse_eq, hb, ?_, hread.verify_of_not_fits hlarge⟩
  rw [hread.data_of_not_fits hlarge]
  exact nofun

end MessagingIdentity

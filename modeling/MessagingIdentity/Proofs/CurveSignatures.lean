import MessagingIdentity.Proofs.SignatureForms

namespace MessagingIdentity

open Secp256k1

namespace Der

variable {b c : Bytes} {n r s : ℕ}

/-- The content is the one that is allowed for a number: not empty, with a first bit of zero, and with
no zero byte in front that the first bit does not ask for. -/
structure IsInteger (c : Bytes) (n : ℕ) : Prop where
  toNat_eq : c.toNat = n
  ne_nil : c ≠ []
  head_lt : c.headD 0 < 128
  shortest : ∀ x rest, c = 0 :: x :: rest → 128 ≤ x

theorem isInteger_iff : IsInteger c n ↔ c = integerContent n := by
  rw [← natural?_eq_some_iff]
  constructor
  · intro h
    cases c with
    | nil => exact absurd rfl h.ne_nil
    | cons a c =>
      cases c with
      | nil =>
        have ha : a < 128 := h.head_lt
        rw [natural?, if_pos ha, ← Bytes.toNat_singleton, h.toNat_eq]
      | cons b c =>
        have hshort : ¬ (128 ≤ a ∨ a = 0 ∧ b < 128) := by
          rintro (hneg | ⟨rfl, hzero⟩)
          · exact UInt8.not_le.mpr h.head_lt hneg
          · exact UInt8.not_le.mpr hzero (h.shortest b c rfl)
        rw [natural?, if_neg hshort, h.toNat_eq]
  · intro h
    cases c with
    | nil => cases h
    | cons a c =>
      cases c with
      | nil =>
        rw [natural?] at h
        split at h
        next ha =>
          obtain rfl := Option.some.inj h
          refine ⟨Bytes.toNat_singleton a, List.cons_ne_nil _ _, ha, ?_⟩
          intro x rest hzero
          cases hzero
        · cases h
      | cons b c =>
        rw [natural?] at h
        split at h
        · cases h
        next hshort =>
          obtain rfl := Option.some.inj h
          refine ⟨rfl, List.cons_ne_nil _ _, ?_, ?_⟩
          · exact UInt8.not_le.mp fun hneg ↦ hshort (.inl hneg)
          · intro x rest hzero
            obtain ⟨rfl, hrest⟩ := List.cons.inj hzero
            obtain ⟨rfl, -⟩ := List.cons.inj hrest
            exact UInt8.not_lt.mp fun hx ↦ hshort (.inr ⟨rfl, hx⟩)

/-- The bytes are a sequence of two integers, with lengths of one byte. -/
def IsPair (b : Bytes) (r s : ℕ) : Prop :=
  ∃ x y, IsInteger x r ∧ IsInteger y s ∧ x.length + y.length < 124 ∧
    b = 0x30 :: (x.length + y.length + 4).toUInt8 ::
      (0x02 :: x.length.toUInt8 :: x ++ 0x02 :: y.length.toUInt8 :: y)

theorem integer_eq (h : (integerContent n).length < 128) :
    integer n = 0x02 :: (integerContent n).length.toUInt8 :: integerContent n := by
  rw [integer, element, lengthBytes_of_lt h]
  rfl

end Der

namespace Ecdsa

variable {secret nonce : ℕ} {digest : Bytes} {g : Signature} {p : CurvePoint}

theorem isPair_iff {b : Bytes} : Der.IsPair b g.r g.s ↔ b = g.der := by
  have hr := length_integerContent_le_of_lt g.r_lt
  have hs := length_integerContent_le_of_lt g.s_lt
  have hlength := length_numbers g
  have hder : g.der = 0x30 :: ((Der.integerContent g.r).length + (Der.integerContent g.s).length +
      4).toUInt8 :: (Der.integer g.r ++ Der.integer g.s) := by
    rw [der_eq, Der.element, Der.lengthBytes_of_lt (by omega), hlength]
    rfl
  rw [Der.integer_eq (by omega), Der.integer_eq (by omega)] at hder
  constructor
  · rintro ⟨x, y, hx, hy, -, rfl⟩
    obtain rfl := Der.isInteger_iff.mp hx
    obtain rfl := Der.isInteger_iff.mp hy
    exact hder.symm
  · rintro rfl
    exact ⟨_, _, Der.isInteger_iff.mpr rfl, Der.isInteger_iff.mpr rfl, by omega, hder⟩

/-- No signature comes of the nonces that are tried: none of them is in range, or with the one that is,
the first or the second number would be zero. That no more than 128 are tried is the model's bound;
without one the first case would be a loop that never ends. -/
def Degenerate (secret : ℕ) (digest : Bytes) : Prop :=
  ∀ nonce, (Nonces.start secret digest).next 128 = some nonce →
    ∀ x y, Point.mul nonce .generator = .affine x y →
      groupOrder ∣ x.val ∨ groupOrder ∣ digest.toNat + x.val * secret

theorem ofNumbers?_eq_none_iff {r s : ℕ} (hr : r < groupOrder) (hs : s < groupOrder) :
    Signature.ofNumbers? r s = none ↔ r = 0 ∨ s = 0 := by
  rw [Signature.ofNumbers?]
  split
  next h =>
    refine iff_of_false (Option.some_ne_none _) ?_
    omega
  next h =>
    refine iff_of_true rfl ?_
    omega

theorem signWith_eq_none_iff {x y : Coordinate} (hnonce : (nonce : ZMod groupOrder) ≠ 0)
    (hxy : Point.mul nonce .generator = .affine x y) : signWith secret nonce digest = none ↔
      groupOrder ∣ x.val ∨ groupOrder ∣ digest.toNat + x.val * secret := by
  have hsecond : scalarInverse nonce * (digest.toNat + x.val % groupOrder * secret) % groupOrder = 0 ↔
      groupOrder ∣ digest.toNat + x.val * secret := by
    rw [← Nat.dvd_iff_mod_eq_zero, ← ZMod.natCast_eq_zero_iff, ← ZMod.natCast_eq_zero_iff]
    simp only [Nat.cast_mul, Nat.cast_add, ZMod.natCast_mod]
    rw [natCast_scalarInverse, mul_eq_zero, or_iff_right (inv_ne_zero hnonce)]
  rw [signWith, hxy]
  dsimp only
  rw [Option.map_eq_none_iff, ofNumbers?_eq_none_iff (Nat.mod_lt _ (by decide))
    (Nat.mod_lt _ (by decide)), hsecond, ← Nat.dvd_iff_mod_eq_zero]

theorem sign_eq_none_iff : sign secret digest = none ↔ Degenerate secret digest := by
  rw [sign, Option.bind_eq_bind, Degenerate]
  cases hnext : (Nonces.start secret digest).next 128 with
  | none =>
    refine iff_of_true rfl ?_
    intro nonce hnonce
    cases hnonce
  | some nonce =>
    obtain ⟨hpos, hlt⟩ := next_range hnext
    have hnonce := natCast_ne_zero_of_lt hpos hlt
    obtain ⟨x, y, hxy⟩ := exists_mul_generator hnonce
    rw [Option.bind_some, signWith_eq_none_iff hnonce hxy]
    constructor
    · intro h nonce' hnonce' x' y' hxy'
      obtain rfl := Option.some.inj hnonce'
      obtain ⟨rfl, rfl⟩ := Point.affine.inj (hxy.symm.trans hxy')
      exact h
    · intro h
      exact h nonce rfl x y hxy

theorem negate_negate (g : Signature) : g.negate.negate = g := by
  have hs : groupOrder - (groupOrder - g.s) = g.s := Nat.sub_sub_self g.s_lt.le
  cases g
  simp only [Signature.negate, Signature.mk.injEq, true_and]
  exact hs

theorem normalize_negate (hlow : g.s ≤ groupOrder / 2) : g.negate.normalize = g := by
  have hhigh : groupOrder / 2 < g.negate.s := by
    have hvalue : g.negate.s = groupOrder - g.s := rfl
    have hodd : groupOrder = 2 * (groupOrder / 2) + 1 := by decide
    omega
  rw [Signature.normalize, if_pos hhigh, negate_negate]

theorem verify_normalize : verify p digest g.normalize = verify p digest g := by
  unfold verify
  rw [normalize_normalize]

theorem verify_of_signWith (hnonce : (nonce : ZMod groupOrder) ≠ 0)
    (h : signWith secret nonce digest = some g) (hp : Represents p.toPoint (secret • base)) :
    verify p digest g = true := by
  obtain ⟨u, v, hu, hru, hnormal, hproduct⟩ := signWith_spec hnonce h
  have hs0 : (g.s : ZMod groupOrder) ≠ 0 := natCast_ne_zero_of_lt g.s_pos g.s_lt
  have hsum := represents_sum hp (digest.toNat * scalarInverse g.s % groupOrder)
    (g.r * scalarInverse g.s % groupOrder)
  rw [verify_eq_true_iff hnormal]
  refine exists_residue hsum hu hnonce hru ?_
  rw [natCast_factor, ← div_eq_mul_inv, div_eq_iff hs0, div_eq_iff hs0, neg_mul]
  rcases hproduct with hproduct | hproduct
  · exact .inl hproduct.symm
  · exact .inr (by rw [hproduct, neg_neg])

theorem spec_of_sign (h : sign secret digest = some g) (hp : Represents p.toPoint (secret • base)) :
    g.s ≤ groupOrder / 2 ∧ verify p digest g = true ∧ verify p digest g.negate = true := by
  obtain ⟨nonce, hnonce, h⟩ := exists_signWith h
  obtain ⟨-, -, -, -, hnormal, -⟩ := signWith_spec hnonce h
  have hlow : g.s ≤ groupOrder / 2 := hnormal ▸ normalize_s_le g
  have hverify := verify_of_signWith hnonce h hp
  refine ⟨hlow, hverify, ?_⟩
  rw [← verify_normalize, normalize_negate hlow, hverify]

end Ecdsa

namespace CurvePrivateKey

variable {k : CurvePrivateKey} {d : ℕ}

theorem sign_eq_error_iff (hd : k.scalar = .ok d) (m : Bytes) :
    k.sign m = .error (.other .curveSigning) ↔ Ecdsa.Degenerate d (Digest.sha256 m) := by
  rw [← Ecdsa.sign_eq_none_iff, sign, Except.bind_eq_error_iff, hd]
  constructor
  · rintro (h | ⟨d', hd', h⟩)
    · cases h
    obtain rfl := Except.ok.inj hd'
    cases hs : Ecdsa.sign d (Digest.sha256 m) with
    | none => rfl
    | some g =>
      rw [hs] at h
      cases h
  · intro h
    refine .inr ⟨d, rfl, ?_⟩
    rw [h]
    rfl

/-- A key on the curve signs every message, except where the arithmetic of its one nonce gives no two
numbers. Its public key accepts what it signs in either form, and with the other sign of the second
number. -/
theorem sign_accepted_in_every_form (hd : k.scalar = .ok d) (m : Bytes) : ∃ l,
    k.publicKey = .ok l ∧
      (k.sign m = .error (.other .curveSigning) ∧ Ecdsa.Degenerate d (Digest.sha256 m) ∨
        ¬ Ecdsa.Degenerate d (Digest.sha256 m) ∧ ∃ b r s, k.sign m = .ok b ∧ Der.IsPair b r s ∧
          1 ≤ r ∧ r < groupOrder ∧ 1 ≤ s ∧ s ≤ groupOrder / 2 ∧
          l.verify m (Bytes.ofNat 32 r ++ Bytes.ofNat 32 s) = true ∧
          l.verify m (Bytes.ofNat 32 r ++ Bytes.ofNat 32 (groupOrder - s)) = true ∧
          (64 < b.length → l.verify m b = true)) := by
  obtain ⟨hpos, hlt⟩ := scalar_range hd
  obtain ⟨p, hp⟩ := CurvePoint.exists_ofScalar? (Ecdsa.natCast_ne_zero_of_lt hpos hlt)
  obtain ⟨l, hl, hpoint⟩ := exists_publicKey hd hp
  refine ⟨l, hl, ?_⟩
  cases hsign : Ecdsa.sign d (Digest.sha256 m) with
  | none =>
    have hdegenerate := Ecdsa.sign_eq_none_iff.mp hsign
    exact .inl ⟨(sign_eq_error_iff hd m).mpr hdegenerate, hdegenerate⟩
  | some g =>
    have hdegenerate : ¬ Ecdsa.Degenerate d (Digest.sha256 m) := by
      rw [← Ecdsa.sign_eq_none_iff, hsign]
      exact nofun
    obtain ⟨hlow, hverify, hnegate⟩ :=
      Ecdsa.spec_of_sign hsign (CurvePoint.represents_of_ofScalar? hp)
    refine .inr ⟨hdegenerate, g.der, g.r, g.s, sign_eq_ok_iff.mpr ⟨d, hd, g, hsign, rfl⟩,
      Ecdsa.isPair_iff.mpr rfl, g.r_pos, g.r_lt, g.s_pos, hlow, ?_, ?_, fun hlong ↦ ?_⟩
    · exact (CurvePublicKey.verify_raw hpoint m g).trans hverify
    · exact (CurvePublicKey.verify_raw hpoint m g.negate).trans hnegate
    · exact (CurvePublicKey.verify_of_read hpoint (Ecdsa.ofBytes?_der hlong)).trans hverify

theorem sign_accepted_in_every_form_one : ∃ k l b r s,
    PrivateKey.parse (CurveKey.membersOf (Hexadecimal.encode (Bytes.ofNat 32 1))) = .ok (.curve k) ∧
      k.publicKey = .ok l ∧ k.sign probe = .ok b ∧ Der.IsPair b r s ∧ 64 < b.length ∧
      l.verify probe (Bytes.ofNat 32 r ++ Bytes.ofNat 32 s) = true ∧
      l.verify probe (Bytes.ofNat 32 r ++ Bytes.ofNat 32 (groupOrder - s)) = true ∧
      l.verify probe b = true := by
  obtain ⟨k, hk, hd⟩ := PrivateKey.parse_of_scalar (d := 1) (by decide) (by decide)
  obtain ⟨g, hg, hr, hs⟩ := PrivateKey.signingOne.signs
  obtain ⟨l, hl, ⟨-, hdegenerate⟩ | ⟨-, b, r, s, hsign, hpair, -, -, -, -, hraw, hother, hder⟩⟩ :=
    sign_accepted_in_every_form hd probe
  · cases (Ecdsa.sign_eq_none_iff.mpr hdegenerate).symm.trans hg
  · have hgder : k.sign probe = .ok g.der := sign_eq_ok_iff.mpr ⟨1, hd, g, hg, rfl⟩
    obtain rfl := Except.ok.inj (hsign.symm.trans hgder)
    have hlong : 64 < g.der.length := by
      rw [Ecdsa.length_der, hr, hs]
      decide
    exact ⟨k, l, g.der, r, s, hk, hl, hsign, hpair, hlong, hraw, hother, hder hlong⟩

end CurvePrivateKey

end MessagingIdentity

import MessagingIdentity.Proofs.PointForms
import MessagingIdentity.Proofs.PrivateKeyEquality

namespace MessagingIdentity

open Secp256k1

namespace CurvePublicKey

variable {k : CurvePublicKey} {p : CurvePoint} {g : Ecdsa.Signature} {m s : Bytes}

theorem verify_of_read (hp : k.point = .ok p) (hs : Ecdsa.Signature.ofBytes? s = some g) :
    k.verify m s = Ecdsa.verify p (Digest.sha256 m) g := by
  rw [verify, hp, hs]

theorem verify_raw (hp : k.point = .ok p) (m : Bytes) (g : Ecdsa.Signature) :
    k.verify m g.raw = Ecdsa.verify p (Digest.sha256 m) g :=
  verify_of_read hp (Ecdsa.ofBytes?_eq_some_iff.mpr (.inl rfl))

theorem verify_short_iff (hp : k.point = .ok p) (hs : s.length ≤ 64) : k.verify m s = true ↔
    ∃ g : Ecdsa.Signature, g.raw = s ∧ Ecdsa.verify p (Digest.sha256 m) g = true := by
  rw [verify_eq_true_iff hp]
  refine exists_congr fun g ↦ and_congr_left fun _ ↦ ?_
  rw [Ecdsa.ofBytes?_eq_some_iff, or_iff_left fun h ↦ absurd h.1 (Nat.not_lt.mpr hs), eq_comm]

/-- The raw form of a signature is judged by its numbers. The other form, whose length depends on the
leading zeros of the numbers, is judged like it if it is longer, and refused if it is shorter; one of
the same length is taken for a raw form. -/
theorem verify_der_and_raw (hp : k.point = .ok p) (m : Bytes) (g : Ecdsa.Signature) :
    k.verify m g.raw = Ecdsa.verify p (Digest.sha256 m) g ∧
      g.der.length = (g.r.log2 + 1) / 8 + (g.s.log2 + 1) / 8 + 8 ∧
      (64 < g.der.length → k.verify m g.der = k.verify m g.raw) ∧
      (g.der.length < 64 → k.verify m g.der = false) ∧
      (g.der.length = 64 → (k.verify m g.der = true ↔ ∃ g' : Ecdsa.Signature, g'.raw = g.der ∧
        Ecdsa.verify p (Digest.sha256 m) g' = true)) := by
  refine ⟨verify_raw hp m g, Ecdsa.length_der g, fun hlong ↦ ?_, fun hshort ↦ ?_, fun hequal ↦ ?_⟩
  · rw [verify_raw hp, verify_of_read hp (Ecdsa.ofBytes?_der hlong)]
  · rw [Bool.eq_false_iff, Ne, verify_short_iff hp hshort.le]
    rintro ⟨g', hraw, -⟩
    exact absurd (hraw ▸ Ecdsa.length_raw g') hshort.ne
  · exact verify_short_iff hp hequal.le

end CurvePublicKey

theorem PublicKey.parse_of_point (p : CurvePoint) :
    ∃ k, PublicKey.parse (CurveKey.membersOf (Hexadecimal.encode p.uncompressed)) = .ok (curve k) ∧
      k.point = .ok p := by
  have hholds := CurveKey.holds_membersOf (Hexadecimal.shows_encode p.uncompressed)
  obtain ⟨k, hk, hp, -⟩ := parse_of_holds hholds (.inl p.uncompressed_mem_forms)
  exact ⟨k, hk, hp⟩

namespace CurvePublicKey

theorem represents_generator : Represents CurvePoint.generator.toPoint ((1 : ℕ) • base) := by
  rw [one_nsmul]
  exact represents_base

theorem verify_der_and_raw_one : ∃ k g,
    PublicKey.parse (CurveKey.membersOf (Hexadecimal.encode CurvePoint.generator.uncompressed)) =
        .ok (.curve k) ∧
      k.point = .ok .generator ∧ Ecdsa.sign 1 (Digest.sha256 probe) = some g ∧
      64 < g.der.length ∧ k.verify probe g.raw = true ∧
      k.verify probe g.der = true := by
  obtain ⟨k, hk, hp⟩ := PublicKey.parse_of_point .generator
  obtain ⟨g, hg, hr, hs⟩ := PrivateKey.signingOne.signs
  have hverify : Ecdsa.verify .generator (Digest.sha256 probe) g = true :=
    (Ecdsa.verify_sign_iff hg represents_generator (hr ▸ by decide)).mpr (.inl rfl)
  obtain ⟨hraw, hlength, hlong, -⟩ := verify_der_and_raw hp probe g
  have hlonger : 64 < g.der.length := by
    rw [hlength, hr, hs]
    decide
  exact ⟨k, g, hk, hp, hg, hlonger, hraw.trans hverify, (hlong hlonger).trans (hraw.trans hverify)⟩

/-- The signature of the probe with the scalar 1 and half of the group order, rounded up, as the nonce.
The abscissa of that multiple of the generator is short. -/
def shortSignature : Ecdsa.Signature where
  r := 0x3b78ce563f89a0ed9414f5aa28ad0d96d6795f9c63
  s := 0x6b4dbd06d918975f4310f766336d8cb1b0435a2fa92892b6cc2f043996345634
  r_pos := by decide
  r_lt := by decide
  s_pos := by decide
  s_lt := by decide

theorem signWith_half : Ecdsa.signWith 1 ((groupOrder + 1) / 2) (Digest.sha256 probe) =
    some shortSignature := by
  have hpoint : (Scaled.mul ((groupOrder + 1) / 2) .generator).toPoint =
      .affine 0x3b78ce563f89a0ed9414f5aa28ad0d96d6795f9c63
        0xc0c686408d517dfd67c2367651380d00d126e4229631fd03f8ff35eef1a61e3c := by decide +kernel
  rw [Ecdsa.signWith, mul_generator, hpoint, PrivateKey.toNat_sha256_probe]
  decide +kernel

theorem verify_short_der_refused : ∃ k,
    PublicKey.parse (CurveKey.membersOf (Hexadecimal.encode CurvePoint.generator.uncompressed)) =
        .ok (.curve k) ∧
      shortSignature.der.length = 59 ∧ k.verify probe shortSignature.raw = true ∧
      k.verify probe shortSignature.der = false := by
  obtain ⟨k, hk, hp⟩ := PublicKey.parse_of_point .generator
  have hlength : shortSignature.der.length = 59 := (Ecdsa.length_der _).trans (by decide)
  have hhalf : (((groupOrder + 1) / 2 : ℕ) : ZMod groupOrder) ≠ 0 :=
    Ecdsa.natCast_ne_zero_of_lt (by decide) (by decide)
  refine ⟨k, hk, hlength, ?_, ?_⟩
  · rw [verify_raw hp]
    exact (Ecdsa.verify_signWith_iff hhalf signWith_half represents_generator (by decide)).mpr
      (.inl rfl)
  · rw [Bool.eq_false_iff, Ne, verify_short_iff hp (hlength.trans_le (by decide))]
    rintro ⟨g, hraw, -⟩
    exact absurd ((hraw ▸ Ecdsa.length_raw g).symm.trans hlength) (by decide)

end CurvePublicKey

end MessagingIdentity

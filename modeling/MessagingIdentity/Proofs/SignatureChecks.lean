import MessagingIdentity.Curve.Ecdsa
import MessagingIdentity.Proofs.DerElements
import MessagingIdentity.Proofs.GeneratorMultiples
import MessagingIdentity.Proofs.PackedSha256

namespace MessagingIdentity

open Secp256k1

namespace Secp256k1

theorem CurvePoint.represents_of_ofScalar? {k : ℕ} {p : CurvePoint} (h : ofScalar? k = some p) :
    Represents p.toPoint (k • base) := by
  have hmul := represents_mul_base k
  rw [ofScalar?] at h
  split at h
  next => cases h
  next x y hxy =>
    rw [ofCoordinates?] at h
    split at h
    · obtain rfl := Option.some.inj h
      rwa [hxy] at hmul
    · cases h

theorem exists_mul_generator {k : ℕ} (hk : (k : ZMod groupOrder) ≠ 0) :
    ∃ x y, Point.mul k .generator = .affine x y := by
  have hmul := represents_mul_base k
  cases hxy : Point.mul k .generator with
  | infinity =>
    rw [hxy] at hmul
    exact absurd (hmul.unique .infinity) (nsmul_base_ne_zero hk)
  | affine x y => exact ⟨x, y, rfl⟩

theorem CurvePoint.exists_ofScalar? {k : ℕ} (hk : (k : ZMod groupOrder) ≠ 0) :
    ∃ p, ofScalar? k = some p := by
  obtain ⟨x, y, hxy⟩ := exists_mul_generator hk
  have hmul := represents_mul_base k
  rw [hxy] at hmul
  rw [ofScalar?, hxy]
  exact ⟨⟨x, y, hmul.equation⟩, dif_pos hmul.equation⟩

end Secp256k1

namespace Ecdsa

variable {secret nonce : ℕ} {digest : Bytes} {g : Signature} {p : CurvePoint}

theorem natCast_scalarInverse (k : ℕ) :
    (scalarInverse k : ZMod groupOrder) = (k : ZMod groupOrder)⁻¹ := by
  rw [scalarInverse, Modular.natCast_pow]
  by_cases hk : (k : ZMod groupOrder) = 0
  · rw [hk, inv_zero, zero_pow (by decide)]
  · refine eq_inv_of_mul_eq_one_left ?_
    rw [← pow_succ]
    exact ZMod.pow_card_sub_one_eq_one hk

theorem natCast_ne_zero_of_lt {n : ℕ} (hpos : 0 < n) (hlt : n < groupOrder) :
    (n : ZMod groupOrder) ≠ 0 := by
  rw [Ne, ZMod.natCast_eq_zero_iff]
  exact Nat.not_dvd_of_pos_of_lt hpos hlt

theorem next_range {fuel : ℕ} {ns : Nonces} {k : ℕ} (h : ns.next fuel = some k) :
    0 < k ∧ k < groupOrder := by
  induction fuel generalizing ns with
  | zero => cases h
  | succ fuel ih =>
    rw [Nonces.next] at h
    split at h
    next hk =>
      obtain rfl := Option.some.inj h
      exact hk
    next => exact ih h

theorem ofNumbers?_eq_some_iff {r s : ℕ} :
    Signature.ofNumbers? r s = some g ↔ g.r = r ∧ g.s = s := by
  rw [Signature.ofNumbers?]
  constructor
  · intro h
    split at h
    · obtain rfl := Option.some.inj h
      exact ⟨rfl, rfl⟩
    · cases h
  · rintro ⟨rfl, rfl⟩
    exact dif_pos ⟨g.r_pos, g.r_lt, g.s_pos, g.s_lt⟩

theorem normalize_r (g : Signature) : g.normalize.r = g.r := by
  rw [Signature.normalize]
  split <;> rfl

theorem normalize_s (g : Signature) :
    (g.normalize.s : ZMod groupOrder) = g.s ∨ (g.normalize.s : ZMod groupOrder) = -g.s := by
  rw [Signature.normalize]
  split
  · right
    have hs := g.s_lt
    rw [Signature.negate, Nat.cast_sub hs.le, ZMod.natCast_self, zero_sub]
  · exact .inl rfl

theorem normalize_s_le (g : Signature) : g.normalize.s ≤ groupOrder / 2 := by
  rw [Signature.normalize]
  split
  next hhigh =>
    have hvalue : g.negate.s = groupOrder - g.s := rfl
    have hodd : groupOrder = 2 * (groupOrder / 2) + 1 := by decide
    omega
  next hlow => exact Nat.not_lt.mp hlow

theorem normalize_normalize (g : Signature) : g.normalize.normalize = g.normalize := by
  rw [Signature.normalize, if_neg (Nat.not_lt.mpr (normalize_s_le g))]

/-- A signature belongs to the multiple of the generator whose abscissa it names, and to the scalar,
up to the sign. -/
theorem signWith_spec (hnonce : (nonce : ZMod groupOrder) ≠ 0)
    (h : signWith secret nonce digest = some g) : ∃ u v : Coordinate,
      Represents (.affine u v) (nonce • base) ∧ g.r = u.val % groupOrder ∧ g.normalize = g ∧
        ((nonce * g.s : ZMod groupOrder) = digest.toNat + g.r * secret ∨
          (nonce * g.s : ZMod groupOrder) = -(digest.toNat + g.r * secret)) := by
  have hmul := represents_mul_base nonce
  rw [signWith] at h
  split at h
  next => cases h
  next u v huv =>
    rw [huv] at hmul
    obtain ⟨g', hg', rfl⟩ := Option.map_eq_some_iff.mp h
    obtain ⟨hr, hs⟩ := ofNumbers?_eq_some_iff.mp hg'
    have hproduct : (nonce * g'.s : ZMod groupOrder) = digest.toNat + g'.r * secret := by
      rw [hs, ZMod.natCast_mod, Nat.cast_mul, natCast_scalarInverse, mul_inv_cancel_left₀ hnonce,
        Nat.cast_add, Nat.cast_mul, hr]
    refine ⟨u, v, hmul, (normalize_r g').trans hr, normalize_normalize g', ?_⟩
    rw [normalize_r, ← hproduct, ← mul_neg]
    exact (normalize_s g').imp (congrArg _) (congrArg _)

theorem exists_signWith (h : sign secret digest = some g) :
    ∃ nonce : ℕ, (nonce : ZMod groupOrder) ≠ 0 ∧ signWith secret nonce digest = some g := by
  rw [sign, Option.bind_eq_bind] at h
  obtain ⟨nonce, hnonce, h⟩ := Option.bind_eq_some_iff.mp h
  obtain ⟨hpos, hlt⟩ := next_range hnonce
  exact ⟨nonce, natCast_ne_zero_of_lt hpos hlt, h⟩

def firstNonce (secret : ℕ) (digest : Bytes) : ℕ :=
  let material := Bytes.ofNat 32 secret ++ digest
  let key := Digest.hmacDigest (List.replicate 32 0) (List.replicate 32 1 ++ 0 :: material)
  let value := Digest.hmacDigest key (List.replicate 32 1)
  let key' := Digest.hmacDigest key (value ++ 1 :: material)
  let value' := Digest.hmacDigest key' value
  Bytes.toNat (Digest.hmacDigest key' value')

theorem next_start (h : firstNonce secret digest = nonce) (hpos : 0 < nonce)
    (hlt : nonce < groupOrder) (fuel : ℕ) :
    (Nonces.start secret digest).next (fuel + 1) = some nonce := by
  have hvalue : Bytes.toNat (Digest.hmacSha256 (Nonces.start secret digest).key
      (Nonces.start secret digest).value) = nonce := by
    simp only [Nonces.start, Nonces.mix, Digest.hmacSha256_eq_digest]
    exact h
  rw [Nonces.next, hvalue]
  exact if_pos ⟨hpos, hlt⟩

theorem sign_of_firstNonce {u v : Coordinate} (hnonce : firstNonce secret digest = nonce)
    (hpos : 0 < nonce) (hlt : nonce < groupOrder)
    (hpoint : Point.mul nonce .generator = .affine u v) : sign secret digest =
      (Signature.ofNumbers? (u.val % groupOrder) (scalarInverse nonce *
        (digest.toNat + u.val % groupOrder * secret) % groupOrder)).map Signature.normalize := by
  rw [sign, next_start hnonce hpos hlt, Option.bind_eq_bind, Option.bind_some, signWith, hpoint]

variable {x y : ℕ}

theorem val_mod_eq_iff {r : ℕ} (hr : fieldOrder ≤ groupOrder + r) (hlt : r < groupOrder)
    (u : Coordinate) : u.val % groupOrder = r ↔ u.val = r := by
  have hu := u.isLt
  constructor
  · intro h
    have hsplit := Nat.div_add_mod u.val groupOrder
    rcases Nat.eq_zero_or_pos (u.val / groupOrder) with hzero | hpos
    · rw [hzero, h] at hsplit
      omega
    · have := Nat.le_mul_of_pos_right groupOrder hpos
      omega
  · intro h
    rw [h, Nat.mod_eq_of_lt hlt]

theorem verify_eq_true_iff (hnormal : g.normalize = g) : verify p digest g = true ↔
    ∃ u v, Point.add (Point.mul (digest.toNat * scalarInverse g.s % groupOrder) .generator)
      (Point.mul (g.r * scalarInverse g.s % groupOrder) p.toPoint) = .affine u v ∧
        u.val % groupOrder = g.r := by
  unfold verify
  rw [hnormal]
  dsimp only
  cases Point.add (Point.mul (digest.toNat * scalarInverse g.s % groupOrder) .generator)
      (Point.mul (g.r * scalarInverse g.s % groupOrder) p.toPoint) with
  | infinity => simp
  | affine u v => simp

theorem represents_sum (hp : Represents p.toPoint (y • base)) (a b : ℕ) :
    Represents (Point.add (Point.mul a .generator) (Point.mul b p.toPoint))
      ((a + b * y) • base) := by
  rw [add_nsmul, mul_comm b, mul_nsmul]
  exact (represents_mul_base a).add (hp.mul b)

/-- A multiple of the generator, or its mirror, has the residue of that multiple. -/
theorem exists_residue {P : Point} {k t r : ℕ} {u v : Coordinate} (hP : Represents P (t • base))
    (hu : Represents (.affine u v) (k • base)) (hk : (k : ZMod groupOrder) ≠ 0)
    (hru : r = u.val % groupOrder) (ht : (t : ZMod groupOrder) = k ∨ (t : ZMod groupOrder) = -k) :
    ∃ x y, P = .affine x y ∧ x.val % groupOrder = r := by
  cases P with
  | infinity =>
    have ht0 : (t : ZMod groupOrder) ≠ 0 := by
      rcases ht with ht | ht <;> rw [ht]
      exacts [hk, neg_ne_zero.mpr hk]
    exact absurd (hP.unique .infinity) (nsmul_base_ne_zero ht0)
  | affine x y =>
    obtain rfl := (abscissa_eq_iff hP hu).mpr ht
    exact ⟨x, y, rfl, hru.symm⟩

/-- A point has the residue of a multiple of the generator exactly if it is that multiple or its
mirror, where the residue is that of one coordinate only. -/
theorem residue_eq_iff {P : Point} {k t r : ℕ} {u v : Coordinate} (hP : Represents P (t • base))
    (hu : Represents (.affine u v) (k • base)) (hk : (k : ZMod groupOrder) ≠ 0)
    (hru : r = u.val % groupOrder) (hr : fieldOrder ≤ groupOrder + r) :
    (∃ x y, P = .affine x y ∧ x.val % groupOrder = r) ↔
      (t : ZMod groupOrder) = k ∨ (t : ZMod groupOrder) = -k := by
  have hlt : r < groupOrder := hru.trans_lt (Nat.mod_lt _ (by decide))
  have huval : u.val = r := (val_mod_eq_iff hr hlt u).mp hru.symm
  refine ⟨?_, exists_residue hP hu hk hru⟩
  rintro ⟨x, y, rfl, hxr⟩
  exact (abscissa_eq_iff hP hu).mp (Fin.ext (((val_mod_eq_iff hr hlt x).mp hxr).trans huval.symm))

theorem natCast_factor (z r s : ℕ) :
    ((z * scalarInverse s % groupOrder + r * scalarInverse s % groupOrder * y : ℕ) :
      ZMod groupOrder) = (z + r * y) * (s : ZMod groupOrder)⁻¹ := by
  rw [Nat.cast_add, Nat.cast_mul, ZMod.natCast_mod, ZMod.natCast_mod, Nat.cast_mul, Nat.cast_mul,
    natCast_scalarInverse]
  ring

/-- Two scalars are mirrored by a signature of a digest if what is multiplied by the inverse of its
second number is opposite for them. -/
def Mirrored (x y : ℕ) (digest : Bytes) (g : Signature) : Prop :=
  groupOrder ∣ g.r * (x + y) + 2 * digest.toNat

theorem mirrored_iff : Mirrored x y digest g ↔
    (digest.toNat + g.r * y : ZMod groupOrder) = -(digest.toNat + g.r * x) := by
  rw [Mirrored, ← ZMod.natCast_eq_zero_iff, eq_neg_iff_add_eq_zero]
  refine Eq.congr_left ?_
  push_cast
  ring

/-- The key of the scalar `y` accepts a signature made with the scalar `x` if they are the same, or
mirrored by it. -/
theorem verify_signWith_iff (hnonce : (nonce : ZMod groupOrder) ≠ 0)
    (h : signWith x nonce digest = some g) (hp : Represents p.toPoint (y • base))
    (hr : fieldOrder ≤ groupOrder + g.r) : verify p digest g = true ↔
      (y : ZMod groupOrder) = x ∨ Mirrored x y digest g := by
  obtain ⟨u, v, hu, hru, hnormal, hproduct⟩ := signWith_spec hnonce h
  have hr0 : (g.r : ZMod groupOrder) ≠ 0 := natCast_ne_zero_of_lt g.r_pos g.r_lt
  have hs0 : (g.s : ZMod groupOrder) ≠ 0 := natCast_ne_zero_of_lt g.s_pos g.s_lt
  have hsum := represents_sum hp (digest.toNat * scalarInverse g.s % groupOrder)
    (g.r * scalarInverse g.s % groupOrder)
  rw [verify_eq_true_iff hnormal, residue_eq_iff hsum hu hnonce hru hr, natCast_factor,
    ← div_eq_mul_inv, div_eq_iff hs0, div_eq_iff hs0, neg_mul]
  have hsame : (digest.toNat + g.r * y : ZMod groupOrder) = digest.toNat + g.r * x ↔
      (y : ZMod groupOrder) = x := by
    rw [add_right_inj, mul_right_inj' hr0]
  rcases hproduct with hproduct | hproduct
  · rw [hproduct, hsame, mirrored_iff]
  · rw [hproduct, neg_neg, hsame, mirrored_iff, or_comm]

theorem verify_sign_iff (h : sign x digest = some g) (hp : Represents p.toPoint (y • base))
    (hr : fieldOrder ≤ groupOrder + g.r) : verify p digest g = true ↔
      (y : ZMod groupOrder) = x ∨ Mirrored x y digest g := by
  obtain ⟨nonce, hnonce, h⟩ := exists_signWith h
  exact verify_signWith_iff hnonce h hp hr

open Der

variable {b : Bytes}

theorem length_integerContent_le_of_lt {n : ℕ} (h : n < groupOrder) :
    (integerContent n).length ≤ 33 :=
  length_integerContent_le (k := 31) (h.trans (by decide))

theorem der_eq (g : Signature) : g.der = element tagSequence (integer g.r ++ integer g.s) := by
  simp [Signature.der, Der.sequence]

theorem length_numbers (g : Signature) : (integer g.r ++ integer g.s).length =
    (integerContent g.r).length + (integerContent g.s).length + 4 := by
  have hr := length_integerContent_le_of_lt g.r_lt
  have hs := length_integerContent_le_of_lt g.s_lt
  rw [List.length_append, integer, integer, length_element_of_lt (by omega),
    length_element_of_lt (by omega)]
  omega

theorem length_numbers_le (g : Signature) : (integer g.r ++ integer g.s).length ≤ 70 := by
  have hr := length_integerContent_le_of_lt g.r_lt
  have hs := length_integerContent_le_of_lt g.s_lt
  rw [length_numbers]
  omega

theorem length_der (g : Signature) :
    g.der.length = (g.r.log2 + 1) / 8 + (g.s.log2 + 1) / 8 + 8 := by
  have hnumbers := length_numbers_le g
  rw [der_eq, length_element_of_lt (by omega), length_numbers, length_integerContent,
    length_integerContent]
  omega

theorem length_der_le (g : Signature) : g.der.length ≤ 72 := by
  have hnumbers := length_numbers_le g
  rw [der_eq, length_element_of_lt (by omega)]
  omega

theorem readable_of_lt {n : ℕ} (h : n < groupOrder) : Readable n :=
  (length_integerContent_le_of_lt h).trans_lt (by decide)

theorem ofDer?_eq_some_iff : Signature.ofDer? b = some g ↔ b = g.der := by
  rw [der_eq]
  refine Option.bind_eq_some_iff.trans ⟨?_, ?_⟩
  · rintro ⟨content, hcontent, hread⟩
    obtain ⟨⟨ns, rest⟩, hns, hmatch⟩ := Option.bind_eq_some_iff.mp hread
    obtain ⟨-, -, hb⟩ := only_eq_some_iff.mp hcontent
    obtain ⟨hlength, -, hnumbers⟩ := readNaturals_eq_some_iff.mp hns
    obtain ⟨r, s, rfl⟩ := List.length_eq_two.mp hlength
    cases rest with
    | cons x rest => cases hmatch
    | nil =>
      obtain ⟨rfl, rfl⟩ := ofNumbers?_eq_some_iff.mp hmatch
      rw [hb, hnumbers]
      simp
  · rintro rfl
    refine ⟨integer g.r ++ integer g.s, only_eq_some_iff.mpr ⟨by decide, ?_, rfl⟩, ?_⟩
    · exact (length_numbers_le g).trans_lt (by decide)
    · refine Option.bind_eq_some_iff.mpr ⟨([g.r, g.s], []), readNaturals_eq_some_iff.mpr ?_,
        ofNumbers?_eq_some_iff.mpr ⟨rfl, rfl⟩⟩
      simp [readable_of_lt g.r_lt, readable_of_lt g.s_lt]

theorem length_raw (g : Signature) : g.raw.length = 64 := by
  rw [Signature.raw, List.length_append, Bytes.length_ofNat, Bytes.length_ofNat]

theorem ofRaw?_eq_some_iff : Signature.ofRaw? b = some g ↔ b = g.raw := by
  rw [Signature.ofRaw?]
  constructor
  · intro h
    split at h
    next hlength =>
      obtain ⟨hr, hs⟩ := ofNumbers?_eq_some_iff.mp h
      have hhead : (b.take 32).length = 32 := List.length_take_of_le (by omega)
      have htail : (b.drop 32).length = 32 := by rw [List.length_drop, hlength]
      rw [Signature.raw, hr, hs, Bytes.ofNat_toNat_of_length hhead,
        Bytes.ofNat_toNat_of_length htail, List.take_append_drop]
    next => cases h
  · intro h
    have hvalue {n : ℕ} (hn : n < groupOrder) : Bytes.toNat (Bytes.ofNat 32 n) = n :=
      Bytes.toNat_ofNat_of_lt (hn.trans (by decide))
    rw [h, if_pos (length_raw g), ofNumbers?_eq_some_iff, Signature.raw,
      List.take_left' (Bytes.length_ofNat 32 g.r), List.drop_left' (Bytes.length_ofNat 32 g.r),
      hvalue g.r_lt, hvalue g.s_lt]
    exact ⟨rfl, rfl⟩

theorem ofBytes?_eq_some_iff :
    Signature.ofBytes? b = some g ↔ b = g.raw ∨ 64 < b.length ∧ b = g.der := by
  rw [Signature.ofBytes?]
  split
  next hlong =>
    have hraw : b ≠ g.raw := fun h ↦ absurd (length_raw g) (h ▸ hlong).ne'
    rw [ofDer?_eq_some_iff, or_iff_right hraw, and_iff_right hlong]
  next hshort => rw [ofRaw?_eq_some_iff, or_iff_left fun h ↦ hshort h.1]

theorem ofBytes?_der (h : 64 < g.der.length) : Signature.ofBytes? g.der = some g :=
  ofBytes?_eq_some_iff.mpr (.inr ⟨h, rfl⟩)

theorem eq_of_ofBytes?_der {g' : Signature} (hlength : g.der.length ≠ 64)
    (h : Signature.ofBytes? g.der = some g') : g' = g := by
  rcases ofBytes?_eq_some_iff.mp h with hraw | ⟨-, hder⟩
  · exact absurd (hraw ▸ length_raw g') hlength
  · exact Option.some.inj ((ofDer?_eq_some_iff.mpr hder).symm.trans (ofDer?_eq_some_iff.mpr rfl))

theorem length_of_ofBytes? (h : Signature.ofBytes? b = some g) : b.length ≤ 72 := by
  rcases ofBytes?_eq_some_iff.mp h with h | ⟨-, h⟩
  · rw [h, length_raw]
    decide
  · exact h ▸ length_der_le g

end Ecdsa

end MessagingIdentity

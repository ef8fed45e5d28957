import MessagingIdentity.Proofs.CurveGroup

namespace MessagingIdentity.Secp256k1

theorem two_ne_zero_of_field : (2 : ZMod fieldOrder) ≠ 0 := by
  exact_mod_cast natCast_ne_zero (n := 2) (by decide) (by decide)

/-- A point whose coordinates are fractions: the first over the square of `z`, the second over its
cube. Over zero it is the one at infinity. -/
structure Scaled where
  x : Coordinate
  y : Coordinate
  z : Coordinate

namespace Scaled

def toPoint (P : Scaled) : Point :=
  if P.z = 0 then .infinity
  else .affine (P.x * (P.z * P.z).inverse) (P.y * (P.z * P.z * P.z).inverse)

def ofPoint : Point → Scaled
  | .infinity => ⟨0, 1, 0⟩
  | .affine x y => ⟨x, y, 1⟩

def double (P : Scaled) : Scaled :=
  let w := 2 * P.y * P.y
  let s := 2 * P.x * w
  let m := 3 * P.x * P.x
  let x := m * m - s - s
  ⟨x, m * (s - x) - 2 * w * w, 2 * P.y * P.z⟩

/-- The sum with a point of given coordinates; where the two have one abscissa, it is left to the
addition of points. -/
def addAffine (P : Scaled) (u v : Coordinate) : Scaled :=
  let h := u * (P.z * P.z) - P.x
  if P.z = 0 ∨ h = 0 then ofPoint (P.toPoint.add (.affine u v))
  else
    let r := v * (P.z * P.z * P.z) - P.y
    let s := P.x * h * h
    let x := r * r - h * h * h - s - s
    ⟨x, r * (s - x) - P.y * h * h * h, P.z * h⟩

def mulAux (u v : Coordinate) : ℕ → ℕ → Scaled
  | 0, _ => ofPoint .infinity
  | fuel + 1, k =>
    let r := (mulAux u v fuel (k / 2)).double
    if k % 2 = 1 then r.addAffine u v else r

def mul (k : ℕ) (p : CurvePoint) : Scaled := mulAux p.x p.y (k.log2 + 1) k

theorem toPoint_of_eq_zero {P : Scaled} (h : P.z = 0) : P.toPoint = .infinity := if_pos h

theorem toPoint_of_ne_zero {P : Scaled} (h : P.z ≠ 0) : P.toPoint =
    .affine (P.x * (P.z * P.z).inverse) (P.y * (P.z * P.z * P.z).inverse) := if_neg h

theorem toPoint_double (P : Scaled) : P.double.toPoint = Point.add P.toPoint P.toPoint := by
  have hz' : toField P.double.z = 2 * toField P.y * toField P.z := by
    rw [double, toField_mul, toField_mul, toField_two]
  by_cases hz : P.z = 0
  · have hzero : P.double.z = 0 := by
      rw [← toField_eq_zero_iff, hz', hz, toField_zero, mul_zero]
    rw [toPoint_of_eq_zero hz, toPoint_of_eq_zero hzero]
    rfl
  have hZ : toField P.z ≠ 0 := mt toField_eq_zero_iff.mp hz
  have hdouble : P.y * (P.z * P.z * P.z).inverse = -(P.y * (P.z * P.z * P.z).inverse) ↔
      P.double.z = 0 := by
    rw [← toField_eq_zero_iff, hz', ← toField_injective.eq_iff, toField_neg, toField_mul,
      toField_inverse, toField_mul, toField_mul, eq_neg_iff_add_eq_zero, ← two_mul, ← mul_assoc]
    simp [hZ, two_ne_zero_of_field]
  rw [toPoint_of_ne_zero hz, Point.add, if_pos rfl]
  by_cases hzero : P.double.z = 0
  · rw [if_pos (hdouble.mpr hzero), toPoint_of_eq_zero hzero]
  · have hY : toField P.y ≠ 0 := by
      intro hY
      rw [← toField_eq_zero_iff, hz', hY, mul_zero, zero_mul] at hzero
      exact hzero rfl
    have h2 := two_ne_zero_of_field
    rw [if_neg (mt hdouble.mp hzero), toPoint_of_ne_zero hzero, Point.third]
    refine congrArg₂ Point.affine (toField_injective ?_) (toField_injective ?_)
    · rw [double]
      simp only [toField_mul, toField_sub, toField_inverse, toField_two, toField_three]
      field_simp
    · rw [double]
      simp only [toField_mul, toField_sub, toField_inverse, toField_two, toField_three]
      field_simp

theorem toPoint_ofPoint (P : Point) : (ofPoint P).toPoint = P := by
  cases P with
  | infinity => exact toPoint_of_eq_zero rfl
  | affine x y =>
    have hone : (1 : Coordinate) ≠ 0 := by decide
    have hinverse : Coordinate.inverse 1 = 1 :=
      toField_injective ((toField_inverse 1).trans inv_one)
    rw [ofPoint, toPoint_of_ne_zero hone]
    simp only [mul_one, hinverse]

theorem toPoint_addAffine (P : Scaled) (u v : Coordinate) :
    (P.addAffine u v).toPoint = Point.add P.toPoint (.affine u v) := by
  rw [addAffine]
  dsimp only
  split
  next => exact toPoint_ofPoint _
  next h =>
    obtain ⟨hz, hh⟩ := not_or.mp h
    have hZ : toField P.z ≠ 0 := mt toField_eq_zero_iff.mp hz
    have hH : toField u * (toField P.z * toField P.z) - toField P.x ≠ 0 := by
      rwa [← toField_mul, ← toField_mul, ← toField_sub, Ne, toField_eq_zero_iff]
    have hsum : P.z * (u * (P.z * P.z) - P.x) ≠ 0 := by
      rw [Ne, ← toField_eq_zero_iff, toField_mul, toField_sub, toField_mul, toField_mul]
      exact mul_ne_zero hZ hH
    have hxu : P.x * (P.z * P.z).inverse ≠ u := by
      rintro rfl
      rw [toField_mul, toField_inverse, toField_mul, inv_mul_cancel_right₀ (mul_ne_zero hZ hZ),
        sub_self] at hH
      exact hH rfl
    rw [toPoint_of_ne_zero hsum, toPoint_of_ne_zero hz, Point.add, if_neg hxu, Point.third]
    -- The abscissa of the second point in terms of its distance to that of the first one.
    generalize hdistance : toField u * (toField P.z * toField P.z) - toField P.x = d at hH
    have hu : toField u = (d + toField P.x) / (toField P.z * toField P.z) := by
      rw [← hdistance, sub_add_cancel, mul_div_cancel_right₀ _ (mul_ne_zero hZ hZ)]
    have hrun : toField u - toField P.x * (toField P.z * toField P.z)⁻¹ =
        d * (toField P.z * toField P.z)⁻¹ := by
      rw [hu]
      field_simp
      ring
    refine congrArg₂ Point.affine (toField_injective ?_) (toField_injective ?_)
    · simp only [toField_mul, toField_sub, toField_inverse, hdistance, hrun]
      rw [hu]
      field_simp
      ring
    · simp only [toField_mul, toField_sub, toField_inverse, hdistance, hrun]
      rw [hu]
      field_simp
      ring

variable {u v : Coordinate} {g : Group}

theorem represents_mulAux (hg : Represents (.affine u v) g) (fuel : ℕ) {k : ℕ} (hk : k < 2 ^ fuel) :
    Represents (mulAux u v fuel k).toPoint (k • g) := by
  induction fuel generalizing k with
  | zero =>
    obtain rfl : k = 0 := by simpa using hk
    rw [zero_nsmul, mulAux, toPoint_ofPoint]
    exact .infinity
  | succ fuel ih =>
    have hhalf : k / 2 < 2 ^ fuel := by
      rw [pow_succ] at hk
      omega
    have hdouble := (ih hhalf).add (ih hhalf)
    rw [← toPoint_double, ← two_nsmul, ← mul_nsmul'] at hdouble
    rw [mulAux]
    split
    next hodd =>
      have hsplit : k • g = (2 * (k / 2)) • g + g := by
        conv_lhs => rw [← Nat.div_add_mod k 2, hodd, succ_nsmul]
      rw [toPoint_addAffine, hsplit]
      exact hdouble.add hg
    next heven =>
      have hk' : 2 * (k / 2) = k := by omega
      rwa [hk'] at hdouble

theorem toPoint_mul (k : ℕ) (p : CurvePoint) : (mul k p).toPoint = Point.mul k p.toPoint := by
  obtain ⟨g, hg⟩ := p.exists_represents
  exact (represents_mulAux hg _ Nat.lt_log2_self).eq (hg.mul k)

end Scaled

def CurvePoint.generator : CurvePoint :=
  ⟨0x79be667ef9dcbbac55a06295ce870b07029bfcdb2dce28d959f2815b16f81798,
    0x483ada7726a3c4655da4fbfc0e1108a8fd17b448a68554199c47d08ffb10d4b8, by decide⟩

theorem mul_generator (k : ℕ) : Point.mul k .generator = (Scaled.mul k .generator).toPoint :=
  (Scaled.toPoint_mul k .generator).symm

noncomputable def base : Group := CurvePoint.generator.exists_represents.choose

theorem represents_base : Represents .generator base :=
  CurvePoint.generator.exists_represents.choose_spec

theorem base_ne_zero : base ≠ 0 := by
  intro h
  have hbase := represents_base
  rw [h] at hbase
  cases hbase

theorem represents_mul_base (k : ℕ) : Represents (Point.mul k .generator) (k • base) :=
  represents_base.mul k

theorem mul_groupOrder : Point.mul groupOrder .generator = .infinity := by
  rw [mul_generator]
  decide +kernel

theorem addOrderOf_base : addOrderOf base = groupOrder := by
  have h := represents_mul_base groupOrder
  rw [mul_groupOrder] at h
  exact addOrderOf_eq_prime (h.unique .infinity) base_ne_zero

variable {P : Point} {x y u v : Coordinate} {a b : ℕ}

theorem nsmul_base_eq_iff : a • base = b • base ↔ (a : ZMod groupOrder) = b := by
  rw [nsmul_eq_nsmul_iff_modEq, addOrderOf_base, ZMod.natCast_eq_natCast_iff]

theorem nsmul_base_eq_neg_iff : a • base = -(b • base) ↔ (a : ZMod groupOrder) = -b := by
  rw [eq_neg_iff_add_eq_zero, ← add_nsmul, ← addOrderOf_dvd_iff_nsmul_eq_zero, addOrderOf_base,
    ← ZMod.natCast_eq_zero_iff, Nat.cast_add, eq_neg_iff_add_eq_zero]

theorem nsmul_base_ne_zero (ha : (a : ZMod groupOrder) ≠ 0) : a • base ≠ 0 := by
  intro h
  refine ha ?_
  rw [← Nat.cast_zero, ← nsmul_base_eq_iff, h, zero_nsmul]

theorem abscissa_eq_iff (ha : Represents (.affine x y) (a • base))
    (hb : Represents (.affine u v) (b • base)) :
    x = u ↔ (a : ZMod groupOrder) = b ∨ (a : ZMod groupOrder) = -b := by
  obtain ⟨hx, hg⟩ := ha.eq_some
  obtain ⟨hu, hh⟩ := hb.eq_some
  rw [← nsmul_base_eq_iff, ← nsmul_base_eq_neg_iff, hg, hh,
    ← WeierstrassCurve.Affine.Point.X_eq_iff, toField_injective.eq_iff]

end MessagingIdentity.Secp256k1

import MessagingIdentity.Proofs.CurveOrders
import Mathlib.AlgebraicGeometry.EllipticCurve.Affine.Point

namespace MessagingIdentity.Secp256k1

instance : Fact fieldOrder.Prime := ⟨prime_fieldOrder⟩

instance : Fact groupOrder.Prime := ⟨prime_groupOrder⟩

/-- A coordinate as an element of the field. -/
def toField (x : Coordinate) : ZMod fieldOrder := (x.val : ZMod fieldOrder)

theorem toField_add (x y : Coordinate) : toField (x + y) = toField x + toField y := by
  rw [toField, Fin.val_add, ZMod.natCast_mod, Nat.cast_add, toField, toField]

theorem toField_mul (x y : Coordinate) : toField (x * y) = toField x * toField y := by
  rw [toField, Fin.val_mul, ZMod.natCast_mod, Nat.cast_mul, toField, toField]

theorem toField_sub (x y : Coordinate) : toField (x - y) = toField x - toField y := by
  rw [eq_sub_iff_add_eq, ← toField_add, sub_add_cancel]

theorem toField_zero : toField 0 = 0 := Nat.cast_zero

theorem toField_neg (y : Coordinate) : toField (-y) = -toField y := by
  rw [eq_neg_iff_add_eq_zero, ← toField_add, neg_add_cancel, toField_zero]

theorem toField_two : toField 2 = 2 := by
  change ((2 : ℕ) : ZMod fieldOrder) = 2
  exact Nat.cast_ofNat

theorem toField_three : toField 3 = 3 := by
  change ((3 : ℕ) : ZMod fieldOrder) = 3
  exact Nat.cast_ofNat

theorem toField_seven : toField 7 = 7 := by
  change ((7 : ℕ) : ZMod fieldOrder) = 7
  exact Nat.cast_ofNat

theorem toField_injective : Function.Injective toField := by
  intro x y h
  have hmod := (ZMod.natCast_eq_natCast_iff' _ _ _).mp h
  rw [Nat.mod_eq_of_lt x.isLt, Nat.mod_eq_of_lt y.isLt] at hmod
  exact Fin.ext hmod

theorem toField_power (x : Coordinate) (e : ℕ) : toField (x.power e) = toField x ^ e := by
  rw [Coordinate.power, toField, Fin.val_ofNat, ZMod.natCast_mod, Modular.natCast_pow]
  rfl

theorem toField_inverse (x : Coordinate) : toField x.inverse = (toField x)⁻¹ := by
  rw [Coordinate.inverse, toField_power]
  by_cases hx : toField x = 0
  · rw [hx, inv_zero, zero_pow (by decide)]
  · refine eq_inv_of_mul_eq_one_left ?_
    rw [← pow_succ]
    exact ZMod.pow_card_sub_one_eq_one hx

theorem toField_eq_zero_iff {x : Coordinate} : toField x = 0 ↔ x = 0 := by
  rw [← toField_zero, toField_injective.eq_iff]

theorem toField_cubic (x : Coordinate) :
    toField (cubic x) = toField x * toField x * toField x + 7 := by
  rw [cubic, toField_add, toField_mul, toField_mul, toField_seven]

def curve : WeierstrassCurve.Affine (ZMod fieldOrder) := ⟨0, 0, 0, 0, 7⟩

abbrev Group : Type := curve.Point

theorem natCast_ne_zero {n : ℕ} (hpos : 0 < n) (hlt : n < fieldOrder) : (n : ZMod fieldOrder) ≠ 0 := by
  rw [Ne, ZMod.natCast_eq_zero_iff]
  exact Nat.not_dvd_of_pos_of_lt hpos hlt

theorem nonsingular_iff {x y : ZMod fieldOrder} :
    curve.Nonsingular x y ↔ y * y = x * x * x + 7 := by
  have hdiscriminant : curve.Δ ≠ 0 := by
    have hvalue : curve.Δ = -((21168 : ℕ) : ZMod fieldOrder) := by
      simp only [WeierstrassCurve.Δ, WeierstrassCurve.b₂, WeierstrassCurve.b₄, WeierstrassCurve.b₆,
        WeierstrassCurve.b₈, curve]
      push_cast
      ring
    rw [hvalue]
    exact neg_ne_zero.mpr (natCast_ne_zero (by decide) (by decide))
  rw [← WeierstrassCurve.Affine.equation_iff_nonsingular_of_Δ_ne_zero hdiscriminant,
    WeierstrassCurve.Affine.equation_iff]
  simp only [curve]
  constructor <;> intro h <;> linear_combination h

/-- The point has the coordinates of the group element. -/
inductive Represents : Point → Group → Prop
  | infinity : Represents .infinity 0
  | affine {x y : Coordinate} (h : curve.Nonsingular (toField x) (toField y)) :
    Represents (.affine x y) (.some _ _ h)

variable {P Q : Point} {g h : Group} {x y u v : Coordinate}

theorem negY_eq (x y : ZMod fieldOrder) : curve.negY x y = -y := by
  simp [WeierstrassCurve.Affine.negY, curve]

theorem Represents.unique (hP : Represents P g) (hQ : Represents P h) : g = h := by
  cases hP <;> cases hQ <;> rfl

/-- The construction of the third point is the one of the group law, if the slope is. -/
theorem represents_third {slope : Coordinate} {hx : curve.Nonsingular (toField x) (toField y)}
    {hu : curve.Nonsingular (toField u) (toField v)}
    (hne : ¬ (toField x = toField u ∧ toField y = curve.negY (toField u) (toField v)))
    (hslope : toField slope = curve.slope (toField x) (toField u) (toField y) (toField v)) :
    Represents (Point.third slope x y u) (.some _ _ hx + .some _ _ hu) := by
  have hX : curve.addX (toField x) (toField u)
      (curve.slope (toField x) (toField u) (toField y) (toField v)) =
        toField (slope * slope - x - u) := by
    rw [← hslope, toField_sub, toField_sub, toField_mul]
    simp only [WeierstrassCurve.Affine.addX, curve]
    ring
  have hY : curve.addY (toField x) (toField u) (toField y)
      (curve.slope (toField x) (toField u) (toField y) (toField v)) =
        toField (slope * (x - (slope * slope - x - u)) - y) := by
    rw [WeierstrassCurve.Affine.addY, negY_eq, WeierstrassCurve.Affine.negAddY, hX, ← hslope]
    simp only [toField_sub, toField_mul]
    ring
  have hsum := WeierstrassCurve.Affine.nonsingular_add hx hu hne
  rw [WeierstrassCurve.Affine.Point.add_some hne]
  simp only [hX, hY] at hsum ⊢
  exact .affine hsum

theorem Represents.add (hP : Represents P g) (hQ : Represents Q h) :
    Represents (P.add Q) (g + h) := by
  cases hP with
  | infinity => rwa [zero_add]
  | @affine x y hx =>
    cases hQ with
    | infinity =>
      rw [add_zero]
      exact .affine hx
    | @affine u v hu =>
      rw [Point.add]
      split
      next hxu =>
        split
        next hyv =>
          rw [WeierstrassCurve.Affine.Point.add_of_Y_eq (congrArg toField hxu)]
          · exact .infinity
          · rw [hyv, toField_neg, negY_eq]
        next hyv =>
          have hy : toField y ≠ curve.negY (toField u) (toField v) := by
            rw [negY_eq, ← toField_neg]
            exact fun h ↦ hyv (toField_injective h)
          refine represents_third (fun h ↦ hy h.2) ?_
          rw [WeierstrassCurve.Affine.slope_of_Y_ne (congrArg toField hxu) hy, toField_mul,
            toField_mul, toField_mul, toField_inverse, toField_mul, toField_two, toField_three, negY_eq]
          simp only [curve]
          rw [div_eq_mul_inv]
          ring
      next hxu =>
        have hne : toField x ≠ toField u := fun h ↦ hxu (toField_injective h)
        refine represents_third (fun h ↦ hne h.1) ?_
        rw [WeierstrassCurve.Affine.slope_of_X_ne hne, toField_mul, toField_inverse, toField_sub,
          toField_sub, div_eq_mul_inv, ← neg_sub (toField u), ← neg_sub (toField v), inv_neg,
          neg_mul_neg]

theorem Represents.mulAux (fuel : ℕ) {k : ℕ} (hk : k < 2 ^ fuel) (hP : Represents P g) :
    Represents (Point.mulAux fuel k P) (k • g) := by
  induction fuel generalizing k P g with
  | zero =>
    obtain rfl : k = 0 := by simpa using hk
    rw [zero_nsmul]
    exact .infinity
  | succ fuel ih =>
    have hhalf : k / 2 < 2 ^ fuel := by
      rw [pow_succ] at hk
      omega
    have hdouble := ih hhalf (hP.add hP)
    rw [← two_nsmul, ← mul_nsmul] at hdouble
    simp only [Point.mulAux]
    split
    next hodd =>
      have hsplit : k • g = g + (2 * (k / 2)) • g := by
        conv_lhs => rw [← Nat.div_add_mod k 2, hodd, succ_nsmul']
      rw [hsplit]
      exact hP.add hdouble
    next heven =>
      have hk' : 2 * (k / 2) = k := by omega
      rwa [hk'] at hdouble

theorem Represents.mul (k : ℕ) (hP : Represents P g) : Represents (Point.mul k P) (k • g) :=
  hP.mulAux _ Nat.lt_log2_self

theorem CurvePoint.exists_represents (p : CurvePoint) : ∃ g, Represents p.toPoint g := by
  have h : curve.Nonsingular (toField p.x) (toField p.y) := by
    rw [nonsingular_iff, ← toField_mul, p.equation, toField_cubic]
  exact ⟨.some _ _ h, .affine h⟩

theorem Represents.eq_some (h : Represents (.affine x y) g) :
    ∃ hxy : curve.Nonsingular (toField x) (toField y), g = .some _ _ hxy := by
  cases h with
  | affine hxy => exact ⟨hxy, rfl⟩

theorem Represents.equation (h : Represents (.affine x y) g) : y * y = cubic x := by
  obtain ⟨hxy, -⟩ := h.eq_some
  refine toField_injective ?_
  rw [toField_mul, toField_cubic, nonsingular_iff.mp hxy]

theorem Represents.eq (hP : Represents P g) (hQ : Represents Q g) : P = Q := by
  cases hP with
  | infinity =>
    cases hQ with
    | infinity => rfl
  | @affine x y hx =>
    cases Q with
    | infinity => cases hQ.unique .infinity
    | affine u v =>
      obtain ⟨hu, h⟩ := hQ.eq_some
      obtain ⟨hxu, hyv⟩ := WeierstrassCurve.Affine.Point.some.inj h
      rw [toField_injective hxu, toField_injective hyv]

end MessagingIdentity.Secp256k1

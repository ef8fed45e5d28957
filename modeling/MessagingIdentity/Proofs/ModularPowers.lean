import MessagingIdentity.Arithmetic.Modular
import Mathlib.Data.ZMod.Basic
import Mathlib.FieldTheory.Finite.Basic

namespace MessagingIdentity.Modular

theorem powAux_eq (m fuel b e : ℕ) (h : e < 2 ^ fuel) : powAux m fuel b e = b ^ e % m := by
  induction fuel generalizing b e with
  | zero =>
    obtain rfl : e = 0 := by simpa using h
    rw [powAux, pow_zero]
  | succ fuel ih =>
    have hhalf : e / 2 < 2 ^ fuel := by
      rw [pow_succ] at h
      omega
    have hsquare : (b * b % m) ^ (e / 2) % m = b ^ (2 * (e / 2)) % m := by
      rw [← Nat.pow_mod, pow_mul, sq]
    simp only [powAux, ih _ _ hhalf, hsquare]
    split
    next hodd =>
      have he : e = 2 * (e / 2) + 1 := by omega
      conv_rhs => rw [he, pow_succ, Nat.mul_comm]
      rw [Nat.mul_mod_mod]
    next heven =>
      have he : e = 2 * (e / 2) := by omega
      conv_rhs => rw [he]

theorem pow_eq (b e m : ℕ) : pow b e m = b ^ e % m := by
  rw [pow, powAux_eq _ _ _ _ Nat.lt_log2_self, ← Nat.pow_mod]

theorem pow_lt (b e : ℕ) {m : ℕ} (hm : 0 < m) : pow b e m < m := by
  rw [pow_eq]
  exact Nat.mod_lt _ hm

theorem natCast_pow_of_dvd {r m : ℕ} (h : r ∣ m) (b e : ℕ) :
    ((pow b e m : ℕ) : ZMod r) = (b : ZMod r) ^ e := by
  rw [pow_eq, ← Nat.cast_pow, ZMod.natCast_eq_natCast_iff]
  exact (Nat.mod_modEq _ _).of_dvd h

theorem natCast_pow (b e m : ℕ) : ((pow b e m : ℕ) : ZMod m) = (b : ZMod m) ^ e :=
  natCast_pow_of_dvd dvd_rfl b e

/-- Each remainder is its coefficient times the number whose inverse is sought. -/
theorem euclid_spec {m : ℕ} (a : ZMod m) (fuel r : ℕ) (s : ℤ) (r' : ℕ) (s' : ℤ)
    (hr : (s : ZMod m) * a = r) (hr' : (s' : ZMod m) * a = r') :
    ((euclid fuel r s r' s').2 : ZMod m) * a = (euclid fuel r s r' s').1 := by
  induction fuel generalizing r s r' s' with
  | zero => exact hr
  | succ fuel ih =>
    rw [euclid]
    split
    · exact hr
    · refine ih _ _ _ _ hr' ?_
      have hdivision : ((r % r' : ℕ) : ZMod m) + r' * (r / r' : ℕ) = r := by
        exact_mod_cast congrArg (Nat.cast (R := ZMod m)) (Nat.mod_add_div r r')
      rw [eq_sub_of_add_eq hdivision, Int.cast_sub, Int.cast_mul, Int.cast_natCast, sub_mul, hr,
        mul_assoc, hr', mul_comm]

theorem mul_inverse? {a m t : ℕ} (hm : m ≠ 0) (h : inverse? a m = some t) :
    (t : ZMod m) * a = 1 := by
  have hspec := euclid_spec (a : ZMod m) (2 * m.log2 + 4) (a % m) 1 m 0
    (by rw [Int.cast_one, one_mul, ZMod.natCast_mod])
    (by rw [Int.cast_zero, zero_mul, ZMod.natCast_self])
  rw [inverse?] at h
  rcases heuclid : euclid (2 * m.log2 + 4) (a % m) 1 m 0 with ⟨g, s⟩
  rw [heuclid] at h hspec
  dsimp only at h hspec
  split at h
  next hg =>
    obtain rfl := Option.some.inj h
    have hs : (((s % (m : ℤ)).toNat : ℕ) : ZMod m) = s := by
      have hnonneg : 0 ≤ s % (m : ℤ) := Int.emod_nonneg s (by exact_mod_cast hm)
      rw [← Int.cast_natCast, Int.toNat_of_nonneg hnonneg, ZMod.intCast_mod]
    rw [hs, hspec, hg, Nat.cast_one]
  · cases h

/-- Fermat's little theorem for exponents that are inverse to each other. -/
theorem pow_mul_eq_self {p : ℕ} (hp : p.Prime) {e : ℕ} (h : e % (p - 1) = 1) (x : ZMod p) :
    x ^ e = x := by
  have := Fact.mk hp
  have he : e = (p - 1) * (e / (p - 1)) + 1 := by
    conv_lhs => rw [← Nat.div_add_mod e (p - 1), h]
  by_cases hx : x = 0
  · rw [hx, he, zero_pow (Nat.succ_ne_zero _)]
  · rw [he, pow_succ, pow_mul, ZMod.pow_card_sub_one_eq_one hx, one_pow, one_mul]

end MessagingIdentity.Modular

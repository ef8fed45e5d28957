import MessagingIdentity.Proofs.DigestLengths
import Mathlib.Algebra.Order.Group.Nat
import Mathlib.Data.List.Induction
import Mathlib.Tactic.Ring

namespace MessagingIdentity.Bytes

theorem toNat_append_singleton (b : Bytes) (x : UInt8) :
    toNat (b ++ [x]) = toNat b * 256 + x.toNat := by
  simp [toNat]

theorem toNat_singleton (x : UInt8) : toNat [x] = x.toNat := by simp [toNat]

theorem toNat_lt (b : Bytes) : toNat b < 256 ^ b.length := by
  induction b using List.reverseRecOn with
  | nil => decide
  | append_singleton b x ih =>
    have hx := x.toNat_lt
    rw [toNat_append_singleton, List.length_append, List.length_singleton, pow_succ]
    omega

theorem toNat_cons (x : UInt8) (b : Bytes) : toNat (x :: b) = x.toNat * 256 ^ b.length + toNat b := by
  induction b using List.reverseRecOn with
  | nil => simp [toNat]
  | append_singleton b y ih =>
    rw [← List.cons_append, toNat_append_singleton, ih, toNat_append_singleton, List.length_append,
      List.length_singleton, pow_succ]
    ring

theorem toNat_ofNat (k n : ℕ) : toNat (ofNat k n) = n % 256 ^ k := by
  induction k generalizing n with
  | zero => simp [ofNat, toNat, Nat.mod_one]
  | succ k ih =>
    have hbyte : n.toUInt8.toNat = n % 256 := by simp
    rw [ofNat, toNat_append_singleton, ih, hbyte, pow_succ, Nat.mul_comm (256 ^ k), Nat.mod_mul]
    ring

theorem toNat_ofNat_of_lt {k n : ℕ} (h : n < 256 ^ k) : toNat (ofNat k n) = n := by
  rw [toNat_ofNat, Nat.mod_eq_of_lt h]

theorem ofNat_toNat (b : Bytes) : ofNat b.length (toNat b) = b := by
  induction b using List.reverseRecOn with
  | nil => rfl
  | append_singleton b x ih =>
    have hx := x.toNat_lt
    have hdiv : (toNat b * 256 + x.toNat) / 256 = toNat b := by omega
    have hbyte : (toNat b * 256 + x.toNat).toUInt8 = x := by
      refine UInt8.toNat_inj.mp ?_
      simp
    rw [List.length_append, List.length_singleton, toNat_append_singleton, ofNat, hdiv, hbyte, ih]

theorem ofNat_toNat_of_length {b : Bytes} {k : ℕ} (h : b.length = k) : ofNat k (toNat b) = b := by
  rw [← h, ofNat_toNat]

theorem lt_pow_widthOf (n : ℕ) : n < 256 ^ widthOf n := by
  have hlog : n < 2 ^ (n.log2 + 1) := Nat.lt_log2_self
  have hle : 2 ^ (n.log2 + 1) ≤ 2 ^ (8 * widthOf n) :=
    Nat.pow_le_pow_right (by decide) (by rw [widthOf]; omega)
  rw [pow_mul] at hle
  exact lt_of_lt_of_le hlog hle

theorem widthOf_le {n k : ℕ} (h : n < 256 ^ (k + 1)) : widthOf n ≤ k + 1 := by
  by_cases hn : n = 0
  · rw [hn]
    exact Nat.succ_le_succ (Nat.zero_le k)
  · have hlog : n.log2 < 8 * (k + 1) := by
      rw [Nat.log2_lt hn, pow_mul]
      exact h
    rw [widthOf]
    omega

theorem widthOf_eq {n k : ℕ} (hle : 256 ^ k ≤ n) (hlt : n < 256 ^ (k + 1)) : widthOf n = k + 1 := by
  have hn : n ≠ 0 := (lt_of_lt_of_le (Nat.pow_pos (by decide)) hle).ne'
  have hlog : 8 * k ≤ n.log2 := by
    rw [Nat.le_log2 hn, pow_mul]
    exact hle
  refine Nat.le_antisymm (widthOf_le hlt) ?_
  rw [widthOf]
  omega

theorem pow_le_of_ne_zero {n : ℕ} (hn : n ≠ 0) : 256 ^ (n.log2 / 8) ≤ n := by
  have hle : 2 ^ (8 * (n.log2 / 8)) ≤ 2 ^ n.log2 :=
    Nat.pow_le_pow_right (by decide) (Nat.mul_div_le _ _)
  rw [pow_mul] at hle
  exact hle.trans (Nat.log2_self_le hn)

theorem length_minimal (n : ℕ) : (minimal n).length = widthOf n := length_ofNat _ _

theorem toNat_minimal (n : ℕ) : toNat (minimal n) = n := toNat_ofNat_of_lt (lt_pow_widthOf n)

theorem minimal_injective : Function.Injective minimal :=
  Function.LeftInverse.injective toNat_minimal

theorem minimal_of_lt {n : ℕ} (h : n < 256) : minimal n = [n.toUInt8] := by
  have hwidth : widthOf n = 1 := by
    by_cases hn : n = 0
    · rw [hn]
      rfl
    · exact widthOf_eq (k := 0) (by simpa using Nat.one_le_iff_ne_zero.mpr hn) (by simpa using h)
  rw [minimal, hwidth]
  rfl

/-- Without a leading zero, no byte string is longer than needed. -/
theorem minimal_toNat {x : UInt8} (hx : x ≠ 0) (b : Bytes) : minimal (toNat (x :: b)) = x :: b := by
  have hpos : 1 ≤ x.toNat := by
    rw [Nat.one_le_iff_ne_zero]
    exact fun h ↦ hx (UInt8.toNat_inj.mp h)
  have hle : 256 ^ b.length ≤ toNat (x :: b) := by
    rw [toNat_cons]
    exact le_trans (Nat.le_mul_of_pos_left _ hpos) (Nat.le_add_right _ _)
  have hlength : widthOf (toNat (x :: b)) = (x :: b).length := widthOf_eq hle (toNat_lt (x :: b))
  rw [minimal, hlength, ofNat_toNat]

theorem minimal_eq_cons (n : ℕ) : ∃ x b, minimal n = x :: b ∧ (x = 0 → n = 0) := by
  cases h : minimal n with
  | nil =>
    have hlength := length_minimal n
    rw [h, List.length_nil, widthOf] at hlength
    omega
  | cons x b =>
    refine ⟨x, b, rfl, ?_⟩
    rintro rfl
    by_contra hn
    have hlength : b.length = n.log2 / 8 := by
      have := length_minimal n
      rw [h, List.length_cons, widthOf] at this
      omega
    have hvalue : n = toNat b := by
      rw [← toNat_minimal n, h, toNat_cons]
      simp
    have hle := pow_le_of_ne_zero hn
    rw [← hlength] at hle
    exact absurd (hvalue ▸ toNat_lt b) (Nat.not_lt.mpr hle)

end MessagingIdentity.Bytes

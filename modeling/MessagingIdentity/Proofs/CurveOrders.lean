import MessagingIdentity.Curve.Secp256k1
import MessagingIdentity.Proofs.ModularPowers
import Mathlib.Algebra.BigOperators.Associated
import Mathlib.Data.Nat.Prime.Basic
import Mathlib.Tactic.NormNum.Prime

namespace MessagingIdentity

/-- What is computed for a prime divisor `q` of `n - 1`. -/
def Certifies (n q : ℕ) : Prop :=
  q ∣ n - 1 ∧ Nat.gcd (Modular.pow 2 ((n - 1) / q) n - 1) n = 1

instance (n q : ℕ) : Decidable (Certifies n q) := inferInstanceAs (Decidable (_ ∧ _))

theorem dvd_pred_of_certifies {n q r : ℕ} (hn : 2 ≤ n) (hq : q.Prime) (hr : r.Prime) (hrn : r ∣ n)
    (hpow : Modular.pow 2 (n - 1) n = 1) (h : Certifies n q) : q ∣ r - 1 := by
  have := Fact.mk hr
  obtain ⟨hdvd, hgcd⟩ := h
  have hone : (2 : ZMod r) ^ (n - 1) = 1 := by
    have hcast := Modular.natCast_pow_of_dvd hrn 2 (n - 1)
    rw [hpow] at hcast
    exact_mod_cast hcast.symm
  have hne : (2 : ZMod r) ^ ((n - 1) / q) ≠ 1 := by
    intro hquotient
    have hcast : ((Modular.pow 2 ((n - 1) / q) n : ℕ) : ZMod r) = 1 :=
      (Modular.natCast_pow_of_dvd hrn 2 _).trans (by exact_mod_cast hquotient)
    have hpos : 1 ≤ Modular.pow 2 ((n - 1) / q) n := by
      rw [Nat.one_le_iff_ne_zero]
      intro hzero
      rw [hzero, Nat.cast_zero] at hcast
      exact zero_ne_one hcast
    have hr' : r ∣ Modular.pow 2 ((n - 1) / q) n - 1 := by
      rw [← ZMod.natCast_eq_zero_iff, Nat.cast_sub hpos, hcast, Nat.cast_one, sub_self]
    exact hr.one_lt.ne' (Nat.dvd_one.mp (hgcd ▸ Nat.dvd_gcd hr' hrn))
  have horder : q ∣ orderOf (2 : ZMod r) := by
    by_contra hnot
    have hcoprime : (orderOf (2 : ZMod r)).Coprime q := ((hq.coprime_iff_not_dvd).mpr hnot).symm
    have hdiv : orderOf (2 : ZMod r) ∣ (n - 1) / q * q := by
      rw [Nat.div_mul_cancel hdvd]
      exact orderOf_dvd_of_pow_eq_one hone
    exact hne (orderOf_dvd_iff_pow_eq_one.mp (hcoprime.dvd_of_dvd_mul_right hdiv))
  have htwo : (2 : ZMod r) ≠ 0 := by
    intro hzero
    rw [hzero, zero_pow (by omega)] at hone
    exact zero_ne_one hone
  exact horder.trans (ZMod.orderOf_dvd_card_sub_one htwo)

/-- Pocklington's criterion with the base 2: each prime factor of the number is greater than the
product of the certified divisors. -/
theorem prime_of_certifies {n : ℕ} {qs : List ℕ} (hn : 2 ≤ n) (hprime : ∀ q ∈ qs, q.Prime)
    (hnodup : qs.Nodup) (hpow : Modular.pow 2 (n - 1) n = 1) (h : ∀ q ∈ qs, Certifies n q)
    (hlarge : n < qs.prod * qs.prod) : n.Prime := by
  have hmin : n.minFac.Prime := Nat.minFac_prime (by omega)
  have hdvd : qs.prod ∣ n.minFac - 1 := by
    have hprod : ∏ q ∈ qs.toFinset, q = qs.prod := by
      rw [List.prod_toFinset _ hnodup, List.map_id']
    rw [← hprod]
    refine Finset.prod_primes_dvd _ (fun q hq ↦ ?_) fun q hq ↦ ?_
    · exact (hprime q (List.mem_toFinset.mp hq)).prime
    · have hq := List.mem_toFinset.mp hq
      exact dvd_pred_of_certifies hn (hprime q hq) hmin n.minFac_dvd hpow (h q hq)
  have hle : qs.prod ≤ n.minFac - 1 := Nat.le_of_dvd (Nat.sub_pos_of_lt hmin.one_lt) hdvd
  by_contra hcomposite
  have hsquare := Nat.minFac_sq_le_self (by omega) hcomposite
  have : qs.prod * qs.prod ≤ n.minFac ^ 2 := by
    rw [sq]
    exact Nat.mul_le_mul (hle.trans (Nat.sub_le _ _)) (hle.trans (Nat.sub_le _ _))
  omega

/-- Numbers, each with some prime divisors of its predecessor; these are known or come before. -/
def checks : List ℕ → List (ℕ × List ℕ) → Bool
  | _, [] => true
  | known, (n, qs) :: entries =>
    decide (2 ≤ n ∧ (∀ q ∈ qs, q ∈ known) ∧ qs.Nodup ∧ Modular.pow 2 (n - 1) n = 1 ∧
      (∀ q ∈ qs, Certifies n q) ∧ n < qs.prod * qs.prod) && checks (n :: known) entries

theorem prime_of_checks {known : List ℕ} {entries : List (ℕ × List ℕ)}
    (hknown : ∀ q ∈ known, q.Prime) (h : checks known entries = true) :
    ∀ entry ∈ entries, entry.1.Prime := by
  induction entries generalizing known with
  | nil => exact nofun
  | cons entry entries ih =>
    obtain ⟨n, qs⟩ := entry
    rw [checks, Bool.and_eq_true, decide_eq_true_eq] at h
    obtain ⟨⟨hn, hqs, hnodup, hpow, hcertifies, hlarge⟩, hrest⟩ := h
    have hprime : n.Prime := prime_of_certifies hn (fun q hq ↦ hknown q (hqs q hq)) hnodup hpow
      hcertifies hlarge
    exact List.forall_mem_cons.mpr ⟨hprime, ih (List.forall_mem_cons.mpr ⟨hprime, hknown⟩) hrest⟩

namespace Secp256k1

def smallPrimes : List ℕ := [7, 29, 53, 9349, 28181, 96557, 120233, 1627771, 7240687]

theorem prime_of_mem_smallPrimes : ∀ q ∈ smallPrimes, q.Prime := by
  simp only [smallPrimes, List.forall_mem_cons]
  norm_num

def certificate : List (ℕ × List ℕ) :=
  [(107590001, [53, 29, 7]),
    (255515944373312847190720520512484175977, [107590001, 7240687, 96557]),
    (205115282021455665897114700593932402728804164701536103180137503955397371,
      [255515944373312847190720520512484175977]),
    (fieldOrder, [205115282021455665897114700593932402728804164701536103180137503955397371]),
    (297159362677, [1627771]), (545358713, [28181]),
    (29047611873442575647497758179, [297159362677, 545358713]),
    (341948486974166000522343609283189, [29047611873442575647497758179]),
    (44706919, [9349]), (174723607534414371449, [44706919, 120233]),
    (groupOrder, [341948486974166000522343609283189, 174723607534414371449])]

theorem prime_of_mem_certificate : ∀ entry ∈ certificate, entry.1.Prime :=
  prime_of_checks prime_of_mem_smallPrimes (by decide +kernel)

theorem prime_fieldOrder : fieldOrder.Prime :=
  prime_of_mem_certificate (fieldOrder, _) (List.mem_of_getElem? (i := 3) rfl)

theorem prime_groupOrder : groupOrder.Prime :=
  prime_of_mem_certificate (groupOrder, _) (List.mem_of_getElem? (i := 10) rfl)

end Secp256k1

end MessagingIdentity

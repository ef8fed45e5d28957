import MessagingIdentity.Encoding.Base58
import Mathlib.Data.Nat.Digits.Lemmas

namespace MessagingIdentity.Base58

theorem digitsOf_eq_digits {base : ℕ} (hb : 1 < base) (fuel : ℕ) {n : ℕ} (h : n < base ^ fuel) :
    digitsOf base fuel n = Nat.digits base n := by
  induction fuel generalizing n with
  | zero =>
    have hn : n = 0 := by simpa using h
    rw [hn, Nat.digits_zero]
    rfl
  | succ fuel ih =>
    by_cases hn : n = 0
    · simp [digitsOf, hn]
    · have hq : n / base < base ^ fuel := by
        rw [Nat.div_lt_iff_lt_mul (by omega)]
        simpa only [pow_succ] using h
      rw [digitsOf, if_neg hn, ih hq, Nat.digits_def' hb (Nat.pos_of_ne_zero hn)]

theorem valueOf_append (base : ℕ) (ds : List ℕ) (d : ℕ) :
    valueOf base (ds ++ [d]) = valueOf base ds * base + d := by
  simp [valueOf]

theorem valueOf_eq_ofDigits (base : ℕ) (ds : List ℕ) :
    valueOf base ds = Nat.ofDigits base ds.reverse := by
  induction ds using List.reverseRecOn with
  | nil => rfl
  | append_singleton ds d ih =>
    rw [valueOf_append, ih, List.reverse_append, List.reverse_singleton, List.singleton_append,
      Nat.ofDigits_cons]
    ring

theorem valueOf_lt {base : ℕ} (hb : 1 < base) {ds : List ℕ} (h : ∀ d ∈ ds, d < base) :
    valueOf base ds < base ^ ds.length := by
  rw [valueOf_eq_ofDigits, ← List.length_reverse]
  exact Nat.ofDigits_lt_base_pow_length hb fun d hd ↦ h d (List.mem_reverse.mp hd)

def leadingZeros (ds : List ℕ) : ℕ := (ds.takeWhile (· = 0)).length

/-- The digits of a number behind some zeros, most significant first. -/
def numeral (base zeros n : ℕ) : List ℕ := List.replicate zeros 0 ++ (Nat.digits base n).reverse

theorem numeral_lt {base : ℕ} (hb : 1 < base) (zeros n : ℕ) : ∀ d ∈ numeral base zeros n, d < base := by
  intro d hd
  rcases List.mem_append.mp hd with hd | hd
  · rw [List.eq_of_mem_replicate hd]
    omega
  · exact Nat.digits_lt_base hb (List.mem_reverse.mp hd)

theorem length_numeral (base zeros n : ℕ) :
    (numeral base zeros n).length = zeros + (Nat.digits base n).length := by
  simp [numeral]

theorem valueOf_numeral (base zeros n : ℕ) : valueOf base (numeral base zeros n) = n := by
  rw [valueOf_eq_ofDigits, numeral, List.reverse_append, List.reverse_reverse,
    List.reverse_replicate, Nat.ofDigits_append_replicate_zero, Nat.ofDigits_digits]

theorem leadingZeros_numeral {base : ℕ} (zeros n : ℕ) :
    leadingZeros (numeral base zeros n) = zeros := by
  have hr : (Nat.digits base n).reverse.takeWhile (· = 0) = [] := by
    by_cases hn : n = 0
    · simp [hn]
    · have hne : Nat.digits base n ≠ [] := Nat.digits_ne_nil_iff_ne_zero.mpr hn
      have hlast := Nat.getLast_digit_ne_zero base hn
      rw [← List.dropLast_append_getLast hne, List.reverse_append, List.reverse_singleton,
        List.singleton_append, List.takeWhile_cons_of_neg (by simpa using hlast)]
  rw [leadingZeros, numeral, List.takeWhile_append_of_pos (by simp), hr]
  simp

theorem eq_numeral {base : ℕ} (hb : 1 < base) {ds : List ℕ} (h : ∀ d ∈ ds, d < base) :
    ds = numeral base (leadingZeros ds) (valueOf base ds) := by
  induction ds with
  | nil => simp [numeral, leadingZeros, valueOf]
  | cons d ds ih =>
    by_cases hd : d = 0
    · have hv : valueOf base (d :: ds) = valueOf base ds := by simp [valueOf, hd]
      have hz : leadingZeros (d :: ds) = leadingZeros ds + 1 := by simp [leadingZeros, hd]
      have ih := ih fun x hx ↦ h x (List.mem_cons_of_mem d hx)
      rw [hv, hz, numeral, List.replicate_succ, List.cons_append, ← numeral, ← ih, hd]
    · have hz : leadingZeros (d :: ds) = 0 := by simp [leadingZeros, hd]
      have hdigits : Nat.digits base (valueOf base (d :: ds)) = (d :: ds).reverse := by
        rw [valueOf_eq_ofDigits]
        apply Nat.digits_ofDigits base hb
        · exact fun x hx ↦ h x (List.mem_reverse.mp hx)
        · intro _
          simpa using hd
      rw [hz, numeral, hdigits, List.reverse_reverse]
      rfl

end MessagingIdentity.Base58

import MessagingIdentity.Bytes
import Mathlib.Algebra.Order.Floor.Div
import Mathlib.Data.List.Basic

namespace MessagingIdentity

variable {α : Type}

theorem piecesAux_succ (k fuel : ℕ) {xs : List α} (h : xs ≠ []) :
    piecesAux k (fuel + 1) xs = xs.take (k + 1) :: piecesAux k fuel (xs.drop (k + 1)) := by
  cases xs with
  | nil => exact absurd rfl h
  | cons x xs => rfl

theorem flatten_piecesAux (k fuel : ℕ) (xs : List α) (h : xs.length ≤ fuel) :
    (piecesAux k fuel xs).flatten = xs := by
  induction fuel generalizing xs with
  | zero => rw [List.length_eq_zero_iff.mp (Nat.le_zero.mp h), piecesAux, List.flatten_nil]
  | succ fuel ih =>
    cases xs with
    | nil => rfl
    | cons x xs =>
      have hrest : ((x :: xs).drop (k + 1)).length ≤ fuel := by
        rw [List.length_drop]
        omega
      rw [piecesAux_succ k fuel (List.cons_ne_nil x xs), List.flatten_cons, ih _ hrest,
        List.take_append_drop]

theorem flatten_pieces {k : ℕ} (hk : k ≠ 0) (xs : List α) : (pieces k xs).flatten = xs := by
  cases k with
  | zero => exact absurd rfl hk
  | succ k => exact flatten_piecesAux k xs.length xs (Nat.le_refl _)

theorem eq_take_drop_of_mem_piecesAux (k fuel : ℕ) {xs p : List α} (hp : p ∈ piecesAux k fuel xs) :
    ∃ j, xs.drop (j * (k + 1)) ≠ [] ∧ p = (xs.drop (j * (k + 1))).take (k + 1) := by
  induction fuel generalizing xs with
  | zero => cases hp
  | succ fuel ih =>
    cases xs with
    | nil => cases hp
    | cons x xs =>
      rw [piecesAux_succ k fuel (List.cons_ne_nil x xs)] at hp
      rcases List.mem_cons.mp hp with rfl | hp
      · refine ⟨0, ?_, ?_⟩ <;> rw [Nat.zero_mul, List.drop_zero]
        exact List.cons_ne_nil x xs
      · obtain ⟨j, hj⟩ := ih hp
        rw [List.drop_drop, Nat.add_comm, ← Nat.succ_mul] at hj
        exact ⟨j + 1, hj⟩

theorem eq_take_drop_of_mem_pieces {k : ℕ} {xs p : List α} (hp : p ∈ pieces k xs) :
    k ≠ 0 ∧ ∃ j, xs.drop (j * k) ≠ [] ∧ p = (xs.drop (j * k)).take k := by
  cases k with
  | zero => cases hp
  | succ k => exact ⟨k.succ_ne_zero, eq_take_drop_of_mem_piecesAux k _ hp⟩

theorem ne_nil_of_mem_pieces (k : ℕ) (xs : List α) : ∀ p ∈ pieces k xs, p ≠ [] := by
  intro p hp
  obtain ⟨hk, j, hne, rfl⟩ := eq_take_drop_of_mem_pieces hp
  rw [Ne, List.take_eq_nil_iff, not_or]
  exact ⟨hk, hne⟩

theorem length_le_of_mem_pieces (k : ℕ) (xs : List α) : ∀ p ∈ pieces k xs, p.length ≤ k := by
  intro p hp
  obtain ⟨-, j, -, rfl⟩ := eq_take_drop_of_mem_pieces hp
  exact List.length_take_le _ _

theorem length_of_mem_pieces {k : ℕ} {xs : List α} (h : k ∣ xs.length) :
    ∀ p ∈ pieces k xs, p.length = k := by
  intro p hp
  obtain ⟨-, j, hne, rfl⟩ := eq_take_drop_of_mem_pieces hp
  have hrest : k ∣ (xs.drop (j * k)).length := by
    rw [List.length_drop]
    exact Nat.dvd_sub h (Nat.dvd_mul_left k j)
  exact List.length_take_of_le (Nat.le_of_dvd (List.length_pos_of_ne_nil hne) hrest)

theorem length_flatten_of_forall {k : ℕ} {xss : List (List α)} (h : ∀ p ∈ xss, p.length = k) :
    xss.flatten.length = xss.length * k := by
  induction xss with
  | nil => exact (Nat.zero_mul k).symm
  | cons p xss ih =>
    rw [List.flatten_cons, List.length_append, List.length_cons, Nat.succ_mul, Nat.add_comm,
      h p List.mem_cons_self, ih fun q hq ↦ h q (List.mem_cons_of_mem p hq)]

theorem length_pieces_mul {k : ℕ} {xs : List α} (hk : k ≠ 0) (h : k ∣ xs.length) :
    (pieces k xs).length * k = xs.length := by
  rw [← length_flatten_of_forall (length_of_mem_pieces h), flatten_pieces hk]

theorem length_piecesAux (k fuel : ℕ) (xs : List α) (h : xs.length ≤ fuel) :
    (piecesAux k fuel xs).length = (xs.length + k) / (k + 1) := by
  induction fuel generalizing xs with
  | zero =>
    rw [Nat.le_zero.mp h, piecesAux, List.length_nil, Nat.zero_add, Nat.div_eq_of_lt k.lt_succ_self]
  | succ fuel ih =>
    cases xs with
    | nil => exact (Nat.div_eq_of_lt ((Nat.zero_add k).trans_lt k.lt_succ_self)).symm
    | cons x xs =>
      have hrest : ((x :: xs).drop (k + 1)).length = xs.length - k := by
        rw [List.drop_succ_cons, List.length_drop]
      have hsum : (x :: xs).length + k = xs.length + (k + 1) := by
        rw [List.length_cons]
        omega
      rw [piecesAux_succ k fuel (List.cons_ne_nil x xs), List.length_cons, ih _ (by omega), hrest,
        hsum, Nat.add_div_right _ k.succ_pos]
      rcases Nat.lt_or_ge xs.length k with hlt | hle
      · rw [Nat.sub_eq_zero_of_le hlt.le, Nat.zero_add, Nat.div_eq_of_lt k.lt_succ_self,
          Nat.div_eq_of_lt (hlt.trans k.lt_succ_self)]
      · rw [Nat.sub_add_cancel hle]

theorem length_pieces {k : ℕ} (hk : k ≠ 0) (xs : List α) :
    (pieces k xs).length = xs.length ⌈/⌉ k := by
  cases k with
  | zero => exact absurd rfl hk
  | succ k => exact length_piecesAux k _ xs (Nat.le_refl _)

theorem piecesAux_flatten (k fuel : ℕ) (xss : List (List α)) (h : ∀ p ∈ xss, p.length = k + 1)
    (hfuel : xss.flatten.length ≤ fuel) : piecesAux k fuel xss.flatten = xss := by
  induction xss generalizing fuel with
  | nil => cases fuel <;> rfl
  | cons p xss ih =>
    have hp : p.length = k + 1 := h p List.mem_cons_self
    have hlength : (p :: xss).flatten.length = k + 1 + xss.flatten.length := by
      rw [List.flatten_cons, List.length_append, hp]
    cases fuel with
    | zero => omega
    | succ fuel =>
      have hne : (p :: xss).flatten ≠ [] := by
        intro hnil
        rw [hnil, List.length_nil] at hlength
        omega
      rw [piecesAux_succ k fuel hne, List.flatten_cons, ← hp, List.take_left, List.drop_left,
        ih fuel (fun q hq ↦ h q (List.mem_cons_of_mem p hq)) (by omega)]

theorem pieces_flatten {k : ℕ} (hk : k ≠ 0) {xss : List (List α)} (h : ∀ p ∈ xss, p.length = k) :
    pieces k xss.flatten = xss := by
  cases k with
  | zero => exact absurd rfl hk
  | succ k => exact piecesAux_flatten k _ xss h (Nat.le_refl _)

/-- Where the first part is cut without a remainder, both parts are cut on their own. -/
theorem pieces_append {k : ℕ} (hk : k ≠ 0) {xs ys : List α} (hx : k ∣ xs.length)
    (hy : k ∣ ys.length) : pieces k (xs ++ ys) = pieces k xs ++ pieces k ys := by
  have hlengths : ∀ p ∈ pieces k xs ++ pieces k ys, p.length = k := by
    intro p hp
    rcases List.mem_append.mp hp with hp | hp
    · exact length_of_mem_pieces hx p hp
    · exact length_of_mem_pieces hy p hp
  rw [← pieces_flatten hk hlengths, List.flatten_append, flatten_pieces hk, flatten_pieces hk]

end MessagingIdentity

import Mathlib.Algebra.Group.Nat.Defs
import Mathlib.Data.List.Induction
import MessagingIdentity.Proofs.TransportPayloads
import MessagingIdentity.Text.Decimal

namespace MessagingIdentity.Text

variable {cs : List Char} {s : String} {n bits : ℕ}

/-- The digits of a number, with any number of zeros before them. -/
def Digits (cs : List Char) (n : ℕ) : Prop :=
  ∃ zeros, cs = List.replicate zeros '0' ++ Nat.toDigits 10 n

theorem digits_toDigits (n : ℕ) : Digits (Nat.toDigits 10 n) n := ⟨0, rfl⟩

theorem Digits.isDigit (h : Digits cs n) : ∀ c ∈ cs, c.isDigit = true := by
  obtain ⟨zeros, rfl⟩ := h
  intro c hc
  rcases List.mem_append.mp hc with hzero | hdigit
  · rw [List.eq_of_mem_replicate hzero]
    rfl
  · exact Nat.isDigit_of_mem_toDigits (by decide) (by decide) hdigit

theorem Digits.ne_nil (h : Digits cs n) : cs ≠ [] := by
  obtain ⟨zeros, rfl⟩ := h
  exact List.append_ne_nil_of_right_ne_nil _ Nat.toDigits_ne_nil

theorem Digits.ofDigitChars_eq (h : Digits cs n) : Nat.ofDigitChars 10 cs 0 = n := by
  obtain ⟨zeros, rfl⟩ := h
  rw [Nat.ofDigitChars_append, Nat.ofDigitChars_replicate_zero, Nat.mul_zero,
    Nat.ofDigitChars_ten_toDigits]

theorem exists_digitChar_eq {c : Char} (h : c.isDigit = true) : ∃ d < 10, Nat.digitChar d = c := by
  simp only [Char.isDigit, Bool.and_eq_true, decide_eq_true_eq] at h
  have hlow : 48 ≤ c.toNat := UInt32.le_iff_toNat_le.mp h.1
  have hhigh : c.toNat ≤ 57 := UInt32.le_iff_toNat_le.mp h.2
  have hd : c.toNat - 48 < 10 := by omega
  have hcode := Nat.toNat_digitChar_of_lt_ten hd
  exact ⟨c.toNat - 48, hd, Char.toNat_inj.mp (by omega)⟩

theorem Digits.append (h : Digits cs n) {d : ℕ} (hd : d < 10) :
    Digits (cs ++ [Nat.digitChar d]) (10 * n + d) := by
  obtain ⟨zeros, rfl⟩ := h
  by_cases hn : n = 0
  · refine ⟨zeros + 1, ?_⟩
    rw [hn, Nat.toDigits_of_lt_base (by decide), Nat.mul_zero, Nat.zero_add,
      Nat.toDigits_of_lt_base hd, List.replicate_succ']
    rfl
  · refine ⟨zeros, ?_⟩
    rw [List.append_assoc, ← Nat.toDigits_append_toDigits (by decide) (Nat.pos_of_ne_zero hn) hd,
      Nat.toDigits_of_lt_base hd]

theorem digits_ofDigitChars (hne : cs ≠ []) (h : ∀ c ∈ cs, c.isDigit = true) :
    Digits cs (Nat.ofDigitChars 10 cs 0) := by
  -- The digits of a number are cut off at their end, so the induction is from there.
  induction cs using List.reverseRecOn with
  | nil => exact absurd rfl hne
  | append_singleton cs c ih =>
    obtain ⟨hcs, hc⟩ := List.forall_mem_append.mp h
    obtain ⟨d, hd, rfl⟩ := exists_digitChar_eq (hc c List.mem_cons_self)
    rw [Nat.ofDigitChars_append, Nat.ofDigitChars_cons_digitChar_of_lt_ten hd, Nat.ofDigitChars_nil]
    by_cases hnil : cs = []
    · rw [hnil]
      simpa [Nat.toDigits_of_lt_base hd] using digits_toDigits d
    · exact (ih hnil hcs).append hd

theorem digits?_eq_some_iff : digits? cs = some n ↔ Digits cs n := by
  have hread : digits? cs = some n ↔
      (cs ≠ [] ∧ ∀ c ∈ cs, c.isDigit = true) ∧ Nat.ofDigitChars 10 cs 0 = n := by
    rw [digits?, Nat.ofDigitChars_eq_foldl]
    simp [Nat.mul_comm]
  rw [hread]
  constructor
  · rintro ⟨⟨hne, hdigits⟩, rfl⟩
    exact digits_ofDigitChars hne hdigits
  · exact fun h ↦ ⟨⟨h.ne_nil, h.isDigit⟩, h.ofDigitChars_eq⟩

/-- A decimal text of a number: its digits, with or without a plus sign, between white space. -/
def Denotes (s : String) (n : ℕ) : Prop :=
  ∃ left sign digits right : List Char, s.toList = left ++ (sign ++ digits) ++ right ∧
    (sign = [] ∨ sign = ['+']) ∧ Digits digits n ∧
    (∀ c ∈ left, isBlank c = true) ∧ ∀ c ∈ right, isBlank c = true

theorem natural?_eq_some_iff : natural? bits s = some n ↔
    (∃ sign digits, s.toList = sign ++ digits ∧ (sign = [] ∨ sign = ['+']) ∧ Digits digits n) ∧
      n < 2 ^ bits := by
  rw [natural?, Option.filter_eq_some_iff, decide_eq_true_eq]
  refine and_congr_left fun _ ↦ ?_
  split
  next cs hs =>
    rw [digits?_eq_some_iff]
    constructor
    · exact fun h ↦ ⟨['+'], cs, hs, .inr rfl, h⟩
    · rintro ⟨sign, digits, htext, rfl | rfl, h⟩
      · have hplus : '+' ∈ digits := by
          rw [← List.nil_append digits, ← htext, hs]
          exact List.mem_cons_self
        exact absurd (h.isDigit '+' hplus) (by decide)
      · obtain rfl := (List.cons.inj (hs.symm.trans htext)).2
        exact h
  next hs =>
    rw [digits?_eq_some_iff]
    constructor
    · exact fun h ↦ ⟨[], s.toList, rfl, .inl rfl, h⟩
    · rintro ⟨sign, digits, htext, rfl | rfl, h⟩
      · rwa [htext]
      · exact absurd htext (hs digits)

theorem isBlank_of_isDigit {c : Char} (h : c.isDigit = true) : isBlank c = false := by
  obtain ⟨d, hd, rfl⟩ := exists_digitChar_eq h
  exact (by decide : ∀ d < 10, isBlank (Nat.digitChar d) = false) d hd

theorem natural?_trim_eq_some_iff :
    natural? bits (trim s) = some n ↔ Denotes s n ∧ n < 2 ^ bits := by
  rw [natural?_eq_some_iff, trim, String.toList_ofList]
  refine and_congr_left fun _ ↦ ⟨?_, ?_⟩
  · rintro ⟨sign, digits, htrim, hsign, hdigits⟩
    obtain ⟨left, right, hs, hleft, hright, -, -⟩ := eq_append_trimChars s.toList
    rw [htrim] at hs
    exact ⟨left, sign, digits, right, hs, hsign, hdigits, hleft, hright⟩
  · rintro ⟨left, sign, digits, right, hs, hsign, hdigits, hleft, hright⟩
    refine ⟨sign, digits, ?_, hsign, hdigits⟩
    have hplain : ∀ c ∈ sign ++ digits, isBlank c = false := by
      refine List.forall_mem_append.mpr ⟨?_, fun c hc ↦ isBlank_of_isDigit (hdigits.isDigit c hc)⟩
      rcases hsign with rfl | rfl
      · exact List.forall_mem_nil _
      · exact List.forall_mem_singleton.mpr rfl
    rw [hs, trimChars_append_of_forall hleft hplain hright]

end MessagingIdentity.Text

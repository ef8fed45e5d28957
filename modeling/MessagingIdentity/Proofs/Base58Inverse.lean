import MessagingIdentity.Proofs.Numerals
import MessagingIdentity.Proofs.Outcomes
import MessagingIdentity.Proofs.TextBytes

namespace MessagingIdentity.Base58

def code (d : ℕ) : UInt8 := (digit d).toNat.toUInt8

theorem digit_ascii {d : ℕ} (hd : d < 58) : (digit d).toNat ≤ 127 :=
  (by decide : ∀ d < 58, (digit d).toNat ≤ 127) d hd

theorem value?_code {d : ℕ} (hd : d < 58) : value? (Char.ofNat (code d).toNat) = some d :=
  (by decide : ∀ d < 58, value? (Char.ofNat (code d).toNat) = some d) d hd

theorem code_le {d : ℕ} (hd : d < 58) : (code d).toNat ≤ 127 :=
  (by decide : ∀ d < 58, (code d).toNat ≤ 127) d hd

theorem eq_code_of_value? {b : UInt8} (hb : b.toNat ≤ 127) {d : ℕ}
    (h : value? (Char.ofNat b.toNat) = some d) : d < 58 ∧ b = code d := by
  have hall : ∀ n < 128, ∀ d ∈ value? (Char.ofNat n), d < 58 ∧ n.toUInt8 = code d := by
    decide +kernel
  have hd := hall b.toNat (by omega) d h
  rwa [Nat.toUInt8_eq, UInt8.ofNat_toNat] at hd

theorem ofText_digits {ds : List ℕ} (h : ∀ d ∈ ds, d < 58) :
    Bytes.ofText (String.ofList (ds.map digit)) = ds.map code := by
  rw [Bytes.ofText_ofList_of_ascii, List.map_map]
  · rfl
  · intro c hc
    obtain ⟨d, hd, rfl⟩ := List.mem_map.mp hc
    exact digit_ascii (h d hd)

theorem digitValues_code (i : ℕ) {ds : List ℕ} (h : ∀ d ∈ ds, d < 58) :
    digitValues i (ds.map code) = .ok ds := by
  induction ds generalizing i with
  | nil => rfl
  | cons d ds ih =>
    have hd := h d List.mem_cons_self
    have ih := ih (i + 1) fun x hx ↦ h x (List.mem_cons_of_mem d hx)
    rw [List.map_cons, digitValues, if_neg (Nat.not_lt.mpr (code_le hd))]
    dsimp only
    rw [value?_code hd, ih]
    rfl

theorem eq_code_of_digitValues {i : ℕ} {b : Bytes} {ds : List ℕ} (h : digitValues i b = .ok ds) :
    (∀ d ∈ ds, d < 58) ∧ b = ds.map code := by
  induction b generalizing i ds with
  | nil =>
    obtain rfl : [] = ds := by simpa [digitValues] using h
    simp
  | cons x b ih =>
    rw [digitValues] at h
    split at h
    · cases h
    next hx =>
      dsimp only at h
      split at h
      · cases h
      next v hv =>
        obtain ⟨vs, hvs, rfl⟩ := Except.map_eq_ok_iff.mp h
        obtain ⟨hlt, hb⟩ := ih hvs
        obtain ⟨hv58, hxv⟩ := eq_code_of_value? (Nat.not_lt.mp hx) hv
        refine ⟨fun d hd ↦ ?_, by rw [hxv, hb]; rfl⟩
        rcases List.mem_cons.mp hd with rfl | hd
        · exact hv58
        · exact hlt d hd

def digitsOfBytes (b : Bytes) : List ℕ := b.map UInt8.toNat

theorem digitsOfBytes_lt (b : Bytes) : ∀ d ∈ digitsOfBytes b, d < 256 := by
  intro d hd
  obtain ⟨x, -, rfl⟩ := List.mem_map.mp hd
  exact x.toNat_lt

theorem toNat_eq_valueOf (b : Bytes) : b.toNat = valueOf 256 (digitsOfBytes b) := by
  simp [Bytes.toNat, valueOf, digitsOfBytes, List.foldl_map]

theorem map_toUInt8_digitsOfBytes (b : Bytes) : (digitsOfBytes b).map Nat.toUInt8 = b := by
  simp [digitsOfBytes, Function.comp_def]

/-- The digits of a byte string to the base 58. -/
def digitsOfText (b : Bytes) : List ℕ := numeral 58 (leadingZeros (digitsOfBytes b)) b.toNat

theorem digitsOfText_lt (b : Bytes) : ∀ d ∈ digitsOfText b, d < 58 := numeral_lt (by decide) _ _

theorem encode_eq (b : Bytes) : encode b = String.ofList ((digitsOfText b).map digit) := by
  have hz : (b.takeWhile (· = 0)).length = leadingZeros (digitsOfBytes b) := by
    rw [leadingZeros, digitsOfBytes, List.takeWhile_map, List.length_map]
    congr 2
    funext x
    simp [← UInt8.toNat_inj]
  have hlt : b.toNat < 58 ^ (2 * b.length) := by
    have h := valueOf_lt (by decide) (digitsOfBytes_lt b)
    rw [← toNat_eq_valueOf, digitsOfBytes, List.length_map] at h
    rw [pow_mul]
    exact h.trans_le (Nat.pow_le_pow_left (by decide) _)
  rw [encode, digitsOf_eq_digits (by decide) _ hlt, hz, digitsOfText, numeral, List.map_append,
    List.map_replicate]
  rfl

theorem digit_of_mem_encode {b : Bytes} {c : Char} (h : c ∈ (encode b).toList) :
    ∃ d < 58, c = digit d := by
  rw [encode_eq, String.toList_ofList] at h
  obtain ⟨d, hd, rfl⟩ := List.mem_map.mp h
  exact ⟨d, digitsOfText_lt b d hd, rfl⟩

theorem decode_eq {s : String} {ds : List ℕ} (h : digitValues 0 (Bytes.ofText s) = .ok ds) :
    decode s = .ok ((numeral 256 (leadingZeros ds) (valueOf 58 ds)).map Nat.toUInt8) := by
  have hlt : valueOf 58 ds < 256 ^ ds.length :=
    (valueOf_lt (by decide) (eq_code_of_digitValues h).1).trans_le
      (Nat.pow_le_pow_left (by decide) _)
  rw [decode, h]
  simp only [Except.map]
  rw [digitsOf_eq_digits (by decide) _ hlt, numeral, List.map_append, List.map_replicate]
  rfl

theorem decode_encode (b : Bytes) : decode (encode b) = .ok b := by
  have hd : digitValues 0 (Bytes.ofText (encode b)) = .ok (digitsOfText b) := by
    rw [encode_eq, ofText_digits (digitsOfText_lt b), digitValues_code 0 (digitsOfText_lt b)]
  rw [decode_eq hd, digitsOfText, leadingZeros_numeral, valueOf_numeral, toNat_eq_valueOf,
    ← eq_numeral (by decide) (digitsOfBytes_lt b), map_toUInt8_digitsOfBytes]

theorem eq_encode_of_decode {s : String} {b : Bytes} (h : decode s = .ok b) : s = encode b := by
  cases hd : digitValues 0 (Bytes.ofText s) with
  | error e =>
    rw [decode, hd] at h
    cases h
  | ok ds =>
    obtain ⟨hlt, hs⟩ := eq_code_of_digitValues hd
    have hb : digitsOfBytes b = numeral 256 (leadingZeros ds) (valueOf 58 ds) := by
      rw [decode_eq hd] at h
      obtain rfl := Except.ok.inj h
      rw [digitsOfBytes, List.map_map]
      refine (List.map_congr_left fun d hd ↦ ?_).trans (List.map_id _)
      have := numeral_lt (by decide : 1 < 256) _ _ d hd
      simp [Nat.mod_eq_of_lt this]
    have hds : digitsOfText b = ds := by
      rw [digitsOfText, toNat_eq_valueOf, hb, leadingZeros_numeral, valueOf_numeral,
        ← eq_numeral (by decide) hlt]
    apply Bytes.ofText_injective
    rw [encode_eq, hds, hs, ofText_digits hlt]

theorem utf8ByteSize_encode (b : Bytes) : (encode b).utf8ByteSize =
    leadingZeros (digitsOfBytes b) + (Nat.digits 58 b.toNat).length := by
  rw [encode_eq, ← Bytes.length_ofText, ofText_digits (digitsOfText_lt b), List.length_map,
    digitsOfText, length_numeral]

end MessagingIdentity.Base58

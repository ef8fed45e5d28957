import MessagingIdentity.Encoding.Hexadecimal
import MessagingIdentity.Proofs.TextBytes

namespace MessagingIdentity.Hexadecimal

def code (n : ℕ) : UInt8 := (digit n).toNat.toUInt8

theorem value?_code {n : ℕ} (h : n < 16) : value? (code n) = some n :=
  (by decide : ∀ n < 16, value? (code n) = some n) n h

theorem forall_mem_encode {P : Char → Prop} (h : ∀ n < 16, P (digit n)) (b : Bytes) :
    ∀ c ∈ (encode b).toList, P c := by
  intro c hc
  rw [encode, String.toList_ofList] at hc
  obtain ⟨x, -, hx⟩ := List.mem_flatMap.mp hc
  have hlt := x.toNat_lt
  simp only [pair, List.mem_cons, List.not_mem_nil, or_false] at hx
  rcases hx with rfl | rfl
  · exact h _ (by omega)
  · exact h _ (by omega)

theorem map_value?_encode (b : Bytes) :
    (encode b).toList.map (fun c ↦ value? c.toNat.toUInt8) =
      b.flatMap fun x ↦ [some (x.toNat / 16), some (x.toNat % 16)] := by
  rw [encode, String.toList_ofList, List.map_flatMap]
  refine congrArg (List.flatMap · b) (funext fun x ↦ ?_)
  have hlt := x.toNat_lt
  change [value? (code (x.toNat / 16)), value? (code (x.toNat % 16))] = _
  rw [value?_code (by omega), value?_code (by omega)]

theorem decodeFrom_of_values (i : ℕ) {s b : Bytes}
    (h : s.map value? = b.flatMap fun x ↦ [some (x.toNat / 16), some (x.toNat % 16)]) :
    decodeFrom i s = .ok b := by
  induction b generalizing i s with
  | nil =>
    obtain rfl := List.map_eq_nil_iff.mp h
    rfl
  | cons x b ih =>
    have hx : (x.toNat / 16 * 16 + x.toNat % 16).toUInt8 = x := by
      rw [Nat.div_add_mod', Nat.toUInt8_eq, UInt8.ofNat_toNat]
    rw [List.flatMap_cons, List.cons_append, List.cons_append, List.nil_append] at h
    obtain ⟨high, s, rfl, hhigh, h⟩ := List.map_eq_cons_iff.mp h
    obtain ⟨low, s, rfl, hlow, h⟩ := List.map_eq_cons_iff.mp h
    rw [decodeFrom, hhigh, hlow]
    dsimp only
    rw [ih _ h, hx]
    rfl

theorem value?_toLower {c : Char} (h : c.toNat ≤ 127) :
    value? c.toLower.toNat.toUInt8 = value? c.toNat.toUInt8 := by
  have hall : ((List.range 128).all fun n ↦
      value? (Char.ofNat n).toLower.toNat.toUInt8 = value? (Char.ofNat n).toNat.toUInt8) = true := by
    decide
  have hn := of_decide_eq_true (List.all_eq_true.mp hall c.toNat (List.mem_range.mpr (by omega)))
  rwa [Char.ofNat_toNat] at hn

theorem decode_of_toLower {cs : List Char} {b : Bytes}
    (h : cs.map Char.toLower = (encode b).toList) : decode (String.ofList cs) = .ok b := by
  have hascii : ∀ c ∈ cs, c.toNat ≤ 127 := by
    intro c hc
    have hmem : c.toLower ∈ (encode b).toList := by
      rw [← h]
      exact List.mem_map_of_mem hc
    exact Bytes.ascii_of_toLower (forall_mem_encode (P := (·.toNat ≤ 127)) (by decide) b _ hmem)
  have hvalues : (cs.map fun c ↦ c.toNat.toUInt8).map value? =
      b.flatMap fun x ↦ [some (x.toNat / 16), some (x.toNat % 16)] := by
    rw [← map_value?_encode, ← h, List.map_map, List.map_map]
    exact List.map_congr_left fun c hc ↦ (value?_toLower (hascii c hc)).symm
  have hlength : (cs.map fun c ↦ c.toNat.toUInt8).length = 2 * b.length := by
    have hlength := congrArg List.length hvalues
    rw [List.length_map, List.length_flatMap] at hlength
    simpa [Nat.mul_comm] using hlength
  rw [decode, Bytes.ofText_ofList_of_ascii hascii, hlength, if_neg (by omega),
    decodeFrom_of_values 0 hvalues]

theorem map_toLower_encode (b : Bytes) : (encode b).toList.map Char.toLower = (encode b).toList := by
  have hlower : ∀ c ∈ (encode b).toList, c.toLower = c := forall_mem_encode (by decide) b
  rw [List.map_congr_left hlower, List.map_id']

theorem decode_encode (b : Bytes) : decode (encode b) = .ok b := by
  have h := decode_of_toLower (map_toLower_encode b)
  rwa [String.ofList_toList] at h

theorem encode_ne_empty {b : Bytes} (hb : b ≠ []) : encode b ≠ "" := by
  intro h
  have hread := decode_encode b
  rw [h] at hread
  exact hb (Except.ok.inj hread).symm

end MessagingIdentity.Hexadecimal

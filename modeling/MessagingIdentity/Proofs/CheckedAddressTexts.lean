import MessagingIdentity.Address.Checked
import MessagingIdentity.Proofs.Base58Inverse
import MessagingIdentity.Proofs.DigestLengths

namespace MessagingIdentity.CheckedAddress

open Base58

theorem length_checkCode (head : Bytes) : (checkCode head).length = codeSize := by
  simp [checkCode, Digest.doubleSha256, Digest.length_sha256, codeSize]

theorem length_payload {head : Bytes} (h : head.length = headSize) :
    (head ++ checkCode head).length = headSize + codeSize := by
  rw [List.length_append, h, length_checkCode]

/-- An address is read from the texts of heads and from no others. -/
theorem parse_eq_ok_iff {s : String} {a : CheckedAddress} : parse s = .ok a ↔
    ∃ head : Bytes, head.length = headSize ∧ s = textOf head ∧ a = ⟨s, ⟨head.headD 0⟩⟩ := by
  constructor
  · intro h
    rw [parse] at h
    cases hd : decode s with
    | error e => rw [hd] at h; cases h
    | ok payload =>
      rw [hd] at h
      dsimp only at h
      split at h
      next hlen =>
        split at h
        next hcode =>
          have htake : (payload.take headSize).length = headSize := by
            rw [List.length_take, hlen]
            decide
          have hpayload : payload = payload.take headSize ++ checkCode (payload.take headSize) := by
            rw [hcode, List.take_append_drop]
          refine ⟨payload.take headSize, htake, ?_, ?_⟩
          · rw [textOf, ← hpayload]
            exact eq_encode_of_decode hd
          · rw [← Except.ok.inj h]
            cases payload <;> rfl
        · cases h
      · cases h
  · rintro ⟨head, hlen, rfl, rfl⟩
    have hhead : (head ++ checkCode head).headD 0 = head.headD 0 := by
      cases head with
      | nil => cases hlen
      | cons b head => rfl
    rw [parse, textOf, decode_encode]
    dsimp only
    rw [if_pos (length_payload hlen), ← hlen, List.take_left, List.drop_left, if_pos rfl, hhead]

/-- Each leading zero byte takes one digit, and the other bytes, of which there are at least five,
take more digits than they are, but at most ten more. -/
theorem pow_between : ∀ k < 26, 5 ≤ k → 58 ^ k ≤ 256 ^ (k - 1) ∧ 256 ^ k ≤ 58 ^ (k + 10) := by
  decide

theorem utf8ByteSize_textOf_zero :
    26 ≤ (textOf (List.replicate headSize 0)).utf8ByteSize ∧
      (textOf (List.replicate headSize 0)).utf8ByteSize ≤ 35 := by
  decide +kernel

theorem leadingZeros_payload_lt {head : Bytes} (hlen : head.length = headSize)
    (hne : head ≠ List.replicate headSize 0) :
    leadingZeros (digitsOfBytes (head ++ checkCode head)) < headSize := by
  by_contra hz
  have hds := eq_numeral (by decide) (digitsOfBytes_lt (head ++ checkCode head))
  have htake := congrArg (List.take headSize) hds
  rw [digitsOfBytes, List.map_append, List.take_left' (by rw [List.length_map, hlen]), numeral,
    List.take_append_of_le_length (by simpa [digitsOfBytes] using hz), List.take_replicate] at htake
  apply hne
  rw [← map_toUInt8_digitsOfBytes head, digitsOfBytes, htake,
    Nat.min_eq_left (by simpa [digitsOfBytes] using hz), List.map_replicate]
  rfl

theorem utf8ByteSize_textOf {head : Bytes} (hlen : head.length = headSize) :
    26 ≤ (textOf head).utf8ByteSize ∧ (textOf head).utf8ByteSize ≤ 35 := by
  by_cases hne : head = List.replicate headSize 0
  · rw [hne]
    exact utf8ByteSize_textOf_zero
  · have hz := leadingZeros_payload_lt hlen hne
    rw [textOf, utf8ByteSize_encode]
    have hds := congrArg List.length
      (eq_numeral (by decide) (digitsOfBytes_lt (head ++ checkCode head)))
    rw [← toNat_eq_valueOf, length_numeral, digitsOfBytes, List.length_map, length_payload hlen,
      ← digitsOfBytes] at hds
    generalize leadingZeros (digitsOfBytes (head ++ checkCode head)) = z at *
    generalize (head ++ checkCode head).toNat = n at *
    have hk : (Nat.digits 256 n).length = 25 - z := by
      have h25 : headSize + codeSize = 25 := rfl
      omega
    have hz20 : z ≤ 20 := Nat.le_of_lt_succ hz
    obtain ⟨hlow, hhigh⟩ := pow_between (25 - z) (by omega) (by omega)
    have hn_ge : 256 ^ (25 - z - 1) ≤ n := (Nat.lt_digits_length_iff (by decide) n).mp (by omega)
    have hn_lt : n < 256 ^ (25 - z) := (Nat.digits_length_le_iff (by decide) n).mp (by omega)
    have hlow := (Nat.lt_digits_length_iff (b := 58) (by decide) n).mpr (hlow.trans hn_ge)
    have hhigh := (Nat.digits_length_le_iff (b := 58) (by decide) n).mpr (hn_lt.trans_le hhigh)
    omega

theorem utf8ByteSize_of_parse {s : String} {a : CheckedAddress} (h : parse s = .ok a) :
    26 ≤ s.utf8ByteSize ∧ s.utf8ByteSize ≤ 35 := by
  obtain ⟨head, hlen, rfl, -⟩ := parse_eq_ok_iff.mp h
  exact utf8ByteSize_textOf hlen

theorem text_of_parse {s : String} {a : CheckedAddress} (h : parse s = .ok a) : a.text = s := by
  obtain ⟨head, -, -, rfl⟩ := parse_eq_ok_iff.mp h
  rfl

theorem parse_generate (source : Bytes) (network : EntityType) :
    parse (generate source network).text = .ok (generate source network) := by
  refine parse_eq_ok_iff.mpr ⟨network.byte :: Digest.hash160 source, ?_, rfl, rfl⟩
  rw [List.length_cons, Digest.hash160, Digest.length_ripemd160]
  rfl

end MessagingIdentity.CheckedAddress

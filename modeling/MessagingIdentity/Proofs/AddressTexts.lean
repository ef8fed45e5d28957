import MessagingIdentity.Address.Basic
import MessagingIdentity.Proofs.CheckedAddressTexts
import MessagingIdentity.Proofs.HashedAddressTexts

namespace MessagingIdentity

namespace Broadcast

theorem utf8ByteSize_of_named? {s : String} {b : Broadcast} (h : named? s = some b) :
    s.utf8ByteSize = b.text.utf8ByteSize := by
  have he : s.toList.map Char.toLower = b.text.toList := by
    simpa using List.find?_some h
  have hall : (b.text.toList.all fun c ↦ c.toNat ≤ 127) = true := by
    cases b <;> decide
  have htext : ∀ c ∈ b.text.toList, c.toNat ≤ 127 :=
    fun c hc ↦ of_decide_eq_true (List.all_eq_true.mp hall c hc)
  have hs : ∀ c ∈ s.toList, c.toNat ≤ 127 := by
    intro c hc
    refine Bytes.ascii_of_toLower (htext _ ?_)
    rw [← he]
    exact List.mem_map_of_mem hc
  rw [← String.ofList_toList (s := s), Bytes.utf8ByteSize_ofList_of_ascii hs,
    ← String.ofList_toList (s := b.text), Bytes.utf8ByteSize_ofList_of_ascii htext, ← he,
    List.length_map]

theorem size_of_named? {s : String} {b : Broadcast} (h : named? s = some b) :
    s.utf8ByteSize = 8 ∨ s.utf8ByteSize = 10 := by
  rw [utf8ByteSize_of_named? h]
  cases b <;> decide

theorem named?_eq_none {s : String} (h : 10 < s.utf8ByteSize) : named? s = none := by
  cases hb : named? s with
  | none => rfl
  | some b =>
    have := size_of_named? hb
    omega

theorem named?_text (b : Broadcast) : named? b.text = some b := by
  cases b <;> decide

end Broadcast

namespace Address

theorem parse_of_named {s : String} {b : Broadcast} (h : Broadcast.named? s = some b) :
    parse s = .ok (.broadcast b) := by
  have hsize := Broadcast.size_of_named? h
  simp [parse, h, show s.utf8ByteSize ≠ 0 by omega]

theorem parse_of_checked {s : String} {a : CheckedAddress} (h : CheckedAddress.parse s = .ok a) :
    parse s = .ok (.checked a) := by
  have hsize := CheckedAddress.utf8ByteSize_of_parse h
  rw [parse, if_neg (by omega), Broadcast.named?_eq_none (by omega)]
  dsimp only
  rw [if_pos hsize, h]
  rfl

theorem parse_of_hashed {s : String} {a : HashedAddress} (h : HashedAddress.parse s = .ok a) :
    parse s = .ok (.hashed a) := by
  have hsize := HashedAddress.utf8ByteSize_of_parse h
  have h42 : s.utf8ByteSize = 42 := hsize
  rw [parse, if_neg (by omega), Broadcast.named?_eq_none (by omega)]
  dsimp only
  rw [if_neg (by omega), if_pos hsize, h]
  rfl

/-- What a text was read as, without its length. -/
def ReadAs (s : String) : Address → Prop
  | checked a => CheckedAddress.parse s = .ok a
  | hashed a => HashedAddress.parse s = .ok a
  | broadcast b => Broadcast.named? s = some b

theorem parse_eq_ok_iff {s : String} {a : Address} : parse s = .ok a ↔ ReadAs s a := by
  constructor
  · intro h
    rw [parse] at h
    split at h
    · cases h
    split at h
    next b hb =>
      obtain rfl := Except.ok.inj h
      exact hb
    split at h
    · obtain ⟨c, hc, rfl⟩ := Except.map_eq_ok_iff.mp h
      exact hc
    split at h
    · obtain ⟨c, hc, rfl⟩ := Except.map_eq_ok_iff.mp h
      exact hc
    · cases h
  · intro h
    cases a with
    | checked a => exact parse_of_checked h
    | hashed a => exact parse_of_hashed h
    | broadcast b => exact parse_of_named h

/-- The addresses that there can be: those that are read, those that are derived, and the broadcast
ones. -/
inductive Made : Address → Prop
  | parsed {s : String} {a : Address} : Address.parse s = .ok a → Made a
  | checkedParsed {s : String} {a : CheckedAddress} :
      CheckedAddress.parse s = .ok a → Made (.checked a)
  | checkedGenerated (source : Bytes) (network : EntityType) :
      Made (.checked (.generate source network))
  | hashedParsed {s : String} {a : HashedAddress} : HashedAddress.parse s = .ok a → Made (.hashed a)
  | hashedGenerated {key : Bytes} {a : HashedAddress} :
      HashedAddress.generate key = .ok a → Made (.hashed a)
  | broadcast (b : Broadcast) : Made (.broadcast b)

theorem ReadAs.text {s : String} {a : Address} (h : ReadAs s a) : ReadAs a.text a := by
  cases a with
  | checked a =>
    have ht : a.text = s := CheckedAddress.text_of_parse h
    simpa only [ReadAs, Address.text, ht] using h
  | hashed a =>
    have ht : a.text = s := HashedAddress.text_of_parse h
    simpa only [ReadAs, Address.text, ht] using h
  | broadcast b => exact Broadcast.named?_text b

theorem Made.parse_text {a : Address} (h : a.Made) : parse a.text = .ok a := by
  rw [parse_eq_ok_iff]
  cases h with
  | parsed h => exact (parse_eq_ok_iff.mp h).text
  | checkedParsed h => exact ReadAs.text (a := .checked _) h
  | checkedGenerated source network => exact CheckedAddress.parse_generate source network
  | hashedParsed h => exact ReadAs.text (a := .hashed _) h
  | hashedGenerated h => exact HashedAddress.parse_generate h
  | broadcast b => exact Broadcast.named?_text b

/-- Addresses with a check code are the base58 texts of 21 bytes and the first four bytes of their
double digest. The window of lengths leaves out none of them, and both readers find the text and the
network byte that were written. -/
theorem checked_read_iff_written :
    (∀ s a, parse s = .ok (.checked a) ↔ CheckedAddress.parse s = .ok a) ∧
    (∀ s a, CheckedAddress.parse s = .ok a ↔ ∃ head : Bytes, head.length = 21 ∧
      s = Base58.encode (head ++ (Digest.sha256 (Digest.sha256 head)).take 4) ∧
      a.text = s ∧ head.head? = some a.network.byte) ∧
    (∀ source network,
      26 ≤ (CheckedAddress.generate source network).text.utf8ByteSize ∧
      (CheckedAddress.generate source network).text.utf8ByteSize ≤ 35 ∧
      CheckedAddress.parse (CheckedAddress.generate source network).text =
        .ok (CheckedAddress.generate source network) ∧
      parse (CheckedAddress.generate source network).text =
        .ok (.checked (CheckedAddress.generate source network)) ∧
      (CheckedAddress.generate source network).network = network) := by
  refine ⟨fun s a ↦ parse_eq_ok_iff, fun s a ↦ ?_, fun source network ↦ ?_⟩
  · rw [CheckedAddress.parse_eq_ok_iff]
    constructor
    · rintro ⟨head, hlen, hs, rfl⟩
      refine ⟨head, hlen, hs, rfl, ?_⟩
      cases head with
      | nil => cases hlen
      | cons b head => rfl
    · rintro ⟨head, hlen, hs, ht, hb⟩
      refine ⟨head, hlen, hs, ?_⟩
      obtain ⟨text, ⟨byte⟩⟩ := a
      cases head with
      | nil => cases hb
      | cons b head =>
        obtain rfl : b = byte := by simpa using hb
        obtain rfl : text = s := ht
        rfl
  · have hread := CheckedAddress.parse_generate source network
    have hsize := CheckedAddress.utf8ByteSize_of_parse hread
    exact ⟨hsize.1, hsize.2, hread, parse_of_checked hread, rfl⟩

end Address

end MessagingIdentity

import MessagingIdentity.Proofs.AddressTexts
import MessagingIdentity.Proofs.PointAddresses

namespace MessagingIdentity.HashedAddress

/-- The texts differ in the case of ASCII letters at most. -/
def SameLetters (s t : String) : Prop := s.toList.map Char.toLower = t.toList.map Char.toLower

/-- How the digit at a place is to be written: as a capital where the half byte at that place of the
digest of all digits in lower case has its highest bit set. -/
def cased (digits : List Char) (i : ℕ) (c : Char) : Char :=
  if 8 ≤ nibbleAt (Digest.keccak256 (Bytes.ofText (String.ofList (digits.map Char.toLower)))) i then
    c.toUpper
  else c.toLower

variable {digits : List Char} {s t : String} {a b : HashedAddress}

theorem map_toLower_map_toLower (hall : digits.all isDigit = true) :
    (digits.map Char.toLower).map Char.toLower = digits.map Char.toLower := by
  rw [List.map_map]
  exact List.map_congr_left fun c hc ↦
    (casings_of_isDigit (List.all_eq_true.mp hall c hc)).2.2.2.1

theorem all_isDigit_map_toLower (hall : digits.all isDigit = true) :
    (digits.map Char.toLower).all isDigit = true := by
  rw [List.all_map, List.all_eq_true]
  exact fun c hc ↦ (casings_of_isDigit (List.all_eq_true.mp hall c hc)).2.1

theorem getElem?_checksumCase (hlen : digits.length = 40) (hall : digits.all isDigit = true) (i : ℕ) :
    (checksumCase (digits.map Char.toLower))[i]? = digits[i]?.map (cased digits i) := by
  have hlower : (digits.map Char.toLower).length = 40 := by rw [List.length_map, hlen]
  by_cases hi : i < 40
  · have hdigit : i < digits.length := hlen ▸ hi
    have hcase : i < (checksumCase (digits.map Char.toLower)).length := by
      rwa [length_checksumCase hlower]
    have hc := casings_of_isDigit (List.all_eq_true.mp hall _ (List.getElem_mem hdigit))
    rw [List.getElem?_eq_getElem hcase, List.getElem?_eq_getElem hdigit, Option.map_some]
    simp only [checksumCase, List.getElem_zipWith, List.getElem_map, caseBy, cased, nibbles_eq,
      List.getElem_range, hc.2.2.2.2]
  · rw [List.getElem?_eq_none (by rw [length_checksumCase hlower]; omega),
      List.getElem?_eq_none (by omega), Option.map_none]

theorem isChecksummed_iff : a.isChecksummed = true ↔
    checksumCase (a.digits.map Char.toLower) = a.digits := beq_iff_eq

theorem digits_mk (digits : List Char) :
    (HashedAddress.mk (String.ofList ('0' :: 'x' :: digits))).digits = digits := by
  rw [HashedAddress.digits, String.toList_ofList]
  rfl

theorem isChecksummed_iff_cased (h : parse s = .ok a) : a.isChecksummed = true ↔
    ∀ i, ∀ c ∈ a.digits[i]?, c = cased a.digits i c := by
  obtain ⟨rfl, digits, hlen, hall, rfl⟩ := parse_eq_ok_iff.mp h
  rw [isChecksummed_iff, digits_mk, List.ext_getElem?_iff]
  refine forall_congr' fun i ↦ ?_
  rw [getElem?_checksumCase hlen hall]
  cases digits[i]? with
  | none => simp
  | some c => simp [eq_comm]

theorem sameLetters_iff {others : List Char} :
    SameLetters (String.ofList ('0' :: 'x' :: others)) (String.ofList ('0' :: 'x' :: digits)) ↔
      others.map Char.toLower = digits.map Char.toLower := by
  simp [SameLetters]

def checksummedText (digits : List Char) : String :=
  String.ofList ('0' :: 'x' :: checksumCase (digits.map Char.toLower))

theorem parse_checksummedText (hlen : digits.length = 40) (hall : digits.all isDigit = true) :
    parse (checksummedText digits) = .ok ⟨checksummedText digits⟩ ∧
      (HashedAddress.mk (checksummedText digits)).isChecksummed = true := by
  have hlower : (digits.map Char.toLower).length = 40 := by rw [List.length_map, hlen]
  have hdigits := all_isDigit_map_toLower hall
  refine ⟨parse_eq_ok_iff.mpr ⟨rfl, _, length_checksumCase hlower,
    all_isDigit_checksumCase hlower hdigits, rfl⟩, ?_⟩
  rw [isChecksummed_iff, checksummedText, digits_mk, map_toLower_checksumCase hlower hdigits,
    map_toLower_map_toLower hall]

theorem isChecksummed_ofCoordinates (coordinates : Bytes) :
    (ofCoordinates coordinates).isChecksummed = true := by
  have hlower : (digitsOf coordinates).map Char.toLower = digitsOf coordinates := by
    rw [List.map_congr_left (forall_mem_digitsOf (P := fun c ↦ c.toLower = c) (by decide) coordinates),
      List.map_id']
  rw [isChecksummed_iff, ofCoordinates, digits_mk,
    map_toLower_checksumCase (length_digitsOf coordinates) (all_isDigit_digitsOf coordinates), hlower]

/-- Of the texts that differ from an address in the case of their letters, exactly one is an address
with the checksum; it has the checksum exactly if each of its digits has the case that the digest of
them all asks for. The address of a key carries the checksum, and it is read back from its text. -/
theorem one_casing_checksummed :
    (∀ s a, parse s = .ok a →
      ∃! t, SameLetters t s ∧ ∃ b, parse t = .ok b ∧ b.isChecksummed = true) ∧
    (∀ s a, parse s = .ok a → (a.isChecksummed = true ↔
      ∀ i, ∀ c ∈ a.digits[i]?, c = cased a.digits i c)) ∧
    ∀ key a, generate key = .ok a → a.isChecksummed = true ∧ parse a.text = .ok a ∧
      Address.parse a.text = .ok (.hashed a) := by
  refine ⟨?_, fun s a h ↦ isChecksummed_iff_cased h, ?_⟩
  · intro s a h
    obtain ⟨-, digits, hlen, hall, rfl⟩ := parse_eq_ok_iff.mp h
    obtain ⟨hread, hchecksum⟩ := parse_checksummedText hlen hall
    refine ⟨checksummedText digits, ⟨?_, _, hread, hchecksum⟩, ?_⟩
    · have hlower : (digits.map Char.toLower).length = 40 := by rw [List.length_map, hlen]
      rw [checksummedText, sameLetters_iff,
        map_toLower_checksumCase hlower (all_isDigit_map_toLower hall), map_toLower_map_toLower hall]
    · rintro t ⟨hletters, b, hb, hchecksum⟩
      obtain ⟨rfl, others, hlen_others, hall_others, rfl⟩ := parse_eq_ok_iff.mp hb
      have hsame := isChecksummed_iff.mp hchecksum
      rw [digits_mk, sameLetters_iff.mp hletters] at hsame
      rw [checksummedText, hsame]
  · intro key a h
    have hread := parse_generate h
    obtain ⟨coordinates, rfl⟩ := of_generate h
    exact ⟨isChecksummed_ofCoordinates coordinates, hread, Address.parse_of_hashed hread⟩

theorem one_casing_checksummed_lower : ∃ a t b c,
    parse "0x7e5f4552091a69125d5dfcb7b8c2659029395bdf" = .ok a ∧
      SameLetters t "0x7e5f4552091a69125d5dfcb7b8c2659029395bdf" ∧ parse t = .ok b ∧
      b.isChecksummed = true ∧
      (a.isChecksummed = true ↔ ∀ i, ∀ d ∈ a.digits[i]?, d = cased a.digits i d) ∧
      generate Secp256k1.CurvePoint.generator.uncompressed = .ok c ∧ c.isChecksummed = true ∧
      Address.parse c.text = .ok (.hashed c) := by
  obtain ⟨hcasing, hcased, hkeys⟩ := one_casing_checksummed
  have hread : parse "0x7e5f4552091a69125d5dfcb7b8c2659029395bdf" =
      .ok ⟨"0x7e5f4552091a69125d5dfcb7b8c2659029395bdf"⟩ := by rfl
  obtain ⟨t, ⟨hletters, b, hb, hchecksum⟩, -⟩ := hcasing _ _ hread
  have hkey := generate_of_stored (.inl (Secp256k1.CurvePoint.uncompressed_mem_forms .generator))
  obtain ⟨hc, -, hparse⟩ := hkeys _ _ hkey
  exact ⟨_, t, b, _, hread, hletters, hb, hchecksum, hcased _ _ hread, hkey, hc, hparse⟩

end MessagingIdentity.HashedAddress

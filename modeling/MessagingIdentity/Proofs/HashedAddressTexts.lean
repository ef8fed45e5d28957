import MessagingIdentity.Address.Hashed
import MessagingIdentity.Proofs.DigestLengths
import MessagingIdentity.Proofs.TextBytes

namespace MessagingIdentity.HashedAddress

theorem isDigit_ascii {c : Char} (h : isDigit c = true) : c.toNat ≤ 127 := by
  simp only [isDigit, Char.isDigit, Bool.or_eq_true, Bool.and_eq_true, decide_eq_true_eq,
    Char.le_def, ge_iff_le, UInt32.le_iff_toNat_le] at h
  rcases h with (⟨-, h⟩ | ⟨-, h⟩) | ⟨-, h⟩ <;> exact Nat.le_trans h (by decide)

theorem marked_ascii {digits : List Char} (h : digits.all isDigit = true) :
    ∀ c ∈ '0' :: 'x' :: digits, c.toNat ≤ 127 := by
  intro c hc
  rcases List.mem_cons.mp hc with rfl | hc
  · decide
  rcases List.mem_cons.mp hc with rfl | hc
  · decide
  · exact isDigit_ascii (List.all_eq_true.mp h c hc)

theorem parse_eq_ok_iff {s : String} {a : HashedAddress} : parse s = .ok a ↔
    a = ⟨s⟩ ∧ ∃ digits : List Char, digits.length = 40 ∧ digits.all isDigit = true ∧
      s = String.ofList ('0' :: 'x' :: digits) := by
  constructor
  · intro h
    rw [parse] at h
    split at h
    next hsize =>
      split at h
      next digits hs =>
        split at h
        next hall =>
          have hs : s = String.ofList ('0' :: 'x' :: digits) := by
            rw [← hs, String.ofList_toList]
          rw [hs, Bytes.utf8ByteSize_ofList_of_ascii (marked_ascii hall)] at hsize
          exact ⟨(Except.ok.inj h).symm, digits, by simpa [textSize] using hsize, hall, hs⟩
        · cases h
      · cases h
    · cases h
  · rintro ⟨rfl, digits, hlen, hall, rfl⟩
    have hsize : (String.ofList ('0' :: 'x' :: digits)).utf8ByteSize = textSize := by
      rw [Bytes.utf8ByteSize_ofList_of_ascii (marked_ascii hall), List.length_cons,
        List.length_cons, hlen]
      rfl
    rw [parse, if_pos hsize]
    simp [hall]

theorem utf8ByteSize_of_parse {s : String} {a : HashedAddress} (h : parse s = .ok a) :
    s.utf8ByteSize = textSize := by
  rw [parse] at h
  split at h
  · assumption
  · cases h

theorem text_of_parse {s : String} {a : HashedAddress} (h : parse s = .ok a) : a.text = s := by
  rw [(parse_eq_ok_iff.mp h).1]

theorem casings_of_isDigit {c : Char} (h : isDigit c = true) :
    isDigit c.toUpper = true ∧ isDigit c.toLower = true ∧ c.toUpper.toLower = c.toLower ∧
      c.toLower.toLower = c.toLower ∧ c.toLower.toUpper = c.toUpper := by
  have hall : ((List.range 128).all fun n ↦ !isDigit (Char.ofNat n) ||
      (isDigit (Char.ofNat n).toUpper && isDigit (Char.ofNat n).toLower &&
        (Char.ofNat n).toUpper.toLower == (Char.ofNat n).toLower &&
        (Char.ofNat n).toLower.toLower == (Char.ofNat n).toLower &&
        (Char.ofNat n).toLower.toUpper == (Char.ofNat n).toUpper)) = true := by decide
  have hn := List.all_eq_true.mp hall c.toNat (List.mem_range.mpr (Nat.lt_succ_of_le (isDigit_ascii h)))
  rw [Char.ofNat_toNat, h] at hn
  simpa [and_assoc] using hn

theorem length_nibbles (b : Bytes) : (nibbles b).length = 2 * b.length := by
  simp [nibbles, List.length_flatMap, Nat.mul_comm]

variable {digits : List Char}

theorem length_checksumCase (hlen : digits.length = 40) : (checksumCase digits).length = 40 := by
  rw [checksumCase, List.length_zipWith, length_nibbles, Digest.length_keccak256, hlen]
  rfl

theorem map_checksumCase {α : Type} {f : Char → α} (hlen : digits.length = 40)
    (h : ∀ c ∈ digits, f c.toUpper = f c) : (checksumCase digits).map f = digits.map f := by
  refine List.ext_getElem ?_ fun i hi hdigit ↦ ?_
  · rw [List.length_map, List.length_map, length_checksumCase hlen, hlen]
  · simp only [List.getElem_map, checksumCase, List.getElem_zipWith, caseBy]
    split
    · exact h _ (List.getElem_mem _)
    · rfl

theorem all_isDigit_checksumCase (hlen : digits.length = 40) (hall : digits.all isDigit = true) :
    (checksumCase digits).all isDigit = true := by
  have hdigits := map_checksumCase (f := isDigit) hlen fun c hc ↦ by
    have hc := List.all_eq_true.mp hall c hc
    rw [(casings_of_isDigit hc).1, hc]
  have hsame := congrArg (List.all · id) hdigits
  simp only [List.all_map, Function.id_comp] at hsame
  exact hsame.trans hall

theorem map_toLower_checksumCase (hlen : digits.length = 40) (hall : digits.all isDigit = true) :
    (checksumCase digits).map Char.toLower = digits.map Char.toLower :=
  map_checksumCase hlen fun c hc ↦ (casings_of_isDigit (List.all_eq_true.mp hall c hc)).2.2.1

theorem length_digitsOf (coordinates : Bytes) : (digitsOf coordinates).length = 40 := by
  simp [digitsOf, List.length_flatMap, Hexadecimal.pair, Digest.length_keccak256, skipped]

theorem forall_mem_digitsOf {P : Char → Prop} (h : ∀ d < 16, P (Hexadecimal.digit d))
    (coordinates : Bytes) : ∀ c ∈ digitsOf coordinates, P c := by
  intro c hc
  obtain ⟨b, -, hc⟩ := List.mem_flatMap.mp hc
  have hb := b.toNat_lt
  rcases List.mem_cons.mp hc with rfl | hc
  · exact h _ (by omega)
  · exact List.mem_singleton.mp hc ▸ h _ (by omega)

theorem all_isDigit_digitsOf (coordinates : Bytes) : (digitsOf coordinates).all isDigit = true :=
  List.all_eq_true.mpr (forall_mem_digitsOf (by decide) coordinates)

theorem parse_ofCoordinates (coordinates : Bytes) :
    parse (ofCoordinates coordinates).text = .ok (ofCoordinates coordinates) := by
  have hlen := length_digitsOf coordinates
  exact parse_eq_ok_iff.mpr ⟨rfl, _, length_checksumCase hlen,
    all_isDigit_checksumCase hlen (all_isDigit_digitsOf coordinates), rfl⟩

theorem of_generate {key : Bytes} {a : HashedAddress} (h : generate key = .ok a) :
    ∃ coordinates, a = ofCoordinates coordinates := by
  unfold generate at h
  split at h
  · exact ⟨_, (Except.ok.inj h).symm⟩
  split at h
  · exact ⟨_, (Except.ok.inj h).symm⟩
  split at h
  · split at h
    · exact ⟨_, (Except.ok.inj h).symm⟩
    · cases h
  · cases h

theorem parse_generate {key : Bytes} {a : HashedAddress} (h : generate key = .ok a) :
    parse a.text = .ok a := by
  obtain ⟨coordinates, rfl⟩ := of_generate h
  exact parse_ofCoordinates coordinates

end MessagingIdentity.HashedAddress

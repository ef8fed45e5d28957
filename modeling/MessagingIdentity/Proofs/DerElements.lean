import MessagingIdentity.Asn1.Der
import MessagingIdentity.Proofs.BigEndian
import MessagingIdentity.Proofs.TextBytes

namespace MessagingIdentity

namespace Der

variable {b c c' rest rest' : Bytes} {t t' : UInt8} {n n' : ℕ}

def lengthLimit : ℕ := 0x10000000

theorem lengthBytes_of_lt (h : n < 128) : lengthBytes n = [n.toUInt8] := if_pos h

theorem lengthBytes_of_le (h : 128 ≤ n) :
    lengthBytes n = (128 + Bytes.widthOf n).toUInt8 :: Bytes.minimal n := if_neg (Nat.not_lt.mpr h)

theorem readLength_append (h : n < lengthLimit) (rest : Bytes) :
    readLength (lengthBytes n ++ rest) = some (n, rest) := by
  by_cases hn : n < 128
  · have hbyte : n.toUInt8 < 128 := by
      rw [UInt8.lt_iff_toNat_lt, Bytes.toNat_toUInt8 (by omega)]
      exact hn
    rw [lengthBytes_of_lt hn, List.singleton_append, readLength, if_pos hbyte,
      Bytes.toNat_toUInt8 (by omega)]
  · have hlong := lengthBytes_of_le (Nat.not_lt.mp hn)
    have hwidth : Bytes.widthOf n ≤ 4 := Bytes.widthOf_le (k := 3) (h.trans (by decide))
    have hfirst : (128 + Bytes.widthOf n).toUInt8.toNat = 128 + Bytes.widthOf n :=
      Bytes.toNat_toUInt8 (by omega)
    have hbyte : ¬ (128 + Bytes.widthOf n).toUInt8 < 128 := by
      rw [UInt8.lt_iff_toNat_lt, hfirst]
      exact Nat.not_lt.mpr (Nat.le_add_right _ _)
    have htake : (Bytes.minimal n ++ rest).take (Bytes.widthOf n) = Bytes.minimal n :=
      List.take_left' (Bytes.length_minimal n)
    have hdrop : (Bytes.minimal n ++ rest).drop (Bytes.widthOf n) = rest :=
      List.drop_left' (Bytes.length_minimal n)
    have hlength : Bytes.widthOf n ≤ (Bytes.minimal n ++ rest).length := by
      rw [List.length_append, Bytes.length_minimal]
      exact Nat.le_add_right _ _
    rw [hlong, List.cons_append, readLength, if_neg hbyte, hfirst, Nat.add_sub_cancel_left]
    dsimp only
    rw [htake, hdrop, Bytes.toNat_minimal]
    exact if_pos ⟨Nat.le_add_left _ _, hwidth, hlength, hlong, h⟩

theorem readLength_eq_some_iff :
    readLength b = some (n, rest) ↔ n < lengthLimit ∧ b = lengthBytes n ++ rest := by
  refine ⟨fun h ↦ ?_, fun ⟨hn, hb⟩ ↦ hb ▸ readLength_append hn rest⟩
  cases b with
  | nil => cases h
  | cons x b =>
    rw [readLength] at h
    split at h
    next hx =>
      obtain ⟨rfl, rfl⟩ := Prod.mk.inj (Option.some.inj h)
      have hlt : x.toNat < 128 := UInt8.lt_iff_toNat_lt.mp hx
      refine ⟨hlt.trans (by decide), ?_⟩
      rw [lengthBytes_of_lt hlt, Nat.toUInt8_eq, UInt8.ofNat_toNat]
      rfl
    · dsimp only at h
      split at h
      next hread =>
        obtain ⟨rfl, rfl⟩ := Prod.mk.inj (Option.some.inj h)
        obtain ⟨-, -, -, hlength, hlimit⟩ := hread
        rw [hlength, List.cons_append, List.take_append_drop]
        exact ⟨hlimit, rfl⟩
      · cases h

theorem lengthBytes_append_inj (hn : n < 256 ^ 127) (hn' : n' < 256 ^ 127)
    (h : lengthBytes n ++ rest = lengthBytes n' ++ rest') : n = n' ∧ rest = rest' := by
  have hwidth : Bytes.widthOf n ≤ 127 := Bytes.widthOf_le hn
  have hwidth' : Bytes.widthOf n' ≤ 127 := Bytes.widthOf_le hn'
  have hpos (m : ℕ) : 1 ≤ Bytes.widthOf m := Nat.le_add_left 1 _
  by_cases hshort : n < 128 <;> by_cases hshort' : n' < 128
  · rw [lengthBytes_of_lt hshort, lengthBytes_of_lt hshort'] at h
    obtain ⟨hbyte, hrest⟩ := List.cons.inj h
    have := congrArg UInt8.toNat hbyte
    rw [Bytes.toNat_toUInt8 (by omega), Bytes.toNat_toUInt8 (by omega)] at this
    exact ⟨this, hrest⟩
  · rw [lengthBytes_of_lt hshort, lengthBytes_of_le (Nat.not_lt.mp hshort')] at h
    have := congrArg UInt8.toNat (List.cons.inj h).1
    rw [Bytes.toNat_toUInt8 (by omega), Bytes.toNat_toUInt8 (by omega)] at this
    omega
  · rw [lengthBytes_of_le (Nat.not_lt.mp hshort), lengthBytes_of_lt hshort'] at h
    have := congrArg UInt8.toNat (List.cons.inj h).1
    rw [Bytes.toNat_toUInt8 (by omega), Bytes.toNat_toUInt8 (by omega)] at this
    omega
  · rw [lengthBytes_of_le (Nat.not_lt.mp hshort), lengthBytes_of_le (Nat.not_lt.mp hshort')] at h
    obtain ⟨hbyte, htail⟩ := List.cons.inj h
    have := congrArg UInt8.toNat hbyte
    rw [Bytes.toNat_toUInt8 (by omega), Bytes.toNat_toUInt8 (by omega)] at this
    obtain ⟨hminimal, hrest⟩ := List.append_inj htail <| by
      rw [Bytes.length_minimal, Bytes.length_minimal]
      omega
    exact ⟨Bytes.minimal_injective hminimal, hrest⟩

theorem element_append (t : UInt8) (c rest : Bytes) :
    element t c ++ rest = t :: (lengthBytes c.length ++ (c ++ rest)) := by
  rw [element, List.cons_append, List.cons_append, List.append_assoc]

theorem read_eq_some_iff {e : Element} :
    read b = some (e, rest) ↔ isKnownTag e.tag = true ∧ e.content.length < lengthLimit ∧
      b = element e.tag e.content ++ rest := by
  rw [element_append]
  cases b with
  | nil => exact iff_of_false nofun nofun
  | cons x b =>
    constructor
    · intro h
      obtain ⟨⟨n, tail⟩, hlength, helement⟩ := Option.bind_eq_some_iff.mp h
      obtain ⟨hlimit, rfl⟩ := readLength_eq_some_iff.mp hlength
      dsimp only at helement
      split at helement
      next hknown =>
        obtain ⟨rfl, rfl⟩ := Prod.mk.inj (Option.some.inj helement)
        have htake : (tail.take n).length = n := by
          rw [List.length_take]
          exact Nat.min_eq_left hknown.2
        refine ⟨hknown.1, by rwa [htake], ?_⟩
        rw [htake, List.take_append_drop]
      · cases helement
    · rintro ⟨hknown, hlimit, h⟩
      obtain ⟨rfl, hb⟩ := List.cons.inj h
      refine Option.bind_eq_some_iff.mpr ⟨_, readLength_eq_some_iff.mpr ⟨hlimit, hb⟩, ?_⟩
      dsimp only
      rw [if_pos ⟨hknown, by rw [List.length_append]; omega⟩, List.take_left, List.drop_left]
      rfl

theorem expect_eq_some_iff :
    expect t b = some (c, rest) ↔ isKnownTag t = true ∧ c.length < lengthLimit ∧
      b = element t c ++ rest := by
  refine Option.bind_eq_some_iff.trans ⟨?_, fun h ↦ ?_⟩
  · rintro ⟨⟨e, tail⟩, hread, h⟩
    dsimp only at h
    split at h
    next htag =>
      obtain ⟨rfl, rfl⟩ := Prod.mk.inj (Option.some.inj h)
      exact htag ▸ read_eq_some_iff.mp hread
    · cases h
  · exact ⟨⟨⟨t, c⟩, rest⟩, read_eq_some_iff.mpr h, if_pos rfl⟩

theorem only_eq_some_iff :
    only t b = some c ↔ isKnownTag t = true ∧ c.length < lengthLimit ∧ b = element t c := by
  refine Option.bind_eq_some_iff.trans ⟨?_, fun h ↦ ?_⟩
  · rintro ⟨⟨content, tail⟩, hexpect, h⟩
    dsimp only at h
    split at h
    next htail =>
      obtain rfl := Option.some.inj h
      rw [List.isEmpty_iff.mp htail] at hexpect
      simpa using expect_eq_some_iff.mp hexpect
    · cases h
  · exact ⟨⟨c, []⟩, expect_eq_some_iff.mpr (by simpa using h), rfl⟩

/-- Elements are told apart whatever follows them. -/
theorem element_append_inj (h : element t c ++ rest = element t' c' ++ rest')
    (hlength : (element t c ++ rest).length < 256 ^ 127) : t = t' ∧ c = c' ∧ rest = rest' := by
  have hshort {t : UInt8} {c rest : Bytes} (hlength : (element t c ++ rest).length < 256 ^ 127) :
      c.length < 256 ^ 127 := by
    rw [element_append] at hlength
    simp only [List.length_append, List.length_cons] at hlength
    omega
  have hc := hshort hlength
  have hc' := hshort (h ▸ hlength)
  rw [element_append, element_append] at h
  obtain ⟨htag, h⟩ := List.cons.inj h
  obtain ⟨hcontent, h⟩ := lengthBytes_append_inj hc hc' h
  exact ⟨htag, List.append_inj h hcontent⟩

theorem element_inj (h : element t c = element t' c') (hlength : (element t c).length < 256 ^ 127) :
    t = t' ∧ c = c' := by
  have happend : element t c ++ [] = element t' c' ++ [] := by rw [h]
  obtain ⟨htag, hcontent, -⟩ := element_append_inj happend (by rwa [List.append_nil])
  exact ⟨htag, hcontent⟩

theorem integerContent_of_minimal {x : UInt8} (h : Bytes.minimal n = x :: b) :
    integerContent n = if x < 128 then x :: b else 0 :: x :: b := by
  rw [integerContent, h]
  rfl

theorem natural?_integerContent (n : ℕ) : natural? (integerContent n) = some n := by
  obtain ⟨x, b, hminimal, hzero⟩ := Bytes.minimal_eq_cons n
  have hvalue : Bytes.toNat (x :: b) = n := hminimal ▸ Bytes.toNat_minimal n
  rw [integerContent_of_minimal hminimal]
  by_cases hx : x < 128
  · rw [if_pos hx]
    cases b with
    | nil => rw [natural?, if_pos hx, ← hvalue, Bytes.toNat_cons]; simp [Bytes.toNat]
    | cons y b =>
      have hne : x ≠ 0 := by
        rintro rfl
        rw [hzero rfl] at hminimal
        cases hminimal
      have hshort : ¬ (128 ≤ x ∨ x = 0 ∧ y < 128) := by
        rintro (h | h)
        · exact absurd hx (UInt8.not_lt.mpr h)
        · exact hne h.1
      rw [natural?, if_neg hshort, hvalue]
  · have hshort : ¬ ((128 : UInt8) ≤ 0 ∨ (0 : UInt8) = 0 ∧ x < 128) := by
      rintro (h | h)
      · exact absurd h (by decide)
      · exact hx h.2
    rw [if_neg hx, natural?, if_neg hshort, Bytes.toNat_cons, hvalue]
    simp

theorem eq_integerContent_of_natural? (h : natural? c = some n) : c = integerContent n := by
  match c, h with
  | [x], h =>
    rw [natural?] at h
    split at h
    next hx =>
      obtain rfl := Option.some.inj h
      have hminimal : Bytes.minimal x.toNat = [x] := by
        rw [Bytes.minimal_of_lt x.toNat_lt, Nat.toUInt8_eq, UInt8.ofNat_toNat]
      rw [integerContent_of_minimal hminimal, if_pos hx]
    · cases h
  | x :: y :: b, h =>
    rw [natural?] at h
    split at h
    · cases h
    next hshort =>
      obtain rfl := Option.some.inj h
      have hx : x < 128 := UInt8.not_le.mp fun hx ↦ hshort (.inl hx)
      by_cases hzero : x = 0
      · have hy : ¬ y < 128 := fun hy ↦ hshort (.inr ⟨hzero, hy⟩)
        have hne : y ≠ 0 := by
          rintro rfl
          exact hy (by decide)
        have hvalue : Bytes.toNat (x :: y :: b) = Bytes.toNat (y :: b) := by
          rw [Bytes.toNat_cons, hzero]
          simp
        rw [hvalue, integerContent_of_minimal (Bytes.minimal_toNat hne b), if_neg hy, hzero]
      · rw [integerContent_of_minimal (Bytes.minimal_toNat hzero _), if_pos hx]

theorem natural?_eq_some_iff : natural? c = some n ↔ c = integerContent n :=
  ⟨eq_integerContent_of_natural?, fun h ↦ h ▸ natural?_integerContent n⟩

theorem integerContent_injective : Function.Injective integerContent := fun m n h ↦
  Option.some.inj (by rw [← natural?_integerContent m, h, natural?_integerContent])

theorem integer_append_inj (h : integer n ++ rest = integer n' ++ rest')
    (hlength : (integer n ++ rest).length < 256 ^ 127) : n = n' ∧ rest = rest' := by
  obtain ⟨-, hcontent, hrest⟩ := element_append_inj h hlength
  exact ⟨integerContent_injective hcontent, hrest⟩

/-- The number can be read: its content has a length that is. -/
def Readable (n : ℕ) : Prop := (integerContent n).length < lengthLimit

theorem readNatural_eq_some_iff :
    readNatural b = some (n, rest) ↔ Readable n ∧ b = integer n ++ rest := by
  refine Option.bind_eq_some_iff.trans ⟨?_, fun ⟨hn, h⟩ ↦ ?_⟩
  · rintro ⟨⟨content, tail⟩, hexpect, h⟩
    obtain ⟨-, hlimit, rfl⟩ := expect_eq_some_iff.mp hexpect
    obtain ⟨m, hm, h⟩ := Option.bind_eq_some_iff.mp h
    obtain ⟨rfl, rfl⟩ := Prod.mk.inj (Option.some.inj h)
    obtain rfl := natural?_eq_some_iff.mp hm
    exact ⟨hlimit, rfl⟩
  · refine ⟨(integerContent n, rest), expect_eq_some_iff.mpr ⟨rfl, hn, h⟩, ?_⟩
    exact Option.bind_eq_some_iff.mpr ⟨n, natural?_integerContent n, rfl⟩

theorem readNaturals_eq_some_iff {k : ℕ} {ns : List ℕ} :
    readNaturals k b = some (ns, rest) ↔ ns.length = k ∧ (∀ n ∈ ns, Readable n) ∧
      b = (ns.map integer).flatten ++ rest := by
  induction k generalizing b ns with
  | zero =>
    constructor
    · intro h
      obtain ⟨rfl, rfl⟩ := Prod.mk.inj (Option.some.inj h)
      exact ⟨rfl, nofun, rfl⟩
    · rintro ⟨hlength, -, rfl⟩
      rw [List.eq_nil_of_length_eq_zero hlength]
      rfl
  | succ k ih =>
    constructor
    · intro h
      obtain ⟨⟨n, tail⟩, hn, h⟩ := Option.bind_eq_some_iff.mp h
      obtain ⟨⟨ms, tail'⟩, hms, h⟩ := Option.bind_eq_some_iff.mp h
      obtain ⟨rfl, rfl⟩ := Prod.mk.inj (Option.some.inj h)
      obtain ⟨hreadable, rfl⟩ := readNatural_eq_some_iff.mp hn
      obtain ⟨rfl, hall, rfl⟩ := ih.mp hms
      refine ⟨rfl, List.forall_mem_cons.mpr ⟨hreadable, hall⟩, ?_⟩
      rw [List.map_cons, List.flatten_cons, List.append_assoc]
    · rintro ⟨hlength, hall, rfl⟩
      cases ns with
      | nil => cases hlength
      | cons n ns =>
        obtain ⟨hreadable, hall⟩ := List.forall_mem_cons.mp hall
        rw [List.map_cons, List.flatten_cons, List.append_assoc]
        refine Option.bind_eq_some_iff.mpr ⟨_, readNatural_eq_some_iff.mpr ⟨hreadable, rfl⟩, ?_⟩
        have hns := ih.mpr ⟨Nat.succ.inj hlength, hall, rfl⟩
        exact Option.bind_eq_some_iff.mpr ⟨_, hns, rfl⟩

theorem length_lengthBytes_le (n : ℕ) : (lengthBytes n).length ≤ 1 + Bytes.widthOf n := by
  by_cases h : n < 128
  · rw [lengthBytes_of_lt h]
    exact Nat.le_add_right 1 _
  · rw [lengthBytes_of_le (Nat.not_lt.mp h), List.length_cons, Bytes.length_minimal, Nat.add_comm]

theorem length_element_of_lt (h : c.length < 128) : (element t c).length = c.length + 2 := by
  rw [element, lengthBytes_of_lt h, List.length_append, List.length_cons, List.length_singleton,
    Nat.add_comm]

theorem length_content_lt {limit : ℕ} (h : (element t c).length < limit) : c.length < limit := by
  rw [element, List.length_append] at h
  omega

theorem length_element_le (h : c.length < lengthLimit) : (element t c).length ≤ c.length + 6 := by
  have hwidth : Bytes.widthOf c.length ≤ 4 := Bytes.widthOf_le (k := 3) (h.trans (by decide))
  have hlength := length_lengthBytes_le c.length
  rw [element, List.length_append, List.length_cons]
  omega

theorem length_integerContent (n : ℕ) : (integerContent n).length = (n.log2 + 1) / 8 + 1 := by
  obtain ⟨x, b, hminimal, -⟩ := Bytes.minimal_eq_cons n
  have hwidth := Bytes.length_minimal n
  have hvalue := Bytes.toNat_minimal n
  rw [hminimal, List.length_cons, Bytes.widthOf] at hwidth
  rw [hminimal, Bytes.toNat_cons] at hvalue
  have hb := Bytes.toNat_lt b
  have hpower : 2 ^ (8 * b.length + 7) = 128 * 256 ^ b.length := by
    rw [pow_add, pow_mul, Nat.mul_comm]
    rfl
  rw [integerContent_of_minimal hminimal]
  split
  next hx =>
    have hlog : n.log2 < 8 * b.length + 7 := by
      by_cases hn : n = 0
      · rw [hn]
        exact Nat.succ_pos _
      · rw [Nat.log2_lt hn, hpower, ← hvalue]
        have := Nat.mul_le_mul_right (256 ^ b.length) (Nat.succ_le_of_lt (UInt8.lt_iff_toNat_lt.mp hx))
        rw [Nat.succ_mul] at this
        exact lt_of_lt_of_le (Nat.add_lt_add_left hb _) this
    rw [List.length_cons]
    omega
  next hx =>
    have hle : 128 * 256 ^ b.length ≤ n := by
      rw [← hvalue]
      have := UInt8.le_iff_toNat_le.mp (UInt8.not_lt.mp hx)
      exact (Nat.mul_le_mul_right _ this).trans (Nat.le_add_right _ _)
    have hlog : 8 * b.length + 7 ≤ n.log2 := by
      have hn : n ≠ 0 := ((Nat.pow_pos (by decide)).trans_le (hpower.trans_le hle)).ne'
      rw [Nat.le_log2 hn, hpower]
      exact hle
    rw [List.length_cons, List.length_cons]
    omega

theorem length_integerContent_le {k : ℕ} (h : n < 256 ^ (k + 1)) :
    (integerContent n).length ≤ k + 2 := by
  have hwidth := Bytes.widthOf_le h
  rw [Bytes.widthOf] at hwidth
  rw [length_integerContent]
  omega

theorem length_integers_le {k : ℕ} (hk : k + 2 < lengthLimit) {ns : List ℕ}
    (h : ∀ n ∈ ns, n < 256 ^ (k + 1)) : (ns.map integer).flatten.length ≤ ns.length * (k + 8) := by
  induction ns with
  | nil => exact Nat.zero_le _
  | cons n ns ih =>
    obtain ⟨hn, hns⟩ := List.forall_mem_cons.mp h
    have hcontent := length_integerContent_le hn
    have hinteger : (integer n).length ≤ k + 8 :=
      (length_element_le (hcontent.trans_lt hk)).trans (Nat.add_le_add_right hcontent 6)
    rw [List.map_cons, List.flatten_cons, List.length_append, List.length_cons, Nat.succ_mul]
    have := ih hns
    omega

end Der

end MessagingIdentity

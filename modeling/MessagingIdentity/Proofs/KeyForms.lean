import MessagingIdentity.Key.Registry
import MessagingIdentity.Proofs.Armour
import MessagingIdentity.Proofs.DerElements
import MessagingIdentity.Proofs.Outcomes

namespace MessagingIdentity

namespace Rsa

open Der

namespace PublicKey

variable {k l : PublicKey} {b : Bytes} {n e : ℕ}

/-- The modulus is one that is read. -/
def Fits (k : PublicKey) : Prop := k.modulus < Nat.pow 2 maxModulusBits

theorem ofNumbers?_eq_some_iff : ofNumbers? n e = some k ↔ n = k.modulus ∧ e = k.exponent := by
  rw [ofNumbers?]
  constructor
  · intro h
    split at h
    · obtain rfl := Option.some.inj h
      exact ⟨rfl, rfl⟩
    · cases h
  · rintro ⟨rfl, rfl⟩
    exact dif_pos ⟨k.modulus_odd, k.exponent_odd, k.two_le_exponent, k.exponent_lt,
      k.exponent_lt_modulus⟩

theorem ext_numbers (hmodulus : k.modulus = l.modulus) (hexponent : k.exponent = l.exponent) :
    k = l :=
  Option.some.inj <| (ofNumbers?_eq_some_iff.mpr ⟨rfl, rfl⟩).symm.trans
    (ofNumbers?_eq_some_iff.mpr ⟨hmodulus, hexponent⟩)

theorem Fits.length_modulus (h : k.Fits) : (integerContent k.modulus).length ≤ 513 :=
  length_integerContent_le (k := 511) (h.trans_eq (by decide +kernel))

theorem length_exponent (k : PublicKey) : (integerContent k.exponent).length ≤ 6 :=
  length_integerContent_le (k := 4) (k.exponent_lt.trans (by decide))

theorem Fits.length_numbers (h : k.Fits) :
    (integer k.modulus ++ integer k.exponent).length ≤ 600 := by
  have hm := h.length_modulus
  have he := k.length_exponent
  have hmodulus := length_element_le (t := tagInteger) (hm.trans_lt (by decide))
  have hexponent := length_element_le (t := tagInteger) (he.trans_lt (by decide))
  rw [List.length_append, integer, integer]
  omega

theorem plainDer_eq (k : PublicKey) :
    k.plainDer = element tagSequence (integer k.modulus ++ integer k.exponent) := by
  simp [plainDer, Der.sequence]

theorem Fits.length_plainDer (h : k.Fits) : k.plainDer.length ≤ 606 := by
  have hnumbers := h.length_numbers
  have hlength := length_element_le (t := tagSequence) (hnumbers.trans_lt (by decide))
  rw [plainDer_eq]
  omega

theorem ofPlainDer?_plainDer (h : k.Fits) : ofPlainDer? k.plainDer = some k := by
  have hcontent : only tagSequence k.plainDer = some (integer k.modulus ++ integer k.exponent) :=
    only_eq_some_iff.mpr ⟨by decide, h.length_numbers.trans_lt (by decide), k.plainDer_eq⟩
  have hnumbers : readNaturals 2 (integer k.modulus ++ integer k.exponent) =
      some ([k.modulus, k.exponent], []) := by
    refine readNaturals_eq_some_iff.mpr ⟨rfl, ?_, by simp⟩
    simp only [List.forall_mem_cons]
    exact ⟨h.length_modulus.trans_lt (by decide), k.length_exponent.trans_lt (by decide), nofun⟩
  rw [ofPlainDer?, hcontent, Option.bind_eq_bind, Option.bind_some, hnumbers, Option.bind_eq_bind,
    Option.bind_some]
  exact (if_pos h).trans (ofNumbers?_eq_some_iff.mpr ⟨rfl, rfl⟩)

theorem of_ofPlainDer? (h : ofPlainDer? b = some k) : k.Fits ∧ b = k.plainDer := by
  obtain ⟨content, hcontent, hread⟩ := Option.bind_eq_some_iff.mp h
  obtain ⟨⟨ns, rest⟩, hns, hmatch⟩ := Option.bind_eq_some_iff.mp hread
  obtain ⟨-, -, hb⟩ := only_eq_some_iff.mp hcontent
  obtain ⟨hlength, -, hnumbers⟩ := readNaturals_eq_some_iff.mp hns
  obtain ⟨n, e, rfl⟩ := List.length_eq_two.mp hlength
  cases rest with
  | cons x rest => cases hmatch
  | nil =>
    dsimp only at hmatch
    split at hmatch
    next hn =>
      obtain ⟨rfl, rfl⟩ := ofNumbers?_eq_some_iff.mp hmatch
      refine ⟨hn, ?_⟩
      rw [hb, plainDer_eq, hnumbers]
      simp
    · cases hmatch

theorem ofPlainDer?_eq_some_iff : ofPlainDer? b = some k ↔ k.Fits ∧ b = k.plainDer :=
  ⟨of_ofPlainDer?, fun h ↦ h.2 ▸ ofPlainDer?_plainDer h.1⟩

theorem wrappedDer_eq (k : PublicKey) : k.wrappedDer =
    element tagSequence (algorithmIdentifier ++ element tagBitString (0 :: k.plainDer)) := by
  simp [wrappedDer, Der.sequence]

def algorithmContent : Bytes :=
  element tagObject [0x2a, 0x86, 0x48, 0x86, 0xf7, 0x0d, 0x01, 0x01, 0x01] ++ element tagNull []

theorem algorithmIdentifier_eq : algorithmIdentifier = element tagSequence algorithmContent := by
  decide

theorem Fits.length_wrappedDer (h : k.Fits) : k.wrappedDer.length ≤ 700 := by
  have hplain : (0 :: k.plainDer).length ≤ 607 := Nat.succ_le_succ h.length_plainDer
  have hbits := length_element_le (t := tagBitString) (hplain.trans_lt (by decide))
  have hidentifier : algorithmIdentifier.length = 15 := by decide
  have hcontent :
      (algorithmIdentifier ++ element tagBitString (0 :: k.plainDer)).length ≤ 680 := by
    rw [List.length_append]
    omega
  have hlength := length_element_le (t := tagSequence) (hcontent.trans_lt (by decide))
  rw [wrappedDer_eq]
  omega

theorem ofWrappedDer?_wrappedDer (h : k.Fits) : ofWrappedDer? k.wrappedDer = some k := by
  have hlength := h.length_wrappedDer
  rw [wrappedDer_eq, element, List.length_append] at hlength
  have hcontent : only tagSequence k.wrappedDer =
      some (algorithmIdentifier ++ element tagBitString (0 :: k.plainDer)) :=
    only_eq_some_iff.mpr ⟨by decide, by rw [lengthLimit]; omega, k.wrappedDer_eq⟩
  have hidentifier : expect tagSequence
      (algorithmIdentifier ++ element tagBitString (0 :: k.plainDer)) =
        some (algorithmContent, element tagBitString (0 :: k.plainDer)) :=
    expect_eq_some_iff.mpr ⟨by decide, by decide, by rw [algorithmIdentifier_eq]⟩
  have hbits : only tagBitString (element tagBitString (0 :: k.plainDer)) =
      some (0 :: k.plainDer) :=
    only_eq_some_iff.mpr
      ⟨by decide, (Nat.succ_le_succ h.length_plainDer).trans_lt (by decide), rfl⟩
  rw [ofWrappedDer?, hcontent, Option.bind_eq_bind, Option.bind_some, hidentifier,
    Option.bind_eq_bind, Option.bind_some]
  dsimp only
  rw [hbits, Option.bind_some]
  exact (if_pos algorithmIdentifier_eq.symm).trans (ofPlainDer?_plainDer h)

theorem of_ofWrappedDer? (h : ofWrappedDer? b = some k) : k.Fits ∧ b = k.wrappedDer := by
  obtain ⟨content, hcontent, h₁⟩ := Option.bind_eq_some_iff.mp h
  obtain ⟨⟨algorithm, rest⟩, halgorithm, h₂⟩ := Option.bind_eq_some_iff.mp h₁
  obtain ⟨bits, hbits, h₃⟩ := Option.bind_eq_some_iff.mp h₂
  obtain ⟨-, -, hb⟩ := only_eq_some_iff.mp hcontent
  obtain ⟨-, -, hc⟩ := expect_eq_some_iff.mp halgorithm
  obtain ⟨-, -, hrest⟩ := only_eq_some_iff.mp hbits
  split at h₃
  next plain hplain =>
    split at h₃
    next hidentifier =>
      obtain ⟨hfits, hder⟩ := of_ofPlainDer? h₃
      exact ⟨hfits, by rw [hb, hc, hidentifier, hrest, wrappedDer_eq, hder]⟩
    · cases h₃
  · cases h₃

theorem ofWrappedDer?_eq_some_iff : ofWrappedDer? b = some k ↔ k.Fits ∧ b = k.wrappedDer :=
  ⟨of_ofWrappedDer?, fun h ↦ h.2 ▸ ofWrappedDer?_wrappedDer h.1⟩

theorem plainDer_inj (hk : k.Fits) (h : k.plainDer = l.plainDer) : k = l := by
  have hlength : k.plainDer.length < 256 ^ 127 := hk.length_plainDer.trans_lt (by decide)
  have hnumbers : (integer k.modulus ++ integer k.exponent).length < 256 ^ 127 :=
    hk.length_numbers.trans_lt (by decide)
  rw [plainDer_eq, plainDer_eq] at h
  rw [plainDer_eq] at hlength
  obtain ⟨-, hcontent⟩ := element_inj h hlength
  obtain ⟨hmodulus, hexponent⟩ := integer_append_inj hcontent hnumbers
  have hexponent : integer k.exponent ++ [] = integer l.exponent ++ [] := by rw [hexponent]
  rw [List.length_append] at hnumbers
  obtain ⟨hexponent, -⟩ := integer_append_inj hexponent (by rw [List.append_nil]; omega)
  exact ext_numbers hmodulus hexponent

theorem plainDer_ne_wrappedDer (hk : k.Fits) : k.plainDer ≠ l.wrappedDer := by
  intro h
  have hlength : k.plainDer.length < 256 ^ 127 := hk.length_plainDer.trans_lt (by decide)
  rw [plainDer_eq, wrappedDer_eq] at h
  rw [plainDer_eq] at hlength
  obtain ⟨-, hcontent⟩ := element_inj h hlength
  rw [integer, algorithmIdentifier_eq] at hcontent
  obtain ⟨htag, -⟩ :=
    element_append_inj hcontent (hk.length_numbers.trans_lt (by decide))
  exact absurd htag (by decide)

theorem wrappedDer_inj (hk : k.Fits) (h : k.wrappedDer = l.wrappedDer) : k = l := by
  have hlength : k.wrappedDer.length < 256 ^ 127 := hk.length_wrappedDer.trans_lt (by decide)
  have hbits : (0 :: k.plainDer).length ≤ 607 := Nat.succ_le_succ hk.length_plainDer
  have helement : (element tagBitString (0 :: k.plainDer)).length ≤ 613 :=
    (length_element_le (hbits.trans_lt (by decide))).trans (Nat.add_le_add_right hbits 6)
  rw [wrappedDer_eq, wrappedDer_eq] at h
  rw [wrappedDer_eq] at hlength
  obtain ⟨-, hcontent⟩ := element_inj h hlength
  obtain ⟨-, hplain⟩ :=
    element_inj (List.append_cancel_left hcontent) (helement.trans_lt (by decide))
  exact plainDer_inj hk (List.cons.inj hplain).2

/-- Of all keys, only the written one is read, and only if its modulus is not too large. -/
theorem ofDer?_wrappedDer : ofDer? l.wrappedDer = some k ↔ k.Fits ∧ k = l := by
  constructor
  · intro h
    have hread : ofWrappedDer? l.wrappedDer = some k ∨ ofPlainDer? l.wrappedDer = some k := by
      cases hw : ofWrappedDer? l.wrappedDer with
      | none => exact .inr (by simpa [ofDer?, hw] using h)
      | some k' => exact .inl (by simpa [ofDer?, hw] using h)
    rcases hread with hread | hread
    · obtain ⟨hfits, hder⟩ := ofWrappedDer?_eq_some_iff.mp hread
      exact ⟨hfits, wrappedDer_inj hfits hder.symm⟩
    · obtain ⟨hfits, hder⟩ := ofPlainDer?_eq_some_iff.mp hread
      exact absurd hder.symm (plainDer_ne_wrappedDer hfits)
  · rintro ⟨hfits, rfl⟩
    rw [ofDer?, ofWrappedDer?_wrappedDer hfits]
    rfl

end PublicKey

namespace PrivateKey

variable {k : PrivateKey}

theorem ofNumbers?_self (k : PrivateKey) :
    ofNumbers? k.toPublic.modulus k.toPublic.exponent k.exponent k.p k.q = some k := by
  have hpublic : PublicKey.ofNumbers? k.toPublic.modulus k.toPublic.exponent = some k.toPublic :=
    PublicKey.ofNumbers?_eq_some_iff.mpr ⟨rfl, rfl⟩
  rw [ofNumbers?, hpublic, Option.bind_eq_bind, Option.bind_some]
  exact dif_pos ⟨k.modulus_eq, k.inverse_p, k.inverse_q⟩

/-- The numbers that are written of a key, the last being the coefficient. -/
def numbersWith (k : PrivateKey) (t : ℕ) : List ℕ :=
  [0, k.toPublic.modulus, k.toPublic.exponent, k.exponent, k.p, k.q, k.exponentP, k.exponentQ, t]

theorem ofPlainDer?_sequence {t : ℕ} (h : ∀ n ∈ k.numbersWith t, Readable n)
    (hlength : ((k.numbersWith t).map integer).flatten.length < lengthLimit) :
    ofPlainDer? (sequence ((k.numbersWith t).map integer)) = some k := by
  have hcontent : only tagSequence (sequence ((k.numbersWith t).map integer)) =
      some ((k.numbersWith t).map integer).flatten :=
    only_eq_some_iff.mpr ⟨by decide, hlength, rfl⟩
  have hnumbers : readNaturals 9 ((k.numbersWith t).map integer).flatten =
      some (k.numbersWith t, []) :=
    readNaturals_eq_some_iff.mpr ⟨rfl, h, by rw [List.append_nil]⟩
  rw [ofPlainDer?, hcontent, Option.bind_eq_bind, Option.bind_some, hnumbers, Option.bind_eq_bind,
    Option.bind_some]
  exact k.ofNumbers?_self

theorem plainDer?_eq_some_iff {der : Bytes} : k.plainDer? = some der ↔ ∃ t, k.coefficient? = some t ∧
    der = Der.sequence ((k.numbersWith t).map integer) ∧ der.length < lengthLimit := by
  refine Option.bind_eq_some_iff.trans (exists_congr fun t ↦ and_congr_right fun _ ↦ ?_)
  constructor
  · intro h
    dsimp only at h
    split at h
    next hlength =>
      obtain rfl := Option.some.inj h
      exact ⟨rfl, hlength⟩
    · cases h
  · rintro ⟨rfl, hlength⟩
    exact if_pos hlength

theorem ofPlainDer?_of_plainDer? {der : Bytes} (h : k.plainDer? = some der) :
    ofPlainDer? der = some k := by
  obtain ⟨t, -, rfl, hlength⟩ := plainDer?_eq_some_iff.mp h
  have hcontent := length_content_lt (t := tagSequence) hlength
  refine ofPlainDer?_sequence (fun n hn ↦ ?_) hcontent
  have hinteger : (integer n).length ≤ ((k.numbersWith t).map integer).flatten.length :=
    (List.sublist_flatten_of_mem (List.mem_map_of_mem hn)).length_le
  exact length_content_lt (t := tagInteger) (hinteger.trans_lt hcontent)

theorem ofDer?_of_plainDer? {der : Bytes} (h : k.plainDer? = some der) : ofDer? der = some k := by
  rw [ofDer?, ofPlainDer?_of_plainDer? h]
  rfl

theorem wrappedDer?_eq_some_iff {der : Bytes} : k.wrappedDer? = some der ↔ ∃ plain,
    k.plainDer? = some plain ∧ der = element tagSequence
      (integer 0 ++ (algorithmIdentifier ++ element tagOctetString plain)) := by
  rw [wrappedDer?, Option.map_eq_some_iff]
  simp [Der.sequence, eq_comm]

/-- The wrapped form is not taken for the plain one: behind the version stands no number. -/
theorem ofPlainDer?_wrapped (plain : Bytes) : ofPlainDer? (element tagSequence
    (integer 0 ++ (algorithmIdentifier ++ element tagOctetString plain))) = none := by
  rw [Option.eq_none_iff_forall_ne_some]
  intro k h
  obtain ⟨content, hcontent, h⟩ := Option.bind_eq_some_iff.mp h
  obtain ⟨⟨ns, rest⟩, hns, -⟩ := Option.bind_eq_some_iff.mp h
  obtain ⟨-, hlength, hwrapped⟩ := only_eq_some_iff.mp hcontent
  obtain ⟨hcount, -, hnumbers⟩ := readNaturals_eq_some_iff.mp hns
  obtain ⟨a, b, ns, rfl⟩ : ∃ a b more, ns = a :: b :: more := by
    rcases ns with _ | ⟨a, _ | ⟨b, more⟩⟩
    · cases hcount
    · cases hcount
    · exact ⟨a, b, more, rfl⟩
  have helement := (length_element_le (t := tagSequence) hlength).trans_lt
    (Nat.add_lt_add_right hlength 6)
  obtain ⟨-, heq⟩ := element_inj hwrapped.symm (helement.trans (by decide))
  rw [heq, List.map_cons, List.map_cons, List.flatten_cons, List.flatten_cons, List.append_assoc,
    List.append_assoc] at hnumbers
  have hshort := hlength.trans (show lengthLimit < 256 ^ 127 by decide)
  rw [heq] at hshort
  obtain ⟨-, hbehind⟩ := integer_append_inj hnumbers hshort
  rw [PublicKey.algorithmIdentifier_eq, integer] at hbehind
  rw [PublicKey.algorithmIdentifier_eq, List.length_append] at hshort
  obtain ⟨htag, -⟩ := element_append_inj hbehind (by omega)
  exact absurd htag (by decide)

theorem ofDer?_of_wrappedDer? {der : Bytes} (h : k.wrappedDer? = some der)
    (hlength : der.length < lengthLimit) : ofDer? der = some k := by
  obtain ⟨plain, hplain, rfl⟩ := wrappedDer?_eq_some_iff.mp h
  have hcontent := length_content_lt hlength
  have hplainLength : plain.length < lengthLimit := by
    rw [List.length_append, List.length_append] at hcontent
    exact length_content_lt (t := tagOctetString) (by omega)
  have hread : only tagSequence (element tagSequence
      (integer 0 ++ (algorithmIdentifier ++ element tagOctetString plain))) =
      some (integer 0 ++ (algorithmIdentifier ++ element tagOctetString plain)) :=
    only_eq_some_iff.mpr ⟨by decide, hcontent, rfl⟩
  have hversion : readNatural (integer 0 ++ (algorithmIdentifier ++ element tagOctetString plain)) =
      some (0, algorithmIdentifier ++ element tagOctetString plain) :=
    readNatural_eq_some_iff.mpr ⟨by unfold Readable; decide, rfl⟩
  have hidentifier : expect tagSequence (algorithmIdentifier ++ element tagOctetString plain) =
      some (PublicKey.algorithmContent, element tagOctetString plain) :=
    expect_eq_some_iff.mpr ⟨by decide, by decide, by rw [PublicKey.algorithmIdentifier_eq]⟩
  have hoctets : expect tagOctetString (element tagOctetString plain) = some (plain, []) :=
    expect_eq_some_iff.mpr ⟨by decide, hplainLength, by rw [List.append_nil]⟩
  have hwrapped : ofWrappedDer? (element tagSequence
      (integer 0 ++ (algorithmIdentifier ++ element tagOctetString plain))) = some k := by
    simp only [ofWrappedDer?, hread, hversion, hidentifier, hoctets, Option.bind_eq_bind,
      Option.bind_some]
    exact (if_pos ⟨by decide, PublicKey.algorithmIdentifier_eq.symm, rfl⟩).trans
      (ofPlainDer?_of_plainDer? hplain)
  rw [ofDer?, ofPlainDer?_wrapped, hwrapped]
  rfl

/-- A key is written if its numbers have at most 64 KiB each. -/
theorem ofDer?_plainDer {w : ℕ} (hw : w < 65536) (h : (k.coefficient?.any fun t ↦
    (k.numbersWith t).all (· < Nat.pow 256 (w + 1))) = true) :
    ∃ der, k.plainDer? = some der ∧ ofDer? der = some k := by
  obtain ⟨t, ht⟩ : ∃ t, k.coefficient? = some t :=
    Option.isSome_iff_exists.mp (Option.isSome_of_any h)
  rw [ht, Option.any_some] at h
  have hsmall : ∀ n ∈ k.numbersWith t, n < 256 ^ (w + 1) := fun n hn ↦
    of_decide_eq_true (List.all_eq_true.mp h n hn)
  have hlength : ((k.numbersWith t).map integer).flatten.length ≤ 9 * (w + 8) :=
    length_integers_le (by rw [lengthLimit]; omega) hsmall
  have hder : k.plainDer? = some (Der.sequence ((k.numbersWith t).map integer)) := by
    have helement := length_element_le (t := tagSequence)
      (c := ((k.numbersWith t).map integer).flatten) (by rw [lengthLimit]; omega)
    refine plainDer?_eq_some_iff.mpr ⟨t, ht, rfl, ?_⟩
    rw [Der.sequence, lengthLimit]
    omega
  exact ⟨_, hder, ofDer?_of_plainDer? hder⟩

end PrivateKey

end Rsa

namespace Attributes

variable {a a' : Attributes} {m : Json.Members}

theorem ext_members (h : a.members = a'.members) : a = a' := by
  obtain ⟨m, algorithm, data, ha, hd, hne⟩ := a
  obtain ⟨m', algorithm', data', ha', hd', hne'⟩ := a'
  obtain rfl : m = m' := h
  obtain rfl := Option.some.inj (ha.symm.trans ha')
  obtain rfl := Option.some.inj (hd.symm.trans hd')
  rfl

theorem members_of_ofMembers (h : ofMembers m = .ok a) : a.members = m := by
  unfold ofMembers at h
  split at h
  · cases h
  · split at h
    · cases h
    · split at h
      · obtain rfl := Except.ok.inj h
        rfl
      · cases h

theorem ofMembers_members (a : Attributes) : ofMembers a.members = .ok a := by
  cases h : ofMembers a.members with
  | ok a' => rw [ext_members (members_of_ofMembers h)]
  | error err =>
    unfold ofMembers at h
    split at h
    next halgorithm => cases a.algorithm_eq.symm.trans halgorithm
    · split at h
      next hdata => cases a.data_eq.symm.trans hdata
      next hdata =>
        split at h
        · cases h
        next hempty =>
          obtain rfl := Option.some.inj (a.data_eq.symm.trans hdata)
          exact absurd a.data_ne hempty

theorem ofMembers_eq_ok_iff : ofMembers m = .ok a ↔ a.members = m :=
  ⟨members_of_ofMembers, fun h ↦ h ▸ a.ofMembers_members⟩

theorem data_eq_of_members {data : String} (h : a.members.text? Field.data = some data) :
    a.data = data :=
  Option.some.inj (a.data_eq.symm.trans h)

end Attributes

namespace RsaKey

variable {a : Attributes}

theorem bytes_of_encode {b : Bytes} (h : a.data = Base64.encode b) : bytes a = .ok b := by
  have hdash : '-' ∉ (Base64.encode b).toList := fun hmem ↦
    Base64.forall_mem_encode (P := (· ≠ '-')) (by decide) (by decide) b _ hmem rfl
  have hbare : ¬ Pem.occurs "-----BEGIN".toList (Base64.encode b).toList = true :=
    Bool.eq_false_iff.mp (Pem.not_occurs_of_notMem hdash)
  rw [bytes, h, if_neg hbare, Transport.decode_encode]

theorem bytes_of_parse {label : String} {b : Bytes} (h : Pem.parse a.data = some (label, b)) :
    bytes a = .ok b := by
  rw [bytes, if_pos (Pem.occurs_of_parse h), h]

theorem bytes_of_armour {label : String} {b : Bytes} (h : a.data = Pem.encode label b)
    (hne : label.toList ≠ []) (hlabel : '-' ∉ label.toList) : bytes a = .ok b :=
  bytes_of_parse (h ▸ Pem.parse_encode hne hlabel b)

end RsaKey

namespace Secp256k1

theorem Coordinate.val_lt (x : Coordinate) : x.val < 256 ^ 32 := x.isLt.trans (by decide)

namespace CurvePoint

theorem coordinate?_of_toNat {b : Bytes} {x : Coordinate} (h : b.toNat = x.val) :
    coordinate? b = some x := by
  have hbound : b.toNat < fieldOrder := by
    rw [h]
    exact x.isLt
  rw [coordinate?, dif_pos hbound]
  exact congrArg some (Fin.ext h)

theorem coordinate?_ofNat (x : Coordinate) : coordinate? (Bytes.ofNat 32 x.val) = some x :=
  coordinate?_of_toNat (Bytes.toNat_ofNat_of_lt x.val_lt)

theorem length_coordinates (p : CurvePoint) : p.coordinates.length = 64 := by
  rw [coordinates, List.length_append, Bytes.length_ofNat, Bytes.length_ofNat]

theorem ofBytes?_uncompressed (p : CurvePoint) : ofBytes? p.uncompressed = some p := by
  have hlength (n : ℕ) : (Bytes.ofNat 32 n).length = 32 := Bytes.length_ofNat 32 n
  have hx : p.coordinates.take 32 = Bytes.ofNat 32 p.x.val := List.take_left' (hlength _)
  have hy : p.coordinates.drop 32 = Bytes.ofNat 32 p.y.val := List.drop_left' (hlength _)
  rw [uncompressed, ofBytes?, if_pos rfl, if_pos p.length_coordinates, hx, hy, coordinate?_ofNat,
    coordinate?_ofNat]
  exact dif_pos p.equation

theorem uncompressed_injective : Function.Injective uncompressed := fun p q h ↦
  Option.some.inj (by rw [← p.ofBytes?_uncompressed, h, q.ofBytes?_uncompressed])

end CurvePoint

end Secp256k1

namespace CurveKey

variable {a : Attributes} {b : Bytes}

theorem bytes_of_shows (h : Hexadecimal.Shows a.data b) : bytes a = .ok b := by
  rw [bytes, h.decode_trim]
  rfl

theorem bytes_of_encode (h : a.data = Hexadecimal.encode b) : bytes a = .ok b :=
  bytes_of_shows (h ▸ Hexadecimal.shows_encode b)

end CurveKey

end MessagingIdentity

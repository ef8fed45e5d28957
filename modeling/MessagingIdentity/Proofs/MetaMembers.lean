import MessagingIdentity.Proofs.DerivedPublicKey
import MessagingIdentity.Proofs.MetaIdentifiers

namespace MessagingIdentity

namespace PublicKey

variable {k k' : PublicKey}

theorem members_of_parse {members : Json.Members} (h : parse members = .ok k) :
    k.members = members := by
  obtain ⟨tag, -, h⟩ := Except.bind_eq_ok_iff.mp h
  obtain ⟨f, -, h⟩ := Except.bind_eq_ok_iff.mp h
  cases f with
  | rsa =>
    obtain ⟨l, hl, rfl⟩ := Except.map_eq_ok_iff.mp h
    obtain ⟨a, ha, rfl⟩ := Except.map_eq_ok_iff.mp hl
    exact Attributes.members_of_ofMembers ha
  | curve =>
    obtain ⟨l, hl, rfl⟩ := Except.map_eq_ok_iff.mp h
    obtain ⟨a, ha, rfl⟩ := Except.map_eq_ok_iff.mp hl
    exact Attributes.members_of_ofMembers ha

/-- The second key has the attributes of the first and gives the same answers. -/
structure Alike (k k' : PublicKey) : Prop where
  attributes_eq : k'.attributes = k.attributes
  family : sameFamily k' k = true
  data_eq : k'.data = k.data
  verify_eq : ∀ m signature, k'.verify m signature = k.verify m signature

theorem Alike.refl (k : PublicKey) : Alike k k := by
  refine ⟨rfl, ?_, rfl, fun _ _ ↦ rfl⟩
  cases k <;> rfl

theorem Alike.rawData_eq (h : Alike k k') : k'.rawData = k.rawData := by
  obtain ⟨hattributes, hfamily, hdata, -⟩ := h
  cases k with
  | rsa l =>
    cases k' with
    | rsa l' => exact hdata
    | curve l' => cases hfamily
  | curve l =>
    cases k' with
    | rsa l' => cases hfamily
    | curve l' =>
      have hbytes : CurveKey.bytes l'.attributes = CurveKey.bytes l.attributes :=
        congrArg CurveKey.bytes hattributes
      change l'.rawData = l.rawData
      rw [CurvePublicKey.rawData, CurvePublicKey.rawData, hbytes]
      exact Except.bind_const_eq_of_map_eq hdata (CurveKey.bytes l.attributes)

theorem Alike.equal_eq (h : Alike k k') (l : PublicKey) : k'.equal l = k.equal l := by
  have hfamily : sameFamily k' l = sameFamily k l := by
    have h := h.family
    cases k <;> cases k' <;> cases l <;> first | rfl | cases h
  rw [equal, equal, hfamily, h.data_eq, h.attributes_eq]

/-- What is read from the attributes of the key has the same data and accepts the same signatures. -/
def Survives (k : PublicKey) : Prop := ∃ k', parse k.members = .ok k' ∧ k'.data = k.data ∧
  ∀ m signature, k'.verify m signature = k.verify m signature

theorem Survives.exists_alike {key : PrivateKey} (hkey : key.publicKey = .ok k) (h : k.Survives) :
    ∃ k', parse k.members = .ok k' ∧ Alike k k' := by
  obtain ⟨k', hparse, hdata, hverify⟩ := h
  obtain ⟨l, hread⟩ := PrivateKey.exists_reread hkey
  obtain rfl : l = k' := Except.ok.inj (hread.parse_eq.symm.trans hparse)
  have hequal := hread.equal
  rw [equal, Bool.and_eq_true] at hequal
  have hattributes := Attributes.ext_members (members_of_parse hparse)
  exact ⟨l, hparse, hattributes, hequal.1, hdata, hverify⟩

end PublicKey

namespace MetaType

theorem parse_tag (t : MetaType) : parse t.tag = .ok t := by
  cases t <;> decide

end MetaType

namespace Meta

variable {m : Meta} {k : PublicKey}

theorem members_found (m : Meta) :
    m.members.get? Field.type = some (.text m.type.tag) ∧
      m.members.get? Field.key = some (.object m.key.members) ∧
      m.members.text? Field.seed = m.seed ∧
      m.members.text? Field.fingerprint = m.fingerprint.map Base64.encode := by
  obtain ⟨type, key, seed, fingerprint⟩ := m
  cases seed <;> cases fingerprint <;> exact ⟨rfl, rfl, rfl, rfl⟩

theorem keyOf_members (hk : PublicKey.parse m.key.members = .ok k) : keyOf m.members = .ok k := by
  rw [keyOf, m.members_found.2.1]
  exact Except.mapError_eq_ok_iff.mpr hk

theorem fingerprintOf_members (hpaired : m.seed.isSome = m.fingerprint.isSome) :
    fingerprintOf m.members = .ok m.fingerprint := by
  obtain ⟨-, -, hseed, hfingerprint⟩ := m.members_found
  rw [fingerprintOf, hseed, hfingerprint]
  cases hs : m.seed with
  | none =>
    cases hf : m.fingerprint with
    | none => rfl
    | some b => simp [hs, hf] at hpaired
  | some s =>
    cases hf : m.fingerprint with
    | none => simp [hs, hf] at hpaired
    | some b =>
      change ((Transport.decode (Base64.encode b)).map some).mapError MetaError.key = _
      rw [Transport.decode_encode]
      rfl

theorem parse_members_eq (hk : PublicKey.parse m.key.members = .ok k)
    (hpaired : m.seed.isSome = m.fingerprint.isSome) :
    parse m.members = validated { m with key := k } := by
  obtain ⟨htype, -, hseed, -⟩ := m.members_found
  rw [parse, htype]
  simp only [MetaType.ofJson, MetaType.parse_tag, keyOf_members hk, fingerprintOf_members hpaired,
    hseed, bind, Except.bind]

/-- A meta is valid if its fingerprint signs its seed, or if it has neither and needs none, and if its
key suits its type. -/
theorem validate_eq_ok_iff : m.validate = .ok () ↔
    ((m.seed = none ∧ m.fingerprint = none ∧ m.type ≠ .mkm) ∨
      ∃ s b, m.seed = some s ∧ m.fingerprint = some b ∧ m.key.verify (Bytes.ofText s) b = true) ∧
    (m.type = .eth → ∃ l, m.key = .curve l) := by
  obtain ⟨type, key, seed, fingerprint⟩ := m
  have hfamily : (type = .eth → ∃ l, key = .curve l) ↔ ∀ l, type = .eth → key ≠ .rsa l := by
    cases key <;> simp
  rw [hfamily]
  cases seed with
  | none =>
    cases fingerprint with
    | none => cases type <;> cases key <;> simp [validate, bind, Except.bind]
    | some b => simp [validate, bind, Except.bind]
  | some s =>
    cases fingerprint with
    | none => simp [validate, bind, Except.bind]
    | some b =>
      cases hverify : key.verify (Bytes.ofText s) b
      · simp [validate, bind, Except.bind, hverify]
      · cases type <;> cases key <;> simp [validate, hverify]

theorem paired_of_validate (h : m.validate = .ok ()) : m.seed.isSome = m.fingerprint.isSome := by
  rcases (validate_eq_ok_iff.mp h).1 with ⟨hseed, hfingerprint, -⟩ | ⟨s, b, hseed, hfingerprint, -⟩
  · rw [hseed, hfingerprint]
    rfl
  · rw [hseed, hfingerprint]
    rfl

theorem validate_of_alike (hk : m.key.Alike k) (h : m.validate = .ok ()) :
    validate { m with key := k } = .ok () := by
  obtain ⟨hsigned, hsuits⟩ := validate_eq_ok_iff.mp h
  refine validate_eq_ok_iff.mpr ⟨?_, ?_⟩
  · simpa only [hk.verify_eq] using hsigned
  · intro htype
    obtain ⟨l, hl⟩ := hsuits htype
    have hfamily := hk.family
    rw [hl] at hfamily
    cases k with
    | rsa l' => cases hfamily
    | curve l' => exact ⟨l', rfl⟩

theorem address_of_alike (hk : m.key.Alike k) (network : EntityType) :
    address { m with key := k } network = m.address network := by
  rw [address, address, hk.rawData_eq]

theorem matchesIdentifier_of_alike (hk : m.key.Alike k) (i : Identifier) :
    matchesIdentifier { m with key := k } i = m.matchesIdentifier i := by
  rw [matchesIdentifier, matchesIdentifier, address_of_alike hk]

theorem matchesKey_of_alike (hk : m.key.Alike k) (l : PublicKey) :
    matchesKey { m with key := k } l = m.matchesKey l := by
  rw [matchesKey, matchesKey, hk.equal_eq]

def remembered (m : Meta) (asked : List EntityType) : Memo :=
  asked.foldl (fun memo network ↦ (m.addressWith network memo).2) []

theorem recalls_remembered (m : Meta) (asked : List EntityType) : m.Recalls (m.remembered asked) := by
  rw [remembered]
  have hnone : m.Recalls [] := by
    intro e he
    cases he
  -- Any memo will do to begin with, so that the induction goes on with the one that each call leaves.
  generalize ([] : Memo) = memo at hnone
  induction asked generalizing memo with
  | nil => exact hnone
  | cons network asked ih => exact ih _ (hnone.addressWith network).2

theorem addressWith_remembered (m : Meta) (asked : List EntityType) (network : EntityType) :
    (m.addressWith network (m.remembered asked)).1 = m.address network :=
  ((recalls_remembered m asked).addressWith network).1

/-- A meta that has been read, or made with a private key whose public key survives. -/
inductive Obtained : Meta → Prop where
  | parsed {members : Json.Members} {m : Meta} (h : parse members = .ok m) : Obtained m
  | generated {type : MetaType} {key : PrivateKey} {seed : Option String} {m : Meta}
      (h : generate type key seed = .ok m) (hk : m.key.Survives) : Obtained m

theorem valid_of_parse {members : Json.Members} (h : parse members = .ok m) :
    m.validate = .ok () ∧ ∃ keyMembers, PublicKey.parse keyMembers = .ok m.key := by
  rw [parse] at h
  split at h
  next tag htag =>
    obtain ⟨type, -, h⟩ := Except.bind_eq_ok_iff.mp h
    obtain ⟨key, hkey, h⟩ := Except.bind_eq_ok_iff.mp h
    obtain ⟨fingerprint, -, h⟩ := Except.bind_eq_ok_iff.mp h
    obtain ⟨hvalid, rfl⟩ := validated_eq_ok_iff.mp h
    refine ⟨hvalid, ?_⟩
    rw [keyOf] at hkey
    split at hkey
    next keyMembers hmember => exact ⟨keyMembers, Except.mapError_eq_ok_iff.mp hkey⟩
    next => cases hkey
    next => cases hkey
  next => cases h

theorem Obtained.valid (h : m.Obtained) : m.validate = .ok () := by
  cases h with
  | parsed h => exact (valid_of_parse h).1
  | generated h hk => exact (of_generate h).2.2

theorem Obtained.exists_alike (h : m.Obtained) :
    ∃ k, PublicKey.parse m.key.members = .ok k ∧ m.key.Alike k := by
  cases h with
  | parsed h =>
    obtain ⟨-, keyMembers, hkey⟩ := valid_of_parse h
    refine ⟨m.key, ?_, .refl m.key⟩
    rwa [PublicKey.members_of_parse hkey]
  | generated h hk => exact hk.exists_alike (of_generate h).1

/-- A meta that is read from the members of another has its parts and its members. It gives the same
addresses, and takes the same identifiers and keys for its own, whatever either has been asked
before. -/
theorem members_read_back (h : m.Obtained) :
    ∃ m', parse m.members = .ok m' ∧ m'.type = m.type ∧ m'.seed = m.seed ∧
      m'.fingerprint = m.fingerprint ∧ m'.key.members = m.key.members ∧ m'.members = m.members ∧
      (∀ asked asked' network, (m'.addressWith network (m'.remembered asked')).1 =
        (m.addressWith network (m.remembered asked)).1) ∧
      (∀ asked asked' i, (m'.matchesWith i (m'.remembered asked')).1 =
        (m.matchesWith i (m.remembered asked)).1) ∧
      ∀ l, m'.matchesKey l = m.matchesKey l := by
  obtain ⟨k, hparse, hk⟩ := h.exists_alike
  have hread : parse m.members = .ok { m with key := k } := by
    rw [parse_members_eq hparse (paired_of_validate h.valid)]
    exact validated_eq_ok_iff.mpr ⟨validate_of_alike hk h.valid, rfl⟩
  have hmembers : k.members = m.key.members := PublicKey.members_of_parse hparse
  refine ⟨_, hread, rfl, rfl, rfl, hmembers, ?_, ?_, ?_, matchesKey_of_alike hk⟩
  · rw [members, members, hmembers]
  · intro asked asked' network
    rw [((recalls_remembered _ asked').addressWith network).1,
      ((recalls_remembered m asked).addressWith network).1, address_of_alike hk]
  · intro asked asked' i
    rw [((recalls_remembered _ asked').matchesWith i).1,
      ((recalls_remembered m asked).matchesWith i).1, matchesIdentifier_of_alike hk]

theorem members_read_back_samples :
    (∃ m m', parse emptySeedMembers = .ok m ∧ m.seed = some "" ∧ parse m.members = .ok m' ∧
      m'.seed = some "" ∧ m'.members = m.members) ∧
    ∃ der key m m', smallNumbers.plainDer? = some der ∧
      PrivateKey.parse (RsaKey.membersOf (Base64.encode der)) = .ok key ∧
      generate .btc key none = .ok m ∧ parse m.members = .ok m' ∧
      (m'.addressWith .user (m'.remembered [])).1 =
        (m.addressWith .user (m.remembered [.group, .user])).1 := by
  constructor
  · have h : trial? emptySeedMembers none =
        some (some "", "145cR7DeLDFcZAtFJSDg4fApoCSEPqVjmY") := by decide +kernel
    obtain ⟨m, -, hm, -, hseed, -⟩ := of_trial? h
    obtain ⟨m', hparse, -, hseed', -, -, hmembers, -⟩ := members_read_back (.parsed hm)
    exact ⟨m, m', hm, hseed, hparse, hseed'.trans hseed, hmembers⟩
  · obtain ⟨der, key, pk, pk', -, hder, hkey, hpk, hread, hfits, -⟩ :=
      PrivateKey.exists_reread_of_numbers (n := smallNumbers) (w := 127) (by decide)
        (by decide +kernel)
    have hfits : pk.Fits := hfits.mpr (by unfold Rsa.PublicKey.Fits; decide +kernel)
    have hm : generate .btc key none = .ok ⟨.btc, pk, none, none⟩ := by
      rw [generate, hpk]
      rfl
    have hsurvives : pk.Survives :=
      ⟨pk', hread.parse_eq, hread.data_of_fits hfits, hread.verify_of_fits hfits⟩
    obtain ⟨m', hparse, -, -, -, -, -, haddress, -⟩ := members_read_back (.generated hm hsurvives)
    exact ⟨der, key, _, m', hder, hkey, hm, hparse, haddress [.group, .user] [] .user⟩

end Meta

end MessagingIdentity

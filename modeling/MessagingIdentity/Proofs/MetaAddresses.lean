import MessagingIdentity.Proofs.PointAddresses

namespace MessagingIdentity

open Secp256k1

namespace PublicKey

variable {k : PublicKey}

theorem exists_data_of_verify {m signature : Bytes} (h : k.verify m signature = true) :
    ∃ d, k.data = .ok d := by
  cases k with
  | rsa k =>
    cases hn : k.numbers with
    | ok n => exact ⟨_, RsaPublicKey.data_of_numbers hn⟩
    | error e =>
      rw [verify, RsaPublicKey.verify, hn] at h
      cases h
  | curve k =>
    cases hp : k.point with
    | ok p => exact ⟨_, CurvePublicKey.data_of_point hp⟩
    | error e =>
      rw [verify, CurvePublicKey.verify, hp] at h
      cases h

theorem Made.exists_rawData_iff (hk : k.Made) :
    (∃ b, k.rawData = .ok b) ↔ ∃ d, k.data = .ok d := by
  cases k with
  | rsa k => rfl
  | curve k =>
    constructor
    · rintro ⟨b, hb⟩
      obtain ⟨p, hp, -⟩ := Except.bind_eq_ok_iff.mp hb
      exact ⟨_, CurvePublicKey.data_of_point hp⟩
    · rintro ⟨d, hd⟩
      obtain ⟨p, hp, -⟩ := Except.map_eq_ok_iff.mp hd
      obtain ⟨b, hb, -⟩ := hk.stored hp
      exact ⟨b, hb⟩

end PublicKey

namespace Meta

variable {m : Meta} {network : EntityType}

/-- A meta that has been read, or made with a private key. -/
inductive Made : Meta → Prop where
  | parsed {members : Json.Members} {m : Meta} (h : parse members = .ok m) : Made m
  | generated {type : MetaType} {key : PrivateKey} {seed : Option String} {m : Meta}
      (h : generate type key seed = .ok m) : Made m

theorem Made.valid (h : m.Made) : m.validate = .ok () := by
  cases h with
  | parsed h => exact (valid_of_parse h).1
  | generated h => exact (of_generate h).2.2

theorem Made.key (h : m.Made) : m.key.Made := by
  cases h with
  | parsed h =>
    obtain ⟨-, keyMembers, hkey⟩ := valid_of_parse h
    exact PublicKey.made_of_parse hkey
  | generated h => exact .derived (of_generate h).1

theorem signed_of_validate (hvalid : m.validate = .ok ()) (h : m.seed.isSome = true ∨ m.type = .mkm) :
    (∃ b, m.fingerprint = some b) ∧ ∃ d, m.key.data = .ok d := by
  rcases (validate_eq_ok_iff.mp hvalid).1 with ⟨hseed, -, htype⟩ | ⟨s, b, -, hb, hverify⟩
  · rw [hseed] at h
    exact absurd h (by simpa using htype)
  · exact ⟨⟨b, hb⟩, PublicKey.exists_data_of_verify hverify⟩

theorem exists_rawData_of_address {a : Address} (htype : m.type ≠ .mkm)
    (h : m.address network = .ok a) : ∃ b, m.key.rawData = .ok b := by
  rw [address] at h
  cases hm : m.type with
  | mkm => exact absurd hm htype
  | _ =>
    rw [hm] at h
    obtain ⟨b, hb, -⟩ := Except.bind_eq_ok_iff.mp h
    exact ⟨b, Except.mapError_eq_ok_iff.mp hb⟩

theorem Made.exists_address_iff (h : m.Made) (network : EntityType) :
    (∃ a, m.address network = .ok a) ↔ ∃ d, m.key.data = .ok d := by
  cases htype : m.type with
  | mkm =>
    obtain ⟨⟨b, hb⟩, hdata⟩ := signed_of_validate h.valid (.inr htype)
    refine iff_of_true ?_ hdata
    rw [address, htype, hb]
    exact ⟨_, rfl⟩
  | btc =>
    rw [← h.key.exists_rawData_iff]
    constructor
    · rintro ⟨a, ha⟩
      exact exists_rawData_of_address (by rw [htype]; decide) ha
    · rintro ⟨b, hb⟩
      rw [address, htype]
      exact ⟨_, Except.bind_eq_ok_iff.mpr ⟨b, Except.mapError_eq_ok_iff.mpr hb, rfl⟩⟩
  | eth =>
    constructor
    · rintro ⟨a, ha⟩
      exact h.key.exists_rawData_iff.mp (exists_rawData_of_address (by rw [htype]; decide) ha)
    · rintro ⟨d, hd⟩
      obtain ⟨k, hkey⟩ := (validate_eq_ok_iff.mp h.valid).2 htype
      rw [hkey] at hd
      obtain ⟨p, hp, -⟩ := Except.map_eq_ok_iff.mp hd
      exact ⟨_, address_of_point htype hkey h.key hp network⟩

theorem exists_data_of_generate {type : MetaType} {key : PrivateKey} {seed : Option String}
    (h : generate type key seed = .ok m) : ∃ d, m.key.data = .ok d :=
  PrivateKey.data_of_publicKey (of_generate h).1

theorem network_of_address {a : Address} (h : m.address network = .ok a) :
    a.network = if m.type = .eth then .user else network := by
  cases htype : m.type with
  | mkm =>
    rw [address, htype] at h
    dsimp only at h
    split at h
    · obtain rfl := Except.ok.inj h
      rfl
    · cases h
  | btc =>
    rw [address, htype] at h
    obtain ⟨b, -, h⟩ := Except.bind_eq_ok_iff.mp h
    obtain rfl := Except.ok.inj h
    rfl
  | eth =>
    rw [address, htype] at h
    obtain ⟨b, -, h⟩ := Except.bind_eq_ok_iff.mp h
    obtain ⟨c, -, h⟩ := Except.bind_eq_ok_iff.mp h
    obtain rfl := Except.ok.inj h
    rfl

/-- Whatever a meta has been asked before, its address on a network is the one that it gives when it is
asked for the first time. The address is there exactly if the key has canonical bytes, which a key has
that has signed a seed or been derived. Its network is the one asked for, or zero where it bears none,
and its text is read as the same address. -/
theorem address_independent_of_asked (h : m.Made) (asked : List EntityType) (network : EntityType) :
    (m.addressWith network (m.remembered asked)).1 = (m.addressWith network []).1 ∧
      ((∃ a, (m.addressWith network (m.remembered asked)).1 = .ok a) ↔ ∃ d, m.key.data = .ok d) ∧
      ((m.seed.isSome = true ∨ ∃ type key seed, generate type key seed = .ok m) →
        ∃ a, (m.addressWith network (m.remembered asked)).1 = .ok a) ∧
      ∀ a, (m.addressWith network (m.remembered asked)).1 = .ok a →
        a.network = (if m.type = .eth then ⟨0⟩ else network) ∧ Address.parse a.text = .ok a := by
  have hfirst : (m.addressWith network []).1 = m.address network := m.addressWith_remembered [] network
  rw [hfirst, addressWith_remembered]
  refine ⟨rfl, h.exists_address_iff network, fun hkey ↦ (h.exists_address_iff network).mpr ?_,
    fun a ha ↦ ⟨network_of_address ha, (made_of_address ha).parse_text⟩⟩
  rcases hkey with hseed | ⟨type, key, seed, hm⟩
  · exact (signed_of_validate h.valid (.inl hseed)).2
  · exact exists_data_of_generate hm

theorem address_independent_of_asked_generator : ∃ k m a,
    PublicKey.parse (CurveKey.membersOf (Hexadecimal.encode CurvePoint.generator.compressed)) =
      .ok k ∧
    parse (members ⟨.eth, k, none, none⟩) = .ok m ∧ m.seed = none ∧
    (m.addressWith .group (m.remembered [.station, .group])).1 = .ok a ∧
    (m.addressWith .group []).1 = .ok a ∧ a.network = .user ∧ Address.parse a.text = .ok a := by
  have hholds := CurveKey.holds_membersOf (Hexadecimal.shows_encode CurvePoint.generator.compressed)
  obtain ⟨k, hk, hp, -⟩ :=
    PublicKey.parse_of_holds hholds (.inl (CurvePoint.compressed_mem_forms .generator))
  have hparse : parse (members ⟨.eth, .curve k, none, none⟩) = .ok ⟨.eth, .curve k, none, none⟩ := by
    have hread : PublicKey.parse (PublicKey.curve k).members = .ok (.curve k) := by
      rwa [PublicKey.members_of_parse hk]
    rw [parse_members_eq hread rfl]
    rfl
  obtain ⟨hsame, hiff, -, hback⟩ :=
    address_independent_of_asked (.parsed hparse) [.station, .group] .group
  obtain ⟨a, ha⟩ := hiff.mpr ⟨_, CurvePublicKey.data_of_point hp⟩
  obtain ⟨hnetwork, hread⟩ := hback a ha
  exact ⟨.curve k, _, a, hk, hparse, rfl, ha, hsame.symm.trans ha, hnetwork, hread⟩

end Meta

end MessagingIdentity

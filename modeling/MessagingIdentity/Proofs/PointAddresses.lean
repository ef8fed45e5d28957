import MessagingIdentity.Proofs.HashedAddressTexts
import MessagingIdentity.Proofs.MetaMembers
import MessagingIdentity.Proofs.PointForms

namespace MessagingIdentity

open Secp256k1

namespace HashedAddress

/-- The half byte at a place; each byte has its upper half first. -/
def nibbleAt (b : Bytes) (i : ℕ) : ℕ :=
  if i % 2 = 0 then (b.getD (i / 2) 0).toNat / 16 else (b.getD (i / 2) 0).toNat % 16

theorem nibbleAt_cons (x : UInt8) (b : Bytes) (i : ℕ) : nibbleAt (x :: b) (i + 2) = nibbleAt b i := by
  rw [nibbleAt, nibbleAt, Nat.add_mod_right, Nat.add_div_right i Nat.two_pos, List.getD_cons_succ]

theorem nibbles_eq (b : Bytes) : nibbles b = (List.range (2 * b.length)).map (nibbleAt b) := by
  induction b with
  | nil => rfl
  | cons x b ih =>
    have hlength : 2 * (x :: b).length = 2 * b.length + 1 + 1 := by rw [List.length_cons]; ring
    have hrest : (nibbleAt (x :: b) ∘ Nat.succ) ∘ Nat.succ = nibbleAt b := funext (nibbleAt_cons x b)
    rw [hlength, List.range_succ_eq_map, List.map_cons, List.map_map, List.range_succ_eq_map,
      List.map_cons, List.map_map, hrest, ← ih]
    rfl

/-- The digit at a place of an address with the given bytes: of lower case, unless the half byte at this
place of the digest of all the digits has its highest bit set. -/
def checksumDigit (tail : Bytes) (i : ℕ) : Char :=
  let c := Hexadecimal.digit (nibbleAt tail i)
  if 8 ≤ nibbleAt (Digest.keccak256 (Bytes.ofText (Hexadecimal.encode tail))) i then c.toUpper else c

theorem checksumCase_pairs {tail : Bytes} (h : tail.length ≤ 32) :
    checksumCase (tail.flatMap Hexadecimal.pair) =
      (List.range (2 * tail.length)).map (checksumDigit tail) := by
  have hdigits : tail.flatMap Hexadecimal.pair = (nibbles tail).map Hexadecimal.digit := by
    rw [nibbles, List.map_flatMap]
    rfl
  change (tail.flatMap Hexadecimal.pair).zipWith caseBy
    (nibbles (Digest.keccak256 (Bytes.ofText (Hexadecimal.encode tail)))) = _
  rw [hdigits, nibbles_eq, nibbles_eq, Digest.length_keccak256]
  refine List.ext_getElem ?_ fun i hi hi' ↦ ?_
  · simp only [List.length_zipWith, List.length_map, List.length_range]
    omega
  · simp only [List.getElem_zipWith, List.getElem_map, List.getElem_range, caseBy, checksumDigit]

theorem toList_text_ofCoordinates (coordinates : Bytes) :
    (ofCoordinates coordinates).text.toList = '0' :: 'x' :: (List.range 40).map
      (checksumDigit ((Digest.keccak256 coordinates).drop skipped)) := by
  have hlength : ((Digest.keccak256 coordinates).drop skipped).length = 20 := by
    rw [List.length_drop, Digest.length_keccak256]
    rfl
  rw [ofCoordinates, digitsOf, checksumCase_pairs (by rw [hlength]; decide), hlength,
    String.toList_ofList]

theorem generate_of_stored {p : CurvePoint} {b : Bytes} (h : p.Stored b) :
    generate b = .ok (ofCoordinates p.coordinates) := by
  rcases CurvePoint.stored_iff.mp h with hb | hb | ⟨tag, htag, hb⟩
  · rw [hb, generate, p.length_coordinates]
    rfl
  · rw [hb, generate, p.length_uncompressed]
    rfl
  · have hread : CurvePoint.ofBytes? b = some p := by
      rw [hb]
      exact CurvePoint.ofBytes?_cons_eq_some_iff.mpr (.inr ⟨htag, rfl⟩)
    have hlength : b.length = 33 := by rw [hb, List.length_cons, Bytes.length_ofNat]
    rw [generate, hread, hlength]
    rfl

end HashedAddress

namespace Meta

variable {m : Meta}

theorem address_of_point {k : CurvePublicKey} {p : CurvePoint} (htype : m.type = .eth)
    (hkey : m.key = .curve k) (hk : m.key.Made) (hp : k.point = .ok p) (network : EntityType) :
    m.address network = .ok (.hashed (HashedAddress.ofCoordinates p.coordinates)) := by
  rw [hkey] at hk
  obtain ⟨b, hb, hstored⟩ := hk.stored hp
  rw [address, htype, hkey]
  refine Except.bind_eq_ok_iff.mpr ⟨b, Except.mapError_eq_ok_iff.mpr hb, ?_⟩
  exact Except.bind_eq_ok_iff.mpr
    ⟨_, Except.mapError_eq_ok_iff.mpr (HashedAddress.generate_of_stored hstored), rfl⟩

/-- The bytes that a usable key on the curve holds, and the canonical ones, give one address, which
is the digest of the point. It is the address on every network of every meta of this kind with this key
or with an equal one, whatever the metas have been asked before. -/
theorem hashed_address_of_point {k : CurvePublicKey} {d : Bytes} (hk : (PublicKey.curve k).Made)
    (hd : (PublicKey.curve k).data = .ok d) :
    ∃ (p : CurvePoint) (raw : Bytes) (a : HashedAddress),
      d = 4 :: (Bytes.ofNat 32 p.x.val ++ Bytes.ofNat 32 p.y.val) ∧
      (PublicKey.curve k).rawData = .ok raw ∧ HashedAddress.generate raw = .ok a ∧
      HashedAddress.generate d = .ok a ∧
      a.text.toList = '0' :: 'x' :: (List.range 40).map (HashedAddress.checksumDigit
        ((Digest.keccak256 (Bytes.ofNat 32 p.x.val ++ Bytes.ofNat 32 p.y.val)).drop 12)) ∧
      ∀ l d', l.Made → l.data = .ok d' → (PublicKey.curve k).equal l = true →
        ∀ m m' : Meta, m.type = .eth → m.key = .curve k → m'.type = .eth → m'.key = l →
        ∀ asked asked' network network',
          (m.addressWith network (m.remembered asked)).1 = .ok (.hashed a) ∧
          (m'.addressWith network' (m'.remembered asked')).1 = .ok (.hashed a) := by
  obtain ⟨p, hp, rfl⟩ := Except.map_eq_ok_iff.mp hd
  obtain ⟨raw, hraw, hstored⟩ := hk.stored hp
  refine ⟨p, raw, HashedAddress.ofCoordinates p.coordinates, rfl, hraw,
    HashedAddress.generate_of_stored hstored,
    HashedAddress.generate_of_stored (.inl p.uncompressed_mem_forms),
    HashedAddress.toList_text_ofCoordinates p.coordinates, ?_⟩
  intro l d' hl hd' hequal m m' htype hkey htype' hkey' asked asked' network network'
  rw [addressWith_remembered, addressWith_remembered]
  cases l with
  | rsa l => cases hequal
  | curve l =>
    obtain ⟨q, hq, -⟩ := Except.map_eq_ok_iff.mp hd'
    obtain rfl : p = q := (PublicKey.equal_curve_iff hp hq).mp hequal
    exact ⟨address_of_point htype hkey (hkey ▸ hk) hp network,
      address_of_point htype' hkey' (hkey' ▸ hl) hq network'⟩

theorem hashed_address_of_point_generator : ∃ k l a,
    PublicKey.parse (CurveKey.membersOf (Hexadecimal.encode CurvePoint.generator.compressed)) =
      .ok k ∧
    PublicKey.parse (CurveKey.membersOf (Hexadecimal.encode CurvePoint.generator.coordinates)) =
      .ok l ∧
    k.equal l = true ∧
    HashedAddress.generate CurvePoint.generator.compressed = .ok a ∧
    (addressWith ⟨.eth, k, none, none⟩ .group []).1 = .ok (.hashed a) ∧
    (addressWith ⟨.eth, l, none, none⟩ .user []).1 = .ok (.hashed a) := by
  have hcompressed :=
    CurveKey.holds_membersOf (Hexadecimal.shows_encode CurvePoint.generator.compressed)
  have hcoordinates :=
    CurveKey.holds_membersOf (Hexadecimal.shows_encode CurvePoint.generator.coordinates)
  obtain ⟨k, hk, hp, hraw⟩ :=
    PublicKey.parse_of_holds hcompressed (.inl (CurvePoint.compressed_mem_forms .generator))
  obtain ⟨l, hl, hq, -⟩ :=
    PublicKey.parse_of_holds hcoordinates (.inl (CurvePoint.coordinates_mem_forms .generator))
  have hequal := (PublicKey.equal_curve_iff hp hq).mpr rfl
  obtain ⟨p, raw, a, -, hraw', ha, -, -, haddress⟩ :=
    hashed_address_of_point (PublicKey.made_of_parse hk) (CurvePublicKey.data_of_point hp)
  obtain rfl : CurvePoint.generator.compressed = raw := Except.ok.inj (hraw.symm.trans hraw')
  obtain ⟨hgroup, huser⟩ := haddress (.curve l) _ (PublicKey.made_of_parse hl)
    (CurvePublicKey.data_of_point hq) hequal ⟨.eth, .curve k, none, none⟩ ⟨.eth, .curve l, none, none⟩
    rfl rfl rfl rfl [] [] .group .user
  exact ⟨.curve k, .curve l, a, hk, hl, hequal, ha, hgroup, huser⟩

end Meta

end MessagingIdentity

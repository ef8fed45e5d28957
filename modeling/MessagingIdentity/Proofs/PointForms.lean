import MessagingIdentity.Proofs.DerivedPublicKey
import MessagingIdentity.Proofs.GeneratorMultiples

namespace MessagingIdentity

namespace Secp256k1

variable {x y z : Coordinate}

theorem mul_self_eq_iff : y * y = z * z ↔ y = z ∨ y = -z := by
  rw [← toField_injective.eq_iff, ← toField_injective.eq_iff, ← toField_injective.eq_iff, toField_neg,
    toField_mul, toField_mul]
  exact mul_self_eq_mul_self_iff

/-- The order of the field leaves the remainder 3 by 4, so that a power of a square is its root. -/
theorem power_mul_self (h : y * y = x) :
    x.power ((fieldOrder + 1) / 4) * x.power ((fieldOrder + 1) / 4) = x := by
  refine toField_injective ?_
  have hexponent : 2 * ((fieldOrder + 1) / 4 + (fieldOrder + 1) / 4) = fieldOrder + 1 := by decide
  rw [toField_mul, toField_power, ← h, toField_mul, ← pow_add, ← sq, ← pow_mul, hexponent, pow_succ,
    ZMod.pow_card, sq]

theorem neg_odd_iff (hy : y ≠ 0) : (-y).val % 2 = 1 ↔ ¬ y.val % 2 = 1 := by
  have hpos : 0 < y.val := Nat.pos_of_ne_zero fun h ↦ hy (Fin.ext h)
  have hlt := y.isLt
  have hval : (-y).val = fieldOrder - y.val := by
    rw [Fin.val_neg', Nat.mod_eq_of_lt (by omega)]
  have hodd : fieldOrder % 2 = 1 := by decide
  rw [hval]
  omega

/-- Of the two roots of a square other than zero, the parity picks one. -/
theorem eq_iff_odd (hz : z ≠ 0) (h : y = z ∨ y = -z) :
    y = z ↔ (y.val % 2 = 1 ↔ z.val % 2 = 1) := by
  refine ⟨fun hyz ↦ hyz ▸ Iff.rfl, fun hodd ↦ ?_⟩
  rcases h with rfl | rfl
  · rfl
  · exact absurd (hodd.symm.trans (neg_odd_iff hz)) iff_not_self

namespace CurvePoint

variable {p : CurvePoint}

/-- Minus seven is no cube. -/
theorem cubic_ne_zero (x : Coordinate) : cubic x ≠ 0 := by
  intro h
  have hcube : toField x ^ 3 = ((fieldOrder - 7 : ℕ) : ZMod fieldOrder) := by
    have hfield := congrArg toField h
    rw [toField_cubic, toField_zero] at hfield
    rw [Nat.cast_sub (by decide), ZMod.natCast_self]
    push_cast
    linear_combination hfield
  have hx : toField x ≠ 0 := by
    intro hx
    rw [hx, zero_pow three_ne_zero] at hcube
    exact natCast_ne_zero (by decide) (by decide) hcube.symm
  -- Three divides the order of the multiplicative group, so this power of a cube would be one.
  have hpower : ((Modular.pow (fieldOrder - 7) ((fieldOrder - 1) / 3) fieldOrder : ℕ) :
      ZMod fieldOrder) = (1 : ℕ) := by
    have hexponent : 3 * ((fieldOrder - 1) / 3) = fieldOrder - 1 := by decide
    rw [Modular.natCast_pow, ← hcube, ← pow_mul, hexponent, ZMod.pow_card_sub_one_eq_one hx,
      Nat.cast_one]
  exact absurd ((ZMod.natCast_eq_natCast_iff' _ _ _).mp hpower) (by decide +kernel)

theorem ofCoordinates?_eq_some_iff : ofCoordinates? x y = some p ↔ p.x = x ∧ p.y = y := by
  obtain ⟨u, v, h⟩ := p
  unfold ofCoordinates?
  split
  next hxy => simp [eq_comm]
  next hxy =>
    refine iff_of_false nofun ?_
    rintro ⟨rfl, rfl⟩
    exact hxy h

theorem decompress?_eq_some_iff {odd : Bool} :
    decompress? x odd = some p ↔ p.x = x ∧ (p.y.val % 2 = 1 ↔ odd = true) := by
  rw [decompress?, ofCoordinates?_eq_some_iff]
  refine and_congr_right fun hx ↦ ?_
  have hroot := power_mul_self p.equation
  rw [← hx]
  -- Of the root, only its square matters, and that it is not zero: else both signs would be even.
  generalize (cubic p.x).power ((fieldOrder + 1) / 4) = r at hroot ⊢
  have hr : r ≠ 0 := by
    rintro rfl
    exact cubic_ne_zero p.x (hroot.symm.trans (mul_zero 0))
  have hy : p.y = r ∨ p.y = -r := mul_self_eq_iff.mp (p.equation.trans hroot.symm)
  split
  next hodd => rw [eq_iff_odd hr hy, hodd]
  next hodd =>
    have hy' : p.y = -r ∨ p.y = - -r := by rwa [neg_neg, or_comm]
    rw [eq_iff_iff, not_iff] at hodd
    rw [eq_iff_odd (neg_ne_zero.mpr hr) hy', neg_odd_iff hr, hodd]

theorem coordinate?_eq_some_iff {b : Bytes} (hb : b.length = 32) :
    coordinate? b = some x ↔ b = Bytes.ofNat 32 x.val := by
  constructor
  · intro h
    unfold coordinate? at h
    split at h
    next hlt =>
      obtain rfl := Option.some.inj h
      exact (Bytes.ofNat_toNat_of_length hb).symm
    next => cases h
  · intro h
    rw [h, coordinate?_ofNat]

theorem ofCoordinates?_bytes_eq_some_iff {b : Bytes} (hb : b.length = 64) :
    (do ofCoordinates? (← coordinate? (b.take 32)) (← coordinate? (b.drop 32))) = some p ↔
      b = p.coordinates := by
  have hx : (b.take 32).length = 32 := by rw [List.length_take, hb]; rfl
  have hy : (b.drop 32).length = 32 := by rw [List.length_drop, hb]
  simp only [Option.bind_eq_bind, Option.bind_eq_some_iff, coordinate?_eq_some_iff hx,
    coordinate?_eq_some_iff hy, ofCoordinates?_eq_some_iff]
  constructor
  · rintro ⟨x, hx, y, hy, rfl, rfl⟩
    rw [coordinates, ← hx, ← hy, List.take_append_drop]
  · intro h
    have hlength (n : ℕ) : (Bytes.ofNat 32 n).length = 32 := Bytes.length_ofNat 32 n
    rw [h, coordinates]
    exact ⟨p.x, List.take_left' (hlength _), p.y, List.drop_left' (hlength _), rfl, rfl⟩

theorem decompress?_bytes_eq_some_iff {b : Bytes} {odd : Bool} (hb : b.length = 32) :
    (do decompress? (← coordinate? b) odd) = some p ↔
      (p.y.val % 2 = 1 ↔ odd = true) ∧ b = Bytes.ofNat 32 p.x.val := by
  simp only [Option.bind_eq_bind, Option.bind_eq_some_iff, coordinate?_eq_some_iff hb,
    decompress?_eq_some_iff]
  constructor
  · rintro ⟨x, hx, rfl, hodd⟩
    exact ⟨hodd, hx⟩
  · rintro ⟨hodd, hx⟩
    exact ⟨p.x, hx, rfl, hodd⟩

/-- The byte before a single coordinate that stands for the parity of the other one. -/
def Marks (p : CurvePoint) (tag : UInt8) : Prop :=
  (tag = 2 ∨ tag = 3 ∨ tag = 5) ∧ (p.y.val % 2 = 1 ↔ tag = 3)

theorem marks_iff {tag : UInt8} : p.Marks tag ↔
    tag = (if p.y.val % 2 = 1 then 3 else 2) ∨ (p.y.val % 2 = 0 ∧ tag = 5) := by
  rw [Marks]
  rcases Nat.mod_two_eq_zero_or_one p.y.val with heven | hodd
  · simp only [heven, zero_ne_one, if_false, true_and, false_iff]
    constructor
    · rintro ⟨rfl | rfl | rfl, h⟩
      · exact .inl rfl
      · exact absurd rfl h
      · exact .inr rfl
    · rintro (rfl | rfl) <;> decide
  · simp only [hodd, if_true, true_iff, one_ne_zero, false_and, or_false]
    exact ⟨And.right, fun h ↦ ⟨.inr (.inl h), h⟩⟩

theorem not_marks_four (p : CurvePoint) : ¬ p.Marks 4 := fun h ↦ absurd h.1 (by decide)

theorem ofBytes?_cons_eq_some_iff {tag : UInt8} {rest : Bytes} :
    ofBytes? (tag :: rest) = some p ↔ (tag = 4 ∧ rest = p.coordinates) ∨
      (p.Marks tag ∧ rest = Bytes.ofNat 32 p.x.val) := by
  rw [ofBytes?]
  split
  next htag =>
    subst htag
    have hmarked : ¬ (p.Marks 4 ∧ rest = Bytes.ofNat 32 p.x.val) := fun h ↦ p.not_marks_four h.1
    rw [or_iff_left hmarked, and_iff_right rfl]
    split
    next hlength => exact ofCoordinates?_bytes_eq_some_iff hlength
    next hlength =>
      refine iff_of_false (Option.some_ne_none p).symm fun h ↦ hlength ?_
      rw [h, p.length_coordinates]
  next htag =>
    have hfull : ¬ (tag = 4 ∧ rest = p.coordinates) := fun h ↦ htag h.1
    rw [or_iff_right hfull]
    split
    next hmark =>
      split
      next hlength =>
        rw [decompress?_bytes_eq_some_iff hlength, decide_eq_true_eq, Marks, and_iff_right hmark]
      next hlength =>
        refine iff_of_false (Option.some_ne_none p).symm fun h ↦ hlength ?_
        rw [h.2, Bytes.length_ofNat]
    next hmark => exact iff_of_false (Option.some_ne_none p).symm fun h ↦ hmark h.1.1

/-- Both coordinates alone, both behind the byte 4, and the compressed bytes. -/
def forms (p : CurvePoint) : List Bytes := [p.coordinates, p.uncompressed, p.compressed]

theorem coordinates_mem_forms (p : CurvePoint) : p.coordinates ∈ p.forms := .head _

theorem uncompressed_mem_forms (p : CurvePoint) : p.uncompressed ∈ p.forms := .tail _ (.head _)

theorem compressed_mem_forms (p : CurvePoint) : p.compressed ∈ p.forms :=
  .tail _ (.tail _ (.head _))

/-- The bytes stand for the point: they are one of its forms, or one coordinate behind the byte 5 if
the other one is even. -/
def Stored (p : CurvePoint) (b : Bytes) : Prop :=
  b ∈ p.forms ∨ (p.y.val % 2 = 0 ∧ b = 5 :: Bytes.ofNat 32 p.x.val)

theorem stored_iff {b : Bytes} : p.Stored b ↔ b = p.coordinates ∨ b = p.uncompressed ∨
    ∃ tag, p.Marks tag ∧ b = tag :: Bytes.ofNat 32 p.x.val := by
  have hmarked : (∃ tag, p.Marks tag ∧ b = tag :: Bytes.ofNat 32 p.x.val) ↔
      b = p.compressed ∨ (p.y.val % 2 = 0 ∧ b = 5 :: Bytes.ofNat 32 p.x.val) := by
    simp only [marks_iff, or_and_right, exists_or, exists_eq_left, and_assoc, exists_and_left,
      compressed]
  rw [hmarked, Stored, forms, List.mem_cons, List.mem_cons, List.mem_singleton, or_assoc, or_assoc]

theorem length_uncompressed (p : CurvePoint) : p.uncompressed.length = 65 := by
  rw [uncompressed, List.length_cons, p.length_coordinates]

theorem Stored.ne_nil {b : Bytes} (h : p.Stored b) : b ≠ [] := by
  rintro rfl
  rcases stored_iff.mp h with h | h | ⟨tag, -, h⟩
  · exact absurd (congrArg List.length h) (by rw [p.length_coordinates]; decide)
  · cases h
  · cases h

/-- Sixty-four bytes are read as if the byte 4 stood before them. -/
theorem ofBytes?_prefixed_eq_some_iff {b : Bytes} :
    ofBytes? (if b.length = 64 then 4 :: b else b) = some p ↔ p.Stored b := by
  rw [stored_iff]
  split
  next hlength =>
    -- No other form has this length, and the byte in front is no mark of a parity.
    have huncompressed : b ≠ p.uncompressed := by
      rintro rfl
      rw [p.length_uncompressed] at hlength
      cases hlength
    have hmarked : ¬ ∃ tag, p.Marks tag ∧ b = tag :: Bytes.ofNat 32 p.x.val := by
      rintro ⟨tag, -, rfl⟩
      rw [List.length_cons, Bytes.length_ofNat] at hlength
      cases hlength
    have hmarks : ¬ (p.Marks 4 ∧ b = Bytes.ofNat 32 p.x.val) := fun h ↦ p.not_marks_four h.1
    rw [ofBytes?_cons_eq_some_iff, or_iff_left hmarks, and_iff_right rfl, or_iff_left]
    exact not_or.mpr ⟨huncompressed, hmarked⟩
  next hlength =>
    have hcoordinates : b ≠ p.coordinates := fun h ↦ hlength (h ▸ p.length_coordinates)
    rw [or_iff_right hcoordinates]
    cases b with
    | nil => simp only [ofBytes?, uncompressed, reduceCtorEq, and_false, exists_false, or_self]
    | cons tag rest =>
      rw [ofBytes?_cons_eq_some_iff, uncompressed]
      simp only [List.cons.injEq, and_left_comm (b := tag = _), exists_eq_left']

end CurvePoint

end Secp256k1

open Secp256k1

namespace CurvePublicKey

variable {k : CurvePublicKey} {p : CurvePoint} {b : Bytes}

theorem point_eq_ok_iff (h : k.point? = none) :
    k.point = .ok p ↔ ∃ b, CurveKey.bytes k.attributes = .ok b ∧ p.Stored b := by
  rw [point, h]
  refine Except.bind_eq_ok_iff.trans (exists_congr fun b ↦ and_congr_right fun _ ↦ ?_)
  rw [← CurvePoint.ofBytes?_prefixed_eq_some_iff]
  split
  next q hq =>
    rw [hq, Option.some_inj]
    exact ⟨fun h ↦ Except.ok.inj h, fun h ↦ congrArg Except.ok h⟩
  next hnone =>
    rw [hnone]
    exact iff_of_false (by rintro ⟨⟩) (Option.some_ne_none p).symm

theorem rawData_of_point (h : k.point = .ok p) : k.rawData = CurveKey.bytes k.attributes := by
  rw [rawData, h]
  generalize CurveKey.bytes k.attributes = r
  rfl

end CurvePublicKey

namespace CurveKey

/-- The members are those of a key on the curve whose data shows the bytes. -/
structure Holds (m : Json.Members) (b : Bytes) : Prop where
  tag : ∃ tag ∈ ["ECC", "SHA256withECDSA"], m.text? Field.algorithm = some tag
  data : ∃ text, m.text? Field.data = some text ∧ Hexadecimal.Shows text b

theorem holds_membersOf {data : String} {b : Bytes} (h : Hexadecimal.Shows data b) :
    Holds (membersOf data) b := ⟨⟨tag, .head _, rfl⟩, data, rfl, h⟩

end CurveKey

namespace PublicKey

variable {m m' : Json.Members} {p : CurvePoint} {b b' : Bytes}

theorem parse_of_holds (h : CurveKey.Holds m b) (hb : p.Stored b) :
    ∃ k, PublicKey.parse m = .ok (curve k) ∧ k.point = .ok p ∧ k.rawData = .ok b := by
  obtain ⟨⟨tag, htag, halgorithm⟩, text, hdata, hshows⟩ := h
  let a : Attributes := ⟨m, tag, text, halgorithm, hdata, hshows.ne_empty hb.ne_nil⟩
  have hfamily : Registry.family Registry.pairDefaults tag = .ok .curve := by
    rcases List.mem_pair.mp htag with rfl | rfl <;> rfl
  have hbytes : CurveKey.bytes a = .ok b := CurveKey.bytes_of_shows hshows
  have hpoint : (CurvePublicKey.mk a none).point = .ok p :=
    (CurvePublicKey.point_eq_ok_iff rfl).mpr ⟨b, hbytes, hb⟩
  exact ⟨⟨a, none⟩, parse_of_curve_family (a := a) hfamily, hpoint,
    (CurvePublicKey.rawData_of_point hpoint).trans hbytes⟩

/-- A public key that has been read from its members, or derived from a private key. -/
inductive Made : PublicKey → Prop where
  | read {f : PairFamily} {members : Json.Members} {k : PublicKey}
      (h : f.readPublic members = .ok k) : Made k
  | derived {key : PrivateKey} {k : PublicKey} (h : key.publicKey = .ok k) : Made k

theorem made_of_parse {k : PublicKey} (h : parse m = .ok k) : k.Made := by
  obtain ⟨tag, -, h⟩ := Except.bind_eq_ok_iff.mp h
  obtain ⟨f, -, h⟩ := Except.bind_eq_ok_iff.mp h
  exact .read h

theorem point?_of_readPublic {f : PairFamily} {k : CurvePublicKey}
    (h : f.readPublic m = .ok (curve k)) : k.point? = none := by
  cases f with
  | rsa =>
    obtain ⟨l, -, h⟩ := Except.map_eq_ok_iff.mp h
    cases h
  | curve =>
    obtain ⟨l, hl, h⟩ := Except.map_eq_ok_iff.mp h
    obtain ⟨a, -, rfl⟩ := Except.map_eq_ok_iff.mp hl
    obtain rfl := curve.inj h
    rfl

theorem Made.stored {k : CurvePublicKey} (hk : (curve k).Made) (hp : k.point = .ok p) :
    ∃ b, (curve k).rawData = .ok b ∧ p.Stored b := by
  cases hk with
  | read h =>
    obtain ⟨b, hb, hstored⟩ := (CurvePublicKey.point_eq_ok_iff (point?_of_readPublic h)).mp hp
    exact ⟨b, (CurvePublicKey.rawData_of_point hp).trans hb, hstored⟩
  | @derived key _ h =>
    cases key with
    | rsa key =>
      obtain ⟨l, -, h⟩ := Except.map_eq_ok_iff.mp h
      cases h
    | curve key =>
      obtain ⟨l, hl, h⟩ := Except.map_eq_ok_iff.mp h
      obtain rfl := curve.inj h
      obtain ⟨-, -, q, -, hpreset, hmembers⟩ := CurvePrivateKey.publicKey_eq_ok_iff.mp hl
      obtain rfl : q = p := Except.ok.inj ((CurvePublicKey.point_of_preset hpreset).symm.trans hp)
      have hdata : l.attributes.data = Hexadecimal.encode q.uncompressed :=
        Attributes.data_eq_of_members (hmembers ▸ rfl)
      exact ⟨q.uncompressed, (CurvePublicKey.rawData_of_point hp).trans
        (CurveKey.bytes_of_encode hdata), .inl q.uncompressed_mem_forms⟩

/-- Keys that hold forms of one point are read, have the point as their canonical bytes and the form
as the bytes they hold, are equal, and accept the same signatures. The canonical bytes of every key on
the curve are a point, which the bytes it holds stand for. -/
theorem forms_interchangeable (hb : b ∈ p.forms) (hb' : b' ∈ p.forms) (h : CurveKey.Holds m b)
    (h' : CurveKey.Holds m' b') :
    (∃ k k', parse m = .ok k ∧ parse m' = .ok k' ∧
      k.data = .ok (4 :: (Bytes.ofNat 32 p.x.val ++ Bytes.ofNat 32 p.y.val)) ∧ k'.data = k.data ∧
      k.rawData = .ok b ∧ k'.rawData = .ok b' ∧ k.equal k' = true ∧
      ∀ message signature, k.verify message signature = k'.verify message signature) ∧
    ∀ k d, (curve k).Made → (curve k).data = .ok d →
      ∃ (q : CurvePoint) (raw : Bytes), (curve k).rawData = .ok raw ∧ q.Stored raw ∧
        d = 4 :: (Bytes.ofNat 32 q.x.val ++ Bytes.ofNat 32 q.y.val) := by
  constructor
  · obtain ⟨k, hparse, hpoint, hraw⟩ := parse_of_holds h (.inl hb)
    obtain ⟨k', hparse', hpoint', hraw'⟩ := parse_of_holds h' (.inl hb')
    have hdata := CurvePublicKey.data_of_point hpoint
    have hdata' := CurvePublicKey.data_of_point hpoint'
    exact ⟨curve k, curve k', hparse, hparse', hdata, hdata'.trans hdata.symm, hraw, hraw',
      (equal_curve_iff hpoint hpoint').mpr rfl,
      CurvePublicKey.verify_congr (hpoint.trans hpoint'.symm)⟩
  · intro k d hk hd
    obtain ⟨q, hq, rfl⟩ := Except.map_eq_ok_iff.mp hd
    obtain ⟨raw, hraw, hstored⟩ := hk.stored hq
    exact ⟨q, raw, hraw, hstored, rfl⟩

theorem forms_interchangeable_generator : ∃ k k',
    parse (CurveKey.membersOf
      "\t0279BE667EF9DCBBAC55A06295CE870B07029BFCDB2DCE28D959F2815B16F81798 \n") = .ok k ∧
    parse (CurveKey.membersOf (Hexadecimal.encode CurvePoint.generator.coordinates)) = .ok k' ∧
    k.rawData = .ok CurvePoint.generator.compressed ∧ k.equal k' = true := by
  have hshows : Hexadecimal.Shows
      "\t0279BE667EF9DCBBAC55A06295CE870B07029BFCDB2DCE28D959F2815B16F81798 \n"
      CurvePoint.generator.compressed :=
    ⟨['\t'], "0279BE667EF9DCBBAC55A06295CE870B07029BFCDB2DCE28D959F2815B16F81798".toList, [' ', '\n'],
      by decide, List.all_eq_true.mp (by decide), List.all_eq_true.mp (by decide), by decide +kernel⟩
  obtain ⟨⟨k, k', hk, hk', -, -, hraw, -, hequal, -⟩, -⟩ := forms_interchangeable
    (CurvePoint.compressed_mem_forms .generator) (CurvePoint.coordinates_mem_forms .generator)
    (CurveKey.holds_membersOf hshows) (CurveKey.holds_membersOf (Hexadecimal.shows_encode _))
  exact ⟨k, k', hk, hk', hraw, hequal⟩

end PublicKey

end MessagingIdentity

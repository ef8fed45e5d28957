import MessagingIdentity.Key.Matching
import MessagingIdentity.Proofs.SymmetricEncryption

namespace MessagingIdentity

theorem undoes_iff {encryption : Except KeyError Bytes × Json.Members}
    {decrypt : Bytes → Json.Members → Except KeyError Bytes} :
    undoes encryption decrypt = true ↔
      ∃ c, encryption.1 = .ok c ∧ decrypt c encryption.2 = .ok probe := by
  obtain ⟨r, params⟩ := encryption
  cases r with
  | error err => exact iff_of_false Bool.false_ne_true nofun
  | ok c =>
    have hplain : undoes (.ok c, params) decrypt = true ↔ decrypt c params = .ok probe := by
      cases h : decrypt c params <;> simp [undoes, h]
    exact hplain.trans ⟨fun h ↦ ⟨c, rfl, h⟩, fun ⟨_, hc, h⟩ ↦ Except.ok.inj hc ▸ h⟩

namespace SymmetricKey

open AesKey

variable {x y : AesKey} {i : Bytes}

theorem decryptedBy_of_own (hx : x.iv [] = .ok (some i)) (e : Entropy.Source) :
    decryptedBy (aes x) (aes y) e = true ↔ ∃ k, x.data = .ok k ∧ ∃ j, y.iv [] = .ok j ∧
      ∃ l, y.data = .ok l ∧ Aes.encrypt k (Aes.blockOf i) probe =
        Aes.encrypt l (Aes.blockOf (j.getD zeroBlock)) probe := by
  have hsent : SymmetricKey.encrypt (aes x) probe [] e =
      (x.data.map fun k ↦ Aes.encrypt k (Aes.blockOf i) probe, []) := by
    rw [SymmetricKey.encrypt, AesKey.encrypt, hx]
  rw [decryptedBy, undoes_iff, hsent]
  simp only [Except.map_eq_ok_iff, SymmetricKey.decrypt, decrypt_eq_ok_iff]
  constructor
  · rintro ⟨_, ⟨k, hk, rfl⟩, h⟩
    exact ⟨k, hk, h⟩
  · rintro ⟨k, hk, h⟩
    exact ⟨_, ⟨k, hk, rfl⟩, h⟩

theorem decryptedBy_of_draw {e : Entropy.Source} (hx : x.LacksBlock)
    (hi : e.draw Aes.blockSize = .ok i) :
    decryptedBy (aes x) (aes y) e = true ↔ ∃ k, x.data = .ok k ∧ ∃ l, y.data = .ok l ∧
      Aes.encrypt k (Aes.blockOf i) probe = Aes.encrypt l (Aes.blockOf i) probe := by
  have hlength := Entropy.Source.length_of_draw hi
  have hsent : SymmetricKey.encrypt (aes x) probe [] e =
      (x.data.map fun k ↦ Aes.encrypt k (Aes.blockOf i) probe,
        Json.Members.insert Field.iv (.text (Base64.encode i)) []) := by
    rw [SymmetricKey.encrypt, AesKey.encrypt, hx]
    simp only [hi]
  rw [decryptedBy, undoes_iff, hsent]
  simp only [Except.map_eq_ok_iff, SymmetricKey.decrypt, decrypt_eq_ok_iff, iv_insert y [] hlength]
  constructor
  · rintro ⟨_, ⟨k, hk, rfl⟩, j, hj, h⟩
    obtain rfl := Except.ok.inj hj
    exact ⟨k, hk, h⟩
  · rintro ⟨k, hk, h⟩
    exact ⟨_, ⟨k, hk, rfl⟩, _, rfl, h⟩

theorem decryptedBy_of_no_draw {e : Entropy.Source} {reason : String} (hx : x.LacksBlock)
    (he : e.draw Aes.blockSize = .error reason) : decryptedBy (aes x) (aes y) e = false := by
  have hsent : SymmetricKey.encrypt (aes x) probe [] e = (.error (.other (.ivDraw reason)), []) := by
    rw [SymmetricKey.encrypt, AesKey.encrypt, hx]
    simp only [he]
  rw [decryptedBy, hsent, undoes]

theorem decryptedBy_of_error {err : KeyError} (hx : x.iv [] = .error err) (e : Entropy.Source) :
    decryptedBy (aes x) (aes y) e = false := by
  have hsent : SymmetricKey.encrypt (aes x) probe [] e = (.error err, []) := by
    rw [SymmetricKey.encrypt, AesKey.encrypt, hx]
  rw [decryptedBy, hsent, undoes]

/-- Keys whose comparison may not depend on their order: if they are both AES keys, each brings an
initial block of its own or neither does. Where neither does, there are random bytes for both
comparisons or for none, and the keys hold the same bytes or the same block is drawn. -/
def Comparable (e e' : Entropy.Source) : SymmetricKey → SymmetricKey → Prop
  | aes x, aes y => (x.LacksBlock ↔ y.LacksBlock) ∧
      (x.LacksBlock → e.isOk = e'.isOk ∧
        (x.data = y.data ∨ e.draw Aes.blockSize = e'.draw Aes.blockSize))
  | _, _ => True

theorem Comparable.symm {a b : SymmetricKey} {e e' : Entropy.Source} (h : Comparable e e' a b) :
    Comparable e' e b a := by
  cases a with
  | plain => cases b <;> trivial
  | aes x =>
    cases b with
    | plain => trivial
    | aes y => exact ⟨h.1.symm, fun hy ↦ (h.2 (h.1.mpr hy)).imp Eq.symm (Or.imp Eq.symm Eq.symm)⟩

theorem decryptedBy_comm_of_comparable {e e' : Entropy.Source} (h : Comparable e e' (aes x) (aes y))
    (hxy : decryptedBy (aes x) (aes y) e = true) : decryptedBy (aes y) (aes x) e' = true := by
  cases hx : x.iv [] with
  | error err => exact absurd hxy (by simp [decryptedBy_of_error hx])
  | ok o =>
    cases o with
    | none =>
      obtain ⟨hsources, hsame⟩ := h.2 hx
      cases hi : e.draw Aes.blockSize with
      | error reason => exact absurd hxy (by simp [decryptedBy_of_no_draw hx hi])
      | ok i =>
        obtain ⟨k, hk, l, hl, heq⟩ := (decryptedBy_of_draw hx hi).mp hxy
        obtain ⟨j, hj⟩ : ∃ j, e'.draw Aes.blockSize = .ok j := by
          rw [← Except.isOk_iff, e'.isOk_draw, ← hsources, ← e.isOk_draw Aes.blockSize, hi]
          rfl
        refine (decryptedBy_of_draw (h.1.mp hx) hj).mpr ⟨l, hl, k, hk, ?_⟩
        rcases hsame with hdata | hdraw
        · obtain rfl : k = l := Except.ok.inj (hk.symm.trans (hdata.trans hl))
          rfl
        · obtain rfl : i = j := Except.ok.inj (hi.symm.trans (hdraw.trans hj))
          exact heq.symm
    | some i =>
      obtain ⟨k, hk, j, hj, l, hl, heq⟩ := (decryptedBy_of_own hx e).mp hxy
      cases j with
      | none => exact absurd (h.1.mpr hj) (by simp [LacksBlock, hx])
      | some j => exact (decryptedBy_of_own hj e').mpr ⟨l, hl, some i, hx, k, hk, heq.symm⟩

/-- Two keys are equal in either order, unless they are AES keys of which only one brings an initial
block of its own, or of which neither does, and a block is drawn for one comparison alone, or two
blocks that differ for keys that do not hold the same bytes. -/
theorem equal_comm (same : Bool) {a b : SymmetricKey} {e e' : Entropy.Source}
    (h : Comparable e e' a b) : equal same a b e = equal same b a e' := by
  cases a with
  | plain => cases b <;> rfl
  | aes x =>
    cases b with
    | plain => rfl
    | aes y =>
      have hiff : decryptedBy (aes x) (aes y) e = decryptedBy (aes y) (aes x) e' :=
        Bool.eq_iff_iff.mpr
          ⟨decryptedBy_comm_of_comparable h, decryptedBy_comm_of_comparable h.symm⟩
      rw [equal, equal, hiff]

def aesMembers (more : List (String × Json)) : Json.Members := Json.Members.ofList <|
  (Field.algorithm, .text AesKey.tag) :: (Field.data, .text "AAECAwQFBgcICQoLDA0ODw==") :: more

def trial? (m : Json.Members) : Option (Option Bytes × Option (Option Bytes)) :=
  match parse m with
  | .ok (aes x) => some (x.data.toOption, (x.iv []).toOption)
  | _ => none

theorem of_trial? {m : Json.Members} {k : Bytes} {o : Option Bytes}
    (h : trial? m = some (some k, some o)) :
    ∃ x, parse m = .ok (aes x) ∧ x.data = .ok k ∧ x.iv [] = .ok o := by
  have hok {α : Type} {r : Except KeyError α} {a : α} (hr : r.toOption = some a) : r = .ok a := by
    cases r with
    | error err => cases hr
    | ok b => exact congrArg Except.ok (Option.some.inj hr)
  unfold trial? at h
  split at h
  next x hx =>
    obtain ⟨hdata, hiv⟩ := Prod.mk.inj (Option.some.inj h)
    exact ⟨x, hx, hok hdata, hok hiv⟩
  next => cases h

theorem trial?_aesMembers :
    trial? (aesMembers []) = some (some ((List.range 16).map Nat.toUInt8), some none) := by
  decide

theorem equal_comm_of_declared_size : ∃ x y,
    parse (aesMembers []) = .ok (aes x) ∧
      parse (aesMembers [(Field.keySize, .text " 16 ")]) = .ok (aes y) ∧
      ∀ e e' : Entropy, Comparable e e' (aes x) (aes y) ∧
        equal false (aes x) (aes y) e = equal false (aes y) (aes x) e' := by
  have hsized : trial? (aesMembers [(Field.keySize, .text " 16 ")]) =
      some (some ((List.range 16).map Nat.toUInt8), some none) := by decide
  obtain ⟨x, hx, hk, hi⟩ := of_trial? trial?_aesMembers
  obtain ⟨y, hy, hl, hj⟩ := of_trial? hsized
  refine ⟨x, y, hx, hy, fun e e' ↦ ?_⟩
  have hcomparable : Comparable e e' (aes x) (aes y) :=
    ⟨iff_of_true hi hj, fun _ ↦ ⟨rfl, .inl (hk.trans hl.symm)⟩⟩
  exact ⟨hcomparable, equal_comm false hcomparable⟩

/-- Of two keys with the same bytes, let the first bring an initial block and the second none. The
first always decrypts what the second encrypts, the second only if that block is zero: it is not
written into the parameters. -/
theorem equal_of_one_own {k : Bytes} (hi : x.iv [] = .ok (some i)) (hy : y.LacksBlock)
    (hk : x.data = .ok k) (hl : y.data = .ok k) (e : Entropy) :
    equal false (aes y) (aes x) e = true ∧
      (equal false (aes x) (aes y) e = true ↔ i = zeroBlock) := by
  rw [equal, equal, Bool.false_or, Bool.false_or]
  refine ⟨(decryptedBy_of_draw hy rfl).mpr ⟨k, hl, k, hk, rfl⟩, ?_⟩
  rw [decryptedBy_of_own hi]
  constructor
  · rintro ⟨k', hk', j, hj, l, hl', heq⟩
    obtain rfl := Except.ok.inj (hk'.symm.trans hk)
    obtain rfl := Except.ok.inj (hl'.symm.trans hl)
    obtain rfl := Except.ok.inj (hj.symm.trans hy)
    have hblock := congrArg Vector.toList (Aes.encrypt_injective heq)
    rwa [Aes.toList_blockOf (length_of_iv hi), Option.getD_none,
      Aes.toList_blockOf length_zeroBlock] at hblock
  · rintro rfl
    exact ⟨k, hk, none, hy, k, hl, rfl⟩

/-- Two keys with the same bytes, one of which brings a block of ones. -/
theorem equal_not_comm : ∃ x y,
    parse (aesMembers [(Field.iv, .text "AQEBAQEBAQEBAQEBAQEBAQ==")]) = .ok (aes x) ∧
      parse (aesMembers []) = .ok (aes y) ∧
      ∀ e e' : Entropy,
        equal false (aes x) (aes y) e = false ∧ equal false (aes y) (aes x) e' = true := by
  have hown : trial? (aesMembers [(Field.iv, .text "AQEBAQEBAQEBAQEBAQEBAQ==")]) =
      some (some ((List.range 16).map Nat.toUInt8), some (some (List.replicate 16 1))) := by
    decide
  obtain ⟨x, hx, hk, hi⟩ := of_trial? hown
  obtain ⟨y, hy, hl, hj⟩ := of_trial? trial?_aesMembers
  have hne : (List.replicate 16 1 : Bytes) ≠ AesKey.zeroBlock := by decide
  refine ⟨x, y, hx, hy, fun e e' ↦ ⟨?_, (equal_of_one_own hi hj hk hl e').1⟩⟩
  exact Bool.eq_false_iff.mpr fun htrue ↦ hne ((equal_of_one_own hi hj hk hl e).2.mp htrue)

end SymmetricKey

end MessagingIdentity

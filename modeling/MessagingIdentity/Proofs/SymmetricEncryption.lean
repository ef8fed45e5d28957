import MessagingIdentity.Key.Registry
import MessagingIdentity.Proofs.ChainedBlocks
import MessagingIdentity.Proofs.JsonMembers
import MessagingIdentity.Proofs.KeyForms
import MessagingIdentity.Proofs.Outcomes
import MessagingIdentity.Proofs.TransportTexts

namespace MessagingIdentity

namespace AesKey

variable {x y : AesKey} {params params' : Json.Members} {c m i : Bytes} {e : Entropy.Source}

/-- The initial block that stands in for a missing one in decryption. -/
def zeroBlock : Bytes := List.replicate Aes.blockSize 0

theorem length_zeroBlock : zeroBlock.length = Aes.blockSize := List.length_replicate

/-- The key prescribes no initial block itself: its members have none, or an empty one. -/
def LacksBlock (k : AesKey) : Prop := k.iv [] = .ok none

/-- The text that prescribes the initial block. The parameters count before the key, in each `IV`
before `iv`, and members that are not texts do not count. -/
def prescribed? (k : AesKey) (params : Json.Members) : Option String :=
  params.text? Field.iv <|> params.text? Field.ivLower <|>
    k.attributes.members.text? Field.iv <|> k.attributes.members.text? Field.ivLower

theorem ivText_eq (k : AesKey) (params : Json.Members) : k.ivText params = k.prescribed? params := by
  rw [ivText, prescribed?]
  simp only [List.flatMap_cons, List.flatMap_nil, List.cons_append, List.nil_append,
    List.findSome?_cons, List.findSome?_nil]
  cases params.text? Field.iv <;> cases params.text? Field.ivLower <;>
    cases k.attributes.members.text? Field.iv <;>
      cases k.attributes.members.text? Field.ivLower <;> rfl

theorem iv_of_not_prescribed (hs : x.prescribed? params = none) : x.iv params = .ok none := by
  rw [iv, ivText_eq, hs]
  rfl

theorem iv_of_prescribed {s : String} (hs : x.prescribed? params = some s) :
    x.iv params = Transport.decode s >>= fun b ↦
      if b = [] then .ok none
      else if b.length ≠ Aes.blockSize then .error (.invalidIv Aes.blockSize b.length)
      else .ok (some b) := by
  rw [iv, ivText_eq, hs]
  dsimp only
  cases Transport.decode s with
  | error err => rfl
  | ok b => cases b <;> rfl

theorem length_of_iv (h : x.iv params = .ok (some i)) : i.length = Aes.blockSize := by
  cases hs : x.prescribed? params with
  | none =>
    rw [iv_of_not_prescribed hs] at h
    cases h
  | some s =>
    rw [iv_of_prescribed hs] at h
    obtain ⟨b, -, h⟩ := Except.bind_eq_ok_iff.mp h
    split at h
    · cases h
    split at h
    · cases h
    next hlength =>
      obtain rfl := Option.some.inj (Except.ok.inj h)
      exact not_not.mp hlength

theorem iv_insert (k : AesKey) (params : Json.Members) (hi : i.length = Aes.blockSize) :
    k.iv (params.insert Field.iv (.text (Base64.encode i))) = .ok (some i) := by
  have hne : i ≠ [] := List.ne_nil_of_length_eq_add_one hi
  have htext : k.prescribed? (params.insert Field.iv (.text (Base64.encode i))) =
      some (Base64.encode i) := by
    rw [prescribed?, Json.Members.text?_insert_self]
    rfl
  rw [iv_of_prescribed htext, Transport.decode_encode]
  exact (if_neg hne).trans (if_neg (not_not_intro hi))

theorem encrypt_eq_ok_iff :
    x.encrypt m params e = (.ok c, params') ↔
      ∃ i l, x.data = .ok l ∧ c = Aes.encrypt l (Aes.blockOf i) m ∧
        (x.iv params = .ok (some i) ∧ params' = params ∨
          x.iv params = .ok none ∧ e.draw Aes.blockSize = .ok i ∧
            params' = params.insert Field.iv (.text (Base64.encode i))) := by
  have hsent (i : Bytes) (sent : Json.Members) :
      (x.data.map fun k ↦ Aes.encrypt k (Aes.blockOf i) m, sent) = (.ok c, params') ↔
        ∃ l, x.data = .ok l ∧ c = Aes.encrypt l (Aes.blockOf i) m ∧ params' = sent := by
    rw [Prod.mk.injEq, Except.map_eq_ok_iff]
    constructor
    · intro h
      obtain ⟨⟨l, hl, rfl⟩, rfl⟩ := h
      exact ⟨l, hl, rfl, rfl⟩
    · intro h
      obtain ⟨l, hl, rfl, rfl⟩ := h
      exact ⟨⟨l, hl, rfl⟩, rfl⟩
  rw [encrypt]
  cases hiv : x.iv params with
  | error err => simp
  | ok o =>
    cases o with
    | some j =>
      refine (hsent j params).trans ⟨?_, ?_⟩
      · intro h
        obtain ⟨l, hl, hc, hparams⟩ := h
        exact ⟨j, l, hl, hc, .inl ⟨rfl, hparams⟩⟩
      · intro h
        obtain ⟨i, l, hl, hc, ⟨hi, hparams⟩ | ⟨hi, -⟩⟩ := h
        · obtain rfl := Option.some.inj (Except.ok.inj hi)
          exact ⟨l, hl, hc, hparams⟩
        · cases hi
    | none =>
      dsimp only
      cases hdraw : e.draw Aes.blockSize with
      | error reason => simp
      | ok j =>
        refine (hsent _ _).trans ⟨?_, ?_⟩
        · intro h
          obtain ⟨l, hl, hc, hparams⟩ := h
          exact ⟨j, l, hl, hc, .inr ⟨rfl, rfl, hparams⟩⟩
        · intro h
          obtain ⟨i, l, hl, hc, ⟨hi, -⟩ | ⟨-, hi, hparams⟩⟩ := h
          · cases hi
          · obtain rfl := Except.ok.inj hi
            exact ⟨l, hl, hc, hparams⟩

/-- In the parameters that encryption leaves behind, the block that it took is found. -/
theorem iv_of_encrypt (h : x.encrypt m params e = (.ok c, params')) :
    ∃ i l, x.data = .ok l ∧ c = Aes.encrypt l (Aes.blockOf i) m ∧ x.iv params' = .ok (some i) := by
  obtain ⟨i, l, hl, hc, ⟨hi, rfl⟩ | ⟨-, hdraw, rfl⟩⟩ := encrypt_eq_ok_iff.mp h
  · exact ⟨i, l, hl, hc, hi⟩
  · exact ⟨i, l, hl, hc, x.iv_insert params (Entropy.Source.length_of_draw hdraw)⟩

theorem decrypt_eq_ok_iff :
    y.decrypt c params = .ok m ↔ ∃ j, y.iv params = .ok j ∧ ∃ l, y.data = .ok l ∧
      c = Aes.encrypt l (Aes.blockOf (j.getD zeroBlock)) m := by
  rw [decrypt, Except.bind_eq_ok_iff]
  refine exists_congr fun j ↦ and_congr_right fun _ ↦ ?_
  refine Except.bind_eq_ok_iff.trans (exists_congr fun l ↦ and_congr_right fun _ ↦ ?_)
  rw [← Aes.decrypt?_eq_some_iff]
  cases h : Aes.decrypt? l (Aes.blockOf (j.getD zeroBlock)) c with
  | none =>
    rw [zeroBlock] at h
    rw [h]
    exact iff_of_false nofun nofun
  | some m' =>
    rw [zeroBlock] at h
    rw [h]
    exact ⟨fun hm ↦ congrArg some (Except.ok.inj hm), fun hm ↦ congrArg Except.ok (Option.some.inj hm)⟩

/-- Whatever the members of the key and the parameters are, and whatever is drawn: every key with the
same members recovers the message with the parameters as encryption leaves them. The text takes one
block more than the message fills. -/
theorem decrypt_encrypt {members : Json.Members} (hx : ofMembers members = .ok x)
    (hy : ofMembers members = .ok y) (h : x.encrypt m params e = (.ok c, params')) :
    c.length = 16 * (m.length / 16 + 1) ∧ y.decrypt c params' = .ok m := by
  obtain rfl := Except.ok.inj (hx.symm.trans hy)
  obtain ⟨i, l, hl, rfl, hi⟩ := iv_of_encrypt h
  exact ⟨Aes.length_encrypt l (Aes.blockOf i) m, decrypt_eq_ok_iff.mpr ⟨some i, hi, l, hl, rfl⟩⟩

/-- The attributes of a key of 24 bytes, with one initial block that is not a text and one that is
empty. -/
def blockless : Attributes :=
  ⟨Json.Members.ofList [(Field.algorithm, .text tag),
      (Field.data, .text "AAECAwQFBgcICQoLDA0ODxAREhMUFRYX"), (Field.iv, Json.ofNat 16),
      (Field.ivLower, .text "")],
    tag, "AAECAwQFBgcICQoLDA0ODxAREhMUFRYX", rfl, rfl, by decide⟩

theorem decrypt_encrypt_drawn : ∃ c params',
    ofMembers blockless.members = .ok ⟨blockless⟩ ∧
      encrypt ⟨blockless⟩ (List.replicate 16 7) [(Field.ivLower, .text ""), ("note", .null)]
        (.ok Nat.toUInt8) = (.ok c, params') ∧
      params'.text? Field.iv = some "AAECAwQFBgcICQoLDA0ODw==" ∧ c.length = 32 ∧
      decrypt ⟨blockless⟩ c params' = .ok (List.replicate 16 7) := by
  have hkey : ofMembers blockless.members = .ok ⟨blockless⟩ :=
    Except.map_eq_ok_iff.mpr ⟨blockless, blockless.ofMembers_members, rfl⟩
  have hdata : data ⟨blockless⟩ = .ok ((List.range 24).map Nat.toUInt8) := by decide
  have hiv : iv ⟨blockless⟩ [(Field.ivLower, .text ""), ("note", .null)] = .ok none := by decide
  have hsent := (encrypt_eq_ok_iff (m := List.replicate 16 7) (e := .ok Nat.toUInt8)).mpr
    ⟨_, _, hdata, rfl, .inr ⟨hiv, rfl, rfl⟩⟩
  obtain ⟨hlength, hread⟩ := decrypt_encrypt hkey hkey hsent
  exact ⟨_, _, hkey, hsent, by decide, hlength, hread⟩

end AesKey

end MessagingIdentity

import MessagingIdentity.Proofs.SymmetricEncryption

namespace MessagingIdentity.AesKey

variable {k : AesKey} {params : Json.Members} {c i : Bytes}

/-- No initial block is found: no text prescribes one, or the text that does stands for no bytes. -/
def FindsNoBlock (k : AesKey) (params : Json.Members) : Prop :=
  ∀ s, k.prescribed? params = some s → Transport.decode s = .ok []

theorem iv_eq_ok_none_iff : k.iv params = .ok none ↔ k.FindsNoBlock params := by
  rw [FindsNoBlock]
  cases hs : k.prescribed? params with
  | none =>
    refine iff_of_true (iv_of_not_prescribed hs) ?_
    intro s hsome
    cases hsome
  | some s =>
    rw [iv_of_prescribed hs, Except.bind_eq_ok_iff]
    constructor
    · intro h t ht
      obtain rfl := Option.some.inj ht
      obtain ⟨b, hb, hnone⟩ := h
      rw [hb]
      split at hnone
      next hnil => rw [hnil]
      · split at hnone <;> cases hnone
    · intro h
      exact ⟨[], h s rfl, if_pos rfl⟩

theorem FindsNoBlock.iv (h : k.FindsNoBlock params) : k.iv params = .ok none := iv_eq_ok_none_iff.mpr h

theorem exists_iv_of_not_findsNoBlock {o : Option Bytes} (h : ¬ k.FindsNoBlock params)
    (ho : k.iv params = .ok o) : ∃ i, o = some i := by
  cases o with
  | none => exact absurd (iv_eq_ok_none_iff.mp ho) h
  | some i => exact ⟨i, rfl⟩

theorem decrypt_iff_of_not_findsNoBlock (h : ¬ k.FindsNoBlock params) {m : Bytes} {e : Entropy.Source} :
    k.decrypt c params = .ok m ↔ k.encrypt m params e = (.ok c, params) := by
  rw [decrypt_eq_ok_iff, encrypt_eq_ok_iff]
  constructor
  · intro hm
    obtain ⟨o, ho, l, hl, hc⟩ := hm
    obtain ⟨i, rfl⟩ := exists_iv_of_not_findsNoBlock h ho
    exact ⟨i, l, hl, hc, .inl ⟨ho, rfl⟩⟩
  · intro hc
    obtain ⟨i, l, hl, hc, ⟨hi, -⟩ | ⟨hnone, -⟩⟩ := hc
    · exact ⟨some i, hi, l, hl, hc⟩
    · exact absurd (iv_eq_ok_none_iff.mp hnone) h

theorem decrypt_zeroBlock (h : k.FindsNoBlock params) : k.decrypt c params =
    k.decrypt c (params.insert Field.iv (.text (Base64.encode zeroBlock))) := by
  rw [decrypt, decrypt, h.iv, iv_insert k params length_zeroBlock]
  rfl

theorem length_of_decrypt {m : Bytes} (h : k.decrypt c params = .ok m) :
    c ≠ [] ∧ c.length % Aes.blockSize = 0 := by
  obtain ⟨j, -, l, -, rfl⟩ := decrypt_eq_ok_iff.mp h
  have hlength := Aes.length_encrypt l (Aes.blockOf (j.getD zeroBlock)) m
  constructor
  · intro hnil
    rw [hnil, List.length_nil, Aes.blockSize] at hlength
    omega
  · rw [hlength, Nat.mul_mod_right]

/-- Decryption accepts nothing but what encryption produces, whatever is drawn at random for it. -/
theorem decrypt_accepts (k : AesKey) (params : Json.Members) (c : Bytes) :
    (¬ k.FindsNoBlock params → ∀ m e, k.decrypt c params = .ok m ↔
      k.encrypt m params e = (.ok c, params)) ∧
    (k.FindsNoBlock params → k.decrypt c params =
      k.decrypt c (params.insert Field.iv (.text (Base64.encode (List.replicate 16 0))))) ∧
    (c = [] ∨ c.length % 16 ≠ 0 → ∃ err, k.decrypt c params = .error err) := by
  refine ⟨fun h m e ↦ decrypt_iff_of_not_findsNoBlock h, decrypt_zeroBlock, fun hc ↦ ?_⟩
  cases h : k.decrypt c params with
  | error err => exact ⟨err, rfl⟩
  | ok m =>
    obtain ⟨hne, hmod⟩ := length_of_decrypt h
    rcases hc with hnil | hrest
    · exact absurd hnil hne
    · exact absurd hmod hrest

theorem decrypt_accepts_blockless : ∃ c,
    (∀ e, encrypt ⟨blockless⟩ [1, 2, 3] [(Field.ivLower, .text "AAECAwQFBgcICQoLDA0ODw==")] e =
      (.ok c, [(Field.ivLower, .text "AAECAwQFBgcICQoLDA0ODw==")])) ∧
    decrypt ⟨blockless⟩ c [] =
      decrypt ⟨blockless⟩ c [(Field.iv, .text "AAAAAAAAAAAAAAAAAAAAAA==")] ∧
    ∃ err, decrypt ⟨blockless⟩ [] [] = .error err := by
  have hdata : data ⟨blockless⟩ = .ok ((List.range 24).map Nat.toUInt8) := by decide
  have hiv : iv ⟨blockless⟩ [(Field.ivLower, .text "AAECAwQFBgcICQoLDA0ODw==")] =
      .ok (some ((List.range 16).map Nat.toUInt8)) := by decide
  have hfinds : ¬ FindsNoBlock ⟨blockless⟩ [(Field.ivLower, .text "AAECAwQFBgcICQoLDA0ODw==")] := by
    rw [← iv_eq_ok_none_iff, hiv]
    exact nofun
  have hnone : FindsNoBlock ⟨blockless⟩ [] := iv_eq_ok_none_iff.mp (by decide)
  have hzero : Base64.encode (List.replicate 16 0) = "AAAAAAAAAAAAAAAAAAAAAA==" := by decide
  have hread := (decrypt_eq_ok_iff (m := [1, 2, 3])).mpr ⟨_, hiv, _, hdata, rfl⟩
  refine ⟨_, fun e ↦ ((decrypt_accepts _ _ _).1 hfinds _ e).mp hread, ?_,
    (decrypt_accepts _ _ _).2.2 (.inl rfl)⟩
  rw [(decrypt_accepts ⟨blockless⟩ [] _).2.1 hnone, hzero]
  rfl

end MessagingIdentity.AesKey

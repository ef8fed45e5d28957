import MessagingIdentity.Proofs.SymmetricDecryption

namespace MessagingIdentity

namespace AesKey

variable {k : AesKey} {params : Json.Members} {m i : Bytes} {e : Entropy.Source}

theorem encrypt_of_findsNoBlock (h : k.FindsNoBlock params) (hi : e.draw Aes.blockSize = .ok i) :
    k.encrypt m params e = (k.data.map fun l ↦ Aes.encrypt l (Aes.blockOf i) m,
      params.insert Field.iv (.text (Base64.encode i))) := by
  rw [encrypt, h.iv]
  simp only [hi]

theorem encrypt_of_no_draw {reason : String} (h : k.FindsNoBlock params)
    (he : e.draw Aes.blockSize = .error reason) :
    k.encrypt m params e = (.error (.other (.ivDraw reason)), params) := by
  rw [encrypt, h.iv]
  simp only [he]

theorem encrypt_params_of_not_findsNoBlock (h : ¬ k.FindsNoBlock params) :
    (k.encrypt m params e).2 = params := by
  rw [encrypt]
  cases hiv : k.iv params with
  | error err => rfl
  | ok o =>
    obtain ⟨i, rfl⟩ := exists_iv_of_not_findsNoBlock h hiv
    rfl

theorem FindsNoBlock.insert_ne (h : k.FindsNoBlock params) (hi : i.length = Aes.blockSize) :
    params.insert Field.iv (.text (Base64.encode i)) ≠ params := by
  intro heq
  have hfound := k.iv_insert params hi
  rw [heq, h.iv] at hfound
  cases hfound

end AesKey

namespace SymmetricKey

variable {k : SymmetricKey} {params : Json.Members} {m i : Bytes} {e : Entropy.Source}

/-- Encryption draws the initial block `i` at random: the key is one of AES, and finds none. -/
def Draws (k : SymmetricKey) (params : Json.Members) (e : Entropy.Source) (i : Bytes) : Prop :=
  ∃ x, k = aes x ∧ x.FindsNoBlock params ∧ e.draw Aes.blockSize = .ok i

/-- Encryption draws a block that no text is encrypted with: the key has no bytes. -/
def Strands (k : SymmetricKey) (params : Json.Members) (e : Entropy.Source) : Prop :=
  (∃ i, k.Draws params e i) ∧ ∃ err, k.data = .error err

theorem encrypt_params_of_draws (h : k.Draws params e i) : (k.encrypt m params e).2 =
    params.insert Field.iv (.text (Base64.encode i)) := by
  obtain ⟨x, rfl, hx, hi⟩ := h
  rw [encrypt, AesKey.encrypt_of_findsNoBlock hx hi]

theorem encrypt_params_of_not_draws (h : ¬ ∃ i, k.Draws params e i) :
    (k.encrypt m params e).2 = params := by
  cases k with
  | plain => rfl
  | aes x =>
    by_cases hx : x.FindsNoBlock params
    · rw [encrypt]
      cases hi : e.draw Aes.blockSize with
      | error reason => rw [AesKey.encrypt_of_no_draw hx hi]
      | ok i => exact absurd ⟨i, x, rfl, hx, hi⟩ h
    · exact AesKey.encrypt_params_of_not_findsNoBlock hx

theorem encrypt_params_eq_iff :
    (k.encrypt m params e).2 = params ↔ ¬ ∃ i, k.Draws params e i := by
  refine ⟨fun heq hdraws ↦ ?_, encrypt_params_of_not_draws⟩
  obtain ⟨i, hdraws⟩ := hdraws
  rw [encrypt_params_of_draws hdraws] at heq
  obtain ⟨x, -, hx, hi⟩ := hdraws
  exact hx.insert_ne (Entropy.Source.length_of_draw hi) heq

theorem get?_encrypt_params {name : String} (hname : name ≠ Field.iv) :
    (k.encrypt m params e).2.get? name = params.get? name := by
  by_cases h : ∃ i, k.Draws params e i
  · obtain ⟨i, hi⟩ := h
    rw [encrypt_params_of_draws hi, Json.Members.get?_insert, if_neg hname]
  · rw [encrypt_params_of_not_draws h]

theorem Draws.encrypt_eq_error_iff (h : k.Draws params e i) {err : KeyError} :
    (k.encrypt m params e).1 = .error err ↔ k.data = .error err := by
  obtain ⟨x, rfl, hx, hi⟩ := h
  rw [encrypt, AesKey.encrypt_of_findsNoBlock hx hi, data]
  cases x.data with
  | error err' => rfl
  | ok l => exact iff_of_false nofun nofun

theorem Draws.encrypt_eq_ok_iff (h : k.Draws params e i) {c : Bytes} :
    (k.encrypt m params e).1 = .ok c ↔
      ∃ l, k.data = .ok l ∧ Aes.encrypt l (Aes.blockOf i) m = c := by
  obtain ⟨x, rfl, hx, hi⟩ := h
  rw [encrypt, AesKey.encrypt_of_findsNoBlock hx hi, data]
  exact Except.map_eq_ok_iff

/-- No text is encrypted without the block that it needs. -/
theorem exists_draws_of_ok {x : AesKey} (hx : x.FindsNoBlock params) {c : Bytes}
    (h : ((aes x).encrypt m params e).1 = .ok c) : ∃ i, (aes x).Draws params e i := by
  cases hi : e.draw Aes.blockSize with
  | error reason =>
    rw [encrypt, AesKey.encrypt_of_no_draw hx hi] at h
    cases h
  | ok i => exact ⟨i, x, rfl, hx, hi⟩

/-- The parameters after encryption with any symmetric key `k` and any public key `p`, also where the
system has no random bytes. -/
theorem parameters_of_encrypt (k : SymmetricKey) (p : PublicKey) (m : Bytes) (params : Json.Members)
    (e : Entropy.Source) (tape : Entropy) :
    (p.encrypt m params tape).2 = params ∧
    (∀ err sent, k.encrypt m params e = (.error err, sent) →
      (sent = params ↔ ¬ k.Strands params e) ∧
      ∀ name, name ≠ Field.iv → sent.get? name = params.get? name) ∧
    (∀ x reason, k = .aes x → x.FindsNoBlock params → e = .error reason →
      k.encrypt m params e = (.error (.other (.ivDraw reason)), params)) ∧
    ∀ c sent, k.encrypt m params e = (.ok c, sent) →
      (∀ name, name ≠ Field.iv → sent.get? name = params.get? name) ∧
      (sent ≠ params ↔ ∃ x, k = .aes x ∧ x.FindsNoBlock params) ∧
      (sent ≠ params → ∃ s i, sent.get? Field.iv = some (.text s) ∧ Transport.decode s = .ok i ∧
        i.length = 16 ∧ ∃ l, k.data = .ok l ∧ c = Aes.encrypt l (Aes.blockOf i) m) := by
  refine ⟨?_, fun err sent h ↦ ?_, fun x reason hk hx he ↦ ?_, fun c sent h ↦ ?_⟩
  · cases p <;> rfl
  · obtain ⟨herr, rfl⟩ := Prod.ext_iff.mp h
    refine ⟨encrypt_params_eq_iff.trans (not_congr ⟨fun hdraws ↦ ?_, And.left⟩),
      fun name ↦ get?_encrypt_params⟩
    obtain ⟨i, hi⟩ := hdraws
    exact ⟨⟨i, hi⟩, err, hi.encrypt_eq_error_iff.mp herr⟩
  · subst hk he
    exact AesKey.encrypt_of_no_draw (e := .error reason) hx rfl
  · obtain ⟨hc, rfl⟩ := Prod.ext_iff.mp h
    have hne : (k.encrypt m params e).2 ≠ params ↔ ∃ i, k.Draws params e i :=
      (not_congr encrypt_params_eq_iff).trans not_not
    refine ⟨fun name ↦ get?_encrypt_params, hne.trans ⟨?_, ?_⟩, fun hchanged ↦ ?_⟩
    · rintro ⟨i, x, hk, hx, -⟩
      exact ⟨x, hk, hx⟩
    · rintro ⟨x, rfl, hx⟩
      exact exists_draws_of_ok hx hc
    obtain ⟨i, hi⟩ := hne.mp hchanged
    obtain ⟨l, hl, rfl⟩ := hi.encrypt_eq_ok_iff.mp hc
    have hlength : i.length = 16 := by
      obtain ⟨x, -, -, hdraw⟩ := hi
      exact Entropy.Source.length_of_draw hdraw
    refine ⟨_, i, ?_, Transport.decode_encode _, hlength, l, hl, rfl⟩
    rw [encrypt_params_of_draws hi, Json.Members.get?_insert, if_pos rfl]

def tenBytes : Attributes :=
  ⟨Json.Members.ofList [(Field.algorithm, .text AesKey.tag), (Field.data, .text "AQEBAQEBAQEBAQ==")],
    AesKey.tag, "AQEBAQEBAQEBAQ==", rfl, rfl, by decide⟩

/-- A failed encryption leaves a block behind. Whatever would be drawn for it, the next encryption
with these parameters takes that block. -/
theorem stranded_block_taken : ∃ k sent c,
    parse tenBytes.members = .ok k ∧
      k.encrypt [120] [] (.ok Nat.toUInt8) = (.error (.invalidData (.aesLength 10)), sent) ∧ sent ≠ [] ∧
      ∀ e, (aes ⟨AesKey.blockless⟩).encrypt [120] sent e = (.ok c, sent) := by
  have hread : AesKey.ofMembers tenBytes.members = .ok ⟨tenBytes⟩ :=
    Except.map_eq_ok_iff.mpr ⟨tenBytes, tenBytes.ofMembers_members, rfl⟩
  have hparse : parse tenBytes.members = .ok (aes ⟨tenBytes⟩) := by
    change (AesKey.ofMembers tenBytes.members).map aes = _
    rw [hread]
    rfl
  have hnone : AesKey.FindsNoBlock ⟨tenBytes⟩ [] := AesKey.iv_eq_ok_none_iff.mp (by decide)
  have hshort : AesKey.data ⟨tenBytes⟩ = .error (.invalidData (.aesLength 10)) := by decide
  have hdata : AesKey.data ⟨AesKey.blockless⟩ = .ok ((List.range 24).map Nat.toUInt8) := by decide
  have hlength := Entropy.length_draw Nat.toUInt8 Aes.blockSize
  have hdraws : Draws (aes ⟨tenBytes⟩) [] (.ok Nat.toUInt8)
      (Entropy.draw Nat.toUInt8 Aes.blockSize) := ⟨_, rfl, hnone, rfl⟩
  have htaken (e : Entropy.Source) := (AesKey.encrypt_eq_ok_iff (m := [120]) (e := e)).mpr
    ⟨_, _, hdata, rfl, .inl ⟨AesKey.iv_insert _ [] hlength, rfl⟩⟩
  exact ⟨aes ⟨tenBytes⟩, _, _, hparse,
    Prod.ext (hdraws.encrypt_eq_error_iff.mpr hshort) (encrypt_params_of_draws hdraws),
    hnone.insert_ne hlength, htaken⟩

end SymmetricKey

end MessagingIdentity

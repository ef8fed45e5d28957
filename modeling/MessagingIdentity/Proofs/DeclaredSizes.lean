import MessagingIdentity.Key.Symmetric
import MessagingIdentity.Proofs.DecimalTexts
import MessagingIdentity.Proofs.KeyForms

namespace MessagingIdentity

namespace Json

variable {v : Json} {n : ℕ}

/-- The value denotes a number of 64 bits: it is the number itself, or a decimal text of it. -/
inductive Denotes : Json → ℕ → Prop
  | integer (n : ℕ) : Denotes (.number (.integer n)) n
  | text {s : String} {n : ℕ} (hs : Text.Denotes s n) (hn : n < 2 ^ 64) : Denotes (.text s) n

def natural? : Json → Option ℕ
  | number (.integer i) => if 0 ≤ i then some i.toNat else none
  | text s => Text.natural? 64 (Text.trim s)
  | _ => none

theorem natural?_eq_some_iff : v.natural? = some n ↔ v.Denotes n := by
  constructor
  · intro h
    unfold natural? at h
    split at h
    next i =>
      split at h
      next hi =>
        obtain ⟨m, rfl⟩ := Int.eq_ofNat_of_zero_le hi
        obtain rfl := Option.some.inj h
        exact .integer m
      · cases h
    next s =>
      obtain ⟨hs, hn⟩ := Text.natural?_trim_eq_some_iff.mp h
      exact .text hs hn
    · cases h
  · intro h
    cases h with
    | integer => rw [natural?, if_pos (Int.natCast_nonneg n), Int.toNat_natCast]
    | text hs hn =>
      rw [natural?]
      exact Text.natural?_trim_eq_some_iff.mpr ⟨hs, hn⟩

theorem Denotes.unique {n' : ℕ} (h : v.Denotes n) (h' : v.Denotes n') : n = n' :=
  Option.some.inj ((natural?_eq_some_iff.mpr h).symm.trans (natural?_eq_some_iff.mpr h'))

namespace Members

variable {m : Members} {name : String} {default : ℕ}

theorem natural_eq_getD (m : Members) (name : String) (default : ℕ) :
    m.natural name default = ((m.get? name).bind natural?).getD default := by
  rw [natural]
  cases m.get? name with
  | none => rfl
  | some v =>
    rw [Option.bind_some]
    cases v with
    | number x =>
      cases x with
      | integer i =>
        dsimp only [natural?]
        split <;> rfl
      | real x => rfl
    | null | bool | text | list | object => rfl

theorem natural_of_denotes (hv : m.get? name = some v) (h : v.Denotes n) :
    m.natural name default = n := by
  rw [natural_eq_getD, hv, Option.bind_some, natural?_eq_some_iff.mpr h, Option.getD_some]

theorem natural_eq_default (h : ∀ v n, m.get? name = some v → ¬ v.Denotes n) :
    m.natural name default = default := by
  have hnone : (m.get? name).bind natural? = none := by
    rw [Option.eq_none_iff_forall_not_mem]
    intro n hn
    obtain ⟨v, hv, hn⟩ := Option.bind_eq_some_iff.mp hn
    exact h v n hv (natural?_eq_some_iff.mp hn)
  rw [natural_eq_getD, hnone, Option.getD_none]

end Members

end Json

namespace AesKey

variable {m : Json.Members} {k : AesKey} {v : Json} {b : Bytes} {n : ℕ}

/-- The data of a key stand for these bytes, and they are as many as the bytes of a key can be. -/
def KeyBytes (m : Json.Members) (b : Bytes) : Prop :=
  (∃ s, m.text? Field.data = some s ∧ Transport.decode s = .ok b) ∧ b.length ∈ [16, 24, 32]

/-- No size is declared, or one that denotes a number. -/
def SizeLegible (m : Json.Members) : Prop := ∀ v, m.get? Field.keySize = some v → ∃ n, v.Denotes n

theorem data_eq (k : AesKey) : k.data = Transport.decode k.attributes.data >>= fun b ↦
    if b.length ∉ [16, 24, 32] then .error (.invalidData (.aesLength b.length))
    else if k.attributes.members.natural Field.keySize b.length ≠ b.length then
      .error (.invalidData (.aesDeclared
        (k.attributes.members.natural Field.keySize b.length) b.length))
    else .ok b := by
  rw [data]
  refine bind_congr fun b ↦ ?_
  split
  · rfl
  · dsimp only
    split <;> rfl

theorem keyBytes_iff : KeyBytes k.attributes.members b ↔
    Transport.decode k.attributes.data = .ok b ∧ b.length ∈ [16, 24, 32] := by
  refine and_congr_left fun _ ↦ ⟨?_, fun h ↦ ⟨_, k.attributes.data_eq, h⟩⟩
  rintro ⟨s, hs, h⟩
  rwa [Attributes.data_eq_of_members hs]

theorem data_of_keyBytes (h : KeyBytes k.attributes.members b) :
    k.data = if k.attributes.members.natural Field.keySize b.length ≠ b.length then
        .error (.invalidData (.aesDeclared
          (k.attributes.members.natural Field.keySize b.length) b.length))
      else .ok b := by
  obtain ⟨hdecode, hlength⟩ := keyBytes_iff.mp h
  rw [data_eq, hdecode]
  exact if_neg (not_not_intro hlength)

theorem keyBytes_of_data (h : k.data = .ok b) : KeyBytes k.attributes.members b := by
  rw [data_eq] at h
  obtain ⟨b', hdecode, h⟩ := Except.bind_eq_ok_iff.mp h
  split at h
  · cases h
  next hlength =>
    split at h
    · cases h
    · obtain rfl := Except.ok.inj h
      exact keyBytes_iff.mpr ⟨hdecode, not_not.mp hlength⟩

theorem data_of_mismatch (hkey : KeyBytes k.attributes.members b)
    (hv : k.attributes.members.get? Field.keySize = some v) (hn : v.Denotes n) (hne : n ≠ b.length) :
    k.data = .error (.invalidData (.aesDeclared n b.length)) := by
  rw [data_of_keyBytes hkey, Json.Members.natural_of_denotes hv hn, if_pos hne]

theorem data_eq_ok_iff : k.data = .ok b ↔ KeyBytes k.attributes.members b ∧
    ∀ v n, k.attributes.members.get? Field.keySize = some v → v.Denotes n → n = b.length := by
  constructor
  · intro h
    have hkey := keyBytes_of_data h
    refine ⟨hkey, fun v n hv hn ↦ ?_⟩
    by_contra hne
    cases h.symm.trans (data_of_mismatch hkey hv hn hne)
  · rintro ⟨hkey, hagree⟩
    -- Where no number is read, the number of the bytes is compared with itself.
    have hsize : k.attributes.members.natural Field.keySize b.length = b.length := by
      by_cases hdeclared : ∃ v n, k.attributes.members.get? Field.keySize = some v ∧ v.Denotes n
      · obtain ⟨v, n, hv, hn⟩ := hdeclared
        rw [Json.Members.natural_of_denotes hv hn, hagree v n hv hn]
      · exact Json.Members.natural_eq_default fun v n hv hn ↦ hdeclared ⟨v, n, hv, hn⟩
    rw [data_of_keyBytes hkey, if_neg (not_not_intro hsize)]

/-- The bytes of a key and the size that its members declare. -/
theorem data_of_declared_size (h : ofMembers m = .ok k) :
    (SizeLegible m → ∀ b, k.data = .ok b ↔ KeyBytes m b ∧
      (m.get? Field.keySize = none ∨ ∃ v, m.get? Field.keySize = some v ∧ v.Denotes b.length)) ∧
    (¬ SizeLegible m → ∀ b, k.data = .ok b ↔ KeyBytes m b) ∧
    ∀ v n b, m.get? Field.keySize = some v → v.Denotes n → KeyBytes m b → n ≠ b.length →
      k.data = .error (.invalidData (.aesDeclared n b.length)) := by
  obtain ⟨a, ha, rfl⟩ := Except.map_eq_ok_iff.mp h
  obtain rfl := Attributes.members_of_ofMembers ha
  refine ⟨fun hlegible b ↦ ?_, fun hillegible b ↦ ?_, fun v n b hv hn hkey hne ↦ ?_⟩
  · refine data_eq_ok_iff.trans (and_congr_right fun _ ↦ ⟨fun hagree ↦ ?_, ?_⟩)
    · cases hv : a.members.get? Field.keySize with
      | none => exact .inl rfl
      | some v =>
        obtain ⟨n, hn⟩ := hlegible v hv
        exact .inr ⟨v, rfl, hagree v n hv hn ▸ hn⟩
    · rintro (hnone | ⟨w, hw, hlength⟩) v n hv hn
      · cases hnone.symm.trans hv
      · obtain rfl := Option.some.inj (hw.symm.trans hv)
        exact hn.unique hlength
  · refine data_eq_ok_iff.trans (and_iff_left fun v n hv hn ↦ ?_)
    refine absurd (fun w hw ↦ ⟨n, ?_⟩) hillegible
    rwa [← Option.some.inj (hv.symm.trans hw)]
  · exact data_of_mismatch hkey hv hn hne

/-- The attributes of a key of 16 bytes that declares a value as its size. -/
def declaring (v : Json) : Attributes :=
  ⟨Json.Members.ofList [(Field.algorithm, .text tag), (Field.data, .text "AAECAwQFBgcICQoLDA0ODw=="),
      (Field.keySize, v)],
    tag, "AAECAwQFBgcICQoLDA0ODw==", rfl, rfl, by decide⟩

def sixteen : Bytes := (List.range 16).map Nat.toUInt8

theorem ofMembers_declaring (v : Json) : ofMembers (declaring v).members = .ok ⟨declaring v⟩ :=
  Except.map_eq_ok_iff.mpr ⟨declaring v, (declaring v).ofMembers_members, rfl⟩

theorem get?_declaring (v : Json) : (declaring v).members.get? Field.keySize = some v := rfl

theorem keyBytes_declaring (v : Json) : KeyBytes (declaring v).members sixteen :=
  ⟨⟨_, rfl, by decide⟩, by decide⟩

theorem sizeLegible_declaring_iff : SizeLegible (declaring v).members ↔ ∃ n, v.Denotes n := by
  refine ⟨fun h ↦ h v (get?_declaring v), fun h w hw ↦ ?_⟩
  obtain rfl : v = w := Option.some.inj hw
  exact h

/-- A size that is declared with more marks than digits, one that is not that of the bytes, and one that
is not a number. -/
theorem data_of_declared_size_sixteen :
    (∀ v, ofMembers (declaring v).members = .ok ⟨declaring v⟩) ∧
    SizeLegible (declaring (.text " +016\n")).members ∧
      data ⟨declaring (.text " +016\n")⟩ = .ok sixteen ∧
    data ⟨declaring (Json.ofNat 32)⟩ = .error (.invalidData (.aesDeclared 32 16)) ∧
    ¬ SizeLegible (declaring (.bool true)).members ∧
      data ⟨declaring (.bool true)⟩ = .ok sixteen := by
  have hsixteen : (Json.text " +016\n").Denotes 16 := Json.natural?_eq_some_iff.mp (by decide)
  have hlegible := sizeLegible_declaring_iff.mpr ⟨16, hsixteen⟩
  have hillegible : ¬ SizeLegible (declaring (.bool true)).members := by
    rw [sizeLegible_declaring_iff]
    exact nofun
  obtain ⟨hread, -⟩ := data_of_declared_size (ofMembers_declaring (.text " +016\n"))
  obtain ⟨-, -, hreport⟩ := data_of_declared_size (ofMembers_declaring (Json.ofNat 32))
  obtain ⟨-, hpass, -⟩ := data_of_declared_size (ofMembers_declaring (.bool true))
  refine ⟨ofMembers_declaring, hlegible, ?_, ?_, hillegible, ?_⟩
  · exact (hread hlegible sixteen).mpr
      ⟨keyBytes_declaring _, .inr ⟨_, get?_declaring _, hsixteen⟩⟩
  · exact hreport _ 32 sixteen (get?_declaring _) (.integer 32) (keyBytes_declaring _) (by decide)
  · exact (hpass hillegible sixteen).mpr (keyBytes_declaring _)

def oversized : Json := .text "99999999999999999999"

theorem not_denotes_oversized (n : ℕ) : ¬ oversized.Denotes n := by
  have hnone : oversized.natural? = none := by decide
  rw [← Json.natural?_eq_some_iff, hnone]
  exact nofun

theorem illegible_size_passes :
    ofMembers (declaring oversized).members = .ok ⟨declaring oversized⟩ ∧
      data ⟨declaring oversized⟩ = .ok sixteen ∧
      ¬ (KeyBytes (declaring oversized).members sixteen ∧
        ((declaring oversized).members.get? Field.keySize = none ∨
          ∃ v, (declaring oversized).members.get? Field.keySize = some v ∧
            v.Denotes sixteen.length)) := by
  have hsilent (v : Json) (n : ℕ)
      (hv : (declaring oversized).members.get? Field.keySize = some v) : ¬ v.Denotes n := by
    obtain rfl : oversized = v := Option.some.inj hv
    exact not_denotes_oversized n
  refine ⟨ofMembers_declaring _, data_eq_ok_iff.mpr ⟨keyBytes_declaring _, fun v n hv hn ↦ ?_⟩, ?_⟩
  · exact absurd hn (hsilent v n hv)
  · rintro ⟨-, hmissing | ⟨v, hv, hn⟩⟩
    · cases (get?_declaring _).symm.trans hmissing
    · exact hsilent v _ hv hn

end AesKey

end MessagingIdentity

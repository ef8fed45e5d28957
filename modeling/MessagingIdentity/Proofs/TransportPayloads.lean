import MessagingIdentity.Proofs.Outcomes
import MessagingIdentity.Proofs.TransportTexts

namespace MessagingIdentity

namespace Base64

theorem value?_eq_some_iff {s : UInt8} {n : ℕ} : value? s = some n ↔ n < 64 ∧ s = symbol n := by
  constructor
  · intro h
    rw [value?] at h
    split at h
    next hs =>
      obtain rfl := Option.some.inj h
      have hsymbol : symbol (s.toNat - 65) = s := by
        rw [symbol, if_pos (by omega)]
        exact toUInt8_of_eq (by omega)
      exact ⟨by omega, hsymbol.symm⟩
    split at h
    next hs =>
      obtain rfl := Option.some.inj h
      have hsymbol : symbol (s.toNat - 71) = s := by
        rw [symbol, if_neg (by omega), if_pos (by omega)]
        exact toUInt8_of_eq (by omega)
      exact ⟨by omega, hsymbol.symm⟩
    split at h
    next hs =>
      obtain rfl := Option.some.inj h
      have hsymbol : symbol (s.toNat + 4) = s := by
        rw [symbol, if_neg (by omega), if_neg (by omega), if_pos (by omega)]
        exact toUInt8_of_eq (by omega)
      exact ⟨by omega, hsymbol.symm⟩
    split at h
    next hs =>
      obtain rfl := Option.some.inj h
      exact ⟨by decide, UInt8.toNat_inj.mp hs⟩
    split at h
    next hs =>
      obtain rfl := Option.some.inj h
      exact ⟨by decide, UInt8.toNat_inj.mp hs⟩
    · cases h
  · rintro ⟨hn, rfl⟩
    exact value?_symbol hn

/-- What is found are symbols, then nothing but padding, and padding only behind two symbols. -/
theorem of_tailValues {i seen : ℕ} {t : Bytes} {vs : List ℕ} (h : tailValues i seen t = .ok vs) :
    (∀ v ∈ vs, v < 64) ∧
      ∃ k, t = vs.map symbol ++ List.replicate k pad ∧ (k = 0 ∨ 2 ≤ seen + vs.length) := by
  induction t generalizing i seen vs with
  | nil =>
    obtain rfl := Except.ok.inj h
    exact ⟨nofun, 0, rfl, .inl rfl⟩
  | cons s t ih =>
    rw [tailValues] at h
    split at h
    next hs =>
      split at h
      · cases h
      next hpadding =>
        obtain rfl := Except.ok.inj h
        simp only [not_or, not_lt, not_not, List.all_eq_true, decide_eq_true_eq] at hpadding
        have hpads : s :: t = List.replicate (t.length + 1) pad := by
          rw [List.replicate_succ, ← List.eq_replicate_of_mem hpadding.2, hs]
        exact ⟨nofun, t.length + 1, hpads, .inr hpadding.1⟩
    · split at h
      · cases h
      next v hv =>
        obtain ⟨vs, hvs, rfl⟩ := Except.map_eq_ok_iff.mp h
        obtain ⟨hlt, rfl⟩ := value?_eq_some_iff.mp hv
        obtain ⟨hall, k, rfl, hk⟩ := ih hvs
        refine ⟨List.forall_mem_cons.mpr ⟨hlt, hall⟩, k, rfl, hk.imp_right fun hseen ↦ ?_⟩
        rw [List.length_cons]
        omega

section Tail

variable {w x y z : ℕ}

theorem symbols_of_two (hw : w < 64) (hx : x < 64) (hlow : x % 16 = 0) :
    symbols [(w * 4 + x / 16).toUInt8] = [symbol w, symbol x, pad, pad] := by
  have ha := Bytes.toNat_toUInt8 (show w * 4 + x / 16 < 256 by omega)
  rw [symbols, ha, show (w * 4 + x / 16) / 4 = w by omega,
    show (w * 4 + x / 16) % 4 * 16 = x by omega]

theorem symbols_of_three (hw : w < 64) (hx : x < 64) (hy : y < 64) (hlow : y % 4 = 0) :
    symbols [(w * 4 + x / 16).toUInt8, (x % 16 * 16 + y / 4).toUInt8] =
      [symbol w, symbol x, symbol y, pad] := by
  have ha := Bytes.toNat_toUInt8 (show w * 4 + x / 16 < 256 by omega)
  have hb := Bytes.toNat_toUInt8 (show x % 16 * 16 + y / 4 < 256 by omega)
  rw [symbols, ha, hb, show (w * 4 + x / 16) / 4 = w by omega,
    show (w * 4 + x / 16) % 4 * 16 + (x % 16 * 16 + y / 4) / 16 = x by omega,
    show (x % 16 * 16 + y / 4) % 16 * 4 = y by omega]

theorem symbols_of_four (hw : w < 64) (hx : x < 64) (hy : y < 64) (hz : z < 64) (b : Bytes) :
    symbols ((w * 4 + x / 16).toUInt8 :: (x % 16 * 16 + y / 4).toUInt8 ::
        (y % 4 * 64 + z).toUInt8 :: b) =
      symbol w :: symbol x :: symbol y :: symbol z :: symbols b := by
  have ha := Bytes.toNat_toUInt8 (show w * 4 + x / 16 < 256 by omega)
  have hb := Bytes.toNat_toUInt8 (show x % 16 * 16 + y / 4 < 256 by omega)
  have hc := Bytes.toNat_toUInt8 (show y % 4 * 64 + z < 256 by omega)
  rw [symbols, ha, hb, hc, show (w * 4 + x / 16) / 4 = w by omega,
    show (w * 4 + x / 16) % 4 * 16 + (x % 16 * 16 + y / 4) / 16 = x by omega,
    show (x % 16 * 16 + y / 4) % 16 * 4 + (y % 4 * 64 + z) / 64 = y by omega,
    show (y % 4 * 64 + z) % 64 = z by omega]

end Tail

theorem eq_symbols_of_decodeTail {i : ℕ} {t b : Bytes} (ht : t.length ≤ 4)
    (h : decodeTail i t = .ok b) : t = symbols b := by
  obtain ⟨vs, hvs, h⟩ := Except.bind_eq_ok_iff.mp h
  obtain ⟨hall, k, rfl, hk⟩ := of_tailValues hvs
  dsimp only at h
  split at h
  next =>
    obtain rfl : k = 0 := hk.resolve_right (by decide)
    obtain rfl := Except.ok.inj h
    rfl
  next => cases h
  next w x =>
    simp only [List.forall_mem_cons] at hall
    split at h
    · cases h
    next hlength =>
      split at h
      · cases h
      next hlow =>
        obtain rfl := Except.ok.inj h
        obtain rfl : k = 2 := by simpa using hlength
        exact (symbols_of_two hall.1 hall.2.1 (not_not.mp hlow)).symm
  next w x y =>
    simp only [List.forall_mem_cons] at hall
    split at h
    · cases h
    next hlength =>
      split at h
      · cases h
      next hlow =>
        obtain rfl := Except.ok.inj h
        obtain rfl : k = 1 := by simpa using hlength
        exact (symbols_of_three hall.1 hall.2.1 hall.2.2.1 (not_not.mp hlow)).symm
  next w x y z vs _ =>
    simp only [List.forall_mem_cons] at hall
    obtain rfl := Except.ok.inj h
    simp only [List.length_append, List.length_map, List.length_cons, List.length_replicate] at ht
    obtain rfl : k = 0 := by omega
    obtain rfl : vs = [] := List.length_eq_zero_iff.mp (by omega)
    exact (symbols_of_four hall.1 hall.2.1 hall.2.2.1 hall.2.2.2.1 []).symm

theorem eq_symbols_of_decodeFrom {i : ℕ} {t b : Bytes} (h : decodeFrom i t = .ok b) :
    t = symbols b := by
  fun_induction decodeFrom i t generalizing b with
  | case1 i p q r s e rest w x y z hz hy hx hw ih =>
    obtain ⟨out, hout, rfl⟩ := Except.map_eq_ok_iff.mp h
    obtain ⟨hwlt, rfl⟩ := value?_eq_some_iff.mp hw
    obtain ⟨hxlt, rfl⟩ := value?_eq_some_iff.mp hx
    obtain ⟨hylt, rfl⟩ := value?_eq_some_iff.mp hy
    obtain ⟨hzlt, rfl⟩ := value?_eq_some_iff.mp hz
    rw [symbols_of_four hwlt hxlt hylt hzlt, ← ih hout]
  | case2 => cases h
  | case3 => cases h
  | case4 i t hshort =>
    refine eq_symbols_of_decodeTail ?_ h
    by_contra hlong
    obtain ⟨p, q, r, s, e, rest, rfl⟩ : ∃ p q r s e rest, t = p :: q :: r :: s :: e :: rest := by
      rcases t with _ | ⟨p, _ | ⟨q, _ | ⟨r, _ | ⟨s, _ | ⟨e, rest⟩⟩⟩⟩⟩
      case cons.cons.cons.cons.cons => exact ⟨p, q, r, s, e, rest, rfl⟩
      all_goals simp at hlong
    exact hshort p q r s e rest rfl

/-- Reading takes exactly what writing makes. -/
theorem decode_eq_ok_iff {s : String} {b : Bytes} : decode s = .ok b ↔ s = encode b := by
  constructor
  · intro h
    have hsymbols : Bytes.ofText s = symbols b := by
      rw [decode, decodeBytes] at h
      split at h
      · split at h
        · cases h
        · exact eq_symbols_of_decodeFrom h
      next hnone =>
        obtain rfl := Except.ok.inj h
        exact List.getLast?_eq_none_iff.mp hnone
    exact Bytes.ofText_injective (hsymbols.trans (ofText_encode b).symm)
  · rintro rfl
    exact decode_encode b

end Base64

namespace Text

theorem eq_false_of_mem_head?_dropWhile {p : Char → Bool} {cs : List Char} {c : Char}
    (h : c ∈ (cs.dropWhile p).head?) : p c = false := by
  have hstop := List.head?_dropWhile_not p cs
  rw [h] at hstop
  simpa using hstop

theorem eq_append_trimChars (cs : List Char) : ∃ left right : List Char,
    cs = left ++ trimChars cs ++ right ∧
      (∀ c ∈ left, isBlank c = true) ∧ (∀ c ∈ right, isBlank c = true) ∧
      (∀ c ∈ (trimChars cs).head?, isBlank c = false) ∧
      ∀ c ∈ (trimChars cs).getLast?, isBlank c = false := by
  let ds := cs.dropWhile isBlank
  have hleft : cs.takeWhile isBlank ++ ds = cs := List.takeWhile_append_dropWhile
  have hright : trimEndChars ds ++ (ds.reverse.takeWhile isBlank).reverse = ds := by
    rw [trimEndChars, ← List.reverse_append, List.takeWhile_append_dropWhile, List.reverse_reverse]
  refine ⟨cs.takeWhile isBlank, (ds.reverse.takeWhile isBlank).reverse, ?_, ?_, ?_, ?_, ?_⟩
  · rw [List.append_assoc, trimChars, hright, hleft]
  · exact fun c hc ↦ List.mem_takeWhile_imp hc
  · exact fun c hc ↦ List.mem_takeWhile_imp (List.mem_reverse.mp hc)
  · intro c hc
    have hhead : c ∈ ds.head? := by
      rw [← hright]
      exact List.mem_head?_append_of_mem_head? hc
    exact eq_false_of_mem_head?_dropWhile hhead
  · intro c hc
    rw [trimChars, trimEndChars, List.getLast?_reverse] at hc
    exact eq_false_of_mem_head?_dropWhile hc

end Text

namespace Transport

variable {s p : String}

/-- The payload of a text stands behind its last comma, or behind nothing if it has none, between white
space, and neither begins nor ends with white space. -/
def Carries (s p : String) : Prop :=
  ∃ before left right : List Char, s.toList = before ++ (left ++ p.toList ++ right) ∧
    (∀ c ∈ before.getLast?, c = ',') ∧ ',' ∉ left ++ p.toList ++ right ∧
    (∀ c ∈ left, Text.isBlank c = true) ∧ (∀ c ∈ right, Text.isBlank c = true) ∧
    (∀ c ∈ p.toList.head?, Text.isBlank c = false) ∧ ∀ c ∈ p.toList.getLast?, Text.isBlank c = false

theorem exists_split (s : String) : ∃ before cs : List Char, s.toList = before ++ cs ∧
    (∀ c ∈ before.getLast?, c = ',') ∧ ',' ∉ cs := by
  let backwards := s.toList.reverse
  refine ⟨(backwards.dropWhile (· ≠ ',')).reverse, (backwards.takeWhile (· ≠ ',')).reverse, ?_, ?_, ?_⟩
  · rw [← List.reverse_append, List.takeWhile_append_dropWhile, List.reverse_reverse]
  · intro c hc
    rw [List.getLast?_reverse] at hc
    simpa using Text.eq_false_of_mem_head?_dropWhile hc
  · intro hc
    simpa using List.mem_takeWhile_imp (List.mem_reverse.mp hc)

theorem Carries.payload_eq (h : Carries s p) : payload s = p := by
  obtain ⟨before, left, right, hs, hbefore, hcomma, hleft, hright, hfirst, hlast⟩ := h
  rw [payload_of_split hs hbefore hcomma, Text.trimChars_append hleft hfirst hlast hright,
    String.ofList_toList]

theorem carries_payload (s : String) : Carries s (payload s) := by
  obtain ⟨before, cs, hs, hbefore, hcomma⟩ := exists_split s
  obtain ⟨left, right, hcs, hleft, hright, hfirst, hlast⟩ := Text.eq_append_trimChars cs
  rw [payload_of_split hs hbefore hcomma, Carries, String.toList_ofList, hs]
  refine ⟨before, left, right, congrArg (before ++ ·) hcs, hbefore, ?_, hleft, hright, hfirst, hlast⟩
  rwa [← hcs]

theorem carries_iff : Carries s p ↔ payload s = p :=
  ⟨Carries.payload_eq, fun h ↦ h ▸ carries_payload s⟩

/-- A text gives the bytes of which it carries the base64, and no others. Every text carries one
payload, what stands before the last comma does not matter, and different payloads never give the
same bytes. -/
theorem decode_exact :
    (∀ s, ∃! p, Carries s p) ∧
    (∀ s b, decode s = .ok b ↔ Carries s (Base64.encode b)) ∧
    (∀ before b, decode (before ++ "," ++ Base64.encode b) = .ok b) ∧
    ∀ s t p q b, Carries s p → Carries t q → p ≠ q → ¬ (decode s = .ok b ∧ decode t = .ok b) := by
  have hread (s : String) (b : Bytes) : decode s = .ok b ↔ Carries s (Base64.encode b) := by
    rw [decode, Except.mapError_eq_ok_iff, Base64.decode_eq_ok_iff, carries_iff]
  refine ⟨fun s ↦ ⟨payload s, carries_payload s, fun p hp ↦ hp.payload_eq.symm⟩, hread, ?_, ?_⟩
  · intro before b
    exact decode_eq String.toList_append (by simp)
  · rintro s t p q b hp hq hne ⟨hs, ht⟩
    refine hne ?_
    calc p = payload s := hp.payload_eq.symm
      _ = Base64.encode b := ((hread s b).mp hs).payload_eq
      _ = payload t := ((hread t b).mp ht).payload_eq.symm
      _ = q := hq.payload_eq

/-- Of the texts with these two payloads the first is the base64 of its bytes, so the second, which
differs from it in the bits behind the last byte alone, does not give them. -/
theorem decode_exact_hi : ∃ s p q b, Carries s p ∧ Carries q q ∧ p ≠ q ∧
    s = "data:text/plain;base64, aGk=\n" ∧ p = Base64.encode b ∧ q = "aGl=" ∧
    decode s = .ok b ∧ ¬ decode q = .ok b := by
  have hs : Carries "data:text/plain;base64, aGk=\n" "aGk=" := carries_iff.mpr (by decide)
  have hq : Carries "aGl=" "aGl=" := carries_iff.mpr (by decide)
  have hp : "aGk=" = Base64.encode [104, 105] := by decide
  obtain ⟨-, hread, -, hdiffer⟩ := decode_exact
  have hdecode := (hread _ [104, 105]).mpr (hp ▸ hs)
  exact ⟨_, _, _, _, hs, hq, by decide, rfl, hp, rfl, hdecode,
    fun h ↦ hdiffer _ _ _ _ _ hs hq (by decide) ⟨hdecode, h⟩⟩

end Transport

end MessagingIdentity

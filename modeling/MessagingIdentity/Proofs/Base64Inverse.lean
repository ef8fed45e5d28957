import MessagingIdentity.Encoding.Base64
import MessagingIdentity.Proofs.TextBytes

namespace MessagingIdentity.Base64

theorem value?_symbol {n : ℕ} (h : n < 64) : value? (symbol n) = some n :=
  (by decide : ∀ n < 64, value? (symbol n) = some n) n h

theorem symbol_ne_pad {n : ℕ} (h : n < 64) : symbol n ≠ pad :=
  (by decide : ∀ n < 64, symbol n ≠ pad) n h

theorem first_lt (a : UInt8) : a.toNat / 4 < 64 := by
  have := a.toNat_lt
  omega

theorem second_lt (a b : UInt8) : a.toNat % 4 * 16 + b.toNat / 16 < 64 := by
  have := b.toNat_lt
  omega

theorem third_lt (b c : UInt8) : b.toNat % 16 * 4 + c.toNat / 64 < 64 := by
  have := c.toNat_lt
  omega

theorem fourth_lt (c : UInt8) : c.toNat % 64 < 64 := Nat.mod_lt _ (by decide)

theorem second_last_lt (a : UInt8) : a.toNat % 4 * 16 < 64 := second_lt a 0

theorem third_last_lt (b : UInt8) : b.toNat % 16 * 4 < 64 := third_lt b 0

theorem toUInt8_of_eq {n : ℕ} {b : UInt8} (h : n = b.toNat) : n.toUInt8 = b := by
  rw [h, Nat.toUInt8_eq, UInt8.ofNat_toNat]

theorem first_byte (a : UInt8) {t : ℕ} (ht : t < 16) :
    (a.toNat / 4 * 4 + (a.toNat % 4 * 16 + t) / 16).toUInt8 = a := toUInt8_of_eq (by omega)

theorem second_byte (a b : UInt8) {t : ℕ} (ht : t < 4) :
    ((a.toNat % 4 * 16 + b.toNat / 16) % 16 * 16 + (b.toNat % 16 * 4 + t) / 4).toUInt8 = b := by
  have := b.toNat_lt
  exact toUInt8_of_eq (by omega)

theorem third_byte (b c : UInt8) :
    ((b.toNat % 16 * 4 + c.toNat / 64) % 4 * 64 + c.toNat % 64).toUInt8 = c := by
  have := c.toNat_lt
  exact toUInt8_of_eq (by omega)

theorem mem_symbols {b : Bytes} {s : UInt8} (h : s ∈ symbols b) : s = pad ∨ ∃ n < 64, s = symbol n := by
  fun_induction symbols b with
  | case1 => cases h
  | case2 a =>
    simp only [List.mem_cons, List.not_mem_nil, or_false] at h
    rcases h with rfl | rfl | rfl | rfl
    · exact .inr ⟨_, first_lt a, rfl⟩
    · exact .inr ⟨_, second_last_lt a, rfl⟩
    · exact .inl rfl
    · exact .inl rfl
  | case3 a b =>
    simp only [List.mem_cons, List.not_mem_nil, or_false] at h
    rcases h with rfl | rfl | rfl | rfl
    · exact .inr ⟨_, first_lt a, rfl⟩
    · exact .inr ⟨_, second_lt a b, rfl⟩
    · exact .inr ⟨_, third_last_lt b, rfl⟩
    · exact .inl rfl
  | case4 a b c rest ih =>
    simp only [List.mem_cons] at h
    rcases h with rfl | rfl | rfl | rfl | h
    · exact .inr ⟨_, first_lt a, rfl⟩
    · exact .inr ⟨_, second_lt a b, rfl⟩
    · exact .inr ⟨_, third_lt b c, rfl⟩
    · exact .inr ⟨_, fourth_lt c, rfl⟩
    · exact ih h

theorem length_symbols_mod (b : Bytes) : (symbols b).length % 4 = 0 := by
  fun_induction symbols b with
  | case1 => rfl
  | case2 a => simp
  | case3 a b => simp
  | case4 a b c rest ih =>
    simp only [List.length_cons]
    omega

theorem tailValues_symbol (i seen : ℕ) {n : ℕ} (hn : n < 64) (t : Bytes) :
    tailValues i seen (symbol n :: t) = (tailValues (i + 1) (seen + 1) t).map (n :: ·) := by
  rw [tailValues, if_neg (symbol_ne_pad hn), value?_symbol hn]

theorem tailValues_pad (i : ℕ) {seen : ℕ} (hseen : 2 ≤ seen) {t : Bytes} (ht : t.all (· = pad) = true) :
    tailValues i seen (pad :: t) = .ok [] := by
  rw [tailValues, if_pos rfl, if_neg]
  rintro (h | h)
  · omega
  · exact h ht

section Tail

variable {i w x y z : ℕ} {t : Bytes}

theorem decodeTail_of_two (h : tailValues i 0 t = .ok [w, x]) (ht : t.length = 4) (hx : x % 16 = 0) :
    decodeTail i t = .ok [(w * 4 + x / 16).toUInt8] := by
  rw [decodeTail, h]
  change (if t.length ≠ 4 then _ else if x % 16 ≠ 0 then _ else _) = _
  rw [if_neg (not_not_intro ht), if_neg (not_not_intro hx)]
  rfl

theorem decodeTail_of_three (h : tailValues i 0 t = .ok [w, x, y]) (ht : t.length = 4)
    (hy : y % 4 = 0) :
    decodeTail i t = .ok [(w * 4 + x / 16).toUInt8, (x % 16 * 16 + y / 4).toUInt8] := by
  rw [decodeTail, h]
  change (if t.length ≠ 4 then _ else if y % 4 ≠ 0 then _ else _) = _
  rw [if_neg (not_not_intro ht), if_neg (not_not_intro hy)]
  rfl

theorem decodeTail_of_four (h : tailValues i 0 t = .ok [w, x, y, z]) :
    decodeTail i t = .ok [(w * 4 + x / 16).toUInt8, (x % 16 * 16 + y / 4).toUInt8,
      (y % 4 * 64 + z).toUInt8] := by
  rw [decodeTail, h]
  rfl

end Tail

theorem decodeTail_one (i : ℕ) (a : UInt8) : decodeTail i (symbols [a]) = .ok [a] := by
  have hvalues : tailValues i 0 (symbols [a]) = .ok [a.toNat / 4, a.toNat % 4 * 16 + 0] := by
    rw [symbols, tailValues_symbol _ _ (first_lt a), tailValues_symbol _ _ (second_last_lt a),
      tailValues_pad _ (by decide) rfl]
    rfl
  rw [decodeTail_of_two hvalues rfl (by omega), first_byte a (by decide)]

theorem decodeTail_two (i : ℕ) (a b : UInt8) : decodeTail i (symbols [a, b]) = .ok [a, b] := by
  have hb := b.toNat_lt
  have hvalues : tailValues i 0 (symbols [a, b]) =
      .ok [a.toNat / 4, a.toNat % 4 * 16 + b.toNat / 16, b.toNat % 16 * 4 + 0] := by
    rw [symbols, tailValues_symbol _ _ (first_lt a), tailValues_symbol _ _ (second_lt a b),
      tailValues_symbol _ _ (third_last_lt b), tailValues_pad _ (by decide) rfl]
    rfl
  rw [decodeTail_of_three hvalues rfl (by omega), first_byte a (by omega),
    second_byte a b (by decide)]

theorem decodeTail_three (i : ℕ) (a b c : UInt8) :
    decodeTail i (symbols [a, b, c]) = .ok [a, b, c] := by
  have hb := b.toNat_lt
  have hc := c.toNat_lt
  have hvalues : tailValues i 0 (symbols [a, b, c]) = .ok [a.toNat / 4,
      a.toNat % 4 * 16 + b.toNat / 16, b.toNat % 16 * 4 + c.toNat / 64, c.toNat % 64] := by
    rw [symbols, tailValues_symbol _ _ (first_lt a), tailValues_symbol _ _ (second_lt a b),
      tailValues_symbol _ _ (third_lt b c), tailValues_symbol _ _ (fourth_lt c), symbols]
    rfl
  rw [decodeTail_of_four hvalues, first_byte a (by omega), second_byte a b (by omega),
    third_byte b c]

theorem decodeFrom_four (i : ℕ) (a b c : UInt8) {t : Bytes} (ht : t ≠ []) :
    decodeFrom i (symbol (a.toNat / 4) :: symbol (a.toNat % 4 * 16 + b.toNat / 16) ::
        symbol (b.toNat % 16 * 4 + c.toNat / 64) :: symbol (c.toNat % 64) :: t) =
      (decodeFrom (i + 4) t).map ([a, b, c] ++ ·) := by
  have hb := b.toNat_lt
  have hc := c.toNat_lt
  obtain ⟨s, t, rfl⟩ := List.exists_cons_of_ne_nil ht
  rw [decodeFrom, value?_symbol (first_lt a), value?_symbol (second_lt a b),
    value?_symbol (third_lt b c), value?_symbol (fourth_lt c)]
  dsimp only
  rw [first_byte a (by omega), second_byte a b (by omega), third_byte b c]
  rfl

theorem symbols_ne_nil {b : Bytes} (h : b ≠ []) : symbols b ≠ [] := by
  fun_cases symbols b
  all_goals simp_all

theorem decodeFrom_symbols (i : ℕ) (b : Bytes) : decodeFrom i (symbols b) = .ok b := by
  fun_induction symbols b generalizing i with
  | case1 => rfl
  | case2 a => exact decodeTail_one i a
  | case3 a b => exact decodeTail_two i a b
  | case4 a b c rest ih =>
    by_cases hrest : rest = []
    · rw [hrest]
      exact decodeTail_three i a b c
    · rw [decodeFrom_four i a b c (symbols_ne_nil hrest), ih]
      rfl

theorem forall_mem_encode {P : Char → Prop} (hpad : P '=')
    (hsymbol : ∀ n < 64, P (Char.ofNat (symbol n).toNat)) (b : Bytes) :
    ∀ c ∈ (encode b).toList, P c := by
  intro c hc
  rw [encode, String.toList_ofList] at hc
  obtain ⟨s, hs, rfl⟩ := List.mem_map.mp hc
  rcases mem_symbols hs with rfl | ⟨n, hn, rfl⟩
  · exact hpad
  · exact hsymbol n hn

theorem ofText_encode (b : Bytes) : Bytes.ofText (encode b) = symbols b := by
  have hascii : ∀ c ∈ (encode b).toList, c.toNat ≤ 127 :=
    forall_mem_encode (by decide) (by decide) b
  rw [encode, String.toList_ofList] at hascii
  rw [encode, Bytes.ofText_ofList_of_ascii hascii, List.map_map]
  refine (List.map_congr_left fun s hs ↦ ?_).trans (List.map_id _)
  rcases mem_symbols hs with rfl | ⟨n, hn, rfl⟩
  · rfl
  · exact (by decide : ∀ n < 64,
      (Char.ofNat (symbol n).toNat).toNat.toUInt8 = symbol n) n hn

theorem decode_encode (b : Bytes) : decode (encode b) = .ok b := by
  rw [decode, ofText_encode, decodeBytes]
  cases hlast : (symbols b).getLast? with
  | none =>
    have hb : b = [] := by
      by_contra hb
      exact symbols_ne_nil hb (List.getLast?_eq_none_iff.mp hlast)
    rw [hb]
  | some s =>
    have hlength : ¬ ((symbols b).length % 4 = 1 ∧ s ≠ pad ∧ (value? s).isNone = true) := by
      rw [length_symbols_mod]
      simp
    dsimp only
    rw [if_neg hlength, decodeFrom_symbols]

theorem encode_ne_empty {b : Bytes} (hb : b ≠ []) : encode b ≠ "" := by
  intro hempty
  have hnil := decode_encode b
  rw [hempty] at hnil
  exact hb (Except.ok.inj (hnil.symm.trans (by decide)))

end MessagingIdentity.Base64

import Mathlib.Data.List.TakeWhile
import MessagingIdentity.Key.Attributes
import MessagingIdentity.Proofs.Base64Inverse
import MessagingIdentity.Proofs.HexadecimalInverse

namespace MessagingIdentity

namespace Text

variable {before cs behind : List Char}

theorem trimEndChars_append (h : ∀ c ∈ behind, isBlank c = true) :
    trimEndChars (cs ++ behind) = trimEndChars cs := by
  have hreverse : ∀ c ∈ behind.reverse, isBlank c = true := fun c hc ↦ h c (List.mem_reverse.mp hc)
  rw [trimEndChars, List.reverse_append, List.dropWhile_append_of_pos hreverse, trimEndChars]

theorem trimEndChars_of_getLast? (h : ∀ c ∈ cs.getLast?, isBlank c = false) : trimEndChars cs = cs := by
  have hdrop : cs.reverse.dropWhile isBlank = cs.reverse := by
    rw [List.getLast?_eq_head?_reverse] at h
    cases hreverse : cs.reverse with
    | nil => rfl
    | cons c rest =>
      have hc := h c (by rw [hreverse]; rfl)
      rw [List.dropWhile_cons_of_neg (Bool.eq_false_iff.mp hc)]
  rw [trimEndChars, hdrop, List.reverse_reverse]

theorem trimEndChars_of_forall (h : ∀ c ∈ cs, isBlank c = false) : trimEndChars cs = cs :=
  trimEndChars_of_getLast? fun c hc ↦ h c (List.mem_of_getLast? hc)

theorem trimChars_append (hbefore : ∀ c ∈ before, isBlank c = true)
    (hfirst : ∀ c ∈ cs.head?, isBlank c = false) (hlast : ∀ c ∈ cs.getLast?, isBlank c = false)
    (hbehind : ∀ c ∈ behind, isBlank c = true) : trimChars (before ++ cs ++ behind) = cs := by
  rw [trimChars, List.append_assoc, List.dropWhile_append_of_pos hbefore]
  cases cs with
  | nil =>
    rw [List.nil_append, List.dropWhile_eq_nil_iff.mpr hbehind]
    rfl
  | cons c cs =>
    have hc := hfirst c rfl
    rw [List.cons_append, List.dropWhile_cons_of_neg (Bool.eq_false_iff.mp hc), ← List.cons_append,
      trimEndChars_append hbehind, trimEndChars_of_getLast? hlast]

theorem trimChars_append_of_forall (hbefore : ∀ c ∈ before, isBlank c = true)
    (h : ∀ c ∈ cs, isBlank c = false) (hbehind : ∀ c ∈ behind, isBlank c = true) :
    trimChars (before ++ cs ++ behind) = cs :=
  trimChars_append hbefore (fun c hc ↦ h c (List.mem_of_mem_head? hc))
    (fun c hc ↦ h c (List.mem_of_getLast? hc)) hbehind

theorem trimChars_of_forall (h : ∀ c ∈ cs, isBlank c = false) : trimChars cs = cs := by
  have htrim : trimChars ([] ++ cs ++ []) = cs := trimChars_append_of_forall nofun h nofun
  rwa [List.nil_append, List.append_nil] at htrim

theorem toLower_of_isBlank {c : Char} (h : isBlank c = true) : c.toLower = c := by
  unfold Char.toLower
  split
  next hc =>
    have hlow : 65 ≤ c.toNat := UInt32.le_iff_toNat_le.mp hc.1
    have hhigh : c.toNat ≤ 90 := UInt32.le_iff_toNat_le.mp hc.2
    simp only [isBlank, Bool.or_eq_true, Bool.and_eq_true, decide_eq_true_eq, beq_iff_eq] at h
    omega
  next => rfl

end Text

namespace Hexadecimal

/-- The text shows the bytes: their digits, with letters of either case and white space around them. -/
def Shows (text : String) (b : Bytes) : Prop :=
  ∃ before digits behind : List Char, text = String.ofList (before ++ digits ++ behind) ∧
    (∀ c ∈ before, Text.isBlank c = true) ∧ (∀ c ∈ behind, Text.isBlank c = true) ∧
    digits.map Char.toLower = (encode b).toList

variable {text : String} {b : Bytes}

theorem Shows.decode_trim (h : Shows text b) : decode (Text.trim text) = .ok b := by
  obtain ⟨before, digits, behind, rfl, hbefore, hbehind, hdigits⟩ := h
  have hplain : ∀ c ∈ digits, Text.isBlank c = false := by
    intro c hc
    have hmem : c.toLower ∈ (encode b).toList := by
      rw [← hdigits]
      exact List.mem_map_of_mem hc
    have hlower : Text.isBlank c.toLower = false :=
      forall_mem_encode (P := (Text.isBlank · = false)) (by decide) b _ hmem
    rw [Bool.eq_false_iff] at hlower ⊢
    exact fun hblank ↦ hlower ((Text.toLower_of_isBlank hblank).symm ▸ hblank)
  rw [Text.trim, String.toList_ofList, Text.trimChars_append_of_forall hbefore hplain hbehind,
    decode_of_toLower hdigits]

theorem shows_encode (b : Bytes) : Shows (encode b) b := by
  refine ⟨[], (encode b).toList, [], ?_, nofun, nofun, map_toLower_encode b⟩
  rw [List.nil_append, List.append_nil, String.ofList_toList]

theorem Shows.ne_empty (h : Shows text b) (hb : b ≠ []) : text ≠ "" := by
  rintro rfl
  exact hb (Except.ok.inj h.decode_trim).symm

end Hexadecimal

namespace Transport

variable {s : String} {before cs : List Char} {b : Bytes}

theorem payload_of_split (hs : s.toList = before ++ cs) (hbefore : ∀ c ∈ before.getLast?, c = ',')
    (hcs : ',' ∉ cs) : payload s = String.ofList (Text.trimChars cs) := by
  have hbehind : ∀ c ∈ cs.reverse, decide (c ≠ ',') = true := by
    intro c hc
    simpa using ne_of_mem_of_not_mem (List.mem_reverse.mp hc) hcs
  have hstop : before.reverse.takeWhile (fun c ↦ decide (c ≠ ',')) = [] := by
    rw [List.getLast?_eq_head?_reverse] at hbefore
    cases hreverse : before.reverse with
    | nil => rfl
    | cons c cs =>
      have hc : c = ',' := hbefore c (by rw [hreverse]; rfl)
      exact List.takeWhile_cons_of_neg (by simp [hc])
  rw [payload, hs, List.reverse_append, List.takeWhile_append_of_pos hbehind, hstop, List.append_nil,
    List.reverse_reverse]

theorem payload_eq (hs : s.toList = before ++ (Base64.encode b).toList)
    (hbefore : ∀ c ∈ before.getLast?, c = ',') : payload s = Base64.encode b := by
  have hcomma : ',' ∉ (Base64.encode b).toList := fun hc ↦
    Base64.forall_mem_encode (P := (· ≠ ',')) (by decide) (by decide) b _ hc rfl
  have hblank : ∀ c ∈ (Base64.encode b).toList, Text.isBlank c = false :=
    Base64.forall_mem_encode (by decide) (by decide) b
  rw [payload_of_split hs hbefore hcomma, Text.trimChars_of_forall hblank, String.ofList_toList]

theorem decode_eq (hs : s.toList = before ++ (Base64.encode b).toList)
    (hbefore : ∀ c ∈ before.getLast?, c = ',') : decode s = .ok b := by
  rw [decode, payload_eq hs hbefore, Base64.decode_encode]
  rfl

theorem decode_encode (b : Bytes) : decode (Base64.encode b) = .ok b :=
  decode_eq (List.nil_append _).symm nofun

end Transport

end MessagingIdentity

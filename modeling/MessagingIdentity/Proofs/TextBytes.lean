import MessagingIdentity.Bytes
import Mathlib.Data.List.Basic
import Mathlib.Logic.Function.Basic

namespace MessagingIdentity.Bytes

theorem toNat_toUInt8 {n : ℕ} (h : n < 256) : n.toUInt8.toNat = n := by simpa using h

theorem ofText_injective : Function.Injective ofText := by
  intro s t h
  have hb : s.toUTF8 = t.toUTF8 := ByteArray.ext (Array.toList_inj.mp h)
  exact String.toByteArray_inj.mp hb

theorem toText?_ofText (s : String) : toText? (ofText s) = some s := dif_pos s.isValidUTF8

theorem length_ofText (s : String) : (ofText s).length = s.utf8ByteSize := rfl

theorem ofText_ofList (cs : List Char) :
    ofText (String.ofList cs) = cs.flatMap String.utf8EncodeChar := by
  simp [ofText, List.utf8Encode]

theorem ascii_of_toLower {c : Char} (h : c.toLower.toNat ≤ 127) : c.toNat ≤ 127 := by
  unfold Char.toLower at h
  split at h
  next hc => exact Nat.le_trans (UInt32.le_iff_toNat_le.mp hc.2) (by decide)
  · exact h

theorem utf8EncodeChar_of_ascii {c : Char} (h : c.toNat ≤ 127) :
    String.utf8EncodeChar c = [c.toNat.toUInt8] := by
  have hc : c.utf8Size = 1 := Char.utf8Size_eq_one_iff.mpr (UInt32.le_iff_toNat_le.mpr h)
  rw [String.utf8EncodeChar_eq_singleton hc]
  rfl

theorem ofText_ofList_of_ascii {cs : List Char} (h : ∀ c ∈ cs, c.toNat ≤ 127) :
    ofText (String.ofList cs) = cs.map fun c ↦ c.toNat.toUInt8 := by
  rw [ofText_ofList]
  induction cs with
  | nil => rfl
  | cons c cs ih =>
    have hc := utf8EncodeChar_of_ascii (h c List.mem_cons_self)
    have ih := ih fun d hd ↦ h d (List.mem_cons_of_mem c hd)
    rw [List.flatMap_cons, hc, ih]
    rfl

theorem utf8ByteSize_ofList_of_ascii {cs : List Char} (h : ∀ c ∈ cs, c.toNat ≤ 127) :
    (String.ofList cs).utf8ByteSize = cs.length := by
  rw [← length_ofText, ofText_ofList_of_ascii h, List.length_map]

end MessagingIdentity.Bytes

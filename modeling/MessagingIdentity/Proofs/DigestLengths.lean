import MessagingIdentity.Arithmetic.Entropy
import MessagingIdentity.Digest.Combined
import MessagingIdentity.Digest.Keccak256
import Mathlib.Data.List.Basic

namespace MessagingIdentity

theorem Bytes.length_ofNat (k n : ℕ) : (Bytes.ofNat k n).length = k := by
  induction k generalizing n with
  | zero => rfl
  | succ k ih => rw [Bytes.ofNat, List.length_append, ih, List.length_singleton]

theorem Bytes.length_ofNatLittle (k n : ℕ) : (Bytes.ofNatLittle k n).length = k := by
  induction k generalizing n with
  | zero => rfl
  | succ k ih => rw [Bytes.ofNatLittle, List.length_cons, ih]

theorem Entropy.length_draw (e : Entropy) (k : ℕ) : (e.draw k).length = k := by
  rw [draw, List.length_map, List.length_range]

theorem Entropy.Source.length_of_draw {s : Entropy.Source} {k : ℕ} {b : Bytes}
    (h : s.draw k = .ok b) : b.length = k := by
  cases s with
  | error reason => cases h
  | ok e =>
    obtain rfl : e.draw k = b := Except.ok.inj h
    exact e.length_draw k

theorem Entropy.Source.isOk_draw (s : Entropy.Source) (k : ℕ) : (s.draw k).isOk = s.isOk := by
  cases s <;> rfl

theorem Entropy.length_drawNonzero (e : Entropy) (k : ℕ) : (e.drawNonzero k).length = k := by
  rw [drawNonzero, List.length_map, length_draw]

namespace Digest

theorem length_sha256 (m : Bytes) : (sha256 m).length = 32 := by
  simp [sha256, Sha256.State.toBytes, Bytes.length_ofNat]

theorem length_ripemd160 (m : Bytes) : (ripemd160 m).length = 20 := by
  simp [ripemd160, Ripemd160.State.toBytes, Bytes.length_ofNatLittle]

theorem length_keccak256 (m : Bytes) : (keccak256 m).length = 32 := by
  simp [keccak256, List.length_flatMap, Bytes.length_ofNatLittle]

end Digest

end MessagingIdentity

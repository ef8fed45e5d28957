import MessagingIdentity.Aes.Cipher
import Mathlib.Data.Finite.Prod
import Mathlib.Data.Fintype.EquivFin

namespace MessagingIdentity.Aes

theorem lookup_box :
    box.toList.map (fun c ↦ inverseBox.toList[c.toNat]?) =
      (List.range 256).map fun n ↦ some n.toUInt8 := by
  decide +kernel

theorem restore_substitute (b : UInt8) : restore (substitute b) = b := by
  have hentry : (box[b.toNat]?).map (fun c ↦ inverseBox[c.toNat]?) = some (some b) := by
    have := congrArg (·[b.toNat]?) lookup_box
    simpa [List.getElem?_range b.toNat_lt] using this
  obtain ⟨c, hc, hb⟩ := Option.map_eq_some_iff.mp hentry
  rw [substitute, Array.getD_eq_getD_getElem?, hc, Option.getD_some, restore,
    Array.getD_eq_getD_getElem?, hb, Option.getD_some]

theorem lt_iff_msb (b : UInt8) : b < 128 ↔ b.toBitVec.msb = false := by
  rw [BitVec.msb_eq_decide, UInt8.lt_iff_toNat_lt]
  simp

theorem double_xor (a b : UInt8) : double (a ^^^ b) = double a ^^^ double b := by
  have hreduce : (if a ^^^ b < 128 then 0 else 0x1b : UInt8) =
      (if a < 128 then 0 else 0x1b) ^^^ (if b < 128 then 0 else 0x1b) := by
    simp only [lt_iff_msb, UInt8.toBitVec_xor, BitVec.msb_xor]
    cases a.toBitVec.msb <;> cases b.toBitVec.msb <;> rfl
  rw [double, hreduce, UInt8.shiftLeft_xor, double, double]
  ac_rfl

theorem times_xor (cs : List Bool) (a b : UInt8) : times cs (a ^^^ b) = times cs a ^^^ times cs b := by
  induction cs generalizing a b with
  | nil => simp [times]
  | cons c cs ih =>
    rw [times, double_xor, ih, times, times]
    cases c
    · simp
    · simp only [if_true]
      ac_rfl

theorem cell_congr (s : Block) {r r' c c' : ℕ} (hr : r % 4 = r' % 4) (hc : c % 4 = c' % 4) :
    cell s r c = cell s r' c' := by
  simp only [cell, hr, hc]

theorem ext_cell {s t : Block} (h : ∀ r c, cell s r c = cell t r c) : s = t := by
  refine Vector.ext fun i hi ↦ ?_
  have hindex : i % 4 + 4 * (i / 4 % 4) = i := by omega
  simpa only [cell, hindex] using h i (i / 4)

theorem cell_ofFn (f : ℕ → UInt8) (r c : ℕ) :
    cell (Vector.ofFn fun i ↦ f i.val) r c = f (r % 4 + 4 * (c % 4)) := by
  simp [cell]

theorem place_mod (r c : ℕ) : (r % 4 + 4 * (c % 4)) % 4 = r % 4 := by omega

theorem place_div (r c : ℕ) : (r % 4 + 4 * (c % 4)) / 4 = c % 4 := by omega

theorem cell_shiftRows (s : Block) (r c : ℕ) : cell (shiftRows s) r c = cell s r (c + r) := by
  rw [shiftRows, cell_ofFn fun i ↦ cell s i (i / 4 + i % 4), place_mod, place_div]
  exact cell_congr s (place_mod r c) (by omega)

theorem cell_unshiftRows (s : Block) (r c : ℕ) :
    cell (unshiftRows s) r c = cell s r (c + 3 * r) := by
  rw [unshiftRows, cell_ofFn fun i ↦ cell s i (i / 4 + 4 - i % 4), place_mod, place_div]
  exact cell_congr s (place_mod r c) (by omega)

theorem unshiftRows_shiftRows (s : Block) : unshiftRows (shiftRows s) = s := by
  refine ext_cell fun r c ↦ ?_
  rw [cell_unshiftRows, cell_shiftRows]
  exact cell_congr s rfl (by omega)

theorem cell_mulColumns (m0 m1 m2 m3 : List Bool) (s : Block) (r c : ℕ) :
    cell (mulColumns m0 m1 m2 m3 s) r c =
      times m0 (cell s r c) ^^^ times m1 (cell s (r + 1) c) ^^^ times m2 (cell s (r + 2) c) ^^^
        times m3 (cell s (r + 3) c) := by
  have hcell (k : ℕ) : cell s (r % 4 + 4 * (c % 4) + k) (c % 4) = cell s (r + k) c :=
    cell_congr s (by omega) (by omega)
  rw [mulColumns, cell_ofFn fun i ↦ times m0 (cell s i (i / 4)) ^^^
    times m1 (cell s (i + 1) (i / 4)) ^^^ times m2 (cell s (i + 2) (i / 4)) ^^^
    times m3 (cell s (i + 3) (i / 4)), place_div]
  rw [hcell 1, hcell 2, hcell 3, ← Nat.add_zero (r % 4 + 4 * (c % 4)), hcell 0,
    Nat.add_zero]

/-- What a byte contributes to a place of its column when the column is multiplied by both matrices:
the polynomials are those of the first matrix by which it reaches the four places of that row of the
second. -/
def share (m0 m1 m2 m3 : List Bool) (b : UInt8) : UInt8 :=
  times [false, true, true, true] (times m0 b) ^^^ times [true, true, false, true] (times m1 b) ^^^
    times [true, false, true, true] (times m2 b) ^^^ times [true, false, false, true] (times m3 b)

theorem share_xor (m0 m1 m2 m3 : List Bool) (a b : UInt8) :
    share m0 m1 m2 m3 (a ^^^ b) = share m0 m1 m2 m3 a ^^^ share m0 m1 m2 m3 b := by
  simp only [share, times_xor]
  ac_rfl

theorem xor_digits (b : UInt8) : (b.toNat / 16 * 16).toUInt8 ^^^ (b.toNat % 16).toUInt8 = b := by
  have hbytes : (List.range 256).all fun n ↦
      ((n / 16 * 16).toUInt8 ^^^ (n % 16).toUInt8).toNat == n := by decide +kernel
  have hb := List.all_eq_true.mp hbytes b.toNat (List.mem_range.mpr b.toNat_lt)
  exact UInt8.toNat_inj.mp (by simpa using hb)

theorem share_eq {m0 m1 m2 m3 : List Bool} {p : List Bool}
    (h : ∀ d < 16, share m0 m1 m2 m3 (d * 16).toUInt8 = times p (d * 16).toUInt8 ∧
      share m0 m1 m2 m3 d.toUInt8 = times p d.toUInt8) (b : UInt8) :
    share m0 m1 m2 m3 b = times p b := by
  have hhigh := (h (b.toNat / 16) (by have := b.toNat_lt; omega)).1
  have hlow := (h (b.toNat % 16) (by omega)).2
  rw [← xor_digits b, share_xor, times_xor, hhigh, hlow]

theorem share_own : ∀ b, share [false, true] [true] [true] [true, true] b = times [true] b :=
  share_eq (by decide)

theorem share_first : ∀ b, share [true, true] [false, true] [true] [true] b = times [] b :=
  share_eq (by decide)

theorem share_second : ∀ b, share [true] [true, true] [false, true] [true] b = times [] b :=
  share_eq (by decide)

theorem share_third : ∀ b, share [true] [true] [true, true] [false, true] b = times [] b :=
  share_eq (by decide)

theorem unmixColumns_mixColumns (s : Block) : unmixColumns (mixColumns s) = s := by
  refine ext_cell fun r c ↦ ?_
  have hwrap (k : ℕ) : cell s (r + (4 + k)) c = cell s (r + k) c := cell_congr s (by omega) rfl
  have hsum : cell (unmixColumns (mixColumns s)) r c =
      share [false, true] [true] [true] [true, true] (cell s r c) ^^^
        share [true, true] [false, true] [true] [true] (cell s (r + 1) c) ^^^
        share [true] [true, true] [false, true] [true] (cell s (r + 2) c) ^^^
        share [true] [true] [true, true] [false, true] (cell s (r + 3) c) := by
    have h4 := hwrap 0
    have h5 := hwrap 1
    have h6 := hwrap 2
    simp only [Nat.add_zero, Nat.reduceAdd] at h4 h5 h6
    simp only [unmixColumns, mixColumns, cell_mulColumns, times_xor, Nat.add_assoc, Nat.reduceAdd, h4,
      h5, h6, share]
    ac_rfl
  rw [hsum, share_own, share_first, share_second, share_third]
  simp [times]

theorem xor_xor (a b : Block) : xor (xor a b) b = a := by
  refine Vector.ext fun i hi ↦ ?_
  simp only [xor, Vector.getElem_zipWith, UInt8.xor_assoc, UInt8.xor_self, UInt8.xor_zero]

theorem map_restore_substitute (s : Block) : (s.map substitute).map restore = s := by
  refine Vector.ext fun i hi ↦ ?_
  simp [restore_substitute]

theorem unrounds_rounds (ks : List Block) (s : Block) : unrounds ks (rounds ks s) = s := by
  induction ks generalizing s with
  | nil => rfl
  | cons k ks ih =>
    cases ks with
    | nil => rw [rounds, unrounds, xor_xor, unshiftRows_shiftRows, map_restore_substitute]
    | cons k' ks =>
      rw [rounds, unrounds, ih, xor_xor, unmixColumns_mixColumns, unshiftRows_shiftRows,
        map_restore_substitute]
      · exact List.cons_ne_nil k' ks
      · exact List.cons_ne_nil k' ks

theorem decryptBlock_encryptBlock (ks : List Block) (s : Block) :
    decryptBlock ks (encryptBlock ks s) = s := by
  cases ks with
  | nil => rfl
  | cons k ks => rw [encryptBlock, decryptBlock, unrounds_rounds, xor_xor]

instance : Finite Block :=
  Finite.of_injective (fun (s : Block) (i : Fin 16) ↦ s[i.val].toFin) fun _ _ h ↦
    Vector.ext fun i hi ↦ UInt8.toFin_inj.mp (congrFun h ⟨i, hi⟩)

/-- There are finitely many blocks, so what undoes encryption is undone by it. -/
theorem encryptBlock_decryptBlock (ks : List Block) (s : Block) :
    encryptBlock ks (decryptBlock ks s) = s := by
  have hinjective : Function.Injective (encryptBlock ks) :=
    Function.LeftInverse.injective (decryptBlock_encryptBlock ks)
  obtain ⟨t, rfl⟩ := Finite.injective_iff_surjective.mp hinjective s
  rw [decryptBlock_encryptBlock]

end MessagingIdentity.Aes

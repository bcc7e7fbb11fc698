import Mathlib.Data.Nat.Bitwise

/-!
# Bit fields of a machine word

Decoders read a field either by shifting and masking or by slicing.  This file
says that both spellings are the slice `BitVec.extractLsb'`, and that a word is
the concatenation of its slices, so that a layout can be reasoned about field by
field.

* `ushiftRight_and_mask`, `and_mask` — shift-and-mask is a slice.
* `and_mask_eq_zero` — testing reserved bits through a mask tests the slice.
* `and_twoPow_ne_zero` — testing one bit through a mask.
* `signExtend_eq_or`, `signExtend_eq_replicate_append` — sign extension, by
  or-ing in a mask of ones and by repeating the sign bit.
-/

namespace Bits

variable {w : ℕ}

/-- Shifting right by `s` and masking `k` bits reads the slice `[s + k - 1 : s]`. -/
theorem ushiftRight_and_mask (x : BitVec w) (s k : ℕ) (hk : s + k ≤ w) :
    (x >>> s) &&& BitVec.ofNat w (2 ^ k - 1) = (x.extractLsb' s k).setWidth w := by
  have hlt : 2 ^ k - 1 < 2 ^ w := by
    have := Nat.pow_le_pow_right (n := 2) (by decide) (show k ≤ w by omega)
    have := Nat.two_pow_pos k
    omega
  apply BitVec.eq_of_toNat_eq
  rw [BitVec.toNat_and, BitVec.toNat_ushiftRight, BitVec.toNat_ofNat,
    Nat.mod_eq_of_lt hlt, Nat.and_two_pow_sub_one_eq_mod, BitVec.toNat_setWidth,
    BitVec.extractLsb'_toNat]
  refine (Nat.mod_eq_of_lt (lt_of_lt_of_le (Nat.mod_lt _ (Nat.two_pow_pos k)) ?_)).symm
  exact Nat.pow_le_pow_right (by decide) (by omega)

/-- Masking the low `k` bits reads the slice `[k - 1 : 0]`. -/
theorem and_mask (x : BitVec w) (k : ℕ) (hk : k ≤ w) :
    x &&& BitVec.ofNat w (2 ^ k - 1) = (x.extractLsb' 0 k).setWidth w := by
  simpa using ushiftRight_and_mask x 0 k (by omega)

/-- Widening a slice is injective at zero: no bit is lost. -/
theorem setWidth_eq_zero_iff {k : ℕ} (y : BitVec k) (hk : k ≤ w) :
    y.setWidth w = 0#w ↔ y = 0#k := by
  rw [← BitVec.toNat_inj, ← BitVec.toNat_inj, BitVec.toNat_setWidth]
  have hy : y.toNat < 2 ^ w := lt_of_lt_of_le y.isLt (Nat.pow_le_pow_right (by decide) hk)
  simp [Nat.mod_eq_of_lt hy]

/-- Reserved low bits tested through a mask. -/
theorem and_mask_eq_zero (x : BitVec w) (k : ℕ) (hk : k ≤ w) :
    x &&& BitVec.ofNat w (2 ^ k - 1) = 0#w ↔ x.extractLsb' 0 k = 0#k := by
  rw [and_mask x k hk, setWidth_eq_zero_iff _ hk]

/-- Below a clear slice every slice is clear. -/
theorem slice_eq_zero_of_le {x : BitVec w} {n s k : ℕ} (h : x.extractLsb' 0 n = 0#n)
    (hk : s + k ≤ n) : x.extractLsb' s k = 0#k := by
  have hsub : x.extractLsb' s k = (x.extractLsb' 0 n).extractLsb' s k := by grind
  rw [hsub, h]
  simp

/-- Slicing a widened field gives the field back. -/
theorem slice_setWidth {k : ℕ} (y : BitVec k) (hk : k ≤ w) :
    (y.setWidth w).extractLsb' 0 k = y := by
  apply BitVec.eq_of_getLsbD_eq
  intro i hi
  simp [hi, show i < w by omega]

/-! ## Single bits and sign extension -/

/-- One bit, tested through a mask. -/
theorem and_twoPow_ne_zero (x : BitVec w) (i : ℕ) :
    x &&& BitVec.twoPow w i ≠ 0#w ↔ x.getLsbD i = true := by
  rw [BitVec.and_twoPow]
  cases h : x.getLsbD i with
  | false => simp
  | true =>
      have hi : i < w := BitVec.lt_of_getLsbD h
      simp only [if_true, iff_true, ne_eq, ← BitVec.toNat_inj, BitVec.toNat_twoPow_of_lt hi]
      exact (Nat.two_pow_pos i).ne'

variable {k : ℕ}

/-- Sign extension by or-ing in ones, … -/
theorem signExtend_eq_or (y : BitVec k) :
    y.signExtend w =
      if y.msb then (BitVec.allOnes w <<< k) ||| y.setWidth w else y.setWidth w := by
  apply BitVec.eq_of_getLsbD_eq
  intro i hi
  rw [BitVec.getLsbD_signExtend]
  cases y.msb <;> by_cases h : i < k <;> simp [h, hi]
  exact BitVec.getLsbD_of_ge y i (by omega)

/-- … and by repeating the sign bit. -/
theorem signExtend_eq_replicate_append (y : BitVec k) (n : ℕ) :
    y.signExtend (n + k) = (if y.msb then BitVec.allOnes n else 0#n) ++ y := by
  apply BitVec.eq_of_getLsbD_eq
  intro i hi
  rw [BitVec.getLsbD_signExtend, BitVec.getLsbD_append]
  cases y.msb <;> by_cases h : i < k <;> simp [h, hi]
  omega

/-- A sign-extended field shifted by two is laid out as sign, field and zeros. -/
theorem signExtend_shiftLeft_two (y : BitVec k) (n : ℕ) :
    y.signExtend (n + k + 2) <<< 2 = (if y.msb then BitVec.allOnes n else 0#n) ++ y ++ 0#2 := by
  apply BitVec.eq_of_getLsbD_eq
  intro i hi
  rw [BitVec.getLsbD_shiftLeft, BitVec.getLsbD_append, BitVec.getLsbD_append,
    BitVec.getLsbD_signExtend]
  by_cases h2 : i < 2
  · simp [h2]
  · cases y.msb <;> by_cases h : i - 2 < k <;> simp [h2, h, hi]
    all_goals omega

/-- Four times a word is the word shifted by two. -/
theorem four_mul (x : BitVec w) : 4#w * x = x <<< 2 := by
  rw [BitVec.shiftLeft_eq_mul_twoPow, BitVec.mul_comm]
  congr 1
  apply BitVec.eq_of_toNat_eq
  simp [BitVec.toNat_twoPow]

end Bits

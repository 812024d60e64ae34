import Mathlib.Algebra.Ring.Nat
import Mathlib.Tactic.Common

/-!
Bit fields of a machine word. A field is an offset and a width inside the word.
Reading gives the field's value as a word, and a store keeps only the low bits
of the stored value, as a store to a C bit field does. Stores to one field
leave every disjoint field alone.
-/
namespace General

structure BitField (n : ℕ) where
  offset : ℕ
  width : ℕ
  fits : offset + width ≤ n

namespace BitField

variable {n : ℕ}

def mask (f : BitField n) : BitVec n := BitVec.ofNat n (2 ^ f.width - 1)

def get (f : BitField n) (x : BitVec n) : BitVec n := (x >>> f.offset) &&& f.mask

/-- Bits of `v` above the field's width are dropped. -/
def set (f : BitField n) (x v : BitVec n) : BitVec n :=
  (x &&& ~~~(f.mask <<< f.offset)) ||| ((v &&& f.mask) <<< f.offset)

def Disjoint (f g : BitField n) : Prop :=
  f.offset + f.width ≤ g.offset ∨ g.offset + g.width ≤ f.offset

instance (f g : BitField n) : Decidable (f.Disjoint g) :=
  inferInstanceAs (Decidable (_ ∨ _))

theorem getLsbD_mask (f : BitField n) (i : ℕ) : f.mask.getLsbD i = decide (i < f.width) := by
  have hfits := f.fits
  rw [mask, BitVec.getLsbD_ofNat, Nat.testBit_two_pow_sub_one]
  by_cases hi : i < f.width
  · simp [hi, show i < n by omega]
  · simp [hi]

theorem getLsbD_get (f : BitField n) (x : BitVec n) (i : ℕ) :
    (f.get x).getLsbD i = (x.getLsbD (f.offset + i) && decide (i < f.width)) := by
  rw [get, BitVec.getLsbD_and, BitVec.getLsbD_ushiftRight, getLsbD_mask]

theorem get_and (f : BitField n) (x y : BitVec n) : f.get (x &&& y) = f.get x &&& f.get y := by
  apply BitVec.eq_of_getLsbD_eq
  intro i _
  rw [getLsbD_get, BitVec.getLsbD_and, BitVec.getLsbD_and, getLsbD_get, getLsbD_get]
  by_cases hi : i < f.width
  · simp [hi]
  · simp [hi]

/-- Masking the field's bits in place is zero just when the field is. -/
theorem and_shifted_mask_eq_zero_iff (f : BitField n) (x : BitVec n) :
    x &&& (f.mask <<< f.offset) = 0 ↔ f.get x = 0 := by
  have hfits := f.fits
  constructor
  · intro hzero
    apply BitVec.eq_of_getLsbD_eq
    intro i _
    have hbit := congrArg (fun y => BitVec.getLsbD y (f.offset + i)) hzero
    simp only [BitVec.getLsbD_and, BitVec.getLsbD_shiftLeft, getLsbD_mask] at hbit
    rw [getLsbD_get]
    by_cases hi : i < f.width
    · have hin : f.offset + i < n := by omega
      have hnot : ¬ f.offset + i < f.offset := by omega
      simpa [hi, hin, hnot] using hbit
    · simp [hi]
  · intro hzero
    apply BitVec.eq_of_getLsbD_eq
    intro i hi
    have hbit := congrArg (fun y => BitVec.getLsbD y (i - f.offset)) hzero
    simp only [getLsbD_get] at hbit
    rw [BitVec.getLsbD_and, BitVec.getLsbD_shiftLeft, getLsbD_mask]
    by_cases hin : f.offset ≤ i ∧ i - f.offset < f.width
    · rw [show f.offset + (i - f.offset) = i by omega] at hbit
      simpa [hin, hi, show ¬ i < f.offset by omega] using hbit
    · by_cases hlow : i < f.offset
      · simp [hlow]
      · simp [show ¬ i - f.offset < f.width by omega]

theorem getLsbD_set (f : BitField n) (x v : BitVec n) (i : ℕ) :
    (f.set x v).getLsbD i =
      if f.offset ≤ i ∧ i < f.offset + f.width then v.getLsbD (i - f.offset)
      else x.getLsbD i := by
  have hfits := f.fits
  rw [set, BitVec.getLsbD_or, BitVec.getLsbD_and, BitVec.getLsbD_not,
    BitVec.getLsbD_shiftLeft, BitVec.getLsbD_shiftLeft, BitVec.getLsbD_and,
    getLsbD_mask]
  by_cases hin : f.offset ≤ i ∧ i < f.offset + f.width
  · have hlow : i - f.offset < f.width := by omega
    simp [hin, hlow, show i < n by omega, show ¬ i < f.offset by omega]
  · rw [if_neg hin]
    by_cases hn : i < n
    · by_cases hlow : i < f.offset
      · simp [hn, hlow]
      · have hhigh : ¬ i - f.offset < f.width := by omega
        simp [hn, hhigh]
    · simp [hn, BitVec.getLsbD_of_ge x i (by omega)]

theorem get_set_self (f : BitField n) (x v : BitVec n) :
    f.get (f.set x v) = v &&& f.mask := by
  apply BitVec.eq_of_getLsbD_eq
  intro i _
  rw [getLsbD_get, getLsbD_set, BitVec.getLsbD_and, getLsbD_mask]
  by_cases hi : i < f.width
  · simp [hi]
  · simp [hi]

theorem get_set_of_disjoint {f g : BitField n} (h : f.Disjoint g) (x v : BitVec n) :
    f.get (g.set x v) = f.get x := by
  apply BitVec.eq_of_getLsbD_eq
  intro i _
  rw [getLsbD_get, getLsbD_get, getLsbD_set]
  by_cases hi : i < f.width
  · have hout : ¬ (g.offset ≤ f.offset + i ∧ f.offset + i < g.offset + g.width) := by
      rcases h with h | h <;> omega
    rw [if_neg hout]
  · simp [hi]

theorem toNat_mask (f : BitField n) : f.mask.toNat = 2 ^ f.width - 1 := by
  have hfits := f.fits
  have hle : 2 ^ f.width ≤ 2 ^ n := Nat.pow_le_pow_right (by decide) (by omega)
  have hpos : 0 < 2 ^ f.width := Nat.two_pow_pos _
  rw [mask, BitVec.toNat_ofNat, Nat.mod_eq_of_lt (by omega)]

theorem toNat_get (f : BitField n) (x : BitVec n) :
    (f.get x).toNat = x.toNat / 2 ^ f.offset % 2 ^ f.width := by
  rw [get, BitVec.toNat_and, toNat_mask, Nat.and_two_pow_sub_one_eq_mod,
    BitVec.toNat_ushiftRight, Nat.shiftRight_eq_div_pow]

theorem toNat_get_lt (f : BitField n) (x : BitVec n) : (f.get x).toNat < 2 ^ f.width := by
  rw [toNat_get]
  exact Nat.mod_lt _ (Nat.two_pow_pos _)

theorem toNat_get_set_self (f : BitField n) (x v : BitVec n) :
    (f.get (f.set x v)).toNat = v.toNat % 2 ^ f.width := by
  rw [get_set_self, BitVec.toNat_and, toNat_mask, Nat.and_two_pow_sub_one_eq_mod]

/-- A value that fits the field is read back as it was stored. -/
theorem get_set_of_lt (f : BitField n) (x v : BitVec n) (hv : v.toNat < 2 ^ f.width) :
    f.get (f.set x v) = v := by
  apply BitVec.eq_of_toNat_eq
  rw [toNat_get_set_self, Nat.mod_eq_of_lt hv]

@[simp] theorem get_zero (f : BitField n) : f.get 0 = 0 := by
  apply BitVec.eq_of_getLsbD_eq
  intro i _
  rw [getLsbD_get]
  simp

/-- A one-bit field reads 0 or 1. -/
theorem get_eq_zero_or_one (f : BitField n) (hf : f.width = 1) (x : BitVec n) :
    f.get x = 0 ∨ f.get x = 1 := by
  have hlt := f.toNat_get_lt x
  have hfits := f.fits
  rw [hf] at hlt
  have hcases : (f.get x).toNat = 0 ∨ (f.get x).toNat = 1 := by omega
  rcases hcases with h | h
  · exact Or.inl (BitVec.eq_of_toNat_eq (by simpa using h))
  · refine Or.inr (BitVec.eq_of_toNat_eq ?_)
    have hone : 1 < 2 ^ n := Nat.one_lt_two_pow (by omega)
    rw [h]
    simp [Nat.mod_eq_of_lt hone]

end BitField

end General

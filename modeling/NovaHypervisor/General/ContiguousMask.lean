import Mathlib.Data.Nat.Bitwise
import Mathlib.Tactic.Common

/-!
Masks that are contiguous up to a width. Two numbers that agree under such a mask lie in
the same aligned block, whose size is the lowest bit of the mask.
-/
namespace General

/-- The bits from `k` up to `width`. -/
def contiguousMask (width k : ℕ) : ℕ := 2 ^ width - 2 ^ k

variable {width k : ℕ}

theorem contiguousMask_eq_shiftLeft (hk : k ≤ width) :
    contiguousMask width k = (2 ^ (width - k) - 1) <<< k := by
  rw [contiguousMask, Nat.shiftLeft_eq, Nat.sub_mul, ← Nat.pow_add, Nat.sub_add_cancel hk,
    Nat.one_mul]

theorem testBit_contiguousMask (hk : k ≤ width) (i : ℕ) :
    (contiguousMask width k).testBit i = decide (k ≤ i ∧ i < width) := by
  rw [contiguousMask_eq_shiftLeft hk, Nat.testBit_shiftLeft, Nat.testBit_two_pow_sub_one]
  by_cases hi : k ≤ i
  · simp only [hi, decide_true, Bool.true_and, true_and, decide_eq_decide]
    omega
  · simp [hi]

/-- Masking rounds down to a multiple of the block size. -/
theorem and_contiguousMask (hk : k ≤ width) {x : ℕ} (hx : x < 2 ^ width) :
    x &&& contiguousMask width k = x / 2 ^ k * 2 ^ k := by
  have hhigh : x / 2 ^ k < 2 ^ (width - k) := by
    rw [Nat.div_lt_iff_lt_mul (Nat.two_pow_pos k), ← Nat.pow_add, Nat.sub_add_cancel hk]
    exact hx
  have hsplit : x &&& contiguousMask width k =
      (x >>> k &&& (2 ^ (width - k) - 1)) <<< k := by
    apply Nat.eq_of_testBit_eq
    intro i
    rw [contiguousMask_eq_shiftLeft hk, Nat.testBit_and, Nat.testBit_shiftLeft,
      Nat.testBit_shiftLeft, Nat.testBit_and, Nat.testBit_shiftRight]
    by_cases hi : k ≤ i
    · simp [hi, show k + (i - k) = i by omega]
    · simp [hi]
  rw [hsplit, Nat.and_two_pow_sub_one_eq_mod, Nat.shiftRight_eq_div_pow, Nat.shiftLeft_eq,
    Nat.mod_eq_of_lt hhigh]

/-- Agreeing with an aligned base under the mask is lying in the block of the base. -/
theorem and_contiguousMask_eq_iff (hk : k ≤ width) {x base : ℕ} (hx : x < 2 ^ width)
    (hbase : base < 2 ^ width) (haligned : base % 2 ^ k = 0) :
    x &&& contiguousMask width k = base &&& contiguousMask width k ↔
      base ≤ x ∧ x < base + 2 ^ k := by
  have hround : base / 2 ^ k * 2 ^ k = base := Nat.div_mul_cancel (Nat.dvd_of_mod_eq_zero haligned)
  have hpos := Nat.two_pow_pos k
  have hdiv := Nat.div_add_mod' x (2 ^ k)
  have hmod := Nat.mod_lt x hpos
  rw [and_contiguousMask hk hx, and_contiguousMask hk hbase, hround]
  constructor
  · intro heq
    omega
  · intro hblock
    obtain ⟨hle, hlt⟩ := hblock
    have hquot : x / 2 ^ k = base / 2 ^ k := by
      refine Nat.div_eq_of_lt_le ?_ ?_
      · rw [hround]
        exact hle
      · rw [Nat.add_mul, Nat.one_mul, hround]
        exact hlt
    rw [hquot, hround]

end General

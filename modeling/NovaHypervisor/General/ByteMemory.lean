import Mathlib.Data.BitVec
import Mathlib.Tactic.Common

/-!
A byte-addressed memory of 2^64 bytes whose addresses wrap. A value of n bytes is read
and written in little-endian order, and a list of words lies at consecutive addresses,
as a stack holds what was pushed.
-/
namespace General

abbrev ByteMemory := BitVec 64 → BitVec 8

/-- The address is one of the `n` bytes from `a`. -/
def InRange (a : BitVec 64) (n : ℕ) (x : BitVec 64) : Prop := (x - a).toNat < n

instance (a : BitVec 64) (n : ℕ) (x : BitVec 64) : Decidable (InRange a n x) :=
  inferInstanceAs (Decidable (_ < _))

/-- A part of a range. -/
theorem InRange.mono {a b : BitVec 64} {n k : ℕ} (h : (b - a).toNat + k ≤ n) {x : BitVec 64}
    (hx : InRange b k x) : InRange a n x := by
  simp only [InRange] at hx ⊢
  have hsum : x - a = (x - b) + (b - a) := (sub_add_sub_cancel x b a).symm
  rw [hsum, BitVec.toNat_add]
  exact Nat.lt_of_le_of_lt (Nat.mod_le _ _) (by omega)

def Apart (a : BitVec 64) (n : ℕ) (b : BitVec 64) (k : ℕ) : Prop :=
  ∀ x, InRange a n x → ¬ InRange b k x

namespace ByteMemory

def read (m : ByteMemory) (a : BitVec 64) : (n : ℕ) → BitVec (8 * n)
  | 0 => 0#0
  | n + 1 => (m (a + BitVec.ofNat 64 n) ++ m.read a n).cast (Nat.add_comm 8 (8 * n))

def write {n : ℕ} (m : ByteMemory) (a : BitVec 64) (v : BitVec (8 * n)) : ByteMemory :=
  fun x => if InRange a n x then v.extractLsb' (8 * (x - a).toNat) 8 else m x

theorem write_apply_of_not {n : ℕ} (m : ByteMemory) {a : BitVec 64} (v : BitVec (8 * n))
    {x : BitVec 64} (h : ¬ InRange a n x) : m.write a v x = m x := if_neg h

theorem inRange_add {a : BitVec 64} {n i : ℕ} (hi : i < n) (hn : n ≤ 2 ^ 64) :
    InRange a n (a + BitVec.ofNat 64 i) := by
  have hsub : a + BitVec.ofNat 64 i - a = BitVec.ofNat 64 i := by
    rw [BitVec.add_comm, BitVec.add_sub_cancel]
  rw [InRange, hsub, BitVec.toNat_ofNat, Nat.mod_eq_of_lt (by omega)]
  exact hi

theorem getLsbD_read (m : ByteMemory) (a : BitVec 64) {n i : ℕ} (hi : i < 8 * n) :
    (m.read a n).getLsbD i = (m (a + BitVec.ofNat 64 (i / 8))).getLsbD (i % 8) := by
  induction n with
  | zero => omega
  | succ n ih =>
    rw [read, BitVec.getLsbD_cast, BitVec.getLsbD_append]
    by_cases hlow : i < 8 * n
    · rw [if_pos hlow, ih hlow]
    · have hbyte : i / 8 = n := by omega
      have hbit : i - 8 * n = i % 8 := by omega
      rw [if_neg hlow, hbyte, hbit]

/-- A part of what is read. -/
theorem read_part (m : ByteMemory) (a : BitVec 64) {n k N : ℕ} (h : k + n ≤ N) :
    m.read (a + BitVec.ofNat 64 k) n = (m.read a N).extractLsb' (8 * k) (8 * n) := by
  apply BitVec.eq_of_getLsbD_eq
  intro i hi
  have hdiv : (8 * k + i) / 8 = k + i / 8 := by omega
  have hmod : (8 * k + i) % 8 = i % 8 := by omega
  rw [getLsbD_read _ _ hi, BitVec.getLsbD_extractLsb', decide_eq_true hi, Bool.true_and,
    getLsbD_read m a (by omega), hdiv, hmod, BitVec.ofNat_add, BitVec.add_assoc]

theorem read_one (m : ByteMemory) (a : BitVec 64) : m.read a 1 = m a := by
  apply BitVec.eq_of_getLsbD_eq
  intro i hi
  have hdiv : i / 8 = 0 := Nat.div_eq_of_lt hi
  rw [getLsbD_read m a hi, hdiv, Nat.mod_eq_of_lt hi]
  simp

/-- A read depends on the bytes of its range only. -/
theorem read_congr {m m' : ByteMemory} {a : BitVec 64} {n : ℕ} (hn : n ≤ 2 ^ 64)
    (h : ∀ x, InRange a n x → m x = m' x) : m.read a n = m'.read a n := by
  apply BitVec.eq_of_getLsbD_eq
  intro i hi
  have hbyte : i / 8 < n := Nat.div_lt_of_lt_mul hi
  rw [getLsbD_read m a hi, getLsbD_read m' a hi, h _ (inRange_add hbyte hn)]

theorem read_write_self {m : ByteMemory} {a : BitVec 64} {n : ℕ} (hn : n ≤ 2 ^ 64)
    (v : BitVec (8 * n)) : (m.write a v).read a n = v := by
  apply BitVec.eq_of_getLsbD_eq
  intro i hi
  have hbyte : i / 8 < n := Nat.div_lt_of_lt_mul hi
  have hsub : a + BitVec.ofNat 64 (i / 8) - a = BitVec.ofNat 64 (i / 8) := by
    rw [BitVec.add_comm, BitVec.add_sub_cancel]
  have hoffset : (BitVec.ofNat 64 (i / 8)).toNat = i / 8 := by
    rw [BitVec.toNat_ofNat, Nat.mod_eq_of_lt (by omega)]
  have hbit : i % 8 < 8 := Nat.mod_lt i (by decide)
  rw [getLsbD_read _ a hi, write, if_pos (inRange_add hbyte hn), hsub, hoffset,
    BitVec.getLsbD_extractLsb', decide_eq_true hbit, Bool.true_and, Nat.div_add_mod]

theorem read_write_of_apart {m : ByteMemory} {a b : BitVec 64} {n k : ℕ} (hk : k ≤ 2 ^ 64)
    (v : BitVec (8 * n)) (h : Apart b k a n) : (m.write a v).read b k = m.read b k :=
  read_congr hk fun x hx => write_apply_of_not m v (h x hx)

/-- Reading a memory that is moved. -/
theorem read_shift (m : ByteMemory) (a b : BitVec 64) (n : ℕ) :
    read (fun x => m (a + x)) b n = m.read (a + b) n := by
  induction n with
  | zero => rfl
  | succ n ih => rw [read, read, ih, BitVec.add_assoc]

/-- The words lie at consecutive addresses from `a`. -/
def Holds (m : ByteMemory) : BitVec 64 → List (BitVec 64) → Prop
  | _, [] => True
  | a, w :: ws => m.read a 8 = w ∧ m.Holds (a + 8) ws

theorem holds_nil (m : ByteMemory) (a : BitVec 64) : m.Holds a [] := trivial

theorem Holds.congr {m m' : ByteMemory} {a : BitVec 64} {ws : List (BitVec 64)}
    (h : m.Holds a ws) (hlen : 8 * ws.length ≤ 2 ^ 64)
    (heq : ∀ x, InRange a (8 * ws.length) x → m' x = m x) : m'.Holds a ws := by
  induction ws generalizing a with
  | nil => trivial
  | cons w ws ih =>
    simp only [List.length_cons] at hlen heq
    refine ⟨?_, ih h.2 (by omega) ?_⟩
    · rw [← h.1]
      apply read_congr (by omega)
      intro x hx
      apply heq
      simp only [InRange] at hx ⊢
      omega
    · intro x hx
      apply heq
      simp only [InRange] at hx ⊢
      bv_omega

/-- Writing a word below what a stack holds pushes it. -/
theorem Holds.push {m : ByteMemory} {a : BitVec 64} {ws : List (BitVec 64)}
    (h : m.Holds a ws) (hlen : 8 * (ws.length + 1) ≤ 2 ^ 64) (w : BitVec 64) :
    (m.write (n := 8) (a - 8) w).Holds (a - 8) (w :: ws) := by
  refine ⟨read_write_self (by decide) _, ?_⟩
  have haddr : a - 8 + 8 = a := BitVec.sub_add_cancel a 8
  rw [haddr]
  refine h.congr (by omega) ?_
  intro x hx
  apply write_apply_of_not
  simp only [InRange] at hx ⊢
  bv_omega

/-- The words that lie at consecutive addresses from `a`. -/
def words (m : ByteMemory) : BitVec 64 → ℕ → List (BitVec 64)
  | _, 0 => []
  | a, n + 1 => m.read a 8 :: m.words (a + 8) n

@[simp] theorem length_words (m : ByteMemory) (a : BitVec 64) (n : ℕ) :
    (m.words a n).length = n := by
  induction n generalizing a with
  | zero => rfl
  | succ n ih => rw [words, List.length_cons, ih]

theorem holds_words (m : ByteMemory) (a : BitVec 64) (n : ℕ) : m.Holds a (m.words a n) := by
  induction n generalizing a with
  | zero => trivial
  | succ n ih => exact ⟨rfl, ih (a + 8)⟩

/-- What a stack holds is what its words are. -/
theorem Holds.words_append {m : ByteMemory} {a : BitVec 64} {ws vs : List (BitVec 64)}
    (h : m.Holds a (ws ++ vs)) : m.words a ws.length = ws := by
  induction ws generalizing a with
  | nil => rfl
  | cons w ws ih =>
    rw [List.length_cons, words, h.1, ih h.2]

/-- Above the first words of a stack lie the others. -/
theorem Holds.append_right {m : ByteMemory} {a : BitVec 64} {ws vs : List (BitVec 64)}
    (h : m.Holds a (ws ++ vs)) : m.Holds (a + BitVec.ofNat 64 (8 * ws.length)) vs := by
  induction ws generalizing a with
  | nil => simpa using h
  | cons w ws ih =>
    have hsum : a + 8 + BitVec.ofNat 64 (8 * ws.length) =
        a + BitVec.ofNat 64 (8 * (w :: ws).length) := by
      rw [List.length_cons]
      bv_omega
    rw [← hsum]
    exact ih h.2

theorem words_congr {m m' : ByteMemory} {a : BitVec 64} {n : ℕ} (hn : 8 * n ≤ 2 ^ 64)
    (h : ∀ x, InRange a (8 * n) x → m' x = m x) : m'.words a n = m.words a n := by
  have hholds : m'.Holds a (m.words a n) := by
    refine (holds_words m a n).congr ?_ ?_
    · rw [length_words]
      exact hn
    · rw [length_words]
      exact h
  have hwords := Holds.words_append
    (show m'.Holds a (m.words a n ++ []) by rwa [List.append_nil])
  rwa [length_words] at hwords

/-- Writing one of the words replaces it. -/
theorem words_write {m : ByteMemory} {a : BitVec 64} {n i : ℕ} (hi : i < n)
    (hn : 8 * n ≤ 2 ^ 64) (w : BitVec 64) :
    (m.write (n := 8) (a + BitVec.ofNat 64 (8 * i)) w).words a n = (m.words a n).set i w := by
  induction n generalizing a i with
  | zero => omega
  | succ n ih =>
    cases i with
    | zero =>
      have haddr : a + BitVec.ofNat 64 (8 * 0) = a := by simp
      have htail : (m.write (n := 8) a w).words (a + 8) n = m.words (a + 8) n := by
        apply words_congr (by omega)
        intro x hx
        apply write_apply_of_not
        simp only [InRange] at hx ⊢
        bv_omega
      rw [haddr, words, words, List.set_cons_zero, htail, read_write_self (by decide)]
    | succ i =>
      have haddr : a + BitVec.ofNat 64 (8 * (i + 1)) = a + 8 + BitVec.ofNat 64 (8 * i) := by
        bv_omega
      have hhead : (m.write (n := 8) (a + BitVec.ofNat 64 (8 * (i + 1))) w).read a 8 =
          m.read a 8 := by
        apply read_write_of_apart (by decide)
        intro x hx hin
        simp only [InRange] at hx hin
        bv_omega
      rw [words, words, List.set_cons_succ, hhead, haddr, ih (by omega) (by omega)]

end ByteMemory

end General

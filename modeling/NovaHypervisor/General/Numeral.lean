import Mathlib.Data.Nat.Digits.Lemmas

/-!
Numerals with the most significant digit first: the value that a reader of the digits
computes, and the numeral of a number.
-/
namespace General

variable {α : Type*}

/-- The value of a run of symbols, each of which stands for a digit. -/
def numeralValue (base : ℕ) (digit : α → ℕ) (text : List α) : ℕ :=
  text.foldl (fun total c => total * base + digit c) 0

/-- The digits of a number, as symbols. -/
def numeral (base : ℕ) (symbol : ℕ → α) (n : ℕ) : List α :=
  (Nat.digits base n).reverse.map symbol

theorem numeralValue_eq_ofDigits (base : ℕ) (digit : α → ℕ) (text : List α) :
    numeralValue base digit text = Nat.ofDigits base (text.map digit).reverse := by
  rw [numeralValue, Nat.ofDigits_eq_foldr, ← List.map_reverse, List.foldr_map,
    List.foldl_eq_foldr_reverse]
  simp only [Nat.cast_id, Nat.mul_comm, Nat.add_comm]

theorem numeralValue_eq_zero_iff {base : ℕ} (hbase : base ≠ 0) (digit : α → ℕ)
    (text : List α) : numeralValue base digit text = 0 ↔ ∀ c ∈ text, digit c = 0 := by
  rw [numeralValue_eq_ofDigits]
  constructor
  · intro h c hc
    apply Nat.digits_zero_of_eq_zero hbase h
    exact List.mem_reverse.mpr (List.mem_map_of_mem hc)
  · intro h
    have hzeros : (text.map digit).reverse = List.replicate text.length 0 := by
      rw [List.map_congr_left (g := fun _ => 0) h, List.map_const', List.reverse_replicate]
    rw [hzeros, Nat.ofDigits_replicate_zero]

/-- Symbols that are read back as digits keep the value of the digits. -/
theorem numeralValue_symbols {base : ℕ} (digit : α → ℕ) (symbol : ℕ → α)
    (hsymbol : ∀ d < base, digit (symbol d) = d) {digits : List ℕ}
    (hdigits : ∀ d ∈ digits, d < base) :
    numeralValue base digit (digits.reverse.map symbol) = Nat.ofDigits base digits := by
  have hread : (digits.reverse.map symbol).map digit = digits.reverse := by
    rw [List.map_map, List.map_congr_left (g := id), List.map_id]
    intro d hd
    exact hsymbol d (hdigits d (List.mem_reverse.mp hd))
  rw [numeralValue_eq_ofDigits, hread, List.reverse_reverse]

theorem numeralValue_numeral {base : ℕ} (hbase : 1 < base) (digit : α → ℕ) (symbol : ℕ → α)
    (hsymbol : ∀ d < base, digit (symbol d) = d) (n : ℕ) :
    numeralValue base digit (numeral base symbol n) = n := by
  rw [numeral, numeralValue_symbols digit symbol hsymbol, Nat.ofDigits_digits]
  intro d hd
  exact Nat.digits_lt_base hbase hd

theorem numeral_ne_nil (base : ℕ) (symbol : ℕ → α) {n : ℕ} (h : n ≠ 0) :
    numeral base symbol n ≠ [] := by
  rw [numeral, Ne, List.map_eq_nil_iff, List.reverse_eq_nil_iff]
  exact Nat.digits_ne_nil_iff_ne_zero.mpr h

/-- The symbols of a numeral stand for digits. -/
theorem exists_of_mem_numeral {base : ℕ} (hbase : 1 < base) {symbol : ℕ → α} {n : ℕ} {c : α}
    (h : c ∈ numeral base symbol n) : ∃ d < base, c = symbol d := by
  obtain ⟨d, hd, rfl⟩ := List.mem_map.mp h
  exact ⟨d, Nat.digits_lt_base hbase (List.mem_reverse.mp hd), rfl⟩

/-- A numeral does not begin with the symbol of zero. -/
theorem head?_numeral {base : ℕ} (hbase : 1 < base) (symbol : ℕ → α) {n : ℕ} (h : n ≠ 0) :
    ∃ d < base, d ≠ 0 ∧ (numeral base symbol n).head? = some (symbol d) := by
  have hdigits : Nat.digits base n ≠ [] := Nat.digits_ne_nil_iff_ne_zero.mpr h
  refine ⟨(Nat.digits base n).getLast hdigits, ?_, Nat.getLast_digit_ne_zero base h, ?_⟩
  · exact Nat.digits_lt_base hbase (List.getLast_mem hdigits)
  · rw [numeral, List.head?_map, List.head?_reverse, List.getLast?_eq_some_getLast hdigits]
    rfl

/-- A numeral that has lost its first symbols stands for a remainder. -/
theorem numeralValue_take_digits {base : ℕ} (hbase : 1 < base) (digit : α → ℕ)
    (symbol : ℕ → α) (hsymbol : ∀ d < base, digit (symbol d) = d) (n k : ℕ) :
    numeralValue base digit (((Nat.digits base n).take k).reverse.map symbol) =
      n % base ^ k := by
  rw [numeralValue_symbols digit symbol hsymbol, ← Nat.self_mod_pow_eq_ofDigits_take k n hbase]
  intro d hd
  exact Nat.digits_lt_base hbase (List.mem_of_mem_take hd)

end General

import NovaHypervisor.Definitions
import NovaHypervisor.General.Numeral
import Mathlib.Data.List.TakeWhile
import Mathlib.Tactic.IntervalCases

/-!
The client's reading of an address: `atoi` first, and where that gives zero a stream in
hexadecimal. The range of an `int` ends the decimal half, and neither parser looks at what
follows the digits that it reads.
-/
namespace NovaHypervisor

open General

namespace Client

/-- `isspace` in the C locale. -/
def isBlank (c : Char) : Bool := c = ' ' || (9 ≤ c.toNat && c.toNat ≤ 13)

def isHexDigit (c : Char) : Bool :=
  c.isDigit || ('a' ≤ c && c ≤ 'f') || ('A' ≤ c && c ≤ 'F')

def digitValue (c : Char) : ℕ :=
  if c.isDigit then c.toNat - 48 else if 'a' ≤ c then c.toNat - 87 else c.toNat - 55

/-- An optional sign: whether it is a minus, and what follows it. -/
def readSign : List Char → Bool × List Char
  | '-' :: rest => (true, rest)
  | '+' :: rest => (false, rest)
  | rest => (false, rest)

/-- The longest run of digits after the blanks and the sign. -/
def leadingDigits (text : List Char) : List Char :=
  (readSign (text.dropWhile isBlank)).2.takeWhile Char.isDigit

def atoi (text : List Char) : ℤ :=
  let magnitude := numeralValue 10 digitValue (leadingDigits text)
  if (readSign (text.dropWhile isBlank)).1 then max (-2 ^ 31) (-(magnitude : ℤ))
  else min (2 ^ 31 - 1) (magnitude : ℤ)

def skipHexPrefix : List Char → List Char
  | '0' :: 'x' :: rest => rest
  | '0' :: 'X' :: rest => rest
  | rest => rest

/-- The extraction of a `UINT64` from a stream with `std::hex`. Where it fails, it leaves
zero or the largest value and sets the fail state of the stream. -/
def extractHex (text : List Char) : Word :=
  let sign := readSign (text.dropWhile isBlank)
  let magnitude := numeralValue 16 digitValue ((skipHexPrefix sign.2).takeWhile isHexDigit)
  if 2 ^ 64 ≤ magnitude then BitVec.allOnes 64
  else if sign.1 then -BitVec.ofNat 64 magnitude
  else BitVec.ofNat 64 magnitude

def hasHexPrefix (address : List Char) : Bool :=
  "0x".toList.isPrefixOf address || "0X".toList.isPrefixOf address

def getAddress (address : List Char) : Except String Word :=
  let result := BitVec.ofInt 64 (atoi address)
  if result ≠ 0 then .ok result
  else if ¬hasHexPrefix address then .error "Invalid address format"
  else .ok (extractHex address)

/-- A decimal numeral of `n`, with leading zeros or without. -/
def DecimalText (text : List Char) (n : ℕ) : Prop :=
  text ≠ [] ∧ (∀ c ∈ text, c.isDigit) ∧ numeralValue 10 digitValue text = n

/-- A hexadecimal numeral of `n` behind `0x` or `0X`, with digits of either case. -/
def HexText (text : List Char) (n : ℕ) : Prop :=
  ∃ x digits, (x = 'x' ∨ x = 'X') ∧ text = '0' :: x :: digits ∧ digits ≠ [] ∧
    (∀ c ∈ digits, isHexDigit c) ∧ numeralValue 16 digitValue digits = n

/-- The address of a numeral is its value, and what is no numeral is rejected. -/
def AddressParsed (text : List Char) : Prop :=
  (∀ n, 0 < n → n < 2 ^ 64 → DecimalText text n → getAddress text = .ok (BitVec.ofNat 64 n)) ∧
  (∀ n, 0 < n → n < 2 ^ 64 → HexText text n → getAddress text = .ok (BitVec.ofNat 64 n)) ∧
  ((∀ n, ¬DecimalText text n) → (∀ n, ¬HexText text n) →
    ∃ message, getAddress text = .error message)

theorem digitValue_digitChar {d : ℕ} (h : d < 16) : digitValue d.digitChar = d := by
  interval_cases d <;> decide

/-- The text of a number in base ten. -/
theorem decimalText_numeral {n : ℕ} (h : n ≠ 0) :
    DecimalText (numeral 10 Nat.digitChar n) n := by
  refine ⟨numeral_ne_nil 10 _ h, ?_, ?_⟩
  · intro c hc
    obtain ⟨d, hd, rfl⟩ := exists_of_mem_numeral (by decide) hc
    simpa using hd
  · apply numeralValue_numeral (by decide)
    intro d hd
    exact digitValue_digitChar (by omega)

/-- The text of a number in base sixteen, with either prefix. -/
theorem hexText_numeral {n : ℕ} (h : n ≠ 0) {x : Char} (hx : x = 'x' ∨ x = 'X') :
    HexText ('0' :: x :: numeral 16 Nat.digitChar n) n := by
  refine ⟨x, _, hx, rfl, numeral_ne_nil 16 _ h, ?_, ?_⟩
  · intro c hc
    obtain ⟨d, hd, rfl⟩ := exists_of_mem_numeral (by decide) hc
    interval_cases d <;> decide
  · apply numeralValue_numeral (by decide)
    intro d hd
    exact digitValue_digitChar hd

theorem digitValue_eq_zero_iff {c : Char} (h : c.isDigit) : digitValue c = 0 ↔ c = '0' := by
  have hle : 48 ≤ c.toNat := (Char.isDigit_iff_toNat.mp h).1
  rw [digitValue, if_pos h]
  constructor
  · intro hzero
    apply Char.toNat_inj.mp
    change c.toNat = 48
    omega
  · rintro rfl
    rfl

/-- The first parser finds zero exactly if it reads no digit other than zero. -/
theorem atoi_eq_zero_iff (text : List Char) :
    atoi text = 0 ↔ ∀ c ∈ leadingDigits text, c = '0' := by
  have hzero : numeralValue 10 digitValue (leadingDigits text) = 0 ↔
      ∀ c ∈ leadingDigits text, c = '0' := by
    rw [numeralValue_eq_zero_iff (by decide)]
    apply forall₂_congr
    intro c hc
    exact digitValue_eq_zero_iff (List.mem_takeWhile_imp hc)
  rw [← hzero]
  simp only [atoi]
  split_ifs
  · omega
  · omega

theorem atoi_bounds (text : List Char) : -2 ^ 31 ≤ atoi text ∧ atoi text < 2 ^ 31 := by
  simp only [atoi]
  split_ifs
  · omega
  · omega

/-- The conversion of an `int` keeps what is not zero. -/
theorem ofInt_atoi_eq_zero_iff (text : List Char) :
    BitVec.ofInt 64 (atoi text) = 0 ↔ atoi text = 0 := by
  have hbounds := atoi_bounds text
  constructor
  · intro h
    have := congrArg BitVec.toInt h
    rw [BitVec.toInt_ofInt, Int.bmod_eq_of_le (by omega) (by omega)] at this
    exact this
  · intro h
    rw [h]
    rfl

/-- A text is rejected if the first parser reads zero and no hexadecimal prefix stands at
its start. -/
theorem getAddress_error_iff (text : List Char) :
    (∃ message, getAddress text = .error message) ↔
      (∀ c ∈ leadingDigits text, c = '0') ∧ ¬hasHexPrefix text := by
  rw [← atoi_eq_zero_iff, ← ofInt_atoi_eq_zero_iff]
  simp only [getAddress, ne_eq, ite_not]
  split_ifs with hzero hstarts
  · simp [hzero, hstarts]
  · simp [hzero, hstarts]
  · simp only [exists_false, false_iff, not_and]
    exact fun h => absurd h hzero

theorem readSign_of_isDigit {c : Char} (hc : c.isDigit) (rest : List Char) :
    readSign (c :: rest) = (false, c :: rest) := by
  unfold readSign
  split
  · exact absurd hc (by simp_all)
  · exact absurd hc (by simp_all)
  · rfl

/-- A digit is neither a blank nor a sign. -/
theorem leadingDigits_of_digits {text : List Char} (h : ∀ c ∈ text, c.isDigit) :
    leadingDigits text = text ∧ (readSign (text.dropWhile isBlank)).1 = false := by
  cases text with
  | nil => exact ⟨rfl, rfl⟩
  | cons c rest =>
    have hc := h c List.mem_cons_self
    have hdigit : 48 ≤ c.toNat := (Char.isDigit_iff_toNat.mp hc).1
    have hblank : ¬isBlank c := by
      intro hb
      simp only [isBlank, Bool.or_eq_true, decide_eq_true_eq, Bool.and_eq_true] at hb
      rcases hb with rfl | hb
      · exact absurd hc (by decide)
      · omega
    rw [leadingDigits, List.dropWhile_cons_of_neg hblank, readSign_of_isDigit hc]
    exact ⟨List.takeWhile_eq_self_iff.mpr h, rfl⟩

/-- A decimal numeral is cut to the range of an `int`. -/
theorem getAddress_decimal {text : List Char} {n : ℕ} (hn : 0 < n) (h : DecimalText text n) :
    getAddress text = .ok (BitVec.ofNat 64 (min n (2 ^ 31 - 1))) := by
  obtain ⟨-, hdigits, hvalue⟩ := h
  obtain ⟨hrun, hsign⟩ := leadingDigits_of_digits hdigits
  have hatoi : atoi text = ((min n (2 ^ 31 - 1) : ℕ) : ℤ) := by
    simp only [atoi]
    rw [hrun, hsign, hvalue, if_neg Bool.false_ne_true]
    omega
  have hne : BitVec.ofInt 64 (atoi text) ≠ 0 := by
    rw [Ne, ofInt_atoi_eq_zero_iff, hatoi]
    omega
  simp only [getAddress]
  rw [if_pos hne, hatoi, BitVec.ofInt_natCast]

/-- A hexadecimal numeral is read by the second parser, at its full width. -/
theorem getAddress_hex {text : List Char} {n : ℕ} (hn : n < 2 ^ 64) (h : HexText text n) :
    getAddress text = .ok (BitVec.ofNat 64 n) := by
  obtain ⟨x, digits, hx, rfl, -, hdigits, hvalue⟩ := h
  have hrun : leadingDigits ('0' :: x :: digits) = ['0'] := by
    rcases hx with rfl | rfl
    · rfl
    · rfl
  have hzero : BitVec.ofInt 64 (atoi ('0' :: x :: digits)) = 0 := by
    rw [ofInt_atoi_eq_zero_iff, atoi_eq_zero_iff, hrun]
    exact List.forall_mem_singleton.mpr rfl
  have hstarts : hasHexPrefix ('0' :: x :: digits) := by
    rcases hx with rfl | rfl
    · rfl
    · rfl
  have hextract : extractHex ('0' :: x :: digits) = BitVec.ofNat 64 n := by
    have hskip : skipHexPrefix ('0' :: x :: digits) = digits := by
      rcases hx with rfl | rfl
      · rfl
      · rfl
    have hstart : readSign (('0' :: x :: digits).dropWhile isBlank) =
        (false, '0' :: x :: digits) := rfl
    simp only [extractHex]
    rw [hstart, hskip, List.takeWhile_eq_self_iff.mpr hdigits, hvalue, if_neg (by omega),
      if_neg Bool.false_ne_true]
  simp only [getAddress]
  rw [if_neg (not_not_intro hzero), if_neg (not_not_intro hstarts), hextract]

/-- A decimal numeral is parsed as its value within the range of an `int` only. -/
theorem getAddress_decimal_iff {text : List Char} {n : ℕ} (hn : 0 < n) (hsize : n < 2 ^ 64)
    (h : DecimalText text n) :
    getAddress text = .ok (BitVec.ofNat 64 n) ↔ n < 2 ^ 31 := by
  rw [getAddress_decimal hn h, Except.ok.injEq, ← BitVec.toNat_inj, BitVec.toNat_ofNat,
    BitVec.toNat_ofNat]
  omega

/-- The text of an address in base ten: the law holds below 2GB. -/
theorem getAddress_numeral_iff {n : ℕ} (hn : 0 < n) (hsize : n < 2 ^ 64) :
    getAddress (numeral 10 Nat.digitChar n) = .ok (BitVec.ofNat 64 n) ↔ n < 2 ^ 31 :=
  getAddress_decimal_iff hn hsize (decimalText_numeral (by omega))

/-- The text of an address in base sixteen: the law holds for every address. -/
theorem getAddress_hexNumeral {n : ℕ} (hn : 0 < n) (hsize : n < 2 ^ 64) {x : Char}
    (hx : x = 'x' ∨ x = 'X') :
    getAddress ('0' :: x :: numeral 16 Nat.digitChar n) = .ok (BitVec.ofNat 64 n) :=
  getAddress_hex hsize (hexText_numeral (by omega) hx)

/-- The parser of addresses is right about a text exactly if the text is a decimal numeral
that an `int` holds or that is no address, or a hexadecimal numeral, or begins with neither
a hexadecimal prefix nor a run of digits with one other than zero. -/
theorem addressParsed_iff (text : List Char) :
    AddressParsed text ↔
      (∀ n, DecimalText text n → n < 2 ^ 31 ∨ 2 ^ 64 ≤ n) ∧
      ((∀ n, ¬DecimalText text n) → (∀ n, ¬HexText text n) →
        (∀ c ∈ leadingDigits text, c = '0') ∧ ¬hasHexPrefix text) := by
  rw [← getAddress_error_iff, AddressParsed]
  constructor
  · rintro ⟨hdecimal, -, hrejected⟩
    refine ⟨?_, hrejected⟩
    intro n hn
    by_cases hsmall : 0 < n ∧ n < 2 ^ 64
    · have hparsed := hdecimal n hsmall.1 hsmall.2 hn
      exact Or.inl ((getAddress_decimal_iff hsmall.1 hsmall.2 hn).mp hparsed)
    · omega
  · rintro ⟨hdecimal, hrejected⟩
    refine ⟨?_, ?_, hrejected⟩
    · intro n hpos hsize hn
      have hint : n < 2 ^ 31 := (hdecimal n hn).resolve_right (Nat.not_le.mpr hsize)
      exact (getAddress_decimal_iff hpos hsize hn).mpr hint
    · intro n _ hsize hn
      exact getAddress_hex hsize hn

/-- The first address that does not fit in an `int`. -/
theorem not_addressParsed_largeDecimal : ¬AddressParsed "2147483648".toList := by
  intro h
  have hparsed := h.1 (2 ^ 31) (by decide) (by decide)
    ⟨List.cons_ne_nil _ _, List.all_eq_true.mp rfl, rfl⟩
  revert hparsed
  decide

end Client

end NovaHypervisor

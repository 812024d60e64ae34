import NovaHypervisor.ClientAddress
import NovaHypervisor.FormatScan

/-!
Numbers that the formatter appends, read back. The digits are stored from the lowest on in
an array of 32 elements, which holds every 64-bit value from base four on. In base two or
three the digits that do not fit are the highest ones, and they are lost.
-/
namespace NovaHypervisor

open General

namespace ComLogger

/-- The symbol of a digit, in either letter case. -/
def digitSymbol (uppercase : Bool) (d : ℕ) : Char :=
  if uppercase then d.digitChar.toUpper else d.digitChar

/-- A numeral without leading zeros that is read as the value. -/
structure IsNumeral (radix : ℕ) (uppercase : Bool) (value : ℕ) (text : List Char) : Prop where
  nonempty : text ≠ []
  digits : ∀ c ∈ text, ∃ d < radix, c = digitSymbol uppercase d
  noLeadingZero : text.head? = some '0' → text = ['0']
  parsed : numeralValue radix Client.digitValue text = value

/-- Zero has one digit. -/
def numeralLength (radix value : ℕ) : ℕ := max 1 (Nat.digits radix value).length

/-- Where there is room for it and the NUL, the numeral of the value is appended. -/
def RendersUnsigned (radix : ℕ) (uppercase : Bool) (value : Word) : Prop :=
  ∀ output : Output,
    output.offset + numeralLength radix value.toNat < output.cells.length →
      ∃ text output', appendUnsigned output value radix uppercase = .ok output' ∧
        TextBuffer.Appends nul text output output' ∧
        IsNumeral radix uppercase value.toNat text

/-- The value of a decimal text with an optional sign. -/
def readInteger (text : List Char) : ℤ :=
  let sign := Client.readSign text
  let magnitude := numeralValue 10 Client.digitValue sign.2
  if sign.1 then -(magnitude : ℤ) else magnitude

def integerLength (value : ℤ) : ℕ :=
  numeralLength 10 value.natAbs + if value < 0 then 1 else 0

/-- Where there is room for it and the NUL, a text that is read as the value is appended:
a numeral, behind a minus sign where the value is negative. -/
def RendersSigned (value : Word) : Prop :=
  ∀ output : Output, output.offset + integerLength value.toInt < output.cells.length →
    ∃ text digits output', appendSigned output value = .ok output' ∧
      TextBuffer.Appends nul text output output' ∧
      IsNumeral 10 false value.toInt.natAbs digits ∧
      text = (if value.toInt < 0 then '-' :: digits else digits) ∧
      readInteger text = value.toInt

/-- What the formatter makes of a value in a base that it admits, and of the value as a
signed number. -/
def RendersNumbers (radix : ℕ) (uppercase : Bool) (value : Word) : Prop :=
  (2 ≤ radix → radix ≤ 16 → RendersUnsigned radix uppercase value) ∧ RendersSigned value

theorem exists_room (length : ℕ) :
    ∃ output : Output, output.offset + length < output.cells.length := by
  have hlength : 0 + length < (List.replicate (length + 1) nul).length := by
    rw [List.length_replicate]
    omega
  exact ⟨⟨_, 0⟩, hlength⟩

theorem digitOf_eq (uppercase : Bool) {d : ℕ} (h : d < 16) :
    digitOf uppercase d = digitSymbol uppercase d := by
  cases uppercase <;> interval_cases d <;> decide

theorem digitValue_digitSymbol (uppercase : Bool) {d : ℕ} (h : d < 16) :
    Client.digitValue (digitSymbol uppercase d) = d := by
  cases uppercase <;> interval_cases d <;> decide

theorem digitSymbol_eq_zero_iff (uppercase : Bool) {d : ℕ} (h : d < 16) :
    digitSymbol uppercase d = '0' ↔ d = 0 := by
  cases uppercase <;> interval_cases d <;> decide

/-- The first loop stores the digits of the value, the lowest first, while there is room. -/
theorem digitsOf_eq {radix : ℕ} (hlow : 2 ≤ radix) (hhigh : radix ≤ 16) (uppercase : Bool)
    (room : ℕ) {value : ℕ} (hvalue : value ≠ 0) :
    digitsOf radix uppercase room value =
      ((Nat.digits radix value).take room).map (digitSymbol uppercase) := by
  induction room generalizing value with
  | zero => rfl
  | succ room ih =>
    have hdigit : value % radix < radix := Nat.mod_lt value (by omega)
    rw [digitsOf, Nat.digits_def' hlow (Nat.pos_of_ne_zero hvalue), List.take_succ_cons,
      List.map_cons, digitOf_eq uppercase (by omega)]
    congr 1
    by_cases hmore : value / radix = 0
    · rw [hmore, Nat.digits_zero, List.take_nil]
      rfl
    · rw [if_pos hmore]
      exact ih hmore

/-- The first loop stores a digit before it tests the value. -/
theorem unsignedText_zero (radix : ℕ) (uppercase : Bool) {value : Word}
    (hvalue : value.toNat = 0) : unsignedText value radix uppercase = ['0'] := by
  have hzero : digitsOf radix uppercase 32 0 = [digitOf uppercase 0] := by
    rw [digitsOf, Nat.zero_mod, Nat.zero_div, if_neg (not_not.mpr rfl)]
  rw [unsignedText, hvalue, hzero, digitOf_eq uppercase (by decide),
    (digitSymbol_eq_zero_iff uppercase (by decide)).mpr rfl]
  rfl

section Unsigned

variable {radix : ℕ} (hlow : 2 ≤ radix) (hhigh : radix ≤ 16) (uppercase : Bool)
include hlow hhigh

/-- The second loop appends them the highest first. -/
theorem unsignedText_eq {value : Word} (hvalue : value.toNat ≠ 0) :
    unsignedText value radix uppercase =
      ((Nat.digits radix value.toNat).take 32).reverse.map (digitSymbol uppercase) := by
  rw [unsignedText, digitsOf_eq hlow hhigh uppercase 32 hvalue, List.map_reverse]

theorem unsignedText_ne_nil (value : Word) : unsignedText value radix uppercase ≠ [] := by
  by_cases hvalue : value.toNat = 0
  · rw [unsignedText_zero radix uppercase hvalue]
    exact List.cons_ne_nil _ _
  · rw [unsignedText_eq hlow hhigh uppercase hvalue, Ne, List.map_eq_nil_iff,
      List.reverse_eq_nil_iff, List.take_eq_nil_iff, Nat.digits_eq_nil_iff_eq_zero]
    omega

theorem length_unsignedText_le (value : Word) :
    (unsignedText value radix uppercase).length ≤ numeralLength radix value.toNat := by
  by_cases hvalue : value.toNat = 0
  · rw [unsignedText_zero radix uppercase hvalue]
    exact Nat.le_max_left _ _
  · rw [unsignedText_eq hlow hhigh uppercase hvalue, List.length_map, List.length_reverse,
      List.length_take]
    unfold numeralLength
    omega

/-- What is read back has lost the digits that did not fit. -/
theorem numeralValue_unsignedText (value : Word) :
    numeralValue radix Client.digitValue (unsignedText value radix uppercase) =
      value.toNat % radix ^ 32 := by
  by_cases hvalue : value.toNat = 0
  · have hzero : Client.digitValue '0' = 0 := rfl
    rw [unsignedText_zero radix uppercase hvalue, hvalue, Nat.zero_mod,
      numeralValue_eq_zero_iff (by omega)]
    exact List.forall_mem_singleton.mpr hzero
  · rw [unsignedText_eq hlow hhigh uppercase hvalue]
    apply numeralValue_take_digits hlow
    intro d hd
    exact digitValue_digitSymbol uppercase (by omega)

theorem isNumeral_unsignedText {value : Word} (hfits : value.toNat < radix ^ 32) :
    IsNumeral radix uppercase value.toNat (unsignedText value radix uppercase) := by
  have hparsed := numeralValue_unsignedText hlow hhigh uppercase value
  rw [Nat.mod_eq_of_lt hfits] at hparsed
  by_cases hvalue : value.toNat = 0
  · have htext := unsignedText_zero radix uppercase hvalue
    refine ⟨unsignedText_ne_nil hlow hhigh uppercase value, ?_, fun _ => htext, hparsed⟩
    intro c hc
    rw [htext, List.mem_singleton] at hc
    exact ⟨0, by omega, hc.trans ((digitSymbol_eq_zero_iff uppercase (by decide)).mpr rfl).symm⟩
  · have hall := (Nat.digits_length_le_iff hlow value.toNat).mpr hfits
    have htext : unsignedText value radix uppercase =
        numeral radix (digitSymbol uppercase) value.toNat := by
      rw [unsignedText_eq hlow hhigh uppercase hvalue, List.take_of_length_le hall, numeral]
    refine ⟨unsignedText_ne_nil hlow hhigh uppercase value, ?_, ?_, hparsed⟩
    · intro c hc
      rw [htext] at hc
      exact exists_of_mem_numeral hlow hc
    · intro hhead
      obtain ⟨d, hd, hzero, hfirst⟩ := head?_numeral hlow (digitSymbol uppercase) hvalue
      rw [htext, hfirst] at hhead
      have hsymbol := (digitSymbol_eq_zero_iff uppercase (by omega)).mp (Option.some.inj hhead)
      exact absurd hsymbol hzero

theorem appendUnsigned_appends (value : Word) {output : Output}
    (hroom : output.offset + numeralLength radix value.toNat < output.cells.length) :
    TextBuffer.Appends nul (unsignedText value radix uppercase) output
      (output.pushAll nul (unsignedText value radix uppercase)) := by
  have hlength := length_unsignedText_le hlow hhigh uppercase value
  exact TextBuffer.pushAll_appends (unsignedText_ne_nil hlow hhigh uppercase value) (by omega)

/-- The numeral of a value is appended exactly if its digits fit in the array. -/
theorem rendersUnsigned_iff (value : Word) :
    RendersUnsigned radix uppercase value ↔ value.toNat < radix ^ 32 := by
  constructor
  · intro h
    obtain ⟨output, hroom⟩ := exists_room (numeralLength radix value.toNat)
    obtain ⟨text, output', hresult, happends, hnumeral⟩ := h output hroom
    rw [appendUnsigned_eq _ _ _ hlow hhigh] at hresult
    have htext := appendUnsigned_appends hlow hhigh uppercase value hroom
    rw [Except.ok.inj hresult] at htext
    have hparsed := hnumeral.parsed
    rw [happends.text_unique htext, numeralValue_unsignedText hlow hhigh] at hparsed
    rw [← hparsed]
    exact Nat.mod_lt _ (Nat.pow_pos (by omega))
  · intro hfits output hroom
    exact ⟨_, _, appendUnsigned_eq _ _ _ hlow hhigh _,
      appendUnsigned_appends hlow hhigh uppercase value hroom,
      isNumeral_unsignedText hlow hhigh uppercase hfits⟩

end Unsigned

/-- A base from four on has no value that is too long. -/
theorem lt_pow_of_four_le {radix : ℕ} (h : 4 ≤ radix) (value : Word) :
    value.toNat < radix ^ 32 := by
  have hvalue := value.isLt
  have hpow : 4 ^ 32 ≤ radix ^ 32 := Nat.pow_le_pow_left h 32
  omega

def magnitude (value : Word) : Word := if value.msb then 0 - value else value

/-- The negation is modulo `2^64`, so that the least value has its magnitude as well. -/
theorem toNat_magnitude (value : Word) : (magnitude value).toNat = value.toInt.natAbs := by
  have hlt := value.isLt
  rw [magnitude, BitVec.toInt_eq_msb_cond]
  split_ifs with hmsb
  · have hge := BitVec.msb_eq_true_iff_two_mul_ge.mp hmsb
    have hneg : (0 - value).toNat = 2 ^ 64 - value.toNat := by bv_omega
    rw [hneg]
    omega
  · rw [Int.natAbs_natCast]

theorem isNumeral_magnitude (value : Word) :
    IsNumeral 10 false value.toInt.natAbs (unsignedText (magnitude value) 10 false) := by
  rw [← toNat_magnitude]
  exact isNumeral_unsignedText (by decide) (by decide) false (lt_pow_of_four_le (by decide) _)

theorem signedText_eq (value : Word) :
    signedText value =
      if value.toInt < 0 then '-' :: unsignedText (magnitude value) 10 false
      else unsignedText (magnitude value) 10 false := by
  have hsign : value.msb = true ↔ value.toInt < 0 := by
    rw [BitVec.msb_eq_toInt, decide_eq_true_iff]
  by_cases hmsb : value.msb = true
  · rw [signedText, magnitude, if_pos hmsb, if_pos hmsb, if_pos (hsign.mp hmsb)]
  · rw [signedText, magnitude, if_neg hmsb, if_neg hmsb, if_neg (mt hsign.mpr hmsb)]

/-- A decimal numeral has digits only, and is read behind a sign and without one. -/
theorem readInteger_numeral {magnitude : ℕ} {digits : List Char}
    (h : IsNumeral 10 false magnitude digits) :
    readInteger digits = magnitude ∧ readInteger ('-' :: digits) = -(magnitude : ℤ) := by
  constructor
  · cases digits with
    | nil => exact absurd rfl h.nonempty
    | cons c rest =>
      obtain ⟨d, hd, hc⟩ := h.digits c List.mem_cons_self
      have hdigit : c.isDigit := by
        rw [hc, digitSymbol, if_neg Bool.false_ne_true]
        simpa using hd
      rw [readInteger, Client.readSign_of_isDigit hdigit, ← h.parsed]
      rfl
  · rw [← h.parsed]
    rfl

theorem readInteger_signedText (value : Word) : readInteger (signedText value) = value.toInt := by
  obtain ⟨hplus, hminus⟩ := readInteger_numeral (isNumeral_magnitude value)
  rw [signedText_eq]
  split_ifs with hneg
  · rw [hminus]
    omega
  · rw [hplus]
    omega

theorem signedText_ne_nil (value : Word) : signedText value ≠ [] := by
  rw [signedText_eq]
  split_ifs
  · exact List.cons_ne_nil _ _
  · exact (isNumeral_magnitude value).nonempty

theorem length_signedText_le (value : Word) :
    (signedText value).length ≤ integerLength value.toInt := by
  have hdigits := length_unsignedText_le (by decide : 2 ≤ 10) (by decide) false (magnitude value)
  rw [toNat_magnitude] at hdigits
  rw [signedText_eq, integerLength]
  split_ifs with hneg
  · rw [List.length_cons]
    omega
  · omega

theorem rendersSigned (value : Word) : RendersSigned value := by
  intro output hroom
  have hlength := length_signedText_le value
  refine ⟨_, _, _, appendSigned_eq output value, ?_, isNumeral_magnitude value,
    signedText_eq value, readInteger_signedText value⟩
  exact TextBuffer.pushAll_appends (signedText_ne_nil value) (by omega)

/-- A value of 33 digits in base two. -/
theorem not_rendersNumbers_binary : ¬ RendersNumbers 2 false 0x100000000 := by
  rintro ⟨h, -⟩
  have hfits := (rendersUnsigned_iff (by decide) (by decide) false _).mp
    (h (by decide) (by decide))
  exact absurd hfits (by decide)

/-- Every number is appended as its numeral, and read back as it was, exactly if it has no
more digits than the array has elements. -/
theorem rendersNumbers_iff (radix : ℕ) (uppercase : Bool) (value : Word) :
    RendersNumbers radix uppercase value ↔
      (2 ≤ radix → radix ≤ 16 → value.toNat < radix ^ 32) := by
  constructor
  · rintro ⟨h, -⟩ hlow hhigh
    exact (rendersUnsigned_iff hlow hhigh uppercase value).mp (h hlow hhigh)
  · intro h
    refine ⟨?_, rendersSigned value⟩
    intro hlow hhigh
    exact (rendersUnsigned_iff hlow hhigh uppercase value).mpr (h hlow hhigh)

end ComLogger

end NovaHypervisor

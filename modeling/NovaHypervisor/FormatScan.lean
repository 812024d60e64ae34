import NovaHypervisor.ComLogger

/-!
The formatter against the grammar of formats. A format is scanned character by character
into pieces, of which each has a text; the formatter appends these texts, and reads behind
the format exactly if the scan ends inside a conversion.
-/
namespace NovaHypervisor

open General

namespace ComLogger

inductive Piece where
  | char (c : Char)
  | conversion (longArgument longLongArgument : Bool) (c : Char)

/-- What the scan has seen of a conversion. -/
inductive ScanState where
  | text
  | percent
  | width
  | long
  | longLong

def isDigit (c : Char) : Bool := '0' ≤ c ∧ c ≤ '9'

def scanStep (state : ScanState) (c : Char) : ScanState × List Piece :=
  match state with
  | .text => if c = '%' then (.percent, []) else (.text, [.char c])
  | .percent =>
    if c = '%' then (.text, [.char '%'])
    else if isDigit c then (.width, [])
    else if c = 'l' then (.long, [])
    else (.text, [.conversion false false c])
  | .width =>
    if isDigit c then (.width, [])
    else if c = 'l' then (.long, [])
    else (.text, [.conversion false false c])
  | .long => if c = 'l' then (.longLong, []) else (.text, [.conversion true false c])
  | .longLong => (.text, [.conversion true true c])

/-- The pieces of a format, unless it ends inside a conversion. -/
def scan : ScanState → List Char → Option (List Piece)
  | .text, [] => some []
  | _, [] => none
  | state, c :: cs => (scan (scanStep state c).1 cs).map ((scanStep state c).2 ++ ·)

def EndsInConversion (format : CString) : Prop := scan .text format.chars = none

instance (format : CString) : Decidable (EndsInConversion format) :=
  inferInstanceAs (Decidable (_ = none))

/-- The characters of a string before its NUL, and `remaining` of them at most. -/
def stringText (value : Chars) : (remaining index : ℕ) → List Char
  | 0, _ => []
  | remaining + 1, index =>
    if value index = nul then [] else value index :: stringText value remaining (index + 1)

def argumentText (value : Option Chars) : List Char :=
  match value with
  | none => "(null)".toList
  | some value => stringText value messageBufferSize 0

def unsignedText (value : Word) (radix : ℕ) (uppercase : Bool) : List Char :=
  (digitsOf radix uppercase 32 value.toNat).reverse

def signedText (value : Word) : List Char :=
  if value.msb then '-' :: unsignedText (0 - value) 10 false else unsignedText value 10 false

def lengthText (longArgument longLongArgument : Bool) : List Char :=
  if longArgument then (if longLongArgument then ['l', 'l'] else ['l']) else []

def conversionText (memory : ByteMemory) (longArgument longLongArgument : Bool)
    (conversion : Char) (args : VaList) : List Char :=
  if conversion = 'd' ∨ conversion = 'i' then signedText (signedArgument longLongArgument args)
  else if conversion = 'u' then unsignedText (unsignedArgument longLongArgument args) 10 false
  else if conversion = 'x' then unsignedText (unsignedArgument longLongArgument args) 16 false
  else if conversion = 'X' then unsignedText (unsignedArgument longLongArgument args) 16 true
  else if conversion = 'p' then '0' :: 'x' :: unsignedText (args 0) 16 false
  else if conversion = 's' then argumentText (stringArgument memory args)
  else '%' :: (lengthText longArgument longLongArgument ++ [conversion])

/-- The arguments that are left after a conversion. -/
def argsAfter (conversion : Char) (args : VaList) : VaList :=
  if conversion ∈ ['d', 'i', 'u', 'x', 'X', 'p', 's'] then args.next else args

def render (memory : ByteMemory) : List Piece → VaList → List Char
  | [], _ => []
  | .char c :: pieces, args => c :: render memory pieces args
  | .conversion longArgument longLongArgument c :: pieces, args =>
    conversionText memory longArgument longLongArgument c args ++
      render memory pieces (argsAfter c args)

theorem appendChar_eq (output : Output) (c : Char) :
    appendChar output c = .ok (output.push nul c) := by
  rw [appendChar, TextBuffer.push]
  by_cases hroom : output.offset + 1 < output.cells.length
  · have hfull : ¬ (output.cells.length = 0 ∨ output.offset ≥ output.cells.length - 1) := by omega
    have hnext : output.offset + 1 < (output.cells.set output.offset c).length := by
      rwa [List.length_set]
    rw [if_neg hfull, if_pos hroom, store, if_pos (by omega)]
    simp only [bind, Except.bind, store, if_pos hnext]
  · rw [if_pos (by omega), if_neg hroom]

theorem appendFrom_eq (value : Chars) (remaining index : ℕ) (output : Output) :
    appendFrom value remaining index output =
      .ok (output.pushAll nul (stringText value remaining index)) := by
  induction remaining generalizing index output with
  | zero => rfl
  | succ remaining ih =>
    rw [appendFrom, stringText]
    split_ifs
    · rfl
    · rw [appendChar_eq]
      exact ih (index + 1) _

theorem appendDigits_eq (digits : List Char) (output : Output) :
    appendDigits digits output = .ok (output.pushAll nul digits.reverse) := by
  induction digits with
  | nil => rfl
  | cons digit digits ih =>
    rw [appendDigits, ih, List.reverse_cons, TextBuffer.pushAll_append]
    exact appendChar_eq _ digit

theorem appendUnsigned_eq (output : Output) (value : Word) (radix : ℕ)
    (hlow : 2 ≤ radix) (hhigh : radix ≤ 16) (uppercase : Bool) :
    appendUnsigned output value radix uppercase =
      .ok (output.pushAll nul (unsignedText value radix uppercase)) := by
  rw [appendUnsigned, if_neg (by omega), appendDigits_eq, unsignedText]

theorem appendSigned_eq (output : Output) (value : Word) :
    appendSigned output value = .ok (output.pushAll nul (signedText value)) := by
  rw [appendSigned, signedText]
  split_ifs
  · rw [appendChar_eq]
    exact appendUnsigned_eq _ _ 10 (by decide) (by decide) _
  · exact appendUnsigned_eq _ _ 10 (by decide) (by decide) _

theorem appendString_eq (output : Output) (value : Option Chars) :
    appendString output value messageBufferSize =
      .ok (output.pushAll nul (argumentText value)) := by
  cases value with
  | none => exact appendFrom_eq _ _ _ _
  | some value => exact appendFrom_eq _ _ _ _

theorem appendLength_eq (longArgument longLongArgument : Bool) (output : Output) :
    appendLength longArgument longLongArgument output =
      .ok (output.pushAll nul (lengthText longArgument longLongArgument)) := by
  cases longArgument with
  | false => rfl
  | true =>
    cases longLongArgument with
    | false => exact appendChar_eq _ _
    | true =>
      rw [appendLength, appendChar_eq]
      exact appendChar_eq _ _

theorem appendConversion_eq (memory : ByteMemory) (longArgument longLongArgument : Bool)
    (conversion : Char) (args : VaList) (output : Output) :
    appendConversion memory longArgument longLongArgument conversion args output =
      .ok (argsAfter conversion args, output.pushAll nul
        (conversionText memory longArgument longLongArgument conversion args)) := by
  have hstarts : appendString output (some (literal "0x")) 2 =
      .ok (output.pushAll nul ['0', 'x']) := appendFrom_eq _ _ _ _
  have hargs : ∀ c ∈ ['d', 'i', 'u', 'x', 'X', 'p', 's'], argsAfter c args = args.next := by
    intro c hc
    rw [argsAfter, if_pos hc]
  rw [appendConversion, conversionText]
  split_ifs with hd hu hx hX hp hs
  · have hnext := hargs conversion (by rcases hd with rfl | rfl <;> decide)
    rw [appendSigned_eq, hnext]
    rfl
  · rw [appendUnsigned_eq _ _ 10 (by decide) (by decide), hargs conversion (by simp [hu])]
    rfl
  · rw [appendUnsigned_eq _ _ 16 (by decide) (by decide), hargs conversion (by simp [hx])]
    rfl
  · rw [appendUnsigned_eq _ _ 16 (by decide) (by decide), hargs conversion (by simp [hX])]
    rfl
  · have hunsigned := appendUnsigned_eq (output.pushAll nul ['0', 'x']) (args 0) 16
      (by decide) (by decide) false
    rw [hstarts, hargs conversion (by simp [hp])]
    simp only [bind, Except.bind, hunsigned]
    rfl
  · rw [appendString_eq, hargs conversion (by simp [hs])]
    rfl
  · have hrest : argsAfter conversion args = args := by
      rw [argsAfter, if_neg]
      simp only [List.mem_cons, List.not_mem_nil, or_false]
      tauto
    rw [hrest, appendChar_eq]
    simp only [bind, Except.bind, appendLength_eq, appendChar_eq]
    simp only [TextBuffer.pushAll, List.foldl_cons, List.foldl_append, List.foldl_nil]

theorem lt_of_drop_cons {cs rest : List Char} {index : ℕ} {c : Char}
    (h : cs.drop index = c :: rest) : index < cs.length := by
  have hlength := congrArg List.length h
  rw [List.length_drop, List.length_cons] at hlength
  omega

theorem charAt_of_drop_cons {format : CString} {index : ℕ} {c : Char} {rest : List Char}
    (h : format.chars.drop index = c :: rest) :
    format.charAt index = .ok c ∧ c ≠ nul ∧ format.chars.drop (index + 1) = rest := by
  have hget : format.chars[index]? = some c := by
    have hhead : (format.chars.drop index)[0]? = format.chars[index + 0]? := List.getElem?_drop
    rw [h, Nat.add_zero] at hhead
    exact hhead.symm
  obtain ⟨hlt, -⟩ := List.getElem?_eq_some_iff.mp hget
  refine ⟨?_, ?_, ?_⟩
  · rw [CString.charAt, if_pos (Nat.le_of_lt hlt), List.getD_eq_getElem?_getD, hget]
    rfl
  · rintro rfl
    exact format.noNul (List.mem_of_getElem? hget)
  · rw [← List.tail_drop, h, List.tail_cons]

/-- Behind the last character the NUL is read, and behind the NUL nothing. -/
theorem charAt_of_drop_nil {format : CString} {index : ℕ} (hle : index ≤ format.chars.length)
    (h : format.chars.drop index = []) :
    format.charAt index = .ok nul ∧ format.charAt (index + 1) = .error .pastFormat := by
  have hge := List.drop_eq_nil_iff.mp h
  constructor
  · rw [CString.charAt, if_pos hle, List.getD_eq_getElem?_getD, List.getElem?_eq_none hge]
    rfl
  · rw [CString.charAt, if_neg (by omega)]

/-- The character that is read at an index is the first one that is left. -/
theorem charAt_head {format : CString} {index : ℕ} {rest : List Char}
    (hle : index ≤ format.chars.length) (h : format.chars.drop index = rest) :
    ∃ c, format.charAt index = .ok c ∧ (c = '%' ↔ rest.head? = some '%') := by
  cases rest with
  | nil => exact ⟨nul, (charAt_of_drop_nil hle h).1, by decide⟩
  | cons c rest => exact ⟨c, (charAt_of_drop_cons h).1, by simp⟩

theorem isDigit_iff (c : Char) : isDigit c = true ↔ '0' ≤ c ∧ c ≤ '9' := by
  rw [isDigit, decide_eq_true_iff]

theorem scan_width_digit {c : Char} (h : isDigit c = true) (cs : List Char) :
    scan .width (c :: cs) = scan .width cs := by
  simp [scan, scanStep, h]

/-- Where no second percent sign follows, a conversion may have no width. -/
theorem scan_percent {rest : List Char} (h : rest.head? ≠ some '%') :
    scan .percent rest = scan .width rest := by
  cases rest with
  | nil => rfl
  | cons c cs =>
    have hc : c ≠ '%' := by simpa using h
    simp [scan, scanStep, hc]

/-- The digits are skipped, and stay inside the format. -/
theorem skipDigits_spec (format : CString) (fuel index : ℕ)
    (hfuel : format.chars.length < fuel + index) (hle : index ≤ format.chars.length) :
    ∃ index', skipDigits format fuel index = .ok index' ∧ index ≤ index' ∧
      index' ≤ format.chars.length ∧ (∀ c ∈ (format.chars.drop index').head?, isDigit c = false) ∧
      scan .width (format.chars.drop index) = scan .width (format.chars.drop index') := by
  induction fuel generalizing index with
  | zero => omega
  | succ fuel ih =>
    rw [skipDigits]
    cases hdrop : format.chars.drop index with
    | nil =>
      refine ⟨index, ?_, le_refl _, hle, ?_, ?_⟩
      · rw [(charAt_of_drop_nil hle hdrop).1]
        rfl
      · simp [hdrop]
      · rw [hdrop]
    | cons c rest =>
      obtain ⟨hchar, hnul, hnext⟩ := charAt_of_drop_cons hdrop
      have hlt := lt_of_drop_cons hdrop
      by_cases hdigit : isDigit c = true
      · obtain ⟨index', hskip, hindex, hbound, hhead, hscan⟩ :=
          ih (index + 1) (by omega) hlt
        refine ⟨index', ?_, by omega, hbound, hhead, ?_⟩
        · rw [hchar]
          simp only [bind, Except.bind]
          rw [if_pos ((isDigit_iff c).mp hdigit), hskip]
        · rw [scan_width_digit hdigit, ← hnext, hscan]
      · refine ⟨index, ?_, le_refl _, hle, ?_, ?_⟩
        · rw [hchar]
          simp only [bind, Except.bind]
          rw [if_neg (mt (isDigit_iff c).mpr hdigit)]
        · simpa [hdrop] using hdigit
        · rw [hdrop]

/-- What is left of the format at the end of a conversion, and its pieces. -/
def ConversionEnds (format : CString) (index index' : ℕ) (longArgument longLongArgument : Bool) :
    Prop :=
  match format.chars.drop index' with
  | [] => scan .width (format.chars.drop index) = none
  | c :: rest => scan .width (format.chars.drop index) =
      (scan .text rest).map (.conversion longArgument longLongArgument c :: ·)

/-- The length is read, and stays inside the format. -/
theorem readLength_spec (format : CString) {index : ℕ} (hle : index ≤ format.chars.length)
    (hhead : ∀ c ∈ (format.chars.drop index).head?, isDigit c = false) :
    ∃ index' longArgument longLongArgument,
      readLength format index = .ok (index', longArgument, longLongArgument) ∧ index ≤ index' ∧
      index' ≤ format.chars.length ∧
      ConversionEnds format index index' longArgument longLongArgument := by
  cases hdrop : format.chars.drop index with
  | nil =>
    refine ⟨index, false, false, ?_, le_refl _, hle, ?_⟩
    · rw [readLength, (charAt_of_drop_nil hle hdrop).1]
      rfl
    · rw [ConversionEnds, hdrop]
      rfl
  | cons c rest =>
    obtain ⟨hchar, hnul, hnext⟩ := charAt_of_drop_cons hdrop
    have hdigit : isDigit c = false := hhead c (by simp [hdrop])
    by_cases hlong : c = 'l'
    · subst hlong
      have hlt := lt_of_drop_cons hdrop
      have hlen : readLength format index = (do
          if (← format.charAt (index + 1)) = 'l' then .ok (index + 1 + 1, true, true)
          else .ok (index + 1, true, false)) := by
        rw [readLength, hchar]
        rfl
      have hscan : scan .width ('l' :: rest) = scan .long rest := by
        simp [scan, scanStep, hdigit]
      rw [hlen]
      cases rest with
      | nil =>
        refine ⟨index + 1, true, false, ?_, by omega, hlt, ?_⟩
        · rw [(charAt_of_drop_nil hlt hnext).1]
          rfl
        · rw [ConversionEnds, hnext, hdrop, hscan]
          rfl
      | cons c rest =>
        obtain ⟨hchar', hnul', hnext'⟩ := charAt_of_drop_cons hnext
        have hlt' := lt_of_drop_cons hnext
        rw [hchar']
        simp only [bind, Except.bind]
        by_cases hlonglong : c = 'l'
        · subst hlonglong
          refine ⟨index + 1 + 1, true, true, if_pos rfl, by omega, hlt', ?_⟩
          rw [ConversionEnds, hnext', hdrop, hscan]
          cases rest with
          | nil => rfl
          | cons c rest => simp [scan, scanStep, Function.comp_def]
        · refine ⟨index + 1, true, false, if_neg hlonglong, by omega, hlt, ?_⟩
          rw [ConversionEnds, hnext, hdrop, hscan]
          simp [scan, scanStep, hlonglong]
    · refine ⟨index, false, false, ?_, le_refl _, hle, ?_⟩
      · rw [readLength, hchar]
        simp only [bind, Except.bind]
        rw [if_neg hlong]
      · rw [ConversionEnds, hdrop]
        simp [scan, scanStep, hdigit, hlong]

section Turn

variable (memory : ByteMemory) {format : CString} (fuel : ℕ) {index : ℕ} (args : VaList)
  (output : Output)

theorem formatFrom_nil (hle : index ≤ format.chars.length) (h : format.chars.drop index = []) :
    formatFrom memory format (fuel + 1) index args output = .ok output := by
  rw [formatFrom, (charAt_of_drop_nil hle h).1]
  rfl

theorem formatFrom_char {c : Char} {rest : List Char}
    (h : format.chars.drop index = c :: rest) (hc : c ≠ '%') :
    formatFrom memory format (fuel + 1) index args output =
      formatFrom memory format fuel (index + 1) args (output.push nul c) := by
  obtain ⟨hchar, hnul, -⟩ := charAt_of_drop_cons h
  rw [formatFrom, hchar]
  simp only [bind, Except.bind]
  rw [if_neg hnul, if_pos hc, appendChar_eq]

/-- A second percent sign stands for itself. -/
theorem formatFrom_percent {rest : List Char}
    (h : format.chars.drop index = '%' :: '%' :: rest) :
    formatFrom memory format (fuel + 1) index args output =
      formatFrom memory format fuel (index + 1 + 1) args (output.push nul '%') := by
  obtain ⟨hchar, hnul, hnext⟩ := charAt_of_drop_cons h
  obtain ⟨hsecond, -⟩ := charAt_of_drop_cons hnext
  rw [formatFrom, hchar]
  simp only [bind, Except.bind]
  rw [if_neg hnul, if_neg (not_not.mpr rfl), hsecond]
  dsimp only
  rw [if_pos rfl, appendChar_eq]

/-- A conversion is read up to the character that names it, or to the NUL. -/
theorem formatFrom_conversion {rest : List Char} (h : format.chars.drop index = '%' :: rest)
    (hhead : rest.head? ≠ some '%') :
    ∃ index' longArgument longLongArgument c, format.charAt index' = .ok c ∧ index < index' ∧
      index' ≤ format.chars.length ∧
      ConversionEnds format (index + 1) index' longArgument longLongArgument ∧
      formatFrom memory format (fuel + 1) index args output =
        formatFrom memory format fuel (index' + 1) (argsAfter c args) (output.pushAll nul
          (conversionText memory longArgument longLongArgument c args)) := by
  obtain ⟨hchar, hnul, hnext⟩ := charAt_of_drop_cons h
  have hlt := lt_of_drop_cons h
  obtain ⟨second, hread, hsecond⟩ := charAt_head hlt hnext
  obtain ⟨index₁, hskip, hle₁, hbound₁, hdigits, hwidth⟩ :=
    skipDigits_spec format (format.chars.length + 1) (index + 1) (by omega) hlt
  obtain ⟨index₂, longArgument, longLongArgument, hlength, hle₂, hbound₂, hends⟩ :=
    readLength_spec format hbound₁ hdigits
  obtain ⟨c, hc, -⟩ := charAt_head hbound₂ rfl
  refine ⟨index₂, longArgument, longLongArgument, c, hc, by omega, hbound₂, ?_, ?_⟩
  · rwa [ConversionEnds, hwidth]
  · rw [formatFrom, hchar]
    simp only [bind, Except.bind]
    rw [if_neg hnul, if_neg (not_not.mpr rfl), hread]
    dsimp only
    rw [if_neg (mt hsecond.mp hhead), hskip]
    dsimp only
    rw [hlength]
    dsimp only
    rw [hc]
    dsimp only
    rw [appendConversion_eq]

end Turn

/-- The loop from an index inside the format appends the texts of the pieces that are
left, or reads behind the format where these end inside a conversion. -/
theorem formatFrom_eq (memory : ByteMemory) (format : CString) (fuel index : ℕ)
    (hfuel : format.chars.length + 1 < fuel + index) (hle : index ≤ format.chars.length)
    (args : VaList) (output : Output) :
    formatFrom memory format fuel index args output =
      match scan .text (format.chars.drop index) with
      | none => .error .pastFormat
      | some pieces => .ok (output.pushAll nul (render memory pieces args)) := by
  induction fuel generalizing index args output with
  | zero => omega
  | succ fuel ih =>
    cases hdrop : format.chars.drop index with
    | nil =>
      rw [formatFrom_nil memory fuel args output hle hdrop]
      rfl
    | cons c rest =>
      obtain ⟨-, -, hnext⟩ := charAt_of_drop_cons hdrop
      have hlt := lt_of_drop_cons hdrop
      by_cases hpercent : c = '%'
      · subst hpercent
        have hscan : scan .text ('%' :: rest) = scan .percent rest := by
          simp [scan, scanStep]
        rw [hscan]
        by_cases hliteral : rest.head? = some '%'
        · obtain ⟨rest', rfl⟩ := List.head?_eq_some_iff.mp hliteral
          obtain ⟨-, -, hnext'⟩ := charAt_of_drop_cons hnext
          have hlt' := lt_of_drop_cons hnext
          rw [formatFrom_percent memory fuel args output hdrop,
            ih (index + 1 + 1) (by omega) hlt', hnext']
          simp only [scan, scanStep, if_true]
          cases scan .text rest' <;> rfl
        · obtain ⟨index', longArgument, longLongArgument, c, hc, hindex, hbound, hends, hturn⟩ :=
            formatFrom_conversion memory fuel args output hdrop hliteral
          rw [hturn, scan_percent hliteral, ← hnext]
          rw [ConversionEnds] at hends
          cases hdrop' : format.chars.drop index' with
          | nil =>
            rw [hdrop'] at hends
            rw [hends]
            -- The header of the loop steps over the NUL.
            cases fuel with
            | zero => omega
            | succ fuel =>
              rw [formatFrom, (charAt_of_drop_nil hbound hdrop').2]
              rfl
          | cons c' rest' =>
            obtain ⟨hchar, -, hnext'⟩ := charAt_of_drop_cons hdrop'
            obtain rfl : c' = c := Except.ok.inj (hchar.symm.trans hc)
            rw [hdrop'] at hends
            rw [hends, ih (index' + 1) (by omega) (lt_of_drop_cons hdrop'), hnext']
            cases scan .text rest' with
            | none => rfl
            | some pieces =>
              dsimp only [Option.map]
              rw [render, TextBuffer.pushAll_append]
      · rw [formatFrom_char memory fuel args output hdrop hpercent,
          ih (index + 1) (by omega) hlt, hnext]
        simp only [scan, scanStep, if_neg hpercent]
        cases scan .text rest <;> rfl

theorem formatMessage_eq (memory : ByteMemory) {buffer : List Char} (hbuffer : 0 < buffer.length)
    (format : CString) (args : VaList) :
    formatMessage memory buffer (some format) args =
      match scan .text format.chars with
      | none => .error .pastFormat
      | some pieces =>
        .ok (TextBuffer.pushAll nul ⟨buffer.set 0 nul, 0⟩ (render memory pieces args)).cells := by
  have hloop := formatFrom_eq memory format (format.chars.length + 2) 0
    (by omega) (Nat.zero_le _) args ⟨buffer.set 0 nul, 0⟩
  rw [List.drop_zero] at hloop
  rw [formatMessage, if_neg (by omega), store, if_pos hbuffer]
  simp only [bind, Except.bind]
  rw [hloop]
  cases scan .text format.chars <;> rfl

/-- A format that ends inside a conversion: its only character is a percent sign. -/
theorem percent_noNul : nul ∉ ['%'] := by decide

theorem not_formatMessage_inside_percent :
    ¬ ∃ buffer, formatMessage (fun _ => 0) ['z', 'z'] (some ⟨['%'], percent_noNul⟩) (fun _ => 0) =
      .ok buffer := by
  have hpast : formatMessage (fun _ => 0) ['z', 'z'] (some ⟨['%'], percent_noNul⟩) (fun _ => 0) =
      .error .pastFormat := by decide
  rintro ⟨buffer, hok⟩
  rw [hpast] at hok
  exact absurd hok (by simp)

/-- The formatter returns, and has read no element behind the format, exactly if the format
does not end inside a conversion (or there is nothing to write to). -/
theorem formatMessage_inside_iff (memory : ByteMemory) (buffer : List Char) (format : CString)
    (args : VaList) :
    (∃ buffer', formatMessage memory buffer (some format) args = .ok buffer') ↔
      buffer = [] ∨ ¬ EndsInConversion format := by
  cases buffer with
  | nil => simp [formatMessage]
  | cons c cs =>
    rw [formatMessage_eq memory (List.length_pos_of_ne_nil (List.cons_ne_nil c cs)),
      EndsInConversion]
    cases scan .text format.chars with
    | none => simp
    | some pieces => simp

end ComLogger

end NovaHypervisor

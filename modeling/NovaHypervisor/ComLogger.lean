import NovaHypervisor.Definitions
import NovaHypervisor.General.ByteMemory
import NovaHypervisor.General.TextBuffer

/-!
The formatter of the log messages. A read of the format behind its end and a write
behind the buffer are faults. An argument takes one slot of 8 bytes, and the strings
that arguments point to are in a memory apart from the buffer. The offset is a natural
number: it stays below the size of the buffer.
-/
namespace NovaHypervisor

open General

namespace ComLogger

inductive Fault where
  | pastFormat
  | pastBuffer
  | outOfFuel
  deriving DecidableEq

def nul : Char := '\x00'

/-- A string without its terminating NUL. -/
structure CString where
  chars : List Char
  noNul : nul ∉ chars

/-- The element at an index: the last one is the NUL. -/
def CString.charAt (s : CString) (index : ℕ) : Except Fault Char :=
  if index ≤ s.chars.length then .ok (s.chars.getD index nul) else .error .pastFormat

abbrev VaList := ℕ → Word

def VaList.next (args : VaList) : VaList := fun i => args (i + 1)

/-- The buffer and the offset of its terminating NUL. -/
abbrev Output := TextBuffer Char

def store (buffer : List Char) (index : ℕ) (value : Char) : Except Fault (List Char) :=
  if index < buffer.length then .ok (buffer.set index value) else .error .pastBuffer

def messageBufferSize : ℕ := 512

def hexDigits : List Char := "0123456789abcdef".toList

def appendChar (output : Output) (value : Char) : Except Fault Output :=
  if output.cells.length = 0 ∨ output.offset ≥ output.cells.length - 1 then .ok output
  else do
    let buffer ← store output.cells output.offset value
    let offset := output.offset + 1
    let buffer ← store buffer offset nul
    .ok ⟨buffer, offset⟩

/-- A pointer to characters. -/
abbrev Chars := ℕ → Char

def literal (s : String) : Chars := fun i => s.toList.getD i nul

def charsAt (memory : ByteMemory) (pointer : Word) : Chars :=
  fun i => Char.ofNat (memory (pointer + BitVec.ofNat 64 i)).toNat

/-- The loop over a string, of which `remaining` characters are left at most. -/
def appendFrom (value : Chars) : (remaining index : ℕ) → Output → Except Fault Output
  | 0, _, output => .ok output
  | remaining + 1, index, output =>
    if value index = nul then .ok output
    else do
      let output ← appendChar output (value index)
      appendFrom value remaining (index + 1) output

def appendString (output : Output) (value : Option Chars) (maximumLength : ℕ) :
    Except Fault Output :=
  match value with
  | none => appendFrom (literal "(null)") 6 0 output
  | some value => appendFrom value maximumLength 0 output

def digitOf (uppercase : Bool) (value : ℕ) : Char :=
  let digit := hexDigits.getD value nul
  if uppercase ∧ 'a' ≤ digit ∧ digit ≤ 'f' then Char.ofNat (digit.toNat - ('a'.toNat - 'A'.toNat))
  else digit

/-- The digits of a value, the lowest first, of which `room` fit. -/
def digitsOf (radix : ℕ) (uppercase : Bool) : (room value : ℕ) → List Char
  | 0, _ => []
  | room + 1, value =>
    digitOf uppercase (value % radix) ::
      if value / radix ≠ 0 then digitsOf radix uppercase room (value / radix) else []

/-- The digits are appended from the last one that was stored. -/
def appendDigits : (digits : List Char) → Output → Except Fault Output
  | [], output => .ok output
  | digit :: digits, output => do
    let output ← appendDigits digits output
    appendChar output digit

def appendUnsigned (output : Output) (value : Word) (radix : ℕ) (uppercase : Bool) :
    Except Fault Output :=
  if radix < 2 ∨ radix > 16 then .ok output
  else appendDigits (digitsOf radix uppercase 32 value.toNat) output

def appendSigned (output : Output) (value : Word) : Except Fault Output :=
  if value.msb then do
    let output ← appendChar output '-'
    appendUnsigned output (0 - value) 10 false
  else appendUnsigned output value 10 false

/-- A `long` has the width of an `int`. -/
def signedArgument (longLongArgument : Bool) (args : VaList) : Word :=
  if longLongArgument then args 0 else ((args 0).setWidth 32).signExtend 64

def unsignedArgument (longLongArgument : Bool) (args : VaList) : Word :=
  if longLongArgument then args 0 else ((args 0).setWidth 32).setWidth 64

def stringArgument (memory : ByteMemory) (args : VaList) : Option Chars :=
  if args 0 = 0 then none else some (charsAt memory (args 0))

/-- The length of a conversion that is not known. -/
def appendLength (longArgument longLongArgument : Bool) (output : Output) : Except Fault Output :=
  match longArgument, longLongArgument with
  | false, _ => .ok output
  | true, false => appendChar output 'l'
  | true, true => do
    let output ← appendChar output 'l'
    appendChar output 'l'

/-- The switch over the character that ends a conversion. -/
def appendConversion (memory : ByteMemory) (longArgument longLongArgument : Bool)
    (conversion : Char) (args : VaList) (output : Output) : Except Fault (VaList × Output) :=
  if conversion = 'd' ∨ conversion = 'i' then do
    let output ← appendSigned output (signedArgument longLongArgument args)
    .ok (args.next, output)
  else if conversion = 'u' then do
    let output ← appendUnsigned output (unsignedArgument longLongArgument args) 10 false
    .ok (args.next, output)
  else if conversion = 'x' then do
    let output ← appendUnsigned output (unsignedArgument longLongArgument args) 16 false
    .ok (args.next, output)
  else if conversion = 'X' then do
    let output ← appendUnsigned output (unsignedArgument longLongArgument args) 16 true
    .ok (args.next, output)
  else if conversion = 'p' then do
    let output ← appendString output (some (literal "0x")) 2
    let output ← appendUnsigned output (args 0) 16 false
    .ok (args.next, output)
  else if conversion = 's' then do
    let output ← appendString output (stringArgument memory args) messageBufferSize
    .ok (args.next, output)
  else do
    let output ← appendChar output '%'
    let output ← appendLength longArgument longLongArgument output
    let output ← appendChar output conversion
    .ok (args, output)

/-- The index of the first element from `index` on that is no digit. -/
def skipDigits (format : CString) : (fuel index : ℕ) → Except Fault ℕ
  | 0, _ => .error .outOfFuel
  | fuel + 1, index => do
    let c ← format.charAt index
    if '0' ≤ c ∧ c ≤ '9' then skipDigits format fuel (index + 1) else .ok index

/-- The index behind the length of a conversion, and whether there was an l, and two. -/
def readLength (format : CString) (index : ℕ) : Except Fault (ℕ × Bool × Bool) := do
  if (← format.charAt index) = 'l' then
    let index := index + 1
    if (← format.charAt index) = 'l' then .ok (index + 1, true, true)
    else .ok (index, true, false)
  else .ok (index, false, false)

/-- The loop over the format from an index. -/
def formatFrom (memory : ByteMemory) (format : CString) :
    (fuel index : ℕ) → VaList → Output → Except Fault Output
  | 0, _, _, _ => .error .outOfFuel
  | fuel + 1, index, args, output => do
    let c ← format.charAt index
    if c = nul then .ok output
    else if c ≠ '%' then
      let output ← appendChar output c
      formatFrom memory format fuel (index + 1) args output
    else
      let index := index + 1
      if (← format.charAt index) = '%' then
        let output ← appendChar output '%'
        formatFrom memory format fuel (index + 1) args output
      else
        let index ← skipDigits format (format.chars.length + 1) index
        let (index, longArgument, longLongArgument) ← readLength format index
        let conversion ← format.charAt index
        let (args, output) ←
          appendConversion memory longArgument longLongArgument conversion args output
        formatFrom memory format fuel (index + 1) args output

/-- A null buffer is as an empty one, and a null format is `none`. Each turn of the loop
advances the index, which faults when it is behind the format's NUL. -/
def formatMessage (memory : ByteMemory) (buffer : List Char) (format : Option CString)
    (args : VaList) : Except Fault (List Char) :=
  if buffer.length = 0 then .ok buffer
  else do
    let buffer ← store buffer 0 nul
    let output : Output := ⟨buffer, 0⟩
    match format with
    | none => do
      let output ← appendString output (some (literal "null log format string")) messageBufferSize
      .ok output.cells
    | some format => do
      let output ← formatFrom memory format (format.chars.length + 2) 0 args output
      .ok output.cells

end ComLogger

end NovaHypervisor

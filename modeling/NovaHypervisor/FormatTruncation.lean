import NovaHypervisor.FormatScan

/-!
The formatter with a buffer of any size. A text of pieces has no NUL, so what is read from
the buffer is the first part of the text that an unlimited buffer gets.
-/
namespace NovaHypervisor

open General

namespace ComLogger

/-- The text of a buffer is what stands before its first NUL. -/
def textOf (buffer : List Char) : List Char := buffer.takeWhile (· ≠ nul)

/-- The character that a piece has from the format. -/
def Piece.last : Piece → Char
  | .char c => c
  | .conversion _ _ c => c

theorem scanStep_last {state : ScanState} {c : Char} {p : Piece}
    (h : p ∈ (scanStep state c).2) : p.last = c := by
  cases state with
  | longLong => simp_all [scanStep, Piece.last]
  | _ =>
    simp only [scanStep] at h
    split_ifs at h <;> simp_all [Piece.last]

/-- The pieces have their characters from the format. -/
theorem scan_noNul {state : ScanState} {cs : List Char} {pieces : List Piece}
    (h : scan state cs = some pieces) (hcs : nul ∉ cs) : ∀ p ∈ pieces, p.last ≠ nul := by
  induction cs generalizing state pieces with
  | nil =>
    cases state <;> simp only [scan, Option.some.injEq, reduceCtorEq] at h
    simp [← h]
  | cons c cs ih =>
    have hstep : scan state (c :: cs) =
        (scan (scanStep state c).1 cs).map ((scanStep state c).2 ++ ·) := by
      cases state <;> rfl
    rw [hstep, Option.map_eq_some_iff] at h
    obtain ⟨rest, hrest, rfl⟩ := h
    rw [List.mem_cons, not_or] at hcs
    intro p hp
    rcases List.mem_append.mp hp with hhead | htail
    · rw [scanStep_last hhead]
      exact Ne.symm hcs.1
    · exact ih hrest hcs.2 p htail

theorem digitOf_ne_nul (uppercase : Bool) : ∀ value < 16, digitOf uppercase value ≠ nul := by
  cases uppercase <;> decide

theorem digitsOf_noNul {radix : ℕ} (hpos : 0 < radix) (hle : radix ≤ 16) (uppercase : Bool)
    (room value : ℕ) : nul ∉ digitsOf radix uppercase room value := by
  induction room generalizing value with
  | zero => simp [digitsOf]
  | succ room ih =>
    have hdigit := digitOf_ne_nul uppercase (value % radix)
      (Nat.lt_of_lt_of_le (Nat.mod_lt _ hpos) hle)
    rw [digitsOf, List.mem_cons, not_or]
    refine ⟨hdigit.symm, ?_⟩
    split_ifs
    · exact ih _
    · simp

theorem stringText_noNul (value : Chars) (remaining index : ℕ) :
    nul ∉ stringText value remaining index := by
  induction remaining generalizing index with
  | zero => simp [stringText]
  | succ remaining ih =>
    rw [stringText]
    split_ifs with hnul
    · simp
    · rw [List.mem_cons, not_or]
      exact ⟨Ne.symm hnul, ih _⟩

theorem unsignedText_noNul (value : Word) {radix : ℕ} (hradix : radix = 10 ∨ radix = 16)
    (uppercase : Bool) : nul ∉ unsignedText value radix uppercase := by
  rw [unsignedText, List.mem_reverse]
  exact digitsOf_noNul (by omega) (by omega) _ _ _

theorem signedText_noNul (value : Word) : nul ∉ signedText value := by
  rw [signedText]
  split_ifs
  · rw [List.mem_cons, not_or]
    exact ⟨by decide, unsignedText_noNul _ (Or.inl rfl) _⟩
  · exact unsignedText_noNul _ (Or.inl rfl) _

theorem argumentText_noNul (value : Option Chars) : nul ∉ argumentText value := by
  cases value with
  | none => decide
  | some value => exact stringText_noNul value _ _

theorem conversionText_noNul (memory : ByteMemory) (longArgument longLongArgument : Bool)
    {conversion : Char} (h : conversion ≠ nul) (args : VaList) :
    nul ∉ conversionText memory longArgument longLongArgument conversion args := by
  rw [conversionText]
  split_ifs
  · exact signedText_noNul _
  · exact unsignedText_noNul _ (Or.inl rfl) _
  · exact unsignedText_noNul _ (Or.inr rfl) _
  · exact unsignedText_noNul _ (Or.inr rfl) _
  · simp only [List.mem_cons, not_or]
    exact ⟨by decide, by decide, unsignedText_noNul _ (Or.inr rfl) _⟩
  · exact argumentText_noNul _
  · have hlength : nul ∉ lengthText longArgument longLongArgument := by
      cases longArgument <;> cases longLongArgument <;> decide
    simp only [List.mem_cons, List.mem_append, List.not_mem_nil, or_false, not_or]
    exact ⟨by decide, hlength, h.symm⟩

theorem render_noNul (memory : ByteMemory) {pieces : List Piece}
    (h : ∀ p ∈ pieces, p.last ≠ nul) (args : VaList) : nul ∉ render memory pieces args := by
  induction pieces generalizing args with
  | nil => simp [render]
  | cons p pieces ih =>
    have hlast := h p List.mem_cons_self
    have hrest := ih fun q hq => h q (List.mem_cons_of_mem _ hq)
    cases p with
    | char c =>
      rw [render, List.mem_cons, not_or]
      exact ⟨hlast.symm, hrest args⟩
    | conversion longArgument longLongArgument c =>
      rw [render, List.mem_append, not_or]
      exact ⟨conversionText_noNul memory _ _ hlast args, hrest _⟩

/-- The buffer after the call, against the text of the pieces. -/
theorem formatMessage_text (memory : ByteMemory) (buffer : List Char)
    (hbuffer : 1 ≤ buffer.length) {format : CString} {pieces : List Piece}
    (hscan : scan .text format.chars = some pieces) (args : VaList) :
    ∃ buffer', formatMessage memory buffer (some format) args = .ok buffer' ∧
      buffer'.length = buffer.length ∧ nul ∈ buffer' ∧
      textOf buffer' = (render memory pieces args).take (buffer.length - 1) := by
  have hholds := (TextBuffer.holds_nil nul hbuffer).pushAll (render memory pieces args)
  rw [List.nil_append] at hholds
  have hlength := TextBuffer.length_pushAll nul ⟨buffer.set 0 nul, 0⟩
    (render memory pieces args)
  rw [List.length_set] at hlength
  have hread := hholds.read (render_noNul memory (scan_noNul hscan format.noNul) args)
  rw [hlength] at hread
  refine ⟨_, ?_, hlength, ?_, hread⟩
  · rw [formatMessage_eq memory hbuffer, hscan]
  · obtain ⟨rest, hkept⟩ := hholds.kept
    rw [hkept]
    simp

/-- For every buffer, the text is the first part of the one that an unlimited buffer gets. -/
theorem formatMessage_truncates (memory : ByteMemory) (format : CString) (args : VaList)
    (h : ¬ EndsInConversion format) :
    ∃ pieces, scan .text format.chars = some pieces ∧
      (∀ buffer : List Char, (render memory pieces args).length < buffer.length →
        ∃ buffer', formatMessage memory buffer (some format) args = .ok buffer' ∧
          textOf buffer' = render memory pieces args) ∧
      ∀ buffer : List Char, 1 ≤ buffer.length →
        ∃ buffer', formatMessage memory buffer (some format) args = .ok buffer' ∧
          buffer'.length = buffer.length ∧ nul ∈ buffer' ∧
          textOf buffer' = (render memory pieces args).take (buffer.length - 1) := by
  obtain ⟨pieces, hscan⟩ := Option.ne_none_iff_exists'.mp h
  refine ⟨pieces, hscan, ?_, ?_⟩
  · intro buffer hlong
    obtain ⟨buffer', hok, -, -, htext⟩ :=
      formatMessage_text memory buffer (by omega) hscan args
    refine ⟨buffer', hok, ?_⟩
    rw [htext, List.take_of_length_le (by omega)]
  · intro buffer hbuffer
    exact formatMessage_text memory buffer hbuffer hscan args

/-- A format with a decimal conversion. -/
theorem decimal_noNul : nul ∉ ['i', '=', '%', 'd'] := by decide

theorem formatMessage_truncates_decimal :
    (∀ buffer : List Char, 4 < buffer.length →
      ∃ buffer', formatMessage (fun _ => 0) buffer (some ⟨['i', '=', '%', 'd'], decimal_noNul⟩)
        (fun _ => 42) = .ok buffer' ∧ textOf buffer' = ['i', '=', '4', '2']) ∧
    ∀ buffer : List Char, 1 ≤ buffer.length →
      ∃ buffer', formatMessage (fun _ => 0) buffer (some ⟨['i', '=', '%', 'd'], decimal_noNul⟩)
        (fun _ => 42) = .ok buffer' ∧ buffer'.length = buffer.length ∧ nul ∈ buffer' ∧
        textOf buffer' = ['i', '=', '4', '2'].take (buffer.length - 1) := by
  obtain ⟨pieces, hscan, h⟩ := formatMessage_truncates (fun _ => 0)
    ⟨['i', '=', '%', 'd'], decimal_noNul⟩ (fun _ => 42) (by decide)
  obtain rfl : [.char 'i', .char '=', .conversion false false 'd'] = pieces := Option.some.inj hscan
  have htext : render (fun _ => 0) [.char 'i', .char '=', .conversion false false 'd']
      (fun _ => 42) = ['i', '=', '4', '2'] := by decide
  rw [htext] at h
  exact h

end ComLogger

end NovaHypervisor

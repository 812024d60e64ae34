import NovaHypervisor.FormatTruncation
import NovaHypervisor.General.Mutex

/-!
The log messages on the serial port. `VWrite` formats its message, takes the write lock
and sends a prefix, the message and a line end, and before each character it polls the
line status. The lock and the polls are tried a fixed number of times. Any number of
processors write, and the port answers each poll as it likes.
-/
namespace NovaHypervisor

open General

namespace ComLogger

inductive Level where
  | debug
  | info
  | error
  deriving DecidableEq

def prefixForLevel : Level → String
  | .debug => "[NovaHypervisor][DEBUG] "
  | .info => "[NovaHypervisor][INFO] "
  | .error => "[NovaHypervisor][ERROR] "

def transmitReadyRetries : ℕ := 100000

def writeLockRetries : ℕ := 100000

def lineStatusTransmitEmpty : BitVec 8 := 0x20

/-- A call of `VWrite` behind the formatting: the level and the message buffer. -/
abbrev LogCall := Level × List Char

def charsOf (buffer : List Char) : Chars := fun i => buffer.getD i nul

/-- What `VWrite` passes to `WriteChar`. -/
def recordText (call : LogCall) : List Char :=
  stringText (literal (prefixForLevel call.1)) messageBufferSize 0 ++
    (stringText (charsOf call.2) messageBufferSize 0 ++ stringText (literal "\r\n") 3 0)

def vwrite (memory : ByteMemory) (level : Level) (format : Option CString) (args : VaList) :
    Except Fault LogCall := do
  let message ← formatMessage memory (List.replicate messageBufferSize nul) format args
  .ok (level, message)

/-- A call that holds the lock is before a poll for the next character, or has seen that the
port is ready for it. -/
inductive LogPc where
  | poll (text : List Char) (attempt : ℕ)
  | send (value : Char) (text : List Char)

namespace LogPc

/-- What the call has not yet sent or dropped. -/
def left : LogPc → List Char
  | .poll text _ => text
  | .send value text => value :: text

/-- One access of the port, with the line status that a poll reads. -/
def next (status : BitVec 8) (sent : List Char) : LogPc → (LogPc × List Char) ⊕ Unit
  | .poll [] _ => .inr ()
  | .poll (value :: text) attempt =>
    if attempt < transmitReadyRetries then
      if status &&& lineStatusTransmitEmpty ≠ 0 then .inl (.send value text, sent)
      else .inl (.poll (value :: text) (attempt + 1), sent)
    -- the port was never ready, and the character is dropped
    else .inl (.poll text 0, sent)
  | .send value text => .inl (.poll text 0, sent ++ [value])

end LogPc

/-- The data is what the port has transmitted. -/
def writeSection : Section LogCall LogPc (List Char) Unit (BitVec 8) where
  start call := .poll (recordText call) 0
  next status pc sent := pc.next status sent

/-- `TryAcquireWriteLock` gives up. -/
def writeLock : Mutex.Acquire := ⟨some writeLockRetries, false⟩

def TransmitReady (status : BitVec 8) : Prop := status &&& lineStatusTransmitEmpty ≠ 0

inductive PortAccess where
  | poll (status : BitVec 8)
  | write (value : Char)
  deriving DecidableEq

/-- The access of the port that a step of a call makes. -/
def LogPc.access (status : BitVec 8) : LogPc → Option PortAccess
  | .poll [] _ => none
  | .poll (_ :: _) attempt => if attempt < transmitReadyRetries then some (.poll status) else none
  | .send value _ => some (.write value)

def portAccesses (trace : List (LogPc × BitVec 8)) : List PortAccess :=
  trace.filterMap fun (pc, status) => pc.access status

def written (accesses : List PortAccess) : List Char :=
  accesses.filterMap fun
    | .poll _ => none
    | .write value => some value

/-- Polls that find the port not ready. -/
def Busy (busy : List (BitVec 8)) : Prop := ∀ status ∈ busy, ¬ TransmitReady status

/-- A character is written after the first poll that finds the port ready, and dropped only
after as many polls as are made without one. -/
inductive Offered (value : Char) : List PortAccess → Prop
  | sent {busy : List (BitVec 8)} {ready : BitVec 8} : Busy busy →
      busy.length < transmitReadyRetries → TransmitReady ready →
      Offered value (busy.map .poll ++ [.poll ready, .write value])
  | dropped {busy : List (BitVec 8)} : Busy busy → busy.length = transmitReadyRetries →
      Offered value (busy.map .poll)

/-- The characters of a text are offered to the port one after the other. -/
def Recorded (text : List Char) (accesses : List PortAccess) : Prop :=
  ∃ parts, List.Forall₂ Offered text parts ∧ accesses = parts.flatten

/-- The polls for the character that a call is at. -/
def LogPc.Waits : LogPc → List PortAccess → Prop
  | .poll text attempt, accesses => ∃ busy : List (BitVec 8), accesses = busy.map .poll ∧
      Busy busy ∧ busy.length = attempt ∧ attempt ≤ transmitReadyRetries ∧
      (text = [] → attempt = 0)
  | .send _ _, accesses => ∃ (busy : List (BitVec 8)) (ready : BitVec 8),
      accesses = busy.map .poll ++ [.poll ready] ∧ Busy busy ∧
      busy.length < transmitReadyRetries ∧ TransmitReady ready

/-- A call has offered the characters of its record that are not left, and polls for the next
one. -/
def InRecord (call : LogCall) (pc : LogPc) (accesses : List PortAccess) : Prop :=
  ∃ offered before polls, recordText call = offered ++ pc.left ∧ Recorded offered before ∧
    pc.Waits polls ∧ accesses = before ++ polls

theorem Recorded.snoc {text : List Char} {accesses : List PortAccess} (h : Recorded text accesses)
    {value : Char} {part : List PortAccess} (hpart : Offered value part) :
    Recorded (text ++ [value]) (accesses ++ part) := by
  obtain ⟨parts, hparts, rfl⟩ := h
  exact ⟨parts ++ [part], List.rel_append hparts (.cons hpart .nil), by simp⟩

theorem waits_start (text : List Char) : (LogPc.poll text 0).Waits [] :=
  ⟨[], rfl, by simp [Busy], rfl, Nat.zero_le _, fun _ => rfl⟩

theorem inRecord_start (call : LogCall) : InRecord call (.poll (recordText call) 0) [] :=
  ⟨[], [], [], rfl, ⟨[], .nil, rfl⟩, waits_start _, rfl⟩

/-- What one step adds to the accesses of the port and to what the port has got. -/
theorem InRecord.next {call : LogCall} {pc pc' : LogPc} {accesses : List PortAccess}
    {status : BitVec 8} {sent sent' : List Char} (h : InRecord call pc accesses)
    (hnext : pc.next status sent = .inl (pc', sent')) :
    InRecord call pc' (accesses ++ (pc.access status).toList) ∧
      sent' = sent ++ written (pc.access status).toList := by
  obtain ⟨offered, before, polls, htext, hbefore, hwaits, rfl⟩ := h
  cases pc with
  | send value text =>
    obtain ⟨rfl, rfl⟩ := Prod.mk.inj (Sum.inl.inj hnext)
    obtain ⟨busy, ready, rfl, hbusy, hlength, hready⟩ := hwaits
    refine ⟨⟨offered ++ [value], _, [], ?_, hbefore.snoc (.sent hbusy hlength hready),
      waits_start text, ?_⟩, rfl⟩
    · simpa [LogPc.left] using htext
    · simp [LogPc.access]
  | poll text attempt =>
    obtain ⟨busy, rfl, hbusy, rfl, hmost, hempty⟩ := hwaits
    cases text with
    | nil => simp [LogPc.next] at hnext
    | cons value text =>
      simp only [LogPc.next] at hnext
      split_ifs at hnext with hmore hready <;>
        obtain ⟨rfl, rfl⟩ := Prod.mk.inj (Sum.inl.inj hnext)
      · refine ⟨⟨offered, before, busy.map .poll ++ [.poll status], htext, hbefore,
          ⟨busy, status, rfl, hbusy, hmore, hready⟩, ?_⟩, ?_⟩
        · simp [LogPc.access, hmore]
        · simp [LogPc.access, hmore, written]
      · refine ⟨⟨offered, before, (busy ++ [status]).map .poll, htext, hbefore,
          ⟨busy ++ [status], rfl, ?_, by simp, hmore, by simp⟩, ?_⟩, ?_⟩
        · intro st hst
          rcases List.mem_append.mp hst with hst | hst
          · exact hbusy st hst
          · rw [List.mem_singleton.mp hst]
            exact hready
        · simp [LogPc.access, hmore]
        · simp [LogPc.access, hmore, written]
      · refine ⟨⟨offered ++ [value], _, [], ?_,
          hbefore.snoc (.dropped hbusy (le_antisymm hmost (Nat.le_of_not_lt hmore))),
          waits_start text, ?_⟩, ?_⟩
        · simpa [LogPc.left] using htext
        · simp [LogPc.access, hmore]
        · simp [LogPc.access, hmore, written]

/-- A call that ends has offered its whole record. -/
theorem InRecord.ends {call : LogCall} {pc : LogPc} {accesses : List PortAccess}
    {status : BitVec 8} {sent : List Char} {r : Unit} (h : InRecord call pc accesses)
    (hnext : pc.next status sent = .inr r) : Recorded (recordText call) accesses := by
  obtain ⟨offered, before, polls, htext, hbefore, hwaits, rfl⟩ := h
  cases pc with
  | send value text => simp [LogPc.next] at hnext
  | poll text attempt =>
    cases text with
    | nil =>
      obtain ⟨busy, rfl, _, hlength, _, hempty⟩ := hwaits
      rw [hempty rfl] at hlength
      rw [List.eq_nil_of_length_eq_zero hlength, htext]
      simpa [LogPc.left] using hbefore
    | cons value text =>
      simp only [LogPc.next] at hnext
      split_ifs at hnext

theorem portAccesses_snoc (trace : List (LogPc × BitVec 8)) (pc : LogPc) (status : BitVec 8) :
    portAccesses (trace ++ [(pc, status)]) =
      portAccesses trace ++ (pc.access status).toList := by
  rw [portAccesses, List.filterMap_append]
  refine congrArg _ ?_
  rcases haccess : pc.access status with _ | access <;> simp [haccess]

/-- The port has got what the accesses write. -/
def Received (data : List Char × List (LogPc × BitVec 8)) : Prop :=
  data.1 = written (portAccesses data.2)

theorem traced_step {call : LogCall} {pc pc' : LogPc} {before accesses : List PortAccess}
    {status : BitVec 8} {data data' : List Char × List (LogPc × BitVec 8)}
    (h : InRecord call pc accesses) (hdata : portAccesses data.2 = before ++ accesses)
    (hreceived : Received data)
    (hnext : writeSection.traced.next status pc data = .inl (pc', data')) :
    ∃ accesses', InRecord call pc' accesses' ∧ portAccesses data'.2 = before ++ accesses' ∧
      Received data' := by
  obtain ⟨hstep, htrace⟩ := Section.traced_next_inl hnext
  obtain ⟨hrecord, hsent⟩ := h.next hstep
  refine ⟨_, hrecord, ?_, ?_⟩
  · rw [htrace, portAccesses_snoc, hdata, List.append_assoc]
  · rw [Received, hsent, htrace, portAccesses_snoc, hreceived]
    simp [written]

theorem steps_inRecord {call : LogCall} {pc : LogPc}
    {data data' : List Char × List (LogPc × BitVec 8)} (hreceived : Received data)
    (h : writeSection.traced.Steps (.poll (recordText call) 0) data pc data') :
    ∃ accesses, InRecord call pc accesses ∧
      portAccesses data'.2 = portAccesses data.2 ++ accesses ∧ Received data' := by
  generalize hstart : LogPc.poll (recordText call) 0 = start at h
  induction h with
  | refl =>
    subst hstart
    exact ⟨[], inRecord_start call, by simp, hreceived⟩
  | tail _ hnext ih =>
    obtain ⟨accesses, hrecord, hdata, hreceived'⟩ := ih hreceived
    exact traced_step hrecord hdata hreceived' hnext

theorem ends_recorded {call : LogCall} {pc : LogPc} {before accesses : List PortAccess}
    {data data' : List Char × List (LogPc × BitVec 8)} {r : Unit}
    (hends : writeSection.traced.Ends pc data r data') (h : InRecord call pc accesses)
    (hdata : portAccesses data.2 = before ++ accesses) (hreceived : Received data) :
    ∃ accesses', Recorded (recordText call) accesses' ∧
      portAccesses data'.2 = before ++ accesses' ∧ Received data' := by
  induction hends generalizing accesses with
  | done hnext => exact ⟨accesses, h.ends (Section.traced_next_inr hnext), hdata, hreceived⟩
  | step hnext _ ih =>
    obtain ⟨accesses1, hrecord, hdata1, hreceived1⟩ := traced_step h hdata hreceived hnext
    exact ih hrecord hdata1 hreceived1

theorem serial_recorded {ι : Type*} {log : List (ι × LogCall × Unit)}
    {data : List Char × List (LogPc × BitVec 8)}
    (h : writeSection.traced.Serial ([], []) log data) :
    ∃ records : List (List PortAccess),
      List.Forall₂ (fun entry record => Recorded (recordText entry.2.1) record) log records ∧
      portAccesses data.2 = records.flatten ∧ Received data := by
  induction h with
  | nil => exact ⟨[], .nil, rfl, rfl⟩
  | snoc i call _ hends ih =>
    obtain ⟨records, hrecords, hdata, hreceived⟩ := ih
    obtain ⟨record, hrecord, hdata', hreceived'⟩ :=
      ends_recorded hends (inRecord_start call) (by rw [hdata, List.append_nil]) hreceived
    exact ⟨records ++ [record], List.rel_append hrecords (.cons hrecord .nil), by simp [hdata'],
      hreceived'⟩

/-- No poll for the next character has failed. -/
def LogPc.Fresh : LogPc → Prop
  | .poll _ attempt => attempt = 0
  | .send _ _ => True

theorem next_ready {status : BitVec 8} {sent sent' : List Char} {pc pc' : LogPc}
    (hready : TransmitReady status) (hfresh : pc.Fresh)
    (h : pc.next status sent = .inl (pc', sent')) :
    pc'.Fresh ∧ ∃ piece, sent' = sent ++ piece ∧ piece ++ pc'.left = pc.left := by
  cases pc with
  | send value text =>
    obtain ⟨rfl, rfl⟩ := Prod.mk.inj (Sum.inl.inj h)
    exact ⟨rfl, [value], rfl, rfl⟩
  | poll text attempt =>
    obtain rfl : attempt = 0 := hfresh
    cases text with
    | nil => simp [LogPc.next] at h
    | cons value text =>
      have hpos : 0 < transmitReadyRetries := by decide
      have hset : status &&& lineStatusTransmitEmpty ≠ 0 := hready
      simp only [LogPc.next, if_pos hpos, if_pos hset] at h
      obtain ⟨rfl, rfl⟩ := Prod.mk.inj (Sum.inl.inj h)
      exact ⟨trivial, [], by simp, rfl⟩

theorem steps_ready {pc pc' : LogPc} {sent sent' : List Char}
    (h : (writeSection.restrict TransmitReady).Steps pc sent pc' sent') (hfresh : pc.Fresh) :
    pc'.Fresh ∧ ∃ piece, sent' = sent ++ piece ∧ piece ++ pc'.left = pc.left := by
  induction h with
  | refl => exact ⟨hfresh, [], by simp, rfl⟩
  | @tail _ _ _ _ _ status _ hnext ih =>
    obtain ⟨hfresh', piece, rfl, hpiece⟩ := ih
    obtain ⟨hfresh'', piece', rfl, hpiece'⟩ := next_ready status.2 hfresh' hnext
    exact ⟨hfresh'', piece ++ piece', by simp, by rw [List.append_assoc, hpiece', hpiece]⟩

theorem ends_ready {pc : LogPc} {sent sent' : List Char} {r : Unit}
    (h : (writeSection.restrict TransmitReady).Ends pc sent r sent') (hfresh : pc.Fresh) :
    sent' = sent ++ pc.left := by
  induction h with
  | @done pc sent _ status hnext =>
    cases pc with
    | send value text => simp [Section.restrict, writeSection, LogPc.next] at hnext
    | poll text attempt =>
      cases text with
      | nil => simp [LogPc.left]
      | cons value text =>
        simp only [Section.restrict, writeSection, LogPc.next] at hnext
        split_ifs at hnext
  | @step _ _ _ _ _ _ status hnext _ ih =>
    obtain ⟨hfresh', piece, rfl, hpiece⟩ := next_ready status.2 hfresh hnext
    rw [ih hfresh', List.append_assoc, hpiece]

theorem serial_ready {ι : Type*} {log : List (ι × LogCall × Unit)} {sent : List Char}
    (h : (writeSection.restrict TransmitReady).Serial [] log sent) :
    sent = (log.map fun entry => recordText entry.2.1).flatten := by
  induction h with
  | nil => rfl
  | snoc i call _ hends ih =>
    rw [ends_ready hends rfl, ih]
    simp [Section.restrict, writeSection, LogPc.left]

theorem stringText_charsOf (buffer : List Char) (remaining index : ℕ) :
    stringText (charsOf buffer) remaining index = textOf ((buffer.drop index).take remaining) := by
  induction remaining generalizing index with
  | zero => simp [stringText, textOf]
  | succ remaining ih =>
    rw [stringText, ih]
    by_cases hindex : index < buffer.length
    · have hchar : charsOf buffer index = buffer[index] := by simp [charsOf, hindex]
      rw [hchar, List.drop_eq_getElem_cons hindex, List.take_succ_cons]
      by_cases hnul : buffer[index] = nul <;> simp [textOf, hnul]
    · have hchar : charsOf buffer index = nul := by simp [charsOf, Nat.le_of_not_lt hindex]
      rw [if_pos hchar, List.drop_eq_nil_of_le (Nat.le_of_not_lt hindex)]
      rfl

theorem prefix_text (level : Level) :
    stringText (literal (prefixForLevel level)) messageBufferSize 0 =
      (prefixForLevel level).toList := by
  cases level <;> decide +kernel

/-- A record of at most 511 characters of the formatted text. -/
theorem recordText_vwrite (memory : ByteMemory) (level : Level) {format : CString}
    {pieces : List Piece} (hscan : scan .text format.chars = some pieces) (args : VaList) :
    ∃ call, vwrite memory level (some format) args = .ok call ∧
      recordText call = (prefixForLevel level).toList ++
        ((render memory pieces args).take (messageBufferSize - 1) ++ ['\r', '\n']) := by
  have hsize : messageBufferSize = 512 := rfl
  have hbuffer : 1 ≤ (List.replicate messageBufferSize nul).length := by
    rw [List.length_replicate]
    omega
  obtain ⟨message, hok, hlength, -, htext⟩ :=
    formatMessage_text memory (List.replicate messageBufferSize nul) hbuffer hscan args
  rw [List.length_replicate] at hlength htext
  refine ⟨(level, message), ?_, ?_⟩
  · rw [vwrite, hok]
    rfl
  · have hmessage : stringText (charsOf message) messageBufferSize 0 = textOf message := by
      rw [stringText_charsOf, List.drop_zero, List.take_of_length_le (by omega)]
    rw [recordText, prefix_text, hmessage, htext]
    rfl

theorem stringText_length (value : Chars) (remaining index : ℕ) :
    (stringText value remaining index).length ≤ remaining := by
  induction remaining generalizing index with
  | zero => simp [stringText]
  | succ remaining ih =>
    have hrest := ih (index + 1)
    rw [stringText]
    split_ifs
    · simp
    · rw [List.length_cons]
      omega

/-- A prefix has 24 characters at most, and a line end has two. -/
theorem recordText_length (call : LogCall) : (recordText call).length ≤ 538 := by
  have hprefix : ∀ level, (prefixForLevel level).toList.length ≤ 24 := by
    intro level
    cases level <;> decide
  have hmessage := stringText_length (charsOf call.2) messageBufferSize 0
  have hsize : messageBufferSize = 512 := rfl
  have hend : (stringText (literal "\r\n") 3 0).length = 2 := by decide
  have hlevel := hprefix call.1
  rw [recordText, prefix_text, List.length_append, List.length_append]
  omega

/-- The accesses of the port that are left. -/
def LogPc.measure : LogPc → ℕ
  | .poll [] _ => 0
  | .poll (_ :: text) attempt =>
    text.length * (transmitReadyRetries + 1) + (transmitReadyRetries - attempt) + 1
  | .send _ text => text.length * (transmitReadyRetries + 1) + 1

theorem measure_poll (text : List Char) :
    (LogPc.poll text 0).measure = text.length * (transmitReadyRetries + 1) := by
  cases text with
  | nil => simp [LogPc.measure]
  | cons value text =>
    simp only [LogPc.measure, List.length_cons, Nat.add_one_mul, Nat.sub_zero]
    omega

theorem next_measure {status : BitVec 8} {sent sent' : List Char} {pc pc' : LogPc}
    (h : pc.next status sent = .inl (pc', sent')) : pc'.measure < pc.measure := by
  cases pc with
  | send value text =>
    obtain ⟨rfl, rfl⟩ := Prod.mk.inj (Sum.inl.inj h)
    rw [measure_poll]
    simp only [LogPc.measure]
    omega
  | poll text attempt =>
    cases text with
    | nil => simp [LogPc.next] at h
    | cons value text =>
      simp only [LogPc.next] at h
      split_ifs at h with hmore hready <;> obtain ⟨rfl, rfl⟩ := Prod.mk.inj (Sum.inl.inj h)
      · simp only [LogPc.measure]
        omega
      · simp only [LogPc.measure]
        omega
      · rw [measure_poll]
        simp only [LogPc.measure]
        omega

/-- However the processors' writes interleave and whatever the port answers, the run's accesses
of the port are those of the records one after the other, and in each the characters of its
text are offered to the port in order. -/
theorem log_records_of_run {ι : Type*} [DecidableEq ι]
    {s : Mutex.State ι LogCall LogPc (List Char) Unit}
    {actions : List (Mutex.Action ι LogCall (BitVec 8))}
    (hrun : Run (Mutex.step writeLock writeSection) (Mutex.initial []) actions s) :
    (∀ i j, (s.phase i).Holds → (s.phase j).Holds → i = j) ∧
    ∃ t, Run (Mutex.step writeLock writeSection.traced) (Mutex.initial ([], [])) actions t ∧
      t.forget = s ∧ s.data = written (portAccesses t.data.2) ∧
      ∃ (records : List (List PortAccess)) (rest : List PortAccess),
        List.Forall₂ (fun entry record => Recorded (recordText entry.2.1) record) s.log records ∧
        portAccesses t.data.2 = records.flatten ++ rest ∧
        (rest = [] ∨ ∃ i call pc, s.phase i = .inside call pc ∧ InRecord call pc rest) := by
  obtain ⟨t, htraced, rfl⟩ := Mutex.exists_run_traced hrun
    (t := Mutex.initial ([], [])) rfl
  have h := Mutex.exclusive_along_run htraced
  obtain ⟨data, hserial, hsteps, hidle⟩ := h.serial
  obtain ⟨records, hrecords, hdata, hreceived⟩ := serial_recorded hserial
  refine ⟨h.holder, t, htraced, rfl, ?_⟩
  by_cases hinside : ∃ i call pc, t.phase i = .inside call pc
  · obtain ⟨i, call, pc, hphase⟩ := hinside
    obtain ⟨rest, hrest, hdata', hreceived'⟩ := steps_inRecord hreceived (hsteps i call pc hphase)
    rw [hdata] at hdata'
    exact ⟨hreceived', records, rest, hrecords, hdata', Or.inr ⟨i, call, pc, hphase, hrest⟩⟩
  · have hend : t.data = data := hidle fun i call pc hphase => hinside ⟨i, call, pc, hphase⟩
    rw [← hend] at hdata hreceived
    exact ⟨hreceived, records, [], hrecords, by rw [hdata, List.append_nil], Or.inl rfl⟩

/-- One processor sends its first character while another one waits. -/
def firstCharacter : List (Mutex.Action Bool LogCall (BitVec 8)) :=
  [.call true (.info, ['a']), .call false (.error, ['b']), .attempt true, .attempt false,
    .enter true, .step true 0, .step true 0x20, .attempt false, .step true 0x20]

theorem log_records_of_run_firstCharacter :
    let s := execute (Mutex.step writeLock writeSection) (Mutex.initial []) firstCharacter
    let t := execute (Mutex.step writeLock writeSection.traced) (Mutex.initial ([], []))
      firstCharacter
    s.data = ['['] ∧ portAccesses t.data.2 = [.poll 0, .poll 0x20, .write '['] ∧
      ∀ i j, (s.phase i).Holds → (s.phase j).Holds → i = j :=
  ⟨by decide +kernel, by decide +kernel,
    (log_records_of_run (guardedRun_of_allowed (by decide +kernel))).1⟩

/-- On a port that is ready at every poll, the records are whole. -/
theorem log_complete_of_run {ι : Type*} [DecidableEq ι]
    {s : Mutex.State ι LogCall LogPc (List Char) Unit}
    {actions : List (Mutex.Action ι LogCall { status // TransmitReady status })}
    (hrun : Run (Mutex.step writeLock (writeSection.restrict TransmitReady)) (Mutex.initial [])
      actions s) :
    ∃ rest : List Char,
      s.data = (s.log.map fun entry => recordText entry.2.1).flatten ++ rest ∧
      (rest = [] ∨ ∃ i call pc, s.phase i = .inside call pc ∧
        rest ++ pc.left = recordText call) := by
  have h := Mutex.exclusive_along_run hrun
  obtain ⟨sent, hserial, hsteps, hidle⟩ := h.serial
  rw [serial_ready hserial] at hsteps hidle
  by_cases hinside : ∃ i call pc, s.phase i = .inside call pc
  · obtain ⟨i, call, pc, hphase⟩ := hinside
    obtain ⟨-, rest, hdata, hrest⟩ := steps_ready (hsteps i call pc hphase) rfl
    exact ⟨rest, hdata, Or.inr ⟨i, call, pc, hphase, hrest⟩⟩
  · refine ⟨[], ?_, Or.inl rfl⟩
    rw [List.append_nil]
    exact hidle fun i call pc hphase => hinside ⟨i, call, pc, hphase⟩

/-- The first two characters of a record on a ready port. -/
def readyCharacters : List (Mutex.Action Bool LogCall { status // TransmitReady status }) :=
  let ready : { status // TransmitReady status } :=
    ⟨0x60, by simp [TransmitReady, lineStatusTransmitEmpty]⟩
  [.call true (.info, ['a']), .attempt true, .enter true, .step true ready, .step true ready,
    .step true ready, .step true ready]

theorem log_complete_of_run_readyCharacters :
    let s := execute (Mutex.step writeLock (writeSection.restrict TransmitReady))
      (Mutex.initial []) readyCharacters
    s.data = ['[', 'N'] ∧ ∃ rest : List Char,
      s.data = (s.log.map fun entry => recordText entry.2.1).flatten ++ rest ∧
      (rest = [] ∨ ∃ i call pc, s.phase i = .inside call pc ∧
        rest ++ pc.left = recordText call) :=
  ⟨by decide +kernel, log_complete_of_run (guardedRun_of_allowed (by decide +kernel))⟩

/-- A call of `VWrite` is over after a fixed number of the processor's own steps, whatever
the other processors and the port do, and until then the processor has a step to take. -/
theorem write_bounded_of_run {ι : Type*} [DecidableEq ι]
    {s s' : Mutex.State ι LogCall LogPc (List Char) Unit}
    {actions : List (Mutex.Action ι LogCall (BitVec 8))} {i : ι} {call : LogCall}
    (hcall : s.phase i = .waiting call 0)
    (hrun : GuardedRun (Mutex.step writeLock writeSection)
      (fun _ action => action.thread = i → action.isCall = false) s actions s') :
    (actions.filter (·.thread = i)).length ≤
      538 * (transmitReadyRetries + 1) + writeLockRetries + 4 ∧
    (s'.phase i ≠ .idle → ∀ status : BitVec 8,
      ∃ action ∈ [.attempt i, .giveUp i, .enter i, .step i status, .release i],
        (Mutex.step writeLock writeSection s' action).isSome = true) := by
  refine ⟨?_, fun hactive status => Mutex.exists_step_of_active _ _ _ _ status hactive⟩
  have hlimit : writeLock.limit = some writeLockRetries := rfl
  have hmeasure : ∀ status pc sent pc' sent',
      writeSection.next status pc sent = .inl (pc', sent') → pc'.measure < pc.measure :=
    fun _ _ _ _ _ hnext => next_measure hnext
  have hrank := Mutex.rank_of_run hlimit rfl hmeasure i hrun
  have hlength := Nat.mul_le_mul_right (transmitReadyRetries + 1) (recordText_length call)
  have hstart : (writeSection.start call).measure =
      (recordText call).length * (transmitReadyRetries + 1) := measure_poll _
  rw [hcall] at hrank
  simp only [Mutex.Phase.rank, hstart] at hrank
  omega

/-- A call has begun. -/
def begunCall : Mutex.State Bool LogCall LogPc (List Char) Unit :=
  (Mutex.initial []).setPhase true (.waiting (.info, ['a']) 0)

theorem write_bounded_of_run_begunCall :
    let actions : List (Mutex.Action Bool LogCall (BitVec 8)) :=
      [.attempt true, .call false (.error, ['b']), .enter true, .attempt false, .step true 0]
    (actions.filter (·.thread = true)).length ≤
      538 * (transmitReadyRetries + 1) + writeLockRetries + 4 := by
  have hphase : begunCall.phase true = .waiting (.info, ['a']) 0 := rfl
  exact (write_bounded_of_run hphase (guardedRun_of_allowed (by decide +kernel))).1

end ComLogger

end NovaHypervisor

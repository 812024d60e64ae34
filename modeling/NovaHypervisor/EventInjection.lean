import NovaHypervisor.Vmcs

/-!
The event that a VM entry delivers. The three fields of the VMCS for it are written by
the handler's own faults, by the reflection of an exception and by the re-injection of
the event whose delivery the exit interrupted. An event fixes what the three fields hold.
-/
namespace NovaHypervisor

open General

inductive InterruptType where
  | externalInterrupt
  | reserved
  | nmi
  | hardwareException
  | softwareInterrupt
  | privilegedSoftwareInterrupt
  | softwareException
  | otherEvent
  deriving DecidableEq

namespace InterruptType

def code : InterruptType → BitVec 32
  | externalInterrupt => 0
  | reserved => 1
  | nmi => 2
  | hardwareException => 3
  | softwareInterrupt => 4
  | privilegedSoftwareInterrupt => 5
  | softwareException => 6
  | otherEvent => 7

/-- The cast from the three bits of a field. -/
def ofCode (code : ℕ) : InterruptType :=
  match code with
  | 0 => externalInterrupt
  | 1 => reserved
  | 2 => nmi
  | 3 => hardwareException
  | 4 => softwareInterrupt
  | 5 => privilegedSoftwareInterrupt
  | 6 => softwareException
  | _ => otherEvent

end InterruptType

/-- The vectors of the faults that the exit handler injects. -/
inductive ExceptionVector where
  | generalProtectionFault
  | pageFault

def ExceptionVector.code : ExceptionVector → BitVec 32
  | generalProtectionFault => 13
  | pageFault => 14

-- The bit fields of `INTERRUPT_INFO`, and those of `VMEXIT_INTERRUPT_INFO` that are read.
namespace InterruptInfo

def vector : BitField 32 := ⟨0, 8, by decide⟩
def interruptType : BitField 32 := ⟨8, 3, by decide⟩
def deliverCode : BitField 32 := ⟨11, 1, by decide⟩
def reserved : BitField 32 := ⟨12, 19, by decide⟩
def valid : BitField 32 := ⟨31, 1, by decide⟩

end InterruptInfo

namespace EventHandler

def eventValidMask : BitVec 32 := 0x80000000#32
def eventErrorCodeValidMask : BitVec 32 := 0x800#32
def vmEntryEventMask : BitVec 32 := eventValidMask ||| eventErrorCodeValidMask ||| 0x7FF#32

def isSoftwareEvent (interruptionType : InterruptType) : Bool :=
  interruptionType = .softwareInterrupt || interruptionType = .privilegedSoftwareInterrupt ||
    interruptionType = .softwareException

def clearPendingInjection (vmcs : Vmcs) : Vmcs :=
  ((vmcs.vmwrite .vmEntryIntrInfoField 0).vmwrite .vmEntryExceptionErrorCode 0).vmwrite
    .vmEntryInstructionLen 0

def setupInstructionLength (vmcs : Vmcs) : Vmcs :=
  vmcs.vmwrite .vmEntryInstructionLen (vmcs.vmread .vmExitInstructionLen)

def reinjectEventFromIdtVectoring (vmcs : Vmcs) : Bool × Vmcs :=
  let vmEntryInfo := vmcs.vmread .vmEntryIntrInfoField
  let idtVectoringInfo := vmcs.vmread .idtVectoringInfoField
  if vmEntryInfo &&& eventValidMask.setWidth 64 ≠ 0 ∨
      idtVectoringInfo &&& eventValidMask.setWidth 64 = 0 then (false, vmcs)
  else
    let vmcs := vmcs.vmwrite .vmEntryIntrInfoField
      (idtVectoringInfo &&& vmEntryEventMask.setWidth 64)
    let vmcs :=
      if idtVectoringInfo &&& eventErrorCodeValidMask.setWidth 64 ≠ 0 then
        vmcs.vmwrite .vmEntryExceptionErrorCode (vmcs.vmread .idtVectoringErrorCode)
      else vmcs
    let interruptionType := InterruptType.ofCode ((idtVectoringInfo >>> 8) &&& 7#64).toNat
    (true, if isSoftwareEvent interruptionType then setupInstructionLength vmcs else vmcs)

def injectEventFromVmExitInterruption (interruptExit : BitVec 32) (vmcs : Vmcs) : Bool × Vmcs :=
  if InterruptInfo.valid.get interruptExit = 0 then (false, vmcs)
  else
    let vmcs := vmcs.vmwrite .vmEntryIntrInfoField
      ((interruptExit &&& vmEntryEventMask).setWidth 64)
    let vmcs :=
      if InterruptInfo.deliverCode.get interruptExit ≠ 0 then
        vmcs.vmwrite .vmEntryExceptionErrorCode (vmcs.vmread .vmExitIntrErrorCode)
      else vmcs.vmwrite .vmEntryExceptionErrorCode 0
    let interruptionType :=
      InterruptType.ofCode (InterruptInfo.interruptType.get interruptExit).toNat
    (true, if isSoftwareEvent interruptionType then setupInstructionLength vmcs
      else vmcs.vmwrite .vmEntryInstructionLen 0)

def injectInterruption (interruptionType : InterruptType) (vector : ExceptionVector)
    (deliverErrorCode : Bool) (errorCode : BitVec 32) (vmcs : Vmcs) : Vmcs :=
  let info := InterruptInfo.valid.set 0 1
  let info := InterruptInfo.interruptType.set info interruptionType.code
  let info := InterruptInfo.vector.set info vector.code
  let info := InterruptInfo.deliverCode.set info (if deliverErrorCode then 1 else 0)
  let vmcs := vmcs.vmwrite .vmEntryIntrInfoField (info.setWidth 64)
  let vmcs := vmcs.vmwrite .vmEntryExceptionErrorCode
    (if deliverErrorCode then errorCode.setWidth 64 else 0)
  if isSoftwareEvent interruptionType then vmcs else vmcs.vmwrite .vmEntryInstructionLen 0

def injectGeneralProtection (vmcs : Vmcs) : Vmcs :=
  injectInterruption .hardwareException .generalProtectionFault true 0 vmcs

/-- The fault's address goes to CR2, which is not in the VMCS. -/
def injectPageFault (errorCode : BitVec 32) (vmcs : Vmcs) : Vmcs :=
  injectInterruption .hardwareException .pageFault true errorCode vmcs

end EventHandler

/-- Whether the type of an information field is one of the three software events. -/
def InterruptInfo.isSoftware (info : BitVec 32) : Bool :=
  EventHandler.isSoftwareEvent (InterruptType.ofCode (interruptType.get info).toNat)

/-- What an entry can deliver: the information is valid and its reserved bits are clear. -/
structure EntryEvent where
  info : BitVec 32
  errorCode : BitVec 32
  valid : InterruptInfo.valid.get info ≠ 0
  reserved : InterruptInfo.reserved.get info = 0

namespace EntryEvent

theorem valid_masked {flags : BitVec 32} (h : InterruptInfo.valid.get flags ≠ 0) :
    InterruptInfo.valid.get (flags &&& EventHandler.vmEntryEventMask) ≠ 0 := by
  have hmask : InterruptInfo.valid.get EventHandler.vmEntryEventMask = 1 := by decide
  have hone : InterruptInfo.valid.get flags = 1 :=
    (InterruptInfo.valid.get_eq_zero_or_one rfl flags).resolve_left h
  rw [BitField.get_and, hmask, hone]
  decide

theorem reserved_masked (flags : BitVec 32) :
    InterruptInfo.reserved.get (flags &&& EventHandler.vmEntryEventMask) = 0 := by
  have hmask : InterruptInfo.reserved.get EventHandler.vmEntryEventMask = 0 := by decide
  rw [BitField.get_and, hmask]
  exact BitVec.and_zero

/-- The mask keeps a field that lies in it. -/
theorem get_masked (f : BitField 32) (hf : f.get EventHandler.vmEntryEventMask = f.mask)
    (flags : BitVec 32) : f.get (flags &&& EventHandler.vmEntryEventMask) = f.get flags := by
  rw [BitField.get_and, hf, BitField.get, BitVec.and_assoc, BitVec.and_self]

theorem valid_fault (vector : ExceptionVector) :
    InterruptInfo.valid.get (0x80000B00#32 ||| vector.code) ≠ 0 := by
  cases vector with
  | generalProtectionFault => decide
  | pageFault => decide

theorem reserved_fault (vector : ExceptionVector) :
    InterruptInfo.reserved.get (0x80000B00#32 ||| vector.code) = 0 := by
  cases vector with
  | generalProtectionFault => decide
  | pageFault => decide

theorem deliverCode_fault (vector : ExceptionVector) :
    InterruptInfo.deliverCode.get (0x80000B00#32 ||| vector.code) ≠ 0 := by
  cases vector with
  | generalProtectionFault => decide
  | pageFault => decide

theorem isSoftware_fault (vector : ExceptionVector) :
    InterruptInfo.isSoftware (0x80000B00#32 ||| vector.code) = false := by
  cases vector with
  | generalProtectionFault => decide
  | pageFault => decide

/-- The event of an information field, if the field is valid. -/
def ofFlags? (flags errorCode : BitVec 32) : Option EntryEvent :=
  if h : InterruptInfo.valid.get flags ≠ 0 then
    some ⟨flags &&& EventHandler.vmEntryEventMask, errorCode, valid_masked h,
      reserved_masked flags⟩
  else none

/-- A hardware exception with an error code. -/
def fault (vector : ExceptionVector) (errorCode : BitVec 32) : EntryEvent :=
  ⟨0x80000B00#32 ||| vector.code, errorCode, valid_fault vector, reserved_fault vector⟩

end EntryEvent

namespace Vmcs

/-- The information that an entry with this event has in its field. -/
def entryInfo : Option EntryEvent → BitVec 32
  | none => 0
  | some event => event.info

def entryErrorCode : Option EntryEvent → BitVec 32
  | none => 0
  | some event => if InterruptInfo.deliverCode.get event.info = 0 then 0 else event.errorCode

/-- The three fields hold the event, or are clear without one. -/
structure Delivers (vmcs : Vmcs) (event : Option EntryEvent) : Prop where
  info : vmcs.vmread .vmEntryIntrInfoField = (entryInfo event).setWidth 64
  errorCode : vmcs.vmread .vmEntryExceptionErrorCode = (entryErrorCode event).setWidth 64
  length : vmcs.vmread .vmEntryInstructionLen =
    if InterruptInfo.isSoftware (entryInfo event) then vmcs.vmread .vmExitInstructionLen else 0

/-- The fields for the event of the next entry. -/
def entryFields : List VmcsField :=
  [.vmEntryIntrInfoField, .vmEntryExceptionErrorCode, .vmEntryInstructionLen]

/-- The event stays while neither its fields nor the exit's length change. -/
theorem Delivers.congr {vmcs vmcs' : Vmcs} {event : Option EntryEvent} {fields : List VmcsField}
    (h : vmcs.Delivers event) (hagree : AgreeOutside fields vmcs vmcs')
    (hentry : ∀ f ∈ .vmExitInstructionLen :: entryFields, f ∉ fields) :
    vmcs'.Delivers event := by
  refine ⟨?_, ?_, ?_⟩
  · rw [hagree _ (hentry _ (by decide)), h.info]
  · rw [hagree _ (hentry _ (by decide)), h.errorCode]
  · rw [hagree _ (hentry _ (by decide)), hagree _ (hentry _ (by decide)), h.length]

/-- A load of a 32-bit field has a clear high half. -/
theorem setWidth_vmread (vmcs : Vmcs) {f : VmcsField} (hf : f.mask = 0xFFFFFFFF#64) :
    ((vmcs.vmread f).setWidth 32).setWidth 64 = vmcs.vmread f := by
  apply BitVec.eq_of_toNat_eq
  have hlt : (vmcs.vmread f).toNat < 2 ^ 32 := by
    rw [vmread, hf, BitVec.toNat_and]
    exact lt_of_le_of_lt Nat.and_le_right (by decide)
  rw [BitVec.toNat_setWidth, BitVec.toNat_setWidth, Nat.mod_eq_of_lt hlt,
    Nat.mod_eq_of_lt (by omega)]

theorem setWidth_and_mask (value : BitVec 32) {f : VmcsField} (hf : f.mask = 0xFFFFFFFF#64) :
    value.setWidth 64 &&& f.mask = value.setWidth 64 := by
  have hlt := value.isLt
  apply BitVec.eq_of_toNat_eq
  rw [hf, BitVec.toNat_and, BitVec.toNat_setWidth, Nat.mod_eq_of_lt (by omega),
    show (0xFFFFFFFF#64).toNat = 2 ^ 32 - 1 from rfl, Nat.and_two_pow_sub_one_eq_mod,
    Nat.mod_eq_of_lt hlt]

section EntryStores

variable (info errorCode length : Word) (vmcs : Vmcs)

theorem vmread_info_of_entryStores :
    (((vmcs.vmwrite .vmEntryIntrInfoField info).vmwrite .vmEntryExceptionErrorCode
      errorCode).vmwrite .vmEntryInstructionLen length).vmread .vmEntryIntrInfoField =
        info &&& VmcsField.mask .vmEntryIntrInfoField := by
  rw [vmread_vmwrite_of_ne (by decide), vmread_vmwrite_of_ne (by decide), vmread_vmwrite_self]

theorem vmread_errorCode_of_entryStores :
    (((vmcs.vmwrite .vmEntryIntrInfoField info).vmwrite .vmEntryExceptionErrorCode
      errorCode).vmwrite .vmEntryInstructionLen length).vmread .vmEntryExceptionErrorCode =
        errorCode &&& VmcsField.mask .vmEntryExceptionErrorCode := by
  rw [vmread_vmwrite_of_ne (by decide), vmread_vmwrite_self]

theorem agreeOutside_entryStores :
    AgreeOutside entryFields vmcs (((vmcs.vmwrite .vmEntryIntrInfoField info).vmwrite
      .vmEntryExceptionErrorCode errorCode).vmwrite .vmEntryInstructionLen length) := by
  refine AgreeOutside.vmwrite ?_ (by decide) length
  refine AgreeOutside.vmwrite ?_ (by decide) errorCode
  exact (AgreeOutside.refl entryFields vmcs).vmwrite (by decide) info

end EntryStores

end Vmcs

namespace EventHandler

open Vmcs

variable {vmcs : Vmcs}

theorem delivers_clearPendingInjection (vmcs : Vmcs) :
    (clearPendingInjection vmcs).Delivers none := by
  refine ⟨?_, ?_, ?_⟩
  · rw [clearPendingInjection, vmread_info_of_entryStores]
    rfl
  · rw [clearPendingInjection, vmread_errorCode_of_entryStores]
    rfl
  · rw [clearPendingInjection, vmread_vmwrite_self]
    rfl

theorem agreeOutside_clearPendingInjection (vmcs : Vmcs) :
    AgreeOutside entryFields vmcs (clearPendingInjection vmcs) :=
  agreeOutside_entryStores 0 0 0 vmcs

theorem agreeOutside_setupInstructionLength (vmcs : Vmcs) :
    AgreeOutside entryFields vmcs (setupInstructionLength vmcs) :=
  (AgreeOutside.refl _ vmcs).vmwrite (by decide) _

/-- The information of a hardware exception with an error code, as the stores build it. -/
theorem injectInterruption_fault (vector : ExceptionVector) (errorCode : BitVec 32)
    (vmcs : Vmcs) :
    injectInterruption .hardwareException vector true errorCode vmcs =
      ((vmcs.vmwrite .vmEntryIntrInfoField
        ((EntryEvent.fault vector errorCode).info.setWidth 64)).vmwrite
        .vmEntryExceptionErrorCode (errorCode.setWidth 64)).vmwrite .vmEntryInstructionLen 0 := by
  cases vector with
  | generalProtectionFault => rfl
  | pageFault => rfl

/-- A fault of the handler's own leaves its event in the fields. -/
theorem delivers_injectInterruption (vector : ExceptionVector) (errorCode : BitVec 32)
    (vmcs : Vmcs) :
    (injectInterruption .hardwareException vector true errorCode vmcs).Delivers
      (some (EntryEvent.fault vector errorCode)) := by
  have hcode : entryErrorCode (some (EntryEvent.fault vector errorCode)) = errorCode :=
    if_neg (EntryEvent.deliverCode_fault vector)
  rw [injectInterruption_fault]
  refine ⟨?_, ?_, ?_⟩
  · rw [vmread_info_of_entryStores, setWidth_and_mask _ rfl]
    rfl
  · rw [vmread_errorCode_of_entryStores, setWidth_and_mask _ rfl, hcode]
  · have hsoftware : InterruptInfo.isSoftware
        (entryInfo (some (EntryEvent.fault vector errorCode))) = false :=
      EntryEvent.isSoftware_fault vector
    rw [vmread_vmwrite_self, hsoftware]
    rfl

theorem agreeOutside_injectInterruption (vector : ExceptionVector) (errorCode : BitVec 32)
    (vmcs : Vmcs) :
    AgreeOutside entryFields vmcs
      (injectInterruption .hardwareException vector true errorCode vmcs) := by
  rw [injectInterruption_fault]
  exact agreeOutside_entryStores _ _ 0 vmcs

/-- The stores of an event whose information is masked. -/
theorem delivers_of_reads {event : EntryEvent} {flags : BitVec 32}
    (hevent : event.info = flags &&& vmEntryEventMask)
    (hinfo : vmcs.vmread .vmEntryIntrInfoField = event.info.setWidth 64)
    (hcode : vmcs.vmread .vmEntryExceptionErrorCode =
      if InterruptInfo.deliverCode.get flags ≠ 0 then event.errorCode.setWidth 64 else 0)
    (hlength : vmcs.vmread .vmEntryInstructionLen =
      if InterruptInfo.isSoftware flags then vmcs.vmread .vmExitInstructionLen else 0) :
    vmcs.Delivers (some event) := by
  have hdeliver : InterruptInfo.deliverCode.get event.info =
      InterruptInfo.deliverCode.get flags := by
    rw [hevent, EntryEvent.get_masked _ (by decide)]
  have htype : InterruptInfo.isSoftware event.info = InterruptInfo.isSoftware flags := by
    rw [InterruptInfo.isSoftware, hevent, EntryEvent.get_masked _ (by decide)]
    rfl
  refine ⟨hinfo, ?_, ?_⟩
  · rw [hcode, entryErrorCode, hdeliver]
    by_cases hzero : InterruptInfo.deliverCode.get flags = 0
    · rw [if_pos hzero, if_neg (not_not_intro hzero)]
      rfl
    · rw [if_neg hzero, if_pos hzero]
  · rw [hlength, entryInfo, htype]

/-- The exception that a field of the exit describes, if it is valid. -/
def reflected (interruptExit : BitVec 32) (vmcs : Vmcs) : Option EntryEvent :=
  EntryEvent.ofFlags? interruptExit ((vmcs.vmread .vmExitIntrErrorCode).setWidth 32)

/-- The three stores of a reflected exception. -/
theorem injectEventFromVmExitInterruption_valid {interruptExit : BitVec 32}
    (hvalid : InterruptInfo.valid.get interruptExit ≠ 0) (vmcs : Vmcs) :
    injectEventFromVmExitInterruption interruptExit vmcs = (true,
      ((vmcs.vmwrite .vmEntryIntrInfoField
        ((interruptExit &&& vmEntryEventMask).setWidth 64)).vmwrite .vmEntryExceptionErrorCode
          (if InterruptInfo.deliverCode.get interruptExit ≠ 0 then
            vmcs.vmread .vmExitIntrErrorCode else 0)).vmwrite .vmEntryInstructionLen
              (if InterruptInfo.isSoftware interruptExit then
                vmcs.vmread .vmExitInstructionLen else 0)) := by
  have hcode : ∀ value, (vmcs.vmwrite .vmEntryIntrInfoField value).vmread .vmExitIntrErrorCode =
      vmcs.vmread .vmExitIntrErrorCode := fun value => vmread_vmwrite_of_ne (by decide) value vmcs
  have hlength : ∀ value code, ((vmcs.vmwrite .vmEntryIntrInfoField value).vmwrite
      .vmEntryExceptionErrorCode code).vmread .vmExitInstructionLen =
        vmcs.vmread .vmExitInstructionLen := by
    intro value code
    rw [vmread_vmwrite_of_ne (by decide), vmread_vmwrite_of_ne (by decide)]
  rw [injectEventFromVmExitInterruption, if_neg hvalid, InterruptInfo.isSoftware]
  dsimp only
  by_cases hdeliver : InterruptInfo.deliverCode.get interruptExit ≠ 0
  · rw [if_pos hdeliver, if_pos hdeliver, hcode]
    split
    · rw [setupInstructionLength, hlength]
    · rfl
  · rw [if_neg hdeliver, if_neg hdeliver]
    split
    · rw [setupInstructionLength, hlength]
    · rfl

theorem delivers_injectEventFromVmExitInterruption (h : vmcs.Delivers none)
    (interruptExit : BitVec 32) :
    (injectEventFromVmExitInterruption interruptExit vmcs).2.Delivers
      (reflected interruptExit vmcs) := by
  by_cases hvalid : InterruptInfo.valid.get interruptExit = 0
  · have hnone : reflected interruptExit vmcs = none := dif_neg (not_not_intro hvalid)
    rw [hnone, injectEventFromVmExitInterruption, if_pos hvalid]
    exact h
  · have hsome : reflected interruptExit vmcs = some ⟨interruptExit &&& vmEntryEventMask,
        (vmcs.vmread .vmExitIntrErrorCode).setWidth 32, EntryEvent.valid_masked hvalid,
        EntryEvent.reserved_masked interruptExit⟩ := dif_pos hvalid
    rw [hsome, injectEventFromVmExitInterruption_valid hvalid]
    refine delivers_of_reads rfl ?_ ?_ ?_
    · rw [vmread_info_of_entryStores, setWidth_and_mask _ rfl]
    · rw [vmread_errorCode_of_entryStores, setWidth_vmread vmcs rfl]
      split
      · exact vmread_and_mask vmcs rfl
      · rfl
    · rw [vmread_vmwrite_self, agreeOutside_entryStores _ _ _ vmcs _ (by decide)]
      split
      · exact vmread_and_mask vmcs rfl
      · rfl

theorem agreeOutside_injectEventFromVmExitInterruption (interruptExit : BitVec 32)
    (vmcs : Vmcs) :
    AgreeOutside entryFields vmcs (injectEventFromVmExitInterruption interruptExit vmcs).2 := by
  by_cases hvalid : InterruptInfo.valid.get interruptExit = 0
  · rw [injectEventFromVmExitInterruption, if_pos hvalid]
    exact AgreeOutside.refl _ vmcs
  · rw [injectEventFromVmExitInterruption_valid hvalid]
    exact agreeOutside_entryStores _ _ _ vmcs

/-- The event whose delivery the exit interrupted. -/
def vectored (vmcs : Vmcs) : Option EntryEvent :=
  EntryEvent.ofFlags? ((vmcs.vmread .idtVectoringInfoField).setWidth 32)
    ((vmcs.vmread .idtVectoringErrorCode).setWidth 32)

/-- The tests on a loaded field read the bit fields of its low half. -/
theorem setWidth_and_eq_zero_iff (f : BitField 32) {mask : BitVec 32}
    (hmask : mask = f.mask <<< f.offset) (info : BitVec 32) :
    info.setWidth 64 &&& mask.setWidth 64 = 0 ↔ f.get info = 0 := by
  rw [← BitField.and_shifted_mask_eq_zero_iff, ← hmask, ← BitVec.setWidth_and]
  constructor
  · intro hzero
    have hlow := congrArg (BitVec.setWidth 32) hzero
    rwa [BitVec.setWidth_setWidth_of_le _ (by decide), BitVec.setWidth_eq] at hlow
  · intro hzero
    rw [hzero]
    rfl

theorem interruptionType_setWidth (info : BitVec 32) :
    ((info.setWidth 64 >>> 8) &&& 7#64).toNat = (InterruptInfo.interruptType.get info).toNat := by
  have hlt := info.isLt
  rw [BitField.toNat_get, BitVec.toNat_and, BitVec.toNat_ushiftRight, BitVec.toNat_setWidth,
    Nat.mod_eq_of_lt (by omega), Nat.shiftRight_eq_div_pow,
    show (7#64).toNat = 2 ^ 3 - 1 from rfl, Nat.and_two_pow_sub_one_eq_mod]
  rfl

/-- Nothing is re-injected over an event, or without an interrupted one. -/
theorem reinjectEventFromIdtVectoring_stays {event : Option EntryEvent} (h : vmcs.Delivers event)
    (hstays : event.isSome ∨ vectored vmcs = none) :
    reinjectEventFromIdtVectoring vmcs = (false, vmcs) := by
  rw [reinjectEventFromIdtVectoring]
  dsimp only
  rw [if_pos]
  rcases hstays with hsome | hnone
  · obtain ⟨own, rfl⟩ := Option.isSome_iff_exists.mp hsome
    left
    rw [h.info]
    intro hzero
    exact own.valid ((setWidth_and_eq_zero_iff InterruptInfo.valid (by decide) _).mp hzero)
  · right
    rw [← setWidth_vmread vmcs rfl]
    refine (setWidth_and_eq_zero_iff InterruptInfo.valid (by decide) _).mpr ?_
    by_contra hvalid
    rw [vectored, EntryEvent.ofFlags?, dif_pos hvalid] at hnone
    exact Option.some_ne_none _ hnone

/-- The fields after the stores of an interrupted event, before its length. -/
theorem reads_of_stored (h : vmcs.Delivers none) {flags : BitVec 32} {entry stored : Vmcs}
    (hentry : vmcs.vmwrite .vmEntryIntrInfoField ((flags &&& vmEntryEventMask).setWidth 64) =
      entry)
    (hstored : (if flags.setWidth 64 &&& eventErrorCodeValidMask.setWidth 64 ≠ 0 then
      entry.vmwrite .vmEntryExceptionErrorCode (entry.vmread .idtVectoringErrorCode)
      else entry) = stored) :
    stored.vmread .vmEntryIntrInfoField = (flags &&& vmEntryEventMask).setWidth 64 ∧
      stored.vmread .vmEntryExceptionErrorCode =
        (if InterruptInfo.deliverCode.get flags ≠ 0 then vmcs.vmread .idtVectoringErrorCode
          else 0) ∧
      stored.vmread .vmEntryInstructionLen = 0 := by
  have hdeliver : flags.setWidth 64 &&& eventErrorCodeValidMask.setWidth 64 ≠ 0 ↔
      InterruptInfo.deliverCode.get flags ≠ 0 :=
    not_congr (setWidth_and_eq_zero_iff InterruptInfo.deliverCode (by decide) flags)
  refine ⟨?_, ?_, ?_⟩
  · rw [← hstored, ← hentry]
    split
    · rw [vmread_vmwrite_of_ne (by decide), vmread_vmwrite_self, setWidth_and_mask _ rfl]
    · rw [vmread_vmwrite_self, setWidth_and_mask _ rfl]
  · rw [← hstored, ← hentry]
    by_cases hone : InterruptInfo.deliverCode.get flags ≠ 0
    · rw [if_pos (hdeliver.mpr hone), if_pos hone, vmread_vmwrite_self,
        vmread_vmwrite_of_ne (by decide)]
      exact vmread_and_mask vmcs rfl
    · rw [if_neg (mt hdeliver.mp hone), if_neg hone, vmread_vmwrite_of_ne (by decide), h.errorCode]
      rfl
  · rw [← hstored, ← hentry]
    split
    · rw [vmread_vmwrite_of_ne (by decide), vmread_vmwrite_of_ne (by decide), h.length]
      rfl
    · rw [vmread_vmwrite_of_ne (by decide), h.length]
      rfl

/-- The interrupted event goes into fields that are clear. -/
theorem delivers_reinjectEventFromIdtVectoring_none (h : vmcs.Delivers none)
    {flags : BitVec 32} (hflags : flags = (vmcs.vmread .idtVectoringInfoField).setWidth 32)
    (hvalid : InterruptInfo.valid.get flags ≠ 0) :
    (reinjectEventFromIdtVectoring vmcs).2.Delivers (vectored vmcs) := by
  have hsome : vectored vmcs = some ⟨flags &&& vmEntryEventMask,
      (vmcs.vmread .idtVectoringErrorCode).setWidth 32, EntryEvent.valid_masked hvalid,
      EntryEvent.reserved_masked flags⟩ := by
    rw [vectored, ← hflags]
    exact dif_pos hvalid
  have hread : vmcs.vmread .idtVectoringInfoField = flags.setWidth 64 := by
    rw [hflags, setWidth_vmread vmcs rfl]
  have hclear : ¬ (vmcs.vmread .vmEntryIntrInfoField &&& eventValidMask.setWidth 64 ≠ 0 ∨
      flags.setWidth 64 &&& eventValidMask.setWidth 64 = 0) := by
    intro hor
    rcases hor with hinfo | hidt
    · exact hinfo (by rw [h.info]; rfl)
    · exact hvalid ((setWidth_and_eq_zero_iff InterruptInfo.valid (by decide) flags).mp hidt)
  rw [hsome, reinjectEventFromIdtVectoring]
  dsimp only
  have hmasked : flags.setWidth 64 &&& vmEntryEventMask.setWidth 64 =
      (flags &&& vmEntryEventMask).setWidth 64 := BitVec.setWidth_and.symm
  rw [hread, if_neg hclear, interruptionType_setWidth, hmasked]
  -- the length is stored after the error code, so the reads before it come first
  generalize hentry :
    vmcs.vmwrite .vmEntryIntrInfoField ((flags &&& vmEntryEventMask).setWidth 64) = entry
  generalize hstored : (if flags.setWidth 64 &&& eventErrorCodeValidMask.setWidth 64 ≠ 0 then
    entry.vmwrite .vmEntryExceptionErrorCode (entry.vmread .idtVectoringErrorCode)
    else entry) = stored
  obtain ⟨hinfo, hcode, hzero⟩ := reads_of_stored h hentry hstored
  by_cases hsoftware : InterruptInfo.isSoftware flags = true
  · rw [InterruptInfo.isSoftware] at hsoftware
    rw [if_pos hsoftware, setupInstructionLength]
    refine delivers_of_reads rfl ?_ ?_ ?_
    · rw [vmread_vmwrite_of_ne (by decide), hinfo]
    · rw [vmread_vmwrite_of_ne (by decide), hcode, setWidth_vmread vmcs rfl]
    · rw [vmread_vmwrite_self, vmread_vmwrite_of_ne (by decide), InterruptInfo.isSoftware,
        if_pos hsoftware]
      exact vmread_and_mask stored rfl
  · rw [InterruptInfo.isSoftware] at hsoftware
    rw [if_neg hsoftware]
    refine delivers_of_reads rfl hinfo ?_ ?_
    · rw [hcode, setWidth_vmread vmcs rfl]
    · rw [hzero, InterruptInfo.isSoftware, if_neg hsoftware]

/-- At the end of an exit the fields hold its own event, or else the interrupted one. -/
theorem delivers_reinjectEventFromIdtVectoring {event : Option EntryEvent}
    (h : vmcs.Delivers event) :
    (reinjectEventFromIdtVectoring vmcs).2.Delivers (event.or (vectored vmcs)) := by
  rcases event with _ | own
  · by_cases hvalid : InterruptInfo.valid.get
        ((vmcs.vmread .idtVectoringInfoField).setWidth 32) = 0
    · have hnone : vectored vmcs = none := dif_neg (not_not_intro hvalid)
      rw [reinjectEventFromIdtVectoring_stays h (Or.inr hnone), hnone]
      exact h
    · exact delivers_reinjectEventFromIdtVectoring_none h rfl hvalid
  · rw [reinjectEventFromIdtVectoring_stays h (Or.inl rfl)]
    exact h

theorem agreeOutside_reinjectEventFromIdtVectoring (vmcs : Vmcs) :
    AgreeOutside entryFields vmcs (reinjectEventFromIdtVectoring vmcs).2 := by
  rw [reinjectEventFromIdtVectoring]
  dsimp only
  split
  · exact AgreeOutside.refl _ vmcs
  · have hstored : ∀ value, AgreeOutside entryFields vmcs
        (if vmcs.vmread .idtVectoringInfoField &&& eventErrorCodeValidMask.setWidth 64 ≠ 0 then
          (vmcs.vmwrite .vmEntryIntrInfoField value).vmwrite .vmEntryExceptionErrorCode
            ((vmcs.vmwrite .vmEntryIntrInfoField value).vmread .idtVectoringErrorCode)
        else vmcs.vmwrite .vmEntryIntrInfoField value) := by
      intro value
      split
      · exact ((AgreeOutside.refl _ vmcs).vmwrite (by decide) _).vmwrite (by decide) _
      · exact (AgreeOutside.refl _ vmcs).vmwrite (by decide) _
    split
    · exact (hstored _).trans (agreeOutside_setupInstructionLength _)
    · exact hstored _

end EventHandler

end NovaHypervisor

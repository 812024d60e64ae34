import NovaHypervisor.BareProcessor
import NovaHypervisor.ControlRegisters

/-!
The exits of one processor against the processor without the hypervisor. An exit leaves
the guest's state in the VMCS and in the frame, the handler works on it, and the entry
delivers the event that the handler left. The guest then is where the instruction would
have taken it.
-/
namespace NovaHypervisor

open General Vmcs EventHandler

namespace Vmcs

/-- The event that an entry takes from its fields. -/
def entryEvent (vmcs : Vmcs) : Option GuestEvent :=
  let info := vmcs.vmread .vmEntryIntrInfoField
  if info.getLsbD 31 then
    some
      { info := info.setWidth 32
        errorCode :=
          if info.getLsbD 11 then (vmcs.vmread .vmEntryExceptionErrorCode).setWidth 32 else 0
        length := vmcs.vmread .vmEntryInstructionLen }
  else none

/-- A field of 64 bits keeps its value. -/
theorem vmread_vmwrite_wide {f : VmcsField} (h : f.mask = BitVec.allOnes 64) (value : Word)
    (vmcs : Vmcs) : (vmcs.vmwrite f value).vmread f = value := by
  rw [vmread_vmwrite_self, h, BitVec.and_allOnes]

/-- The low half of what a field of 32 bits keeps. -/
theorem setWidth_stored {f : VmcsField} (h : f.mask = 0xFFFFFFFF#64) (value : BitVec 32) :
    (value.setWidth 64 &&& f.mask).setWidth 32 = value := by
  rw [setWidth_and_mask value h, BitVec.setWidth_setWidth_of_le _ (by decide), BitVec.setWidth_eq]

/-- Fields that hold an event give it to the entry. -/
theorem Delivers.entryEvent {vmcs : Vmcs} {event : Option EntryEvent} (h : vmcs.Delivers event) :
    vmcs.entryEvent = event.map fun event =>
      .ofEntry event ((vmcs.vmread .vmExitInstructionLen).setWidth 32) := by
  have hbit : ∀ i < 32, (vmcs.vmread .vmEntryIntrInfoField).getLsbD i =
      (entryInfo event).getLsbD i := by
    intro i hi
    rw [h.info, BitVec.getLsbD_setWidth]
    simp [show i < 64 by omega]
  rw [Vmcs.entryEvent, hbit 31 (by decide), hbit 11 (by decide), h.info, h.errorCode, h.length]
  rcases event with _ | event
  · rfl
  · have hvalid : (entryInfo (some event)).getLsbD 31 = true := event.getLsbD_valid
    have hlength : vmcs.vmread .vmExitInstructionLen =
        ((vmcs.vmread .vmExitInstructionLen).setWidth 32).setWidth 64 := by
      rw [setWidth_vmread vmcs rfl]
    have hcode : (if (entryInfo (some event)).getLsbD 11 = true then
        ((entryErrorCode (some event)).setWidth 64).setWidth 32 else 0) =
        entryErrorCode (some event) := by
      rw [BitVec.setWidth_setWidth_of_le _ (by decide), BitVec.setWidth_eq]
      by_cases hone : (entryInfo (some event)).getLsbD 11 = true
      · rw [if_pos hone]
      · have hzero : InterruptInfo.deliverCode.get event.info = 0 :=
          not_not.mp (mt event.deliverCode_ne_zero_iff.mp hone)
        rw [if_neg hone, entryErrorCode, if_pos hzero]
    rw [if_pos hvalid, hcode, BitVec.setWidth_setWidth_of_le _ (by decide), BitVec.setWidth_eq,
      Option.map_some, GuestEvent.ofEntry, ← hlength]
    rfl

end Vmcs

def ControlRegister.number : ControlRegister → Word
  | cr0 => 0
  | cr3 => 3
  | cr4 => 4

def ControlRegister.field : ControlRegister → VmcsField
  | cr0 => .guestCr0
  | cr3 => .guestCr3
  | cr4 => .guestCr4

/-- The qualification of an access to a control register. -/
def crQualification (cr : ControlRegister) (accessType : Word) (r : Fin 16) : Word :=
  cr.number ||| accessType <<< 4 ||| BitVec.ofNat 64 r.val <<< 8

namespace TrappedInstruction

def reason : TrappedInstruction → Word
  | cpuid => 10
  | invd => 13
  | hypercall => 18
  | movToCr _ _ | movFromCr _ _ => 28
  | rdmsr => 31
  | wrmsr => 32
  | xsetbv => 55

def exitReason (i : TrappedInstruction) : ExitReason := ExitReason.ofCode i.reason.toNat

def qualification : TrappedInstruction → Word
  | movToCr cr r => crQualification cr RegistersHandler.typeMovToCr r
  | movFromCr cr r => crQualification cr RegistersHandler.typeMovFromCr r
  | _ => 0

end TrappedInstruction

namespace GuestExit

def reason : GuestExit → Word
  | instruction i _ => i.reason
  | exception .. => 0
  | violation .. => 48
  | monitorTrap .. => 37

def qualification : GuestExit → Word
  | instruction i _ => i.qualification
  | exception _ _ _ qualification => qualification
  | violation qualification .. => qualification
  | monitorTrap .. => 0

def length : GuestExit → BitVec 32
  | instruction _ length => length
  | exception _ _ length _ => length
  | violation _ _ _ _ length => length
  | monitorTrap _ length => length

/-- The event whose delivery the exit interrupts. -/
def interrupted : GuestExit → Option EntryEvent
  | violation _ _ _ interrupted _ => interrupted
  | monitorTrap interrupted _ => interrupted
  | _ => none

def interruption : GuestExit → BitVec 32 × BitVec 32
  | exception info errorCode _ _ => (info, errorCode)
  | _ => (0, 0)

def addresses : GuestExit → Word × Word
  | violation _ physical linear _ _ => (physical, linear)
  | _ => (0, 0)

/-- What an exit stores to the fields that describe it. -/
def field (e : GuestExit) : VmcsField → Option Word
  | .vmExitReason => some e.reason
  | .exitQualification => some e.qualification
  | .vmExitInstructionLen => some (e.length.setWidth 64)
  | .vmExitIntrInfo => some (e.interruption.1.setWidth 64)
  | .vmExitIntrErrorCode => some (e.interruption.2.setWidth 64)
  | .idtVectoringInfoField => some ((e.interrupted.elim 0 EntryEvent.info).setWidth 64)
  | .idtVectoringErrorCode => some ((e.interrupted.elim 0 EntryEvent.errorCode).setWidth 64)
  | .guestPhysicalAddress => some e.addresses.1
  | .guestLinearAddress => some e.addresses.2
  | _ => none

end GuestExit

/-- What an exit saves of the guest. -/
def BareCpu.field (b : BareCpu) : VmcsField → Option Word
  | .guestCr0 => some b.cr0
  | .guestCr3 => some b.cr3
  | .guestCr4 => some b.cr4
  | .guestRsp => some b.general.rsp
  | .guestRip => some b.rip
  | .guestRflags => some b.rflags
  | _ => none

namespace Vcpu

variable {Caller : Type*}

/-- The processor in root mode, where the guest was left. The frame's own slot for RSP is
not the guest's. -/
def exitWith (v : Vcpu Caller) (b : BareCpu) (e : GuestExit) : Vcpu Caller :=
  { v with
    vmcs := ⟨fun f => ((e.field f).or (b.field f)).getD (v.vmcs.field f)⟩
    registers := { b.general with rsp := v.registers.rsp }
    cr2 := b.cr2
    xcr0 := b.xcr0
    msrWrites := b.msrWrites }

/-- The guest's state as an exit saves it. -/
def guest (v : Vcpu Caller) : BareCpu where
  general := { v.registers with rsp := v.vmcs.vmread .guestRsp }
  rip := v.vmcs.vmread .guestRip
  rflags := v.vmcs.vmread .guestRflags
  cr0 := v.vmcs.vmread .guestCr0
  cr3 := v.vmcs.vmread .guestCr3
  cr4 := v.vmcs.vmread .guestCr4
  xcr0 := v.xcr0
  cr2 := v.cr2
  msrWrites := v.msrWrites

/-- The guest after the entry. -/
def resume (arch : Architecture) (v : Vcpu Caller) : BareCpu :=
  v.guest.raise arch v.vmcs.entryEvent

theorem guest_exitWith (v : Vcpu Caller) (b : BareCpu) (e : GuestExit) :
    (v.exitWith b e).guest = b := by
  have hread : ∀ x : Word, x &&& BitVec.allOnes 64 = x := fun _ => BitVec.and_allOnes
  cases b
  simp only [guest, exitWith, BareCpu.mk.injEq]
  refine ⟨?_, ?_, ?_, ?_, ?_, ?_, trivial, trivial, trivial⟩
  · congr 1
    exact hread _
  · exact hread _
  · exact hread _
  · exact hread _
  · exact hread _
  · exact hread _

/-- The fields of the guest's state but for RIP. -/
def keptFields : List VmcsField := [.guestRsp, .guestRflags, .guestCr0, .guestCr3, .guestCr4]

/-- What a change of fields and of nothing else leaves of the guest. -/
theorem guest_withVmcs {v : Vcpu Caller} {vmcs : Vmcs}
    (hread : ∀ f ∈ keptFields, vmcs.vmread f = v.vmcs.vmread f) (machine : Machine Caller) :
    { v with vmcs := vmcs, machine := machine }.guest =
      { v.guest with rip := vmcs.vmread .guestRip } := by
  rw [guest]
  dsimp only
  rw [hread .guestRsp (by decide), hread .guestRflags (by decide), hread .guestCr0 (by decide),
    hread .guestCr3 (by decide), hread .guestCr4 (by decide)]
  rfl

theorem guest_entered (v : Vcpu Caller) : v.entered.guest = v.guest := by
  have hagree := agreeOutside_clearPendingInjection v.vmcs
  have hread : ∀ f ∈ keptFields, v.entered.vmcs.vmread f = v.vmcs.vmread f :=
    fun f hf => hagree f (by revert f; decide)
  have hrip : v.entered.vmcs.vmread .guestRip = v.vmcs.vmread .guestRip := hagree _ (by decide)
  have hstate := guest_withVmcs hread v.machine.enterRoot
  rw [hrip] at hstate
  exact hstate

/-- The end of an exit moves RIP over an emulated instruction, and nothing else. -/
theorem guest_finishExit {action : VmExitAction} {w : Vcpu Caller}
    (hresumed : w.vmxoffState.isVmxoffExecuted = false) (haction : action ≠ .shutdownVmx) :
    (w.finishExit action).2.guest =
      if action = .advanceRip then
        w.guest.retire ((w.vmcs.vmread .vmExitInstructionLen).setWidth 32)
      else w.guest := by
  have hvmcs := finishExit_resumed hresumed haction
  have hread : ∀ f ∉ entryFields, (w.finishExit action).2.vmcs.vmread f =
      (if action = .advanceRip then resumeToNextInstruction w.vmcs else w.vmcs).vmread f := by
    rw [hvmcs]
    exact agreeOutside_reinjectEventFromIdtVectoring _
  have hmoved : ∀ f ≠ .guestRip, (resumeToNextInstruction w.vmcs).vmread f = w.vmcs.vmread f :=
    fun f hf => vmread_vmwrite_of_ne hf _ _
  have hkept : ∀ f ∈ keptFields, (w.finishExit action).2.vmcs.vmread f = w.vmcs.vmread f := by
    intro f hf
    have hne : f ∉ entryFields ∧ f ≠ .guestRip := by
      revert f
      decide
    rw [hread f hne.1]
    split
    · exact hmoved f hne.2
    · rfl
  have hrip := hread .guestRip (by decide)
  have hstate := guest_withVmcs hkept w.machine.leaveRoot
  by_cases hadvance : action = .advanceRip
  · have hnext : (resumeToNextInstruction w.vmcs).vmread .guestRip =
        w.vmcs.vmread .guestRip + w.vmcs.vmread .vmExitInstructionLen := by
      rw [resumeToNextInstruction, vmread_vmwrite_self]
      exact BitVec.and_allOnes
    rw [if_pos hadvance, hnext] at hrip
    rw [if_pos hadvance, BareCpu.retire, setWidth_vmread w.vmcs rfl]
    rw [hrip] at hstate
    exact hstate
  · rw [if_neg hadvance] at hrip ⊢
    rw [hrip] at hstate
    exact hstate

end Vcpu

/-- Hyper-V reads neither RAX nor RSP, and answers in four registers. -/
structure HypercallConvention (host : Host) : Prop where
  reads : ∀ r rax rsp, asmHypervVmcall host { r with rax := rax, rsp := rsp } =
    { asmHypervVmcall host r with rsp := rsp }
  writes : ∀ r, asmHypervVmcall host r = host.hypervVmcall r

namespace BareCpu

open RegistersHandler

/-- What an instruction must meet for its emulation to be that of the processor: CPUID has
unsigned results that no edit changes, the MSRs and the values for XCR0 that the handler
refuses do not exist, control registers take their values, hypercalls are not the driver's. -/
def Transparent (arch : Architecture) (b : BareCpu) : TrappedInstruction → Prop
  | .cpuid => UnsignedCpuid arch.host b.general ∧
      documentedCpuid (b.general.rax.setWidth 32) (hostCpuid arch.host b.general) =
        hostCpuid arch.host b.general
  | .rdmsr => isValidMsr b.general.rcx = false → arch.host.readmsr b.ecx = none
  | .wrmsr => isValidMsr b.general.rcx = false → arch.host.writemsr b.ecx b.edxEax = false
  | .xsetbv => emulateXsetbv arch.host b.general = none →
      b.ecx = 0 → arch.host.xsetbv b.edxEax = false
  | .movToCr cr r => arch.acceptsCr cr (b.general.get r) = true
  | .hypercall => isSelfVmcall b.general = false ∧ HypercallConvention arch.host
  | _ => True

end BareCpu

namespace Vcpu

variable {Caller : Type*}

open RegistersHandler

/-- What the switch leaves of an instruction: its effect, or the handler's fault. -/
structure Emulated (arch : Architecture) (b : BareCpu) (i : TrappedInstruction)
    (own : Option EntryEvent) (w : Vcpu Caller) (result : VmExitAction × Vcpu Caller) : Prop where
  executed : ∀ b', b.execute arch i = some b' →
    own = none ∧ result.1 = .advanceRip ∧ result.2.guest = b'
  refused : b.execute arch i = none → own = some generalProtection ∧ result = w.refuse

theorem Emulated.of_executed {arch : Architecture} {b b' : BareCpu} {i : TrappedInstruction}
    {w w' : Vcpu Caller} (hexecute : b.execute arch i = some b') (hguest : w'.guest = b') :
    Emulated arch b i none w (.advanceRip, w') := by
  refine ⟨fun b'' h => ⟨rfl, rfl, ?_⟩, fun h => ?_⟩
  · exact hguest.trans (Option.some.inj (hexecute.symm.trans h))
  · rw [hexecute] at h
    exact absurd h (Option.some_ne_none _)

theorem Emulated.of_refused {arch : Architecture} {b : BareCpu} {i : TrappedInstruction}
    {w : Vcpu Caller} (hexecute : b.execute arch i = none) :
    Emulated arch b i (some generalProtection) w w.refuse := by
  refine ⟨fun b' h => ?_, fun _ => ⟨rfl, rfl⟩⟩
  rw [hexecute] at h
  exact absurd h.symm (Option.some_ne_none _)

/-- A plain leaf with unsigned results is stored as the processor stores it. -/
theorem handleCpuid_unsigned {host : Host} {r : GuestRegs} (h : UnsignedCpuid host r) :
    handleCpuid host r =
      let cpuInfo := documentedCpuid (r.rax.setWidth 32) (hostCpuid host r)
      (true, { r with
        rax := cpuInfo.eax.setWidth 64
        rbx := cpuInfo.ebx.setWidth 64
        rcx := cpuInfo.ecx.setWidth 64
        rdx := cpuInfo.edx.setWidth 64 }) := by
  have hmasked := (maskCpuid_eq_documented_iff r.rax (hostCpuid host r)).mpr h.edits
  obtain ⟨heax, hebx, hecx, hedx⟩ :=
    documentedCpuid_msb (r.rax.setWidth 32) (hostCpuid host r)
  have hresult : handleCpuid host r =
      let cpuInfo := Emulation.maskCpuid r.rax (hostCpuid host r)
      (true, { r with
        rax := cpuInfo.eax.signExtend 64
        rbx := cpuInfo.ebx.signExtend 64
        rcx := cpuInfo.ecx.signExtend 64
        rdx := cpuInfo.edx.signExtend 64 }) := rfl
  have hax : (documentedCpuid (r.rax.setWidth 32) (hostCpuid host r)).eax.msb = false := by
    rw [heax]
    rcases h.eax with hinterface | hunsigned
    · simp [hinterface]
    · simp [hunsigned]
  rw [hresult, hmasked]
  dsimp only
  rw [BitVec.signExtend_eq_setWidth_of_msb_false hax,
    BitVec.signExtend_eq_setWidth_of_msb_false (hebx.trans h.ebx),
    BitVec.signExtend_eq_setWidth_of_msb_false (hecx.trans (by simp [h.leaf, h.ecx])),
    BitVec.signExtend_eq_setWidth_of_msb_false (hedx.trans h.edx)]

section Instructions

variable {arch : Architecture} {kernelBaseInfo : KernelBaseInfo} {b : BareCpu} {slot : Word}
  {w : Vcpu Caller} {result : VmExitAction × Vcpu Caller}

/-- The frame and the VMCS of an exit hold the guest's state. -/
structure ExitedFrom (b : BareCpu) (slot : Word) (w : Vcpu Caller) : Prop where
  registers : w.registers = { b.general with rsp := slot }
  guest : w.guest = b

namespace ExitedFrom

theorem guest_withRegisters (h : ExitedFrom b slot w) (q : GuestRegs) :
    { w with registers := q }.guest = { b with general := { q with rsp := b.general.rsp } } := by
  rw [← h.guest]
  rfl

theorem emulated_cpuid (h : ExitedFrom b slot w) (hclear : b.Transparent arch .cpuid) :
    Emulated arch b .cpuid none w
      (.advanceRip, { w with registers := (handleCpuid arch.host w.registers).2 }) := by
  obtain ⟨hplain, hunedited⟩ := hclear
  have hunsigned : UnsignedCpuid arch.host w.registers := by
    rw [h.registers]
    exact ⟨hplain.leaf, hplain.eax, hplain.ebx, hplain.ecx, hplain.edx, hplain.edits⟩
  have hsame : hostCpuid arch.host w.registers = hostCpuid arch.host b.general := by
    rw [h.registers]
    rfl
  have hleaf : w.registers.rax = b.general.rax := by rw [h.registers]
  refine .of_executed rfl ?_
  rw [h.guest_withRegisters, handleCpuid_unsigned hunsigned, hsame, hleaf, hunedited, h.registers]

theorem isValidMsr_rcx (h : ExitedFrom b slot w) :
    (isHyperVSyntheticMsr w.registers.rcx || isValidMsr w.registers.rcx) =
      isValidMsr b.general.rcx := by
  rw [h.registers, Emulation.isValidMsr_of_synthetic]

theorem emulated_msrRead [DecidableEq Caller] (os : Os) (h : ExitedFrom b slot w)
    (hclear : b.Transparent arch .rdmsr)
    (hexit : w.handleExit os kernelBaseInfo arch.host .msrRead = some result) :
    Emulated arch b .rdmsr (w.eventOf kernelBaseInfo arch.host .msrRead) w result := by
  have hrcx : w.registers.rcx.setWidth 32 = b.ecx := by
    rw [h.registers]
    rfl
  rw [handleExit, handleMSRRead, h.isValidMsr_rcx, hrcx] at hexit
  rw [eventOf, h.isValidMsr_rcx]
  by_cases hvalid : isValidMsr b.general.rcx = true
  · rw [if_pos hvalid, Option.map_map] at hexit
    obtain ⟨content, hcontent, rfl⟩ := Option.map_eq_some_iff.mp hexit
    rw [if_pos hvalid]
    refine .of_executed (congrArg (Option.map _) hcontent) ?_
    rw [h.registers]
    exact h.guest_withRegisters _
  · rw [if_neg hvalid] at hexit ⊢
    obtain rfl := Option.some.inj hexit
    exact .of_refused (congrArg (Option.map _) (hclear (Bool.eq_false_iff.mpr hvalid)))

theorem emulated_msrWrite [DecidableEq Caller] (os : Os) (h : ExitedFrom b slot w)
    (hclear : b.Transparent arch .wrmsr)
    (hexit : w.handleExit os kernelBaseInfo arch.host .msrWrite = some result) :
    Emulated arch b .wrmsr (w.eventOf kernelBaseInfo arch.host .msrWrite) w result := by
  have hrcx : w.registers.rcx.setWidth 32 = b.ecx := by
    rw [h.registers]
    rfl
  have hcontent : w.registers.rdx.setWidth 32 ++ w.registers.rax.setWidth 32 = b.edxEax := by
    rw [h.registers]
    rfl
  rw [handleExit, handleMSRWrite, h.isValidMsr_rcx, hrcx, hcontent] at hexit
  rw [eventOf, h.isValidMsr_rcx]
  by_cases hvalid : isValidMsr b.general.rcx = true
  · rw [if_pos hvalid] at hexit ⊢
    by_cases haccepted : arch.host.writemsr b.ecx b.edxEax = true
    · dsimp only at hexit
      rw [if_pos haccepted] at hexit
      obtain rfl := Option.some.inj hexit
      refine .of_executed (if_pos haccepted) ?_
      rw [← h.guest]
      rfl
    · dsimp only at hexit
      rw [if_neg haccepted] at hexit
      exact absurd hexit.symm (Option.some_ne_none _)
  · rw [if_neg hvalid] at hexit ⊢
    obtain rfl := Option.some.inj hexit
    have hmissing := hclear (Bool.eq_false_iff.mpr hvalid)
    exact .of_refused (if_neg (Bool.eq_false_iff.mp hmissing))

theorem emulated_xsetbv [DecidableEq Caller] (os : Os) (h : ExitedFrom b slot w)
    (hclear : b.Transparent arch .xsetbv)
    (hexit : w.handleExit os kernelBaseInfo arch.host .xsetbv = some result) :
    Emulated arch b .xsetbv (w.eventOf kernelBaseInfo arch.host .xsetbv) w result := by
  have hsame : emulateXsetbv arch.host w.registers = emulateXsetbv arch.host b.general := by
    rw [h.registers]
    rfl
  rw [handleExit, hsame] at hexit
  rw [eventOf, hsame]
  cases haccepted : emulateXsetbv arch.host b.general with
  | none =>
    rw [haccepted] at hexit
    obtain rfl := Option.some.inj hexit
    rw [if_neg (by simp)]
    refine .of_refused (if_neg fun hboth => ?_)
    rw [hclear haccepted hboth.1] at hboth
    exact absurd hboth.2 Bool.false_ne_true
  | some value =>
    obtain ⟨hzero, hvalue⟩ : b.general.rcx = 0 ∧ value = b.edxEax := by
      rw [emulateXsetbv] at haccepted
      split at haccepted
      · exact absurd haccepted.symm (Option.some_ne_none _)
      · rename_i hrcx
        dsimp only at haccepted
        split at haccepted
        · exact absurd haccepted.symm (Option.some_ne_none _)
        · split at haccepted
          · exact absurd haccepted.symm (Option.some_ne_none _)
          · refine ⟨not_not.mp hrcx, ?_⟩
            rw [← Option.some.inj haccepted, Emulation.requestedMask_eq]
            rfl
    rw [haccepted] at hexit
    dsimp only at hexit
    have hecx : b.ecx = 0 := by
      rw [BareCpu.ecx, hzero]
      rfl
    by_cases hloads : arch.host.xsetbv value = true
    · rw [if_pos hloads] at hexit
      obtain rfl := Option.some.inj hexit
      rw [if_pos Option.isSome_some]
      rw [hvalue] at hloads ⊢
      refine .of_executed (if_pos ⟨hecx, hloads⟩) ?_
      rw [← h.guest]
      rfl
    · rw [if_neg hloads] at hexit
      exact absurd hexit.symm (Option.some_ne_none _)

/-- The qualification of a move gives back the register, the access and the operand. -/
theorem crQualification_fields (cr : ControlRegister) (r : Fin 16) {accessType : Word}
    (haccess : accessType = typeMovToCr ∨ accessType = typeMovFromCr) :
    MovCrQualification.accessType.get (crQualification cr accessType r) = accessType ∧
      crNumber (crQualification cr accessType r) = cr.number.toNat ∧
      crRegister (crQualification cr accessType r) = r := by
  rcases haccess with rfl | rfl
  · cases cr <;> revert r <;> decide
  · cases cr <;> revert r <;> decide

theorem number_mem_guestCr (cr : ControlRegister) : (cr.number.toNat, cr.field) ∈ guestCr := by
  cases cr <;> decide

/-- The moves to and from a control register are not refused. -/
theorem refusesCrAccess_move (cr : ControlRegister) (r : Fin 16) {accessType : Word}
    (haccess : accessType = typeMovToCr ∨ accessType = typeMovFromCr) :
    refusesCrAccess (crQualification cr accessType r) = false := by
  obtain ⟨htype, hnumber, -⟩ := crQualification_fields cr r haccess
  rw [crNumber] at hnumber
  rw [refusesCrAccess, htype, hnumber]
  rcases haccess with rfl | rfl
  · cases cr <;> decide
  · cases cr <;> decide

theorem generalRegister_eq (h : ExitedFrom b slot w) (r : Fin 16) :
    generalRegister w.registers w.vmcs r = b.general.get r := by
  have hrsp : w.vmcs.vmread .guestRsp = b.general.rsp := by
    rw [← h.guest]
    rfl
  rw [generalRegister, h.registers, hrsp]
  fin_cases r <;> rfl

theorem control_eq (h : ExitedFrom b slot w) (cr : ControlRegister) :
    w.vmcs.vmread cr.field = b.control cr := by
  rw [← h.guest]
  cases cr <;> rfl

/-- The store of a control register. -/
theorem guest_movToCr (h : ExitedFrom b slot w) (cr : ControlRegister) (value : Word) :
    ∃ vmcs, movToCr cr.number.toNat value w.vmcs = some vmcs ∧
      { w with vmcs := vmcs }.guest = b.setControl value cr := by
  rw [← h.guest]
  cases cr with
  | cr0 =>
    refine ⟨_, rfl, ?_⟩
    exact congrArg (fun cr0 => ({ w.guest with cr0 := cr0 } : BareCpu))
      ((vmread_vmwrite_of_ne (by decide) _ _).trans (vmread_vmwrite_wide rfl value w.vmcs))
  | cr3 =>
    refine ⟨_, rfl, ?_⟩
    exact congrArg (fun cr3 => ({ w.guest with cr3 := cr3 } : BareCpu))
      (vmread_vmwrite_wide rfl _ w.vmcs)
  | cr4 =>
    refine ⟨_, rfl, ?_⟩
    exact congrArg (fun cr4 => ({ w.guest with cr4 := cr4 } : BareCpu))
      ((vmread_vmwrite_of_ne (by decide) _ _).trans (vmread_vmwrite_wide rfl value w.vmcs))

theorem emulated_movToCr [DecidableEq Caller] (os : Os) (h : ExitedFrom b slot w)
    {cr : ControlRegister} {r : Fin 16}
    (hqualification : w.vmcs.vmread .exitQualification = crQualification cr typeMovToCr r)
    (hclear : b.Transparent arch (.movToCr cr r))
    (hexit : w.handleExit os kernelBaseInfo arch.host .crAccess = some result) :
    Emulated arch b (.movToCr cr r) (w.eventOf kernelBaseInfo arch.host .crAccess) w result := by
  obtain ⟨htype, hnumber, hregister⟩ := crQualification_fields cr r (Or.inl rfl)
  have hto : movesToCr (w.vmcs.vmread .exitQualification) := by
    rw [hqualification]
    exact htype
  obtain ⟨vmcs, hstore, hguest⟩ := h.guest_movToCr cr (b.general.get r)
  rw [handleExit, handleCRAccess_to w.registers hto, hqualification, hnumber, hregister,
    h.generalRegister_eq, hstore] at hexit
  obtain rfl := Option.some.inj hexit
  rw [eventOf, hqualification, refusesCrAccess_move cr r (Or.inl rfl), if_neg Bool.false_ne_true]
  exact .of_executed (if_pos hclear) hguest

theorem emulated_movFromCr [DecidableEq Caller] (os : Os) (h : ExitedFrom b slot w)
    {cr : ControlRegister} {r : Fin 16}
    (hqualification : w.vmcs.vmread .exitQualification = crQualification cr typeMovFromCr r)
    (hexit : w.handleExit os kernelBaseInfo arch.host .crAccess = some result) :
    Emulated arch b (.movFromCr cr r) (w.eventOf kernelBaseInfo arch.host .crAccess) w
      result := by
  obtain ⟨htype, hnumber, hregister⟩ := crQualification_fields cr r (Or.inr rfl)
  have hfrom : movesFromCr (w.vmcs.vmread .exitQualification) := by
    rw [hqualification]
    exact htype
  rw [handleExit, handleCRAccess_from w.registers hfrom, hqualification, hnumber, hregister,
    movFromCr_spec (number_mem_guestCr cr), h.control_eq] at hexit
  rw [eventOf, hqualification, refusesCrAccess_move cr r (Or.inr rfl), if_neg Bool.false_ne_true]
  dsimp only at hexit
  by_cases hrsp : r = rspIndex
  · rw [if_pos hrsp] at hexit
    obtain rfl := Option.some.inj hexit
    refine .of_executed rfl ?_
    rw [hrsp, ← h.guest]
    exact congrArg (fun rsp =>
      ({ w.guest with general := { w.registers with rsp := rsp } } : BareCpu))
      (vmread_vmwrite_wide rfl _ w.vmcs)
  · rw [if_neg hrsp] at hexit
    obtain rfl := Option.some.inj hexit
    refine .of_executed rfl ?_
    rw [h.guest_withRegisters, h.registers]
    refine congrArg (fun general => { b with general := general }) ?_
    fin_cases r
    all_goals first | exact absurd rfl hrsp | rfl

theorem emulated_hypercall [DecidableEq Caller] (os : Os) (h : ExitedFrom b slot w)
    (hclear : b.Transparent arch .hypercall)
    (hexit : w.handleExit os kernelBaseInfo arch.host .vmcall = some result) :
    Emulated arch b .hypercall none w result := by
  obtain ⟨hother, hreads, hwrites⟩ := hclear
  have hself : isSelfVmcall w.registers = false := by
    rw [h.registers]
    exact hother
  rw [handleExit, handleVmcall, hself, if_neg Bool.false_ne_true] at hexit
  obtain rfl := Option.some.inj hexit
  refine .of_executed rfl ?_
  rw [h.guest_withRegisters, h.registers]
  have hframe := congrArg (fun q => ({ q with rsp := b.general.rsp } : GuestRegs))
    (hreads b.general 0 slot)
  exact congrArg (fun general => ({ b with general := general } : BareCpu))
    (hframe.trans (hwrites b.general))

/-- The case of the switch for each instruction. -/
theorem emulated [DecidableEq Caller] (os : Os) (h : ExitedFrom b slot w)
    (i : TrappedInstruction) (hqualification : w.vmcs.vmread .exitQualification = i.qualification)
    (hclear : b.Transparent arch i)
    (hexit : w.handleExit os kernelBaseInfo arch.host i.exitReason = some result) :
    Emulated arch b i (w.eventOf kernelBaseInfo arch.host i.exitReason) w result := by
  cases i with
  | cpuid =>
    obtain rfl := Option.some.inj hexit
    exact h.emulated_cpuid hclear
  | rdmsr => exact h.emulated_msrRead os hclear hexit
  | wrmsr => exact h.emulated_msrWrite os hclear hexit
  | xsetbv => exact h.emulated_xsetbv os hclear hexit
  | movToCr cr r => exact h.emulated_movToCr os hqualification hclear hexit
  | movFromCr cr r => exact h.emulated_movFromCr os hqualification hexit
  | invd =>
    obtain rfl := Option.some.inj hexit
    exact .of_executed rfl h.guest
  | hypercall => exact h.emulated_hypercall os hclear hexit

end ExitedFrom

end Instructions

/-- What an exit must meet besides: the handler keeps CR2 under a page fault of the guest's own,
and no access is denied. -/
def TransparentExit (kernelBaseInfo : KernelBaseInfo) (arch : Architecture) (v : Vcpu Caller)
    (b : BareCpu) : GuestExit → Prop
  | .instruction i _ => b.Transparent arch i
  | .exception info _ _ qualification => BareCpu.isPageFault info = true → qualification = b.cr2
  | .violation qualification physical .. =>
    v.machine.blocks kernelBaseInfo qualification physical b.rip = false
  | .monitorTrap .. => True

theorem toNat_reason_lt (e : GuestExit) : e.reason.toNat < 2 ^ 16 := by
  cases e with
  | instruction i length =>
    cases i <;> simp [GuestExit.reason, TrappedInstruction.reason]
  | _ => simp [GuestExit.reason]

theorem exitReason_exitWith (v : Vcpu Caller) (b : BareCpu) (e : GuestExit) :
    (v.exitWith b e).exitReason = ExitReason.ofCode e.reason.toNat := by
  have hlt := toNat_reason_lt e
  have hkept : (e.reason &&& 0xFFFFFFFF#64 &&& 0xFFFF#64).toNat = e.reason.toNat := by
    rw [BitVec.toNat_and, BitVec.toNat_and, show (0xFFFFFFFF#64).toNat = 2 ^ 32 - 1 from rfl,
      show (0xFFFF#64).toNat = 2 ^ 16 - 1 from rfl, Nat.and_two_pow_sub_one_eq_mod,
      Nat.and_two_pow_sub_one_eq_mod, Nat.mod_eq_of_lt (by omega), Nat.mod_eq_of_lt (by omega)]
  exact congrArg ExitReason.ofCode hkept

/-- The bits of an event that are not reserved are all that it has. -/
theorem info_and_mask (event : EntryEvent) : event.info &&& vmEntryEventMask = event.info := by
  have hreserved : ∀ i < 32, vmEntryEventMask.getLsbD i = true ∨ (12 ≤ i ∧ i ≤ 30) := by decide
  apply BitVec.eq_of_getLsbD_eq
  intro i hi
  rw [BitVec.getLsbD_and]
  rcases hreserved i hi with hkept | ⟨hlow, hhigh⟩
  · rw [hkept, Bool.and_true]
  · rw [event.getLsbD_reserved hlow hhigh, Bool.false_and]

/-- The event whose delivery an exit interrupts is read back from its fields. -/
theorem vectored_exitWith (v : Vcpu Caller) (b : BareCpu) (e : GuestExit) :
    vectored (v.exitWith b e).vmcs = e.interrupted := by
  have hinfo : ((v.exitWith b e).vmcs.vmread .idtVectoringInfoField).setWidth 32 =
      e.interrupted.elim 0 EntryEvent.info := setWidth_stored rfl _
  have hcode : ((v.exitWith b e).vmcs.vmread .idtVectoringErrorCode).setWidth 32 =
      e.interrupted.elim 0 EntryEvent.errorCode := setWidth_stored rfl _
  rw [vectored, hinfo, hcode]
  cases e.interrupted with
  | none => rfl
  | some event =>
    obtain ⟨info, errorCode, hvalid, hreserved⟩ := event
    have hmasked := info_and_mask ⟨info, errorCode, hvalid, hreserved⟩
    dsimp only at hmasked
    simp only [Option.elim_some, EntryEvent.ofFlags?, dif_pos hvalid, hmasked]

theorem vmxoffState_handleEptViolation (kernelBaseInfo : KernelBaseInfo) (v : Vcpu Caller) :
    (v.handleEptViolation kernelBaseInfo).vmxoffState = v.vmxoffState := by
  rw [handleEptViolation]
  split
  · rfl
  · rfl

variable [DecidableEq Caller]

/-- Only the driver's own VMCALL turns VMX off. -/
theorem vmxoffState_handleExit {os : Os} {kernelBaseInfo : KernelBaseInfo} {host : Host}
    {reason : ExitReason} {v : Vcpu Caller} {result : VmExitAction × Vcpu Caller}
    (hexit : v.handleExit os kernelBaseInfo host reason = some result)
    (hother : reason = .vmcall → isSelfVmcall v.registers = false) :
    result.2.vmxoffState = v.vmxoffState := by
  cases reason with
  | eptViolation =>
    obtain rfl := Option.some.inj hexit
    exact vmxoffState_handleEptViolation kernelBaseInfo v
  | monitorTrapFlag =>
    obtain ⟨machine, _, rfl⟩ := Option.map_eq_some_iff.mp hexit
    rfl
  | vmcall =>
    rw [handleExit, handleVmcall, hother rfl, if_neg Bool.false_ne_true] at hexit
    obtain rfl := Option.some.inj hexit
    rfl
  | crAccess =>
    rw [handleExit] at hexit
    split at hexit
    · obtain rfl := Option.some.inj hexit
      rfl
    · obtain rfl := Option.some.inj hexit
      rfl
  | msrRead =>
    obtain ⟨⟨handled, registers⟩, _, rfl⟩ := Option.map_eq_some_iff.mp hexit
    cases handled
    · rfl
    · rfl
  | msrWrite =>
    obtain ⟨stored, _, rfl⟩ := Option.map_eq_some_iff.mp hexit
    cases stored with
    | none => rfl
    | some store => rfl
  | xsetbv =>
    rw [handleExit] at hexit
    split at hexit
    · obtain rfl := Option.some.inj hexit
      rfl
    · split at hexit
      · obtain rfl := Option.some.inj hexit
        rfl
      · exact absurd hexit.symm (Option.some_ne_none _)
  | _ =>
    obtain rfl := Option.some.inj hexit
    rfl

/-- What is left for the entry when an exit ends, in terms of what its case has left. -/
structure Left (own : Option EntryEvent) (v : Vcpu Caller) (b : BareCpu) (e : GuestExit)
    (result : VmExitAction × Vcpu Caller) (v' : Vcpu Caller) : Prop where
  off : v'.vmxoffState = v.vmxoffState
  event : v'.vmcs.entryEvent = (own.or e.interrupted).map fun event => .ofEntry event e.length
  guest : v'.guest =
    if result.1 = .advanceRip then result.2.guest.retire e.length else result.2.guest

theorem left_vmexitHandler {os : Os} {kernelBaseInfo : KernelBaseInfo} {host : Host}
    {v v' : Vcpu Caller} {b : BareCpu} {e : GuestExit}
    (hresumed : v.vmxoffState.isVmxoffExecuted = false)
    (hother : ExitReason.ofCode e.reason.toNat = .vmcall → isSelfVmcall b.general = false)
    (hexit : (v.exitWith b e).vmexitHandler os kernelBaseInfo host = some (false, v')) :
    ∃ result, (v.exitWith b e).entered.handleExit os kernelBaseInfo host
        (ExitReason.ofCode e.reason.toNat) = some result ∧
      Left ((v.exitWith b e).entered.eventOf kernelBaseInfo host
        (ExitReason.ofCode e.reason.toNat)) v b e result v' := by
  have hevent := (delivers_vmexitHandler hexit).1.entryEvent
  obtain ⟨result, hhandled, hfinish⟩ := Option.map_eq_some_iff.mp hexit
  have hleft : v' = (result.2.finishExit result.1).2 := congrArg Prod.snd hfinish.symm
  rw [exitReason_exitWith] at hhandled
  rw [ownEvent, exitReason_exitWith, vectored_exitWith, ← eventOf_entered] at hevent
  have hself : ExitReason.ofCode e.reason.toNat = .vmcall →
      isSelfVmcall (v.exitWith b e).entered.registers = false := hother
  have hsame := vmxoffState_handleExit hhandled hself
  have hoff : result.2.vmxoffState = v.vmxoffState := hsame
  have hfalse : result.2.vmxoffState.isVmxoffExecuted = false := by rw [hoff, hresumed]
  have hcase := handled_handleExit (delivers_clearPendingInjection _) rfl hhandled
  have hlow : (e.length.setWidth 64).setWidth 32 = e.length := by
    rw [BitVec.setWidth_setWidth_of_le _ (by decide), BitVec.setWidth_eq]
  have hexited : (v.exitWith b e).entered.vmcs.vmread .vmExitInstructionLen =
      e.length.setWidth 64 :=
    (agreeOutside_clearPendingInjection _ _ (by decide)).trans (setWidth_and_mask e.length rfl)
  have hlength : result.2.vmcs.vmread .vmExitInstructionLen = e.length.setWidth 64 :=
    (hcase.agree _ (by decide)).trans hexited
  have hlast : v'.vmcs.vmread .vmExitInstructionLen = e.length.setWidth 64 := by
    rw [hleft, finishExit_resumed hfalse hcase.resumes,
      agreeOutside_reinjectEventFromIdtVectoring _ _ (by decide)]
    split
    · rw [resumeToNextInstruction, vmread_vmwrite_of_ne (by decide), hlength]
    · exact hlength
  refine ⟨result, hhandled, ?_, ?_, ?_⟩
  · rw [hleft, ← hoff]
    rfl
  · rw [hevent, hlast, hlow]
  · rw [hleft, guest_finishExit hfalse hcase.resumes, hlength, hlow]

omit [DecidableEq Caller] in
/-- Stores to the fields for the event leave the guest as it is. -/
theorem guest_withEvent {w : Vcpu Caller} {vmcs : Vmcs} (h : AgreeOutside entryFields w.vmcs vmcs)
    (machine : Machine Caller) : { w with vmcs := vmcs, machine := machine }.guest = w.guest := by
  have hread : ∀ f ∈ keptFields, vmcs.vmread f = w.vmcs.vmread f :=
    fun f hf => h f (by revert f; decide)
  have hstate := guest_withVmcs hread machine
  rw [h .guestRip (by decide)] at hstate
  exact hstate

theorem eq_hypercall_of_ofCode {e : GuestExit} (h : ExitReason.ofCode e.reason.toNat = .vmcall) :
    ∃ length, e = .instruction .hypercall length := by
  cases e with
  | instruction i length =>
    cases i with
    | hypercall => exact ⟨length, rfl⟩
    | _ => exact ExitReason.noConfusion h
  | _ => exact ExitReason.noConfusion h

section Exits

variable {os : Os} {kernelBaseInfo : KernelBaseInfo} {arch : Architecture} {v v' : Vcpu Caller}
  {b : BareCpu}

theorem resume_instruction {i : TrappedInstruction} {length : BitVec 32}
    (hclear : b.Transparent arch i) {result : VmExitAction × Vcpu Caller}
    (hhandled : (v.exitWith b (.instruction i length)).entered.handleExit os kernelBaseInfo
      arch.host i.exitReason = some result)
    (hleft : Left ((v.exitWith b (.instruction i length)).entered.eventOf kernelBaseInfo
      arch.host i.exitReason) v b (.instruction i length) result v') :
    v'.resume arch = b.step arch (.instruction i length) := by
  have hstate : (v.exitWith b (.instruction i length)).entered.guest = b :=
    (guest_entered _).trans (guest_exitWith v b _)
  have hexited : ExitedFrom b v.registers.rsp (v.exitWith b (.instruction i length)).entered :=
    ⟨rfl, hstate⟩
  obtain ⟨hexecuted, hrefused⟩ := hexited.emulated os i BitVec.and_allOnes hclear hhandled
  rw [resume, hleft.event, hleft.guest, BareCpu.step]
  cases hexecute : b.execute arch i with
  | some b' =>
    obtain ⟨hown, haction, hguest⟩ := hexecuted b' hexecute
    rw [hown, if_pos haction, hguest]
    rfl
  | none =>
    obtain ⟨hown, rfl⟩ := hrefused hexecute
    have hguest : (v.exitWith b (.instruction i length)).entered.refuse.2.guest = b :=
      (guest_withEvent (agreeOutside_injectInterruption _ _ _) _).trans hstate
    rw [hown, if_neg VmExitAction.noConfusion, hguest]
    rfl

theorem resume_exception {info errorCode length : BitVec 32} {qualification : Word}
    (hcr2 : BareCpu.isPageFault info = true → qualification = b.cr2)
    {result : VmExitAction × Vcpu Caller}
    (hhandled : (v.exitWith b (.exception info errorCode length qualification)).entered.handleExit
      os kernelBaseInfo arch.host .exceptionNmi = some result)
    (hleft : Left ((v.exitWith b (.exception info errorCode length qualification)).entered.eventOf
      kernelBaseInfo arch.host .exceptionNmi) v b (.exception info errorCode length qualification)
      result v') :
    v'.resume arch = b.step arch (.exception info errorCode length qualification) := by
  have hstate :
      (v.exitWith b (.exception info errorCode length qualification)).entered.guest = b :=
    (guest_entered _).trans (guest_exitWith v b _)
  have hown : (v.exitWith b (.exception info errorCode length qualification)).entered.eventOf
      kernelBaseInfo arch.host .exceptionNmi = EntryEvent.ofFlags? info errorCode := by
    rw [eventOf_entered, eventOf, reflected]
    congr 1
    · exact setWidth_stored rfl info
    · exact setWidth_stored rfl errorCode
  have hkept : (if BareCpu.isPageFault info then qualification else b.cr2) = b.cr2 := by
    split
    · rename_i hpageFault
      exact hcr2 hpageFault
    · rfl
  have hguest : result.2.guest = b := by
    rw [← Option.some.inj hhandled]
    exact (guest_withEvent (agreeOutside_injectEventFromVmExitInterruption _ _) _).trans hstate
  have haction : result.1 ≠ .advanceRip := by
    rw [← Option.some.inj hhandled]
    exact reflected_action _ VmExitAction.noConfusion VmExitAction.noConfusion
  rw [resume, hleft.event, hleft.guest, hown, if_neg haction, hguest, BareCpu.step, hkept]
  exact congrArg (fun event => b.raise arch (Option.map _ event)) Option.or_none

omit [DecidableEq Caller] in
/-- A blocked access sets CR2, and no other violation shows. -/
theorem guest_handleEptViolation (kernelBaseInfo : KernelBaseInfo) {w : Vcpu Caller}
    (hpending : w.machine.guest.pendingInjection = none) :
    (w.handleEptViolation kernelBaseInfo).guest =
      if w.machine.blocks kernelBaseInfo (w.vmcs.vmread .exitQualification)
          (w.vmcs.vmread .guestPhysicalAddress) (w.vmcs.vmread .guestRip) then
        { w.guest with cr2 := w.vmcs.vmread .guestLinearAddress }
      else w.guest := by
  have hinjection := w.machine.pendingInjection_handlePageHookExit kernelBaseInfo
    (w.vmcs.vmread .exitQualification) (w.vmcs.vmread .guestPhysicalAddress)
    (w.vmcs.vmread .guestLinearAddress) (w.vmcs.vmread .guestRip)
  rw [handleEptViolation]
  by_cases hblocks : w.machine.blocks kernelBaseInfo (w.vmcs.vmread .exitQualification)
      (w.vmcs.vmread .guestPhysicalAddress) (w.vmcs.vmread .guestRip) = true
  · rw [if_pos hblocks] at hinjection ⊢
    rw [hinjection]
    exact congrArg (fun b : BareCpu => { b with cr2 := w.vmcs.vmread .guestLinearAddress })
      (guest_withEvent (agreeOutside_injectInterruption _ _ _) w.machine)
  · rw [if_neg hblocks] at hinjection ⊢
    rw [hinjection, hpending]
    rfl

theorem resume_violation {qualification physical linear : Word} {interrupted : Option EntryEvent}
    {length : BitVec 32} {e : GuestExit}
    (he : e = .violation qualification physical linear interrupted length)
    (hgranted : v.machine.blocks kernelBaseInfo qualification physical b.rip = false)
    {result : VmExitAction × Vcpu Caller}
    (hhandled : (v.exitWith b e).entered.handleExit os kernelBaseInfo arch.host .eptViolation =
      some result)
    (hleft : Left ((v.exitWith b e).entered.eventOf kernelBaseInfo arch.host .eptViolation) v b e
      result v') :
    v'.resume arch = b.step arch e := by
  subst he
  have hstate : (v.exitWith b (.violation qualification physical linear interrupted
      length)).entered.guest = b := (guest_entered _).trans (guest_exitWith v b _)
  have hall : ∀ x : Word, x &&& BitVec.allOnes 64 = x := fun _ => BitVec.and_allOnes
  generalize hu : v.exitWith b (.violation qualification physical linear interrupted length) = u
    at hhandled hleft hstate
  have hqualification : u.vmcs.vmread .exitQualification = qualification := by
    rw [← hu]
    exact hall _
  have hphysical : u.vmcs.vmread .guestPhysicalAddress = physical := by
    rw [← hu]
    exact hall _
  have hrip : u.vmcs.vmread .guestRip = b.rip := by
    rw [← hu]
    exact hall _
  have hread : ∀ f ∉ entryFields, u.entered.vmcs.vmread f = u.vmcs.vmread f :=
    agreeOutside_clearPendingInjection u.vmcs
  have hblocks : u.entered.machine.blocks kernelBaseInfo qualification physical b.rip = false := by
    rw [← hgranted, ← hu]
    rfl
  have hguest := guest_handleEptViolation kernelBaseInfo (w := u.entered) rfl
  have haction : result.1 ≠ .advanceRip := by
    rw [← Option.some.inj hhandled]
    exact VmExitAction.noConfusion
  have hresult : result.2 = u.entered.handleEptViolation kernelBaseInfo := by
    rw [← Option.some.inj hhandled]
  rw [hread _ (by decide), hread _ (by decide), hread _ (by decide), hqualification, hphysical,
    hrip, hblocks, if_neg Bool.false_ne_true, hstate] at hguest
  rw [resume, hleft.event, hleft.guest, if_neg haction, hresult, hguest, eventOf,
    hread _ (by decide), hread _ (by decide), hread _ (by decide), hqualification, hphysical, hrip,
    hblocks, if_neg Bool.false_ne_true, BareCpu.step]
  rfl

theorem resume_monitorTrap {interrupted : Option EntryEvent} {length : BitVec 32}
    {result : VmExitAction × Vcpu Caller}
    (hhandled : (v.exitWith b (.monitorTrap interrupted length)).entered.handleExit os
      kernelBaseInfo arch.host .monitorTrapFlag = some result)
    (hleft : Left ((v.exitWith b (.monitorTrap interrupted length)).entered.eventOf kernelBaseInfo
      arch.host .monitorTrapFlag) v b (.monitorTrap interrupted length) result v') :
    v'.resume arch = b.step arch (.monitorTrap interrupted length) := by
  have hstate : (v.exitWith b (.monitorTrap interrupted length)).entered.guest = b :=
    (guest_entered _).trans (guest_exitWith v b _)
  obtain ⟨machine, _, rfl⟩ := Option.map_eq_some_iff.mp hhandled
  have hguest : ({ (v.exitWith b (.monitorTrap interrupted length)).entered with
      machine := machine } : Vcpu Caller).guest = b := hstate
  rw [resume, hleft.event, hleft.guest, if_neg VmExitAction.noConfusion, hguest]
  rfl

/-- One exit takes the guest where the processor without a hypervisor goes. -/
theorem resume_vmexitHandler {e : GuestExit}
    (hresumed : v.vmxoffState.isVmxoffExecuted = false)
    (htransparent : TransparentExit kernelBaseInfo arch v b e)
    (hexit : (v.exitWith b e).vmexitHandler os kernelBaseInfo arch.host = some (false, v')) :
    v'.vmxoffState = v.vmxoffState ∧
      v'.resume arch = b.step arch e := by
  have hother : ExitReason.ofCode e.reason.toNat = .vmcall → isSelfVmcall b.general = false := by
    intro hcode
    obtain ⟨length, rfl⟩ := eq_hypercall_of_ofCode hcode
    exact htransparent.1
  obtain ⟨result, hhandled, hleft⟩ := left_vmexitHandler hresumed hother hexit
  refine ⟨hleft.off, ?_⟩
  cases e with
  | instruction i length => exact resume_instruction htransparent hhandled hleft
  | exception info errorCode length qualification =>
    exact resume_exception htransparent hhandled hleft
  | violation qualification physical linear interrupted length =>
    exact resume_violation rfl htransparent hhandled hleft
  | monitorTrap interrupted length => exact resume_monitorTrap hhandled hleft

end Exits

/-- A processor and its guest beside the processor without a hypervisor. In one step both
guests run up to the same exit, and both are then past it. -/
def lockstep (os : Os) (kernelBaseInfo : KernelBaseInfo) (arch : Architecture)
    (s : Vcpu Caller × BareCpu) (a : (BareCpu → BareCpu) × GuestExit) :
    Option (Vcpu Caller × BareCpu) :=
  match (s.1.exitWith (a.1 (s.1.resume arch)) a.2).vmexitHandler os kernelBaseInfo arch.host with
  | some (false, v) =>
    some (v, (a.1 s.2).step arch a.2)
  | _ => none

def flatArchitecture : Architecture := ⟨flatHost, fun _ _ => true, fun _ b => b⟩

def runningVcpu : Vcpu Unit := flatVcpu (Machine.flatMachine 1 1) [(.guestRip, 0x1000)]

/-- RDMSR of MSR 0x10, then MOV CR3, RAX. -/
def msrToCr3 : List ((BareCpu → BareCpu) × GuestExit) :=
  [(fun b => { b with cr3 := 0x1AD000, general := { b.general with rcx := 0x10, rdx := 9 } },
      .instruction .rdmsr 2),
    (id, .instruction (.movToCr .cr3 (Fin.last 15)) 3)]

end Vcpu

end NovaHypervisor

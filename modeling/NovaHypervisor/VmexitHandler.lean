import NovaHypervisor.EventInjection
import NovaHypervisor.ExitRuns
import NovaHypervisor.RegistersHandler

/-!
The handler of all VM exits of one processor. Its state is the machine of the exits that
act on the table, with the VMCS, the guest's registers and what `VmxVmxoff` leaves
behind. A result is missing where a host access in root mode raises #GP, or where a call
of the pool has no return.
-/
namespace NovaHypervisor

open General

structure VmxoffState where
  isVmxoffExecuted : Bool
  guestRip : Word
  guestRsp : Word

/-- A processor at an exit. The stores to MSRs are a log. -/
structure Vcpu (Caller : Type*) where
  machine : Machine Caller
  vmcs : Vmcs
  registers : GuestRegs
  cr2 : Word
  xcr0 : Word
  vmxoffState : VmxoffState
  msrWrites : List (BitVec 32 × Word)

inductive VmExitAction where
  | resumeCurrentRip
  | advanceRip
  | injectEvent
  | shutdownVmx
  deriving DecidableEq

/-- The exit reasons with a case of their own. The VMX instructions share one. -/
inductive ExitReason where
  | exceptionNmi
  | tripleFault
  | cpuid
  | hlt
  | invd
  | vmcall
  | vmxInstruction
  | crAccess
  | msrRead
  | msrWrite
  | monitorTrapFlag
  | eptViolation
  | eptMisconfig
  | xsetbv
  | userWait
  | unhandled
  deriving DecidableEq

def ExitReason.ofCode (exitReason : ℕ) : ExitReason :=
  match exitReason with
  | 0 => exceptionNmi
  | 2 => tripleFault
  | 10 => cpuid
  | 12 => hlt
  | 13 => invd
  | 18 => vmcall
  -- VMCLEAR, VMLAUNCH, VMPTRLD, VMPTRST, VMREAD, VMRESUME, VMWRITE, VMXOFF, VMXON
  | 19 | 20 | 21 | 22 | 23 | 24 | 25 | 26 | 27 => vmxInstruction
  | 28 => crAccess
  | 31 => msrRead
  | 32 => msrWrite
  | 37 => monitorTrapFlag
  | 48 => eptViolation
  | 49 => eptMisconfig
  | 55 => xsetbv
  -- UMONITOR, UMWAIT
  | 67 | 68 => userWait
  | _ => unhandled

def isSelfVmcall (registers : GuestRegs) : Bool :=
  registers.r10 = 0x4856544D50#64 && registers.r11 = 0x564D43414C4C#64 &&
    registers.r12 = 0x4E4F485950455256#64

/-- Only the result registers of a forwarded hypercall reach the guest. -/
def asmHypervVmcall (host : Host) (registers : GuestRegs) : GuestRegs :=
  let results := host.hypervVmcall registers
  { registers with
    rax := results.rax
    rcx := results.rcx
    rdx := results.rdx
    r8 := results.r8 }

def cpuidExtendedStateEnumeration : BitVec 32 := 0xD
def maxXsaveAreaSize : BitVec 32 := 0x3000

/-- The end of the save area with one more component. The sum wraps, as a ULONG does. -/
def xsaveAreaEnd (host : Host) (requestedMask : Word) (requestedSize : BitVec 32)
    (stateComponent : ℕ) : BitVec 32 :=
  if requestedMask.getLsbD stateComponent = false then requestedSize
  else
    let stateInfo := host.cpuidex cpuidExtendedStateEnumeration (BitVec.ofNat 32 stateComponent)
    let componentSize := stateInfo.eax
    let componentOffset := stateInfo.ebx
    if componentSize = 0 ∨ componentOffset = 0 then requestedSize
    else
      let componentEnd := componentOffset + componentSize
      if componentEnd > requestedSize then componentEnd else requestedSize

/-- The value that the emulation of XSETBV accepts for XCR0. -/
def emulateXsetbv (host : Host) (registers : GuestRegs) : Option Word :=
  if registers.rcx ≠ 0 then none
  else
    let cpuInfo := host.cpuidex cpuidExtendedStateEnumeration 0
    let supportedMask := cpuInfo.edx ++ cpuInfo.eax
    let requestedMask := (registers.rdx <<< 32) ||| (registers.rax &&& 0xFFFFFFFF#64)
    if requestedMask &&& ~~~supportedMask ≠ 0 ∨ requestedMask &&& 1#64 = 0 ∨
        (requestedMask &&& 4#64 ≠ 0 ∧ requestedMask &&& 6#64 ≠ 6#64) then none
    else
      let requestedSize := (List.range' 2 62).foldl (xsaveAreaEnd host requestedMask) 0x240
      if requestedSize > maxXsaveAreaSize then none else some requestedMask

namespace Vcpu

variable {Caller : Type*}

def exitReason (v : Vcpu Caller) : ExitReason :=
  ExitReason.ofCode (v.vmcs.vmread .vmExitReason &&& 0xFFFF#64).toNat

def resumeToNextInstruction (vmcs : Vmcs) : Vmcs :=
  vmcs.vmwrite .guestRip (vmcs.vmread .guestRip + vmcs.vmread .vmExitInstructionLen)

/-- A fault in place of an access that the handler refuses. -/
def refuse (v : Vcpu Caller) : VmExitAction × Vcpu Caller :=
  (.injectEvent, { v with vmcs := EventHandler.injectGeneralProtection v.vmcs })

/-- The case of an EPT violation. A page fault also sets CR2. -/
def handleEptViolation (kernelBaseInfo : KernelBaseInfo) (v : Vcpu Caller) : Vcpu Caller :=
  let machine := (v.machine.handlePageHookExit kernelBaseInfo
    (v.vmcs.vmread .exitQualification) (v.vmcs.vmread .guestPhysicalAddress)
    (v.vmcs.vmread .guestLinearAddress) (v.vmcs.vmread .guestRip)).2
  match machine.guest.pendingInjection with
  | none => { v with machine := machine }
  | some (faultAddress, errorCode) =>
    { v with
      machine := machine
      cr2 := faultAddress
      vmcs := EventHandler.injectPageFault errorCode v.vmcs }

/-- The VMCS part of `VmxVmxoff`, in the state that the return to the guest reads. -/
def vmxVmxoff (v : Vcpu Caller) : Vcpu Caller :=
  { v with vmxoffState :=
    { isVmxoffExecuted := true
      guestRip := v.vmcs.vmread .guestRip + v.vmcs.vmread .vmExitInstructionLen
      guestRsp := v.vmcs.vmread .guestRsp } }

/-- The start of an exit: root mode, and no event for the entry. -/
def entered (v : Vcpu Caller) : Vcpu Caller :=
  { v with
    machine := v.machine.enterRoot
    vmcs := EventHandler.clearPendingInjection v.vmcs }

/-- The exit as the machine of the table sees it, if it acts on the table. -/
def tableExit (v : Vcpu Caller) : Option VmExit :=
  match v.exitReason with
  | .eptViolation =>
    some (.eptViolation (v.vmcs.vmread .exitQualification)
      (v.vmcs.vmread .guestPhysicalAddress) (v.vmcs.vmread .guestLinearAddress)
      (v.vmcs.vmread .guestRip))
  | .monitorTrapFlag => some .monitorTrapFlag
  | .vmcall =>
    if isSelfVmcall v.registers then
      some (.vmcall v.registers.rcx v.registers.rdx v.registers.r8)
    else none
  | _ => none

variable [DecidableEq Caller]

/-- The case of a VMCALL: the driver's own, or one to forward. -/
def handleVmcall (os : Os) (host : Host) (v : Vcpu Caller) : Option (Vcpu Caller) :=
  if isSelfVmcall v.registers then
    (v.machine.vmcallHandler os v.registers.rcx v.registers.rdx v.registers.r8).map
      fun (status, machine) =>
        let v := if v.registers.rcx.toNat = 2 then v.vmxVmxoff else v
        { v with
          machine := machine
          registers := { v.registers with rax := status.signExtend 64 } }
  else some { v with registers := asmHypervVmcall host { v.registers with rax := 0 } }

/-- The switch over the exit reason, after the pending injection is cleared. -/
def handleExit (os : Os) (kernelBaseInfo : KernelBaseInfo) (host : Host) (reason : ExitReason)
    (v : Vcpu Caller) : Option (VmExitAction × Vcpu Caller) :=
  match reason with
  | .exceptionNmi =>
    let interruptExit := (v.vmcs.vmread .vmExitIntrInfo).setWidth 32
    let (injected, vmcs) := EventHandler.injectEventFromVmExitInterruption interruptExit v.vmcs
    some (if injected then .injectEvent else .resumeCurrentRip, { v with vmcs := vmcs })
  | .tripleFault | .eptMisconfig | .unhandled => some (.resumeCurrentRip, v)
  | .hlt | .invd | .userWait => some (.advanceRip, v)
  | .vmxInstruction =>
    let rflags := v.vmcs.vmread .guestRflags
    some (.advanceRip, { v with vmcs := v.vmcs.vmwrite .guestRflags (rflags ||| 1#64) })
  | .crAccess =>
    match RegistersHandler.handleCRAccess v.registers v.vmcs with
    | (true, registers, vmcs) =>
      some (.advanceRip, { v with registers := registers, vmcs := vmcs })
    | (false, _, _) => some v.refuse
  | .msrRead =>
    (RegistersHandler.handleMSRRead host v.registers).map fun (handled, registers) =>
      if handled then (.advanceRip, { v with registers := registers }) else v.refuse
  | .msrWrite =>
    (RegistersHandler.handleMSRWrite host v.registers).map fun
      | some store => (.advanceRip, { v with msrWrites := store :: v.msrWrites })
      | none => v.refuse
  | .cpuid =>
    let (handled, registers) := RegistersHandler.handleCpuid host v.registers
    some (if handled then .advanceRip else .resumeCurrentRip, { v with registers := registers })
  | .monitorTrapFlag =>
    v.machine.monitorTrapFlagExit.map fun machine =>
      (.resumeCurrentRip, { v with machine := machine })
  | .eptViolation => some (.resumeCurrentRip, v.handleEptViolation kernelBaseInfo)
  | .vmcall => (v.handleVmcall os host).map fun v => (.advanceRip, v)
  | .xsetbv =>
    match emulateXsetbv host v.registers with
    | none => some v.refuse
    | some requestedMask =>
      if host.xsetbv requestedMask then some (.advanceRip, { v with xcr0 := requestedMask })
      else none

/-- What follows the switch. The RIP moves and the event returns unless VMX is off. -/
def finishExit (action : VmExitAction) (v : Vcpu Caller) : Bool × Vcpu Caller :=
  let action := if v.vmxoffState.isVmxoffExecuted then .shutdownVmx else action
  let vmcs := if action = .advanceRip then resumeToNextInstruction v.vmcs else v.vmcs
  let vmcs :=
    if action ≠ .shutdownVmx then (EventHandler.reinjectEventFromIdtVectoring vmcs).2 else vmcs
  (v.vmxoffState.isVmxoffExecuted, { v with vmcs := vmcs, machine := v.machine.leaveRoot })

/-- Whether VMX is off after the exit, and the processor then. -/
def vmexitHandler (os : Os) (kernelBaseInfo : KernelBaseInfo) (host : Host) (v : Vcpu Caller) :
    Option (Bool × Vcpu Caller) :=
  (v.entered.handleExit os kernelBaseInfo host v.exitReason).map fun (action, v) =>
    v.finishExit action

omit [DecidableEq Caller] in
theorem machine_handleEptViolation (kernelBaseInfo : KernelBaseInfo) (v : Vcpu Caller) :
    (v.handleEptViolation kernelBaseInfo).machine =
      (v.machine.handlePageHookExit kernelBaseInfo (v.vmcs.vmread .exitQualification)
        (v.vmcs.vmread .guestPhysicalAddress) (v.vmcs.vmread .guestLinearAddress)
        (v.vmcs.vmread .guestRip)).2 := by
  rw [handleEptViolation]
  split
  · rfl
  · rfl

/-- A VMCALL's case moves the machine for the driver's own calls, and stores no field. -/
theorem handleVmcall_ends {os : Os} {host : Host} {v v' : Vcpu Caller}
    (hcall : v.handleVmcall os host = some v') :
    v'.vmcs = v.vmcs ∧ v'.xcr0 = v.xcr0 ∧
      ((isSelfVmcall v.registers = true ∧ ∃ status, v.machine.vmcallHandler os v.registers.rcx
        v.registers.rdx v.registers.r8 = some (status, v'.machine)) ∨
      (isSelfVmcall v.registers = false ∧ v'.machine = v.machine)) := by
  rw [handleVmcall] at hcall
  split at hcall
  · rename_i hself
    obtain ⟨⟨status, machine⟩, hmachine, rfl⟩ := Option.map_eq_some_iff.mp hcall
    refine ⟨?_, ?_, Or.inl ⟨hself, status, hmachine⟩⟩
    · dsimp only
      split
      · rfl
      · rfl
    · dsimp only
      split
      · rfl
      · rfl
  · rename_i hother
    obtain rfl := Option.some.inj hcall
    exact ⟨rfl, rfl, Or.inr ⟨Bool.eq_false_iff.mpr hother, rfl⟩⟩

/-- What the cases of the switch do to the machine and to XCR0: three of them act on the
table, and an accepted XSETBV loads its mask. -/
theorem handleExit_frame {os : Os} {kernelBaseInfo : KernelBaseInfo} {host : Host}
    {reason : ExitReason} {v : Vcpu Caller} {result : VmExitAction × Vcpu Caller}
    (hexit : v.handleExit os kernelBaseInfo host reason = some result) :
    (reason ∉ [.eptViolation, .monitorTrapFlag, .vmcall] → result.2.machine = v.machine) ∧
      result.2.xcr0 =
        if reason = .xsetbv then (emulateXsetbv host v.registers).getD v.xcr0 else v.xcr0 := by
  cases reason with
  | eptViolation =>
    obtain rfl := Option.some.inj hexit
    refine ⟨fun hother => absurd (by decide) hother, ?_⟩
    rw [if_neg ExitReason.noConfusion, handleEptViolation]
    split
    · rfl
    · rfl
  | monitorTrapFlag =>
    obtain ⟨machine, _, rfl⟩ := Option.map_eq_some_iff.mp hexit
    exact ⟨fun hother => absurd (by decide) hother, rfl⟩
  | vmcall =>
    obtain ⟨v', hcall, rfl⟩ := Option.map_eq_some_iff.mp hexit
    obtain ⟨_, hxcr0, _⟩ := handleVmcall_ends hcall
    exact ⟨fun hother => absurd (by decide) hother, hxcr0⟩
  | crAccess =>
    rw [handleExit] at hexit
    split at hexit
    · obtain rfl := Option.some.inj hexit
      exact ⟨fun _ => rfl, rfl⟩
    · obtain rfl := Option.some.inj hexit
      exact ⟨fun _ => rfl, rfl⟩
  | msrRead =>
    obtain ⟨⟨handled, registers⟩, _, rfl⟩ := Option.map_eq_some_iff.mp hexit
    cases handled
    · exact ⟨fun _ => rfl, rfl⟩
    · exact ⟨fun _ => rfl, rfl⟩
  | msrWrite =>
    obtain ⟨stored, _, rfl⟩ := Option.map_eq_some_iff.mp hexit
    cases stored with
    | none => exact ⟨fun _ => rfl, rfl⟩
    | some store => exact ⟨fun _ => rfl, rfl⟩
  | xsetbv =>
    rw [handleExit] at hexit
    split at hexit
    · rename_i hnone
      obtain rfl := Option.some.inj hexit
      exact ⟨fun _ => rfl, by rw [if_pos rfl, hnone]; rfl⟩
    · rename_i requestedMask hsome
      split at hexit
      · obtain rfl := Option.some.inj hexit
        exact ⟨fun _ => rfl, by rw [if_pos rfl, hsome]; rfl⟩
      · exact absurd hexit.symm (Option.some_ne_none _)
  | _ =>
    obtain rfl := Option.some.inj hexit
    exact ⟨fun _ => rfl, rfl⟩

/-- The whole handler moves the machine as the exits on the table do, or only through
root mode and back. -/
theorem machine_vmexitHandler {os : Os} {kernelBaseInfo : KernelBaseInfo} {host : Host}
    {v v' : Vcpu Caller} {off : Bool}
    (hexit : v.vmexitHandler os kernelBaseInfo host = some (off, v')) :
    (∃ exit status, v.tableExit = some exit ∧
      v.machine.vmexitHandler os kernelBaseInfo exit = some (status, v'.machine)) ∨
    (v.tableExit = none ∧ v'.machine = v.machine.enterRoot.leaveRoot) := by
  obtain ⟨⟨action, w⟩, hhandled, hfinish⟩ := Option.map_eq_some_iff.mp hexit
  have hleave : v'.machine = w.machine.leaveRoot :=
    congrArg machine (Prod.mk.inj hfinish).2.symm
  have hread : ∀ f ∉ Vmcs.entryFields, v.entered.vmcs.vmread f = v.vmcs.vmread f :=
    EventHandler.agreeOutside_clearPendingInjection v.vmcs
  rw [tableExit]
  cases hreason : v.exitReason with
  | eptViolation =>
    rw [hreason] at hhandled
    obtain ⟨rfl, rfl⟩ := Prod.mk.inj (Option.some.inj hhandled)
    refine Or.inl ⟨_, none, rfl, ?_⟩
    have hmachine := machine_handleEptViolation kernelBaseInfo v.entered
    rw [hread _ (by decide), hread _ (by decide), hread _ (by decide), hread _ (by decide)]
      at hmachine
    rw [hleave, hmachine]
    rfl
  | monitorTrapFlag =>
    rw [hreason] at hhandled
    obtain ⟨machine, hrestored, heq⟩ := Option.map_eq_some_iff.mp hhandled
    obtain ⟨rfl, rfl⟩ := Prod.mk.inj heq
    refine Or.inl ⟨_, none, rfl, ?_⟩
    rw [hleave]
    exact Option.map_eq_some_iff.mpr ⟨machine, hrestored, rfl⟩
  | vmcall =>
    rw [hreason] at hhandled
    obtain ⟨w', hcall, heq⟩ := Option.map_eq_some_iff.mp hhandled
    obtain ⟨rfl, rfl⟩ := Prod.mk.inj heq
    obtain ⟨_, _, hmachine⟩ := handleVmcall_ends hcall
    rcases hmachine with ⟨hself, status, hmachine⟩ | ⟨hother, hsame⟩
    · refine Or.inl ⟨.vmcall v.registers.rcx v.registers.rdx v.registers.r8, some status, ?_, ?_⟩
      · exact if_pos hself
      · rw [hleave]
        exact Option.map_eq_some_iff.mpr ⟨_, hmachine, rfl⟩
    · refine Or.inr ⟨?_, ?_⟩
      · exact if_neg (Bool.eq_false_iff.mp hother)
      · rw [hleave, hsame]
        rfl
  | _ =>
    have hsame : w.machine = v.entered.machine :=
      (handleExit_frame hhandled).1 (by rw [hreason]; decide)
    refine Or.inr ⟨rfl, ?_⟩
    rw [hleave, hsame]
    rfl

/-- A processor with x87, SSE and AVX state, on which no access faults. -/
def flatHost : Host where
  readmsr _ := some 0
  writemsr _ _ := true
  cpuidex leaf subleaf :=
    if leaf = cpuidExtendedStateEnumeration then
      if subleaf = 0 then ⟨7, 0x340, 0x340, 0⟩
      else if subleaf = 2 then ⟨0x100, 0x240, 0, 0⟩
      else ⟨0, 0, 0, 0⟩
    else ⟨0, 0, 0, 0⟩
  xsetbv _ := true
  hypervVmcall registers := registers

def flatVcpu (machine : Machine Unit) (fields : List (VmcsField × Word)) : Vcpu Unit where
  machine := machine
  vmcs := ⟨fun f => (fields.lookup f).getD 0⟩
  registers := ⟨0, 0, 0, 0, 0, 0, 0, 0, 0, 0, 0, 0, 0, 0, 0, 0⟩
  cr2 := 0
  xcr0 := 7
  vmxoffState := ⟨false, 0, 0⟩
  msrWrites := []

end Vcpu

end NovaHypervisor

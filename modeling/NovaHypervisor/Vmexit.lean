import NovaHypervisor.Ept

/-!
The VM exits that act on a processor's table: EPT violations, the exit of the
monitor trap flag and the driver's own VMCALLs. An exit runs in root mode. The
status that a VMCALL leaves in rax is returned besides the machine; a hypercall
forwarded to another hypervisor, the guest's registers and the instruction
pointer have no state here.
-/
namespace NovaHypervisor

open General

abbrev Ntstatus := BitVec 32

def statusSuccess : Ntstatus := 0x00000000#32
def statusUnsuccessful : Ntstatus := 0xC0000001#32
def statusInvalidParameter : Ntstatus := 0xC000000D#32

/-- A status is a signed number, and a failure is negative. -/
def ntSuccess (status : Ntstatus) : Bool := !status.msb

structure KernelBaseInfo where
  kernelBaseAddress : Word
  kernelSize : BitVec 32

def KernelBaseInfo.isAccessFromKernelImage (kernelBaseInfo : KernelBaseInfo) (guestRip : Word) :
    Bool :=
  let kernelBase := kernelBaseInfo.kernelBaseAddress
  let kernelSize := kernelBaseInfo.kernelSize.setWidth 64
  if kernelBase = 0 || kernelSize = 0 then false
  else if kernelSize > 0x10000000#64 || kernelBase + kernelSize < kernelBase then false
  else guestRip ≥ kernelBase && guestRip < kernelBase + kernelSize

namespace EptViolation

def pageFaultErrorCode (violationQualification : Word) : BitVec 32 :=
  let code := 1#32
  let code := if writeAccess.get violationQualification ≠ 0 then code ||| 1#32 <<< 1 else code
  let code :=
    if userModeLinearAddress.get violationQualification ≠ 0 then code ||| 1#32 <<< 2 else code
  if executeAccess.get violationQualification ≠ 0 then code ||| 1#32 <<< 4 else code

/-- The right that the access lacks, the first one in the order of the handler's tests. -/
def deniedAccess (violationQualification : Word) : Option (BitField 64) :=
  if eptExecutable.get violationQualification = 0 ∧
      executeAccess.get violationQualification ≠ 0 then some Epte.executeAccess
  else if eptWriteable.get violationQualification = 0 ∧
      writeAccess.get violationQualification ≠ 0 then some Epte.writeAccess
  else if eptReadable.get violationQualification = 0 ∧
      readAccess.get violationQualification ≠ 0 then some Epte.readAccess
  else none

end EptViolation

def cpuBasedMonitorTrapFlag : BitVec 32 := 0x08000000#32

/-- Clearing the flag masks with a 32-bit complement, which also clears the high half. -/
def VmState.setMonitorTrapFlag (set : Bool) (guest : VmState) : VmState :=
  { guest with cpuBasedVmExecControl :=
      if set then guest.cpuBasedVmExecControl ||| cpuBasedMonitorTrapFlag.setWidth 64
      else guest.cpuBasedVmExecControl &&& (~~~cpuBasedMonitorTrapFlag).setWidth 64 }

/-- The bit of the control that the processor tests after each instruction. -/
def VmState.monitorTrapFlag (guest : VmState) : Bool := guest.cpuBasedVmExecControl.getLsbD 27

@[simp] theorem VmState.monitorTrapFlag_set (set : Bool) (guest : VmState) :
    (guest.setMonitorTrapFlag set).monitorTrapFlag = set := by
  cases set
  · simp [monitorTrapFlag, setMonitorTrapFlag, cpuBasedMonitorTrapFlag]
  · simp [monitorTrapFlag, setMonitorTrapFlag, cpuBasedMonitorTrapFlag]

inductive VmExit where
  | eptViolation (exitQualification guestPhysicalAddr guestLinearAddress guestRip : Word)
  | monitorTrapFlag
  | vmcall (vmcallNumber optionalParam1 optionalParam2 : Word)

namespace Machine

variable {Caller : Type*}

def injectPageFault (faultAddress : Word) (errorCode : BitVec 32) (m : Machine Caller) :
    Machine Caller :=
  { m with guest := { m.guest with pendingInjection := some (faultAddress, errorCode) } }

/-- Whether the violation is handled, and whether the hook is to be restored later. -/
def handleHookedPage (kernelBaseInfo : KernelBaseInfo) (hookedEntryDetails : Pvoid)
    (violationQualification guestLinearAddress guestRip : Word) (m : Machine Caller) :
    (Bool × Bool) × Machine Caller :=
  let pml1Entry := (m.detail hookedEntryDetails).entryAddress
  match EptViolation.deniedAccess violationQualification with
  | none => ((false, false), m)
  | some access =>
    if kernelBaseInfo.isAccessFromKernelImage guestRip then
      let m := m.setPml1 pml1Entry (access.set (m.pml1 pml1Entry) 1)
      let hookedEntry := m.detail hookedEntryDetails
      ((true, true), m.setPml1 hookedEntry.entryAddress hookedEntry.originalEntry)
    else
      ((true, false), m.injectPageFault guestLinearAddress
        (EptViolation.pageFaultErrorCode violationQualification))

def handlePageHookExit (kernelBaseInfo : KernelBaseInfo)
    (violationQualification guestPhysicalAddr guestLinearAddress guestRip : Word)
    (m : Machine Caller) : Bool × Machine Caller :=
  let alignedPhysicalAddress := pageAlign guestPhysicalAddr
  if alignedPhysicalAddress = 0 then (false, m)
  else
    match m.ept.hookedPages.find? fun hookedEntry =>
        (m.detail hookedEntry).physicalBaseAddress = alignedPhysicalAddress with
    | none => (false, m)
    | some hookedEntry =>
      let ((handled, restoreHookAfterInstruction), m) := m.handleHookedPage kernelBaseInfo
        hookedEntry violationQualification guestLinearAddress guestRip
      if restoreHookAfterInstruction then
        (handled, { m with guest :=
          { m.guest with hookedPage := some hookedEntry }.setMonitorTrapFlag true })
      else (handled, m)

/-- The store through the null pointer of a zeroed record faults. -/
def handleMonitorTrapFlag (hookedEntry : Pvoid) (m : Machine Caller) :
    Option (Machine Caller) :=
  let pml1Entry := (m.detail hookedEntry).entryAddress
  if pml1Entry.table = null then none
  else some (m.setPml1 pml1Entry (m.detail hookedEntry).changedEntry)

/-- The branch of `VmexitHandler` for the monitor trap flag. -/
def monitorTrapFlagExit (m : Machine Caller) : Option (Machine Caller) :=
  let restored : Option (Machine Caller) :=
    match m.guest.hookedPage with
    | some hookedEntry =>
      (m.handleMonitorTrapFlag hookedEntry).map fun m =>
        { m with guest := { m.guest with hookedPage := none } }
    | none => some m
  restored.map fun m => { m with guest := m.guest.setMonitorTrapFlag false }

variable [DecidableEq Caller]

/-- The test and the two invalidation calls change nothing that is modelled. -/
def vmcallHandler (os : Os) (vmcallNumber optionalParam1 optionalParam2 : Word)
    (m : Machine Caller) : Option (Ntstatus × Machine Caller) :=
  match vmcallNumber.toNat with
  | 1 => some (statusSuccess, m)
  | 2 => some (statusSuccess, { m with guest := { m.guest with isLaunched := false } })
  | 3 =>
    if optionalParam1 = 0 then some (statusInvalidParameter, m)
    else
      (m.rootModePageHook os optionalParam1 (optionalParam2.setWidth 8)).map fun (status, m) =>
        (if status then statusSuccess else statusUnsuccessful, m)
  | 4 | 5 => some (statusSuccess, m)
  | 6 =>
    if optionalParam1 = 0 then some (statusInvalidParameter, m)
    else
      let (status, m) := m.pageUnhookVmcall os optionalParam1
      some (if status then statusSuccess else statusUnsuccessful, m)
  | 7 =>
    let (status, m) := m.unhookAllPagesVmcall os
    some (if status then statusSuccess else statusUnsuccessful, m)
  | _ => some (statusInvalidParameter, m)

/-- A VMCALL hooks, unhooks one page or all of them, or does neither. -/
theorem vmcallHandler_cases {os : Os} {m m' : Machine Caller}
    {vmcallNumber optionalParam1 optionalParam2 : Word} {status : Ntstatus}
    (hcall : m.vmcallHandler os vmcallNumber optionalParam1 optionalParam2 = some (status, m')) :
    (vmcallNumber.toNat = 3 ∧ ∃ hooked,
      m.rootModePageHook os optionalParam1 (optionalParam2.setWidth 8) = some (hooked, m')) ∨
    (vmcallNumber.toNat = 6 ∧ optionalParam1 ≠ 0 ∧
      m' = (m.pageUnhookVmcall os optionalParam1).2) ∨
    (vmcallNumber.toNat = 7 ∧ m' = (m.unhookAllPagesVmcall os).2) ∨
    ((vmcallNumber.toNat = 6 → optionalParam1 = 0) ∧ vmcallNumber.toNat ≠ 7 ∧ ∃ isLaunched,
      m' = { m with guest := { m.guest with isLaunched := isLaunched } }) := by
  have hsame : some (status, m') = some (status, m) → ∃ isLaunched,
      m' = { m with guest := { m.guest with isLaunched := isLaunched } } :=
    fun heq => ⟨m.guest.isLaunched, (Prod.mk.inj (Option.some.inj heq)).2⟩
  unfold vmcallHandler at hcall
  split at hcall
  · rename_i hnumber
    obtain ⟨rfl, rfl⟩ := Prod.mk.inj (Option.some.inj hcall)
    exact Or.inr (Or.inr (Or.inr ⟨by omega, by omega, hsame rfl⟩))
  · rename_i hnumber
    obtain ⟨_, rfl⟩ := Prod.mk.inj (Option.some.inj hcall)
    exact Or.inr (Or.inr (Or.inr ⟨by omega, by omega, false, rfl⟩))
  · rename_i hnumber
    split at hcall
    · obtain ⟨rfl, rfl⟩ := Prod.mk.inj (Option.some.inj hcall)
      exact Or.inr (Or.inr (Or.inr ⟨by omega, by omega, hsame rfl⟩))
    · obtain ⟨⟨hooked, m1⟩, hhook, heq⟩ := Option.map_eq_some_iff.mp hcall
      obtain ⟨_, rfl⟩ := Prod.mk.inj heq
      exact Or.inl ⟨hnumber, hooked, hhook⟩
  · rename_i hnumber
    obtain ⟨rfl, rfl⟩ := Prod.mk.inj (Option.some.inj hcall)
    exact Or.inr (Or.inr (Or.inr ⟨by omega, by omega, hsame rfl⟩))
  · rename_i hnumber
    obtain ⟨rfl, rfl⟩ := Prod.mk.inj (Option.some.inj hcall)
    exact Or.inr (Or.inr (Or.inr ⟨by omega, by omega, hsame rfl⟩))
  · rename_i hnumber
    split at hcall
    · rename_i hzero
      obtain ⟨rfl, rfl⟩ := Prod.mk.inj (Option.some.inj hcall)
      exact Or.inr (Or.inr (Or.inr ⟨fun _ => hzero, by omega, hsame rfl⟩))
    · rename_i hnonzero
      obtain ⟨_, rfl⟩ := Prod.mk.inj (Option.some.inj hcall)
      exact Or.inr (Or.inl ⟨hnumber, hnonzero, rfl⟩)
  · rename_i hnumber
    obtain ⟨_, rfl⟩ := Prod.mk.inj (Option.some.inj hcall)
    exact Or.inr (Or.inr (Or.inl ⟨hnumber, rfl⟩))
  · rename_i hnot6 hnot7
    obtain ⟨rfl, rfl⟩ := Prod.mk.inj (Option.some.inj hcall)
    exact Or.inr (Or.inr (Or.inr ⟨fun h => (hnot6 h).elim, hnot7, hsame rfl⟩))

/-- What the handler does first, and what it does last. -/
def enterRoot (m : Machine Caller) : Machine Caller :=
  { m with guest := { m.guest with isOnVmxRoot := true, pendingInjection := none } }

def leaveRoot (m : Machine Caller) : Machine Caller :=
  { m with guest := { m.guest with isOnVmxRoot := false } }

/-- The exits of one processor, with the rax of a VMCALL. -/
def vmexitHandler (os : Os) (kernelBaseInfo : KernelBaseInfo) (m : Machine Caller) :
    VmExit → Option (Option Ntstatus × Machine Caller)
  | .eptViolation exitQualification guestPhysicalAddr guestLinearAddress guestRip =>
    some (none, (m.enterRoot.handlePageHookExit kernelBaseInfo exitQualification
      guestPhysicalAddr guestLinearAddress guestRip).2.leaveRoot)
  | .monitorTrapFlag => m.enterRoot.monitorTrapFlagExit.map fun m => (none, m.leaveRoot)
  | .vmcall vmcallNumber optionalParam1 optionalParam2 =>
    (m.enterRoot.vmcallHandler os vmcallNumber optionalParam1 optionalParam2).map
      fun (status, m) => (some status, m.leaveRoot)

end Machine

end NovaHypervisor

import NovaHypervisor.EntryFields

/-!
What becomes of an event whose delivery an exit interrupted. The handler reads the
IDT-vectoring information only when it has no event of its own, so its own event replaces
an interrupted one without a trace.
-/
namespace NovaHypervisor

open General

namespace Vmcs

/-- The same VMCS after an exit that interrupted another event. -/
def withVectoring (info : Word) (vmcs : Vmcs) : Vmcs := vmcs.vmwrite .idtVectoringInfoField info

theorem vmread_withVectoring {f : VmcsField} (hf : f ≠ .idtVectoringInfoField) (info : Word)
    (vmcs : Vmcs) : (vmcs.withVectoring info).vmread f = vmcs.vmread f :=
  vmread_vmwrite_of_ne hf info vmcs

theorem vmwrite_withVectoring {f : VmcsField} (hf : f ≠ .idtVectoringInfoField)
    (info value : Word) (vmcs : Vmcs) :
    (vmcs.withVectoring info).vmwrite f value = (vmcs.vmwrite f value).withVectoring info :=
  vmwrite_comm hf.symm info value vmcs

theorem withVectoring_withVectoring (info info' : Word) (vmcs : Vmcs) :
    (vmcs.withVectoring info).withVectoring info' = vmcs.withVectoring info' := by
  simp only [withVectoring, vmwrite, Function.update_idem]

end Vmcs

namespace EventHandler

open Vmcs

theorem clearPendingInjection_withVectoring (info : Word) (vmcs : Vmcs) :
    clearPendingInjection (vmcs.withVectoring info) =
      (clearPendingInjection vmcs).withVectoring info := by
  simp (disch := decide) only [clearPendingInjection, vmwrite_withVectoring]

theorem injectInterruption_withVectoring (vector : ExceptionVector) (errorCode : BitVec 32)
    (info : Word) (vmcs : Vmcs) :
    injectInterruption .hardwareException vector true errorCode (vmcs.withVectoring info) =
      (injectInterruption .hardwareException vector true errorCode vmcs).withVectoring info := by
  simp (disch := decide) only [injectInterruption_fault, vmwrite_withVectoring]

theorem injectEventFromVmExitInterruption_withVectoring (interruptExit : BitVec 32)
    (info : Word) (vmcs : Vmcs) :
    injectEventFromVmExitInterruption interruptExit (vmcs.withVectoring info) =
      ((injectEventFromVmExitInterruption interruptExit vmcs).1,
        (injectEventFromVmExitInterruption interruptExit vmcs).2.withVectoring info) := by
  by_cases hvalid : InterruptInfo.valid.get interruptExit = 0
  · simp only [injectEventFromVmExitInterruption, if_pos hvalid]
  · simp (disch := decide) only [injectEventFromVmExitInterruption_valid hvalid,
      vmwrite_withVectoring, vmread_withVectoring]

end EventHandler

namespace RegistersHandler

open Vmcs

theorem movToCr_withVectoring (controlRegister : ℕ) (registerValue info : Word) (vmcs : Vmcs) :
    movToCr controlRegister registerValue (vmcs.withVectoring info) =
      (movToCr controlRegister registerValue vmcs).map (Vmcs.withVectoring info) := by
  unfold movToCr
  split <;> simp (disch := decide) only [vmwrite_withVectoring, Option.map_some, Option.map_none]

theorem movFromCr_withVectoring (controlRegister : ℕ) (info : Word) (vmcs : Vmcs) :
    movFromCr controlRegister (vmcs.withVectoring info) = movFromCr controlRegister vmcs := by
  unfold movFromCr
  simp (disch := decide) only [vmread_withVectoring]

theorem handleCRAccess_withVectoring (guestRegisters : GuestRegs) (info : Word) (vmcs : Vmcs) :
    handleCRAccess guestRegisters (vmcs.withVectoring info) =
      ((handleCRAccess guestRegisters vmcs).1, (handleCRAccess guestRegisters vmcs).2.1,
        (handleCRAccess guestRegisters vmcs).2.2.withVectoring info) := by
  unfold handleCRAccess
  simp (disch := decide) only [vmread_withVectoring, movToCr_withVectoring,
    movFromCr_withVectoring]
  split
  · rfl
  · split
    · rcases movToCr _ _ vmcs with _ | stored
      · rfl
      · rfl
    · rcases movFromCr _ vmcs with _ | read
      · rfl
      · dsimp only
        split
        · simp (disch := decide) only [vmwrite_withVectoring]
        · rfl

end RegistersHandler

namespace Vcpu

open Vmcs EventHandler

variable {Caller : Type*}

def withVectoring (info : Word) (v : Vcpu Caller) : Vcpu Caller :=
  { v with vmcs := v.vmcs.withVectoring info }

theorem refuse_withVectoring (info : Word) (v : Vcpu Caller) :
    (v.withVectoring info).refuse = (v.refuse.1, v.refuse.2.withVectoring info) := by
  simp only [refuse, withVectoring, injectGeneralProtection, injectInterruption_withVectoring]

theorem handleEptViolation_withVectoring (kernelBaseInfo : KernelBaseInfo) (info : Word)
    (v : Vcpu Caller) : (v.withVectoring info).handleEptViolation kernelBaseInfo =
      (v.handleEptViolation kernelBaseInfo).withVectoring info := by
  unfold handleEptViolation
  simp (disch := decide) only [withVectoring, vmread_withVectoring]
  split
  · rfl
  · simp only [injectPageFault, injectInterruption_withVectoring]

theorem entered_withVectoring (info : Word) (v : Vcpu Caller) :
    (v.withVectoring info).entered = v.entered.withVectoring info := by
  simp only [entered, withVectoring, clearPendingInjection_withVectoring]

theorem exitReason_withVectoring (info : Word) (v : Vcpu Caller) :
    (v.withVectoring info).exitReason = v.exitReason := by
  simp (disch := decide) only [exitReason, withVectoring, vmread_withVectoring]

/-- An event in the entry's fields keeps the interrupted one out of them. -/
theorem finishExit_withVectoring {own : EntryEvent} {v : Vcpu Caller} {action : VmExitAction}
    (h : v.vmcs.Delivers (some own)) (hadvance : action ≠ .advanceRip)
    (hresumed : v.vmxoffState.isVmxoffExecuted = false) (info : Word) :
    (v.withVectoring info).finishExit action =
      (false, (v.finishExit action).2.withVectoring info) := by
  have hinfo : (v.vmcs.withVectoring info).Delivers (some own) :=
    h.congr ((AgreeOutside.refl [.idtVectoringInfoField] v.vmcs).vmwrite (by decide) info)
      (by decide)
  have hstays : ∀ vmcs : Vmcs, vmcs.Delivers (some own) →
      (reinjectEventFromIdtVectoring vmcs).2 = vmcs := by
    intro vmcs hvmcs
    rw [reinjectEventFromIdtVectoring_stays hvmcs (Or.inl rfl)]
  simp only [finishExit, withVectoring, hresumed, Bool.false_eq_true, if_false,
    if_neg hadvance, hstays _ h, hstays _ hinfo, ite_self]

variable [DecidableEq Caller]

theorem handleVmcall_withVectoring (os : Os) (host : Host) (info : Word) (v : Vcpu Caller) :
    (v.withVectoring info).handleVmcall os host =
      (v.handleVmcall os host).map (withVectoring info) := by
  unfold handleVmcall
  simp (disch := decide) only [withVectoring, vmxVmxoff, vmread_withVectoring]
  split
  · rcases v.machine.vmcallHandler os _ _ _ with _ | ⟨status, machine⟩
    · rfl
    · simp only [Option.map_some]
      split
      · rfl
      · rfl
  · rfl

/-- No case of the switch looks at the interrupted event. -/
theorem handleExit_withVectoring (os : Os) (kernelBaseInfo : KernelBaseInfo) (host : Host)
    (reason : ExitReason) (info : Word) (v : Vcpu Caller) :
    (v.withVectoring info).handleExit os kernelBaseInfo host reason =
      (v.handleExit os kernelBaseInfo host reason).map fun (action, v) =>
        (action, v.withVectoring info) := by
  cases reason with
  | exceptionNmi =>
    simp (disch := decide) only [handleExit, withVectoring, vmread_withVectoring,
      injectEventFromVmExitInterruption_withVectoring, Option.map_some]
  | eptViolation =>
    simp only [handleExit, handleEptViolation_withVectoring, Option.map_some]
  | vmxInstruction =>
    simp (disch := decide) only [handleExit, withVectoring, vmread_withVectoring,
      vmwrite_withVectoring, Option.map_some]
  | crAccess =>
    simp only [handleExit, withVectoring, RegistersHandler.handleCRAccess_withVectoring]
    rcases RegistersHandler.handleCRAccess v.registers v.vmcs with ⟨_ | _, registers, vmcs⟩
    · exact congrArg some (refuse_withVectoring info v)
    · rfl
  | msrRead =>
    simp only [handleExit, Option.map_map]
    congr 1
    funext answer
    rcases answer with ⟨_ | _, registers⟩
    · exact refuse_withVectoring info v
    · rfl
  | msrWrite =>
    simp only [handleExit, Option.map_map]
    congr 1
    funext stored
    cases stored with
    | none => exact refuse_withVectoring info v
    | some store => rfl
  | monitorTrapFlag =>
    simp only [handleExit, withVectoring, Option.map_map]
    rfl
  | vmcall =>
    simp only [handleExit, handleVmcall_withVectoring, Option.map_map]
    rfl
  | xsetbv =>
    simp only [handleExit, withVectoring]
    rcases emulateXsetbv host v.registers with _ | requestedMask
    · exact congrArg some (refuse_withVectoring info v)
    · dsimp only
      split
      · rfl
      · rfl
  | _ => rfl

/-- The event that the entry delivers has the vector and the type of the interrupted one. -/
def Carries (vmcs : Vmcs) (info : Word) : Prop :=
  let entry := (vmcs.vmread .vmEntryIntrInfoField).setWidth 32
  InterruptInfo.valid.get entry ≠ 0 ∧
    InterruptInfo.vector.get entry = InterruptInfo.vector.get (info.setWidth 32) ∧
    InterruptInfo.interruptType.get entry = InterruptInfo.interruptType.get (info.setWidth 32)

omit [DecidableEq Caller] in
theorem carries_iff {vmcs : Vmcs} {event : EntryEvent} (h : vmcs.Delivers (some event))
    (info : Word) : Carries vmcs info ↔
      InterruptInfo.vector.get event.info = InterruptInfo.vector.get (info.setWidth 32) ∧
      InterruptInfo.interruptType.get event.info =
        InterruptInfo.interruptType.get (info.setWidth 32) := by
  have hread : (vmcs.vmread .vmEntryIntrInfoField).setWidth 32 = event.info := by
    rw [h.info, BitVec.setWidth_setWidth_of_le _ (by decide), BitVec.setWidth_eq]
    rfl
  rw [Carries, hread]
  exact and_iff_right event.valid

/-- The processor's state after the exit tells two interrupted events apart. The field of
the exit itself does not count, since the next exit overwrites it. -/
def Records (os : Os) (kernelBaseInfo : KernelBaseInfo) (host : Host) (v v' : Vcpu Caller) :
    Prop :=
  ∃ info result, (v.withVectoring info).vmexitHandler os kernelBaseInfo host = some result ∧
    result.2.withVectoring 0 ≠ v'.withVectoring 0

/-- An own event of the handler leaves no trace of the interrupted one. -/
theorem not_records_of_ownEvent {os : Os} {kernelBaseInfo : KernelBaseInfo} {host : Host}
    {v v' : Vcpu Caller} {own : EntryEvent}
    (hexit : v.vmexitHandler os kernelBaseInfo host = some (false, v'))
    (hown : v.ownEvent kernelBaseInfo host = some own) :
    ¬ Records os kernelBaseInfo host v v' := by
  obtain ⟨⟨action, w⟩, hhandled, hfinish⟩ := Option.map_eq_some_iff.mp hexit
  have h := handled_handleExit (delivers_clearPendingInjection v.vmcs) rfl hhandled
  rw [eventOf_entered, ← ownEvent, hown] at h
  obtain ⟨hresumed, hv'⟩ := Prod.mk.inj hfinish
  intro hrecords
  obtain ⟨info, result, hresult, hdiffers⟩ := hrecords
  have hsame : (v.withVectoring info).vmexitHandler os kernelBaseInfo host =
      some (false, v'.withVectoring info) := by
    rw [vmexitHandler, entered_withVectoring, exitReason_withVectoring,
      handleExit_withVectoring, hhandled, ← hv']
    exact congrArg some (finishExit_withVectoring h.delivers (h.action rfl) hresumed info)
  obtain rfl := Option.some.inj (hsame.symm.trans hresult)
  apply hdiffers
  simp only [withVectoring, withVectoring_withVectoring]

/-- The interrupted event is in the entry's fields, or the state still knows it. -/
def Kept (os : Os) (kernelBaseInfo : KernelBaseInfo) (host : Host) (v v' : Vcpu Caller) : Prop :=
  Carries v'.vmcs (v.vmcs.vmread .idtVectoringInfoField) ∨
    Records os kernelBaseInfo host v v'

/-- The exit interrupted the delivery of an external interrupt or of an NMI. -/
def InterruptsDelivery (v : Vcpu Caller) : Prop :=
  let info := (v.vmcs.vmread .idtVectoringInfoField).setWidth 32
  InterruptInfo.valid.get info ≠ 0 ∧
    InterruptType.ofCode (InterruptInfo.interruptType.get info).toNat ∈
      [.externalInterrupt, .nmi]

/-- An interrupted event is kept just when the handler injects nothing else. -/
theorem kept_iff_of_vmexitHandler {os : Os} {kernelBaseInfo : KernelBaseInfo} {host : Host}
    {v v' : Vcpu Caller} (hinterrupts : v.InterruptsDelivery)
    (hexit : v.vmexitHandler os kernelBaseInfo host = some (false, v')) :
    Kept os kernelBaseInfo host v v' ↔ ∀ own ∈ v.ownEvent kernelBaseInfo host,
      InterruptInfo.vector.get own.info = InterruptInfo.vector.get
        ((v.vmcs.vmread .idtVectoringInfoField).setWidth 32) ∧
      InterruptInfo.interruptType.get own.info = InterruptInfo.interruptType.get
        ((v.vmcs.vmread .idtVectoringInfoField).setWidth 32) := by
  have hdelivers := (delivers_vmexitHandler hexit).1
  rcases hown : v.ownEvent kernelBaseInfo host with _ | own
  · refine ⟨fun _ own hmem => absurd hmem.symm (Option.some_ne_none own), fun _ => Or.inl ?_⟩
    have hvectored : vectored v.vmcs =
        some ⟨(v.vmcs.vmread .idtVectoringInfoField).setWidth 32 &&& vmEntryEventMask,
          (v.vmcs.vmread .idtVectoringErrorCode).setWidth 32,
          EntryEvent.valid_masked hinterrupts.1, EntryEvent.reserved_masked _⟩ :=
      dif_pos hinterrupts.1
    rw [hown, hvectored] at hdelivers
    refine (carries_iff hdelivers _).mpr ⟨?_, ?_⟩
    · exact EntryEvent.get_masked _ (by decide) _
    · exact EntryEvent.get_masked _ (by decide) _
  · rw [hown] at hdelivers
    constructor
    · intro hkept event hmem
      obtain rfl := Option.some.inj hmem
      rcases hkept with hcarries | hrecords
      · exact (carries_iff hdelivers _).mp hcarries
      · exact absurd hrecords (not_records_of_ownEvent hexit hown)
    · intro hsame
      exact Or.inl ((carries_iff hdelivers _).mpr (hsame own rfl))

/-- An external interrupt is being delivered, and a store to a protected page is in the way. -/
def interruptedStore (guestRip : Word) : Vcpu Unit :=
  flatVcpu (execute (Machine.exitStep flatOs Machine.flatKernel) (Machine.flatMachine 1 1)
    [.exit (.vmcall 3 0x200000#64 1)])
    [(.vmExitReason, 48), (.exitQualification, 0xA), (.guestPhysicalAddress, 0x200000),
      (.guestLinearAddress, 0x200000), (.guestRip, guestRip),
      (.idtVectoringInfoField, 0x80000030)]

/-- The table blocks the store unless the code that runs is in the kernel's image. -/
theorem ownEvent_interruptedStore (guestRip : Word) :
    (interruptedStore guestRip).ownEvent Machine.flatKernel flatHost =
      if (interruptedStore guestRip).machine.blocks Machine.flatKernel 0xA 0x200000 guestRip then
        some (EntryEvent.fault .pageFault (EptViolation.pageFaultErrorCode 0xA))
      else none := by
  have hrip : (interruptedStore guestRip).vmcs.vmread .guestRip = guestRip := BitVec.and_allOnes
  have hcode : (interruptedStore guestRip).vmcs.vmread .vmExitReason = 48 :=
    show 48#64 &&& 0xFFFFFFFF#64 = 48#64 by decide
  have hreason : (interruptedStore guestRip).exitReason = .eptViolation := by
    rw [exitReason, hcode]
    decide
  have hqualification : (interruptedStore guestRip).vmcs.vmread .exitQualification = 0xA :=
    BitVec.and_allOnes
  have hphysical : (interruptedStore guestRip).vmcs.vmread .guestPhysicalAddress = 0x200000 :=
    BitVec.and_allOnes
  rw [ownEvent, hreason, eventOf, hrip, hqualification, hphysical]

/-- The kernel's store is allowed, so the interrupt is delivered again. -/
theorem kept_of_kernelStore :
    ∃ v', (interruptedStore 0xFFFFF80000001000).vmexitHandler flatOs Machine.flatKernel flatHost =
        some (false, v') ∧
      Kept flatOs Machine.flatKernel flatHost (interruptedStore 0xFFFFF80000001000) v' := by
  have hexit := vmexitHandler_eptViolation flatOs Machine.flatKernel flatHost
    (v := interruptedStore 0xFFFFF80000001000) (by decide) rfl
  refine ⟨_, hexit, (kept_iff_of_vmexitHandler ⟨by decide, by decide⟩ hexit).mpr ?_⟩
  have hallowed : ¬ (interruptedStore 0xFFFFF80000001000).machine.blocks Machine.flatKernel 0xA
      0x200000 0xFFFFF80000001000 = true := by decide +kernel
  intro own hmem
  rw [ownEvent_interruptedStore, if_neg hallowed] at hmem
  exact absurd hmem.symm (Option.some_ne_none own)

/-- Another driver's store is blocked, and its page fault replaces the interrupt. -/
theorem not_kept_of_blockedStore :
    ¬ ∀ (os : Os) (kernelBaseInfo : KernelBaseInfo) (host : Host) (v v' : Vcpu Unit),
      v.InterruptsDelivery → v.vmexitHandler os kernelBaseInfo host = some (false, v') →
        Kept os kernelBaseInfo host v v' := by
  intro h
  have hexit := vmexitHandler_eptViolation flatOs Machine.flatKernel flatHost
    (v := interruptedStore 0x1000) (by decide) rfl
  have hblocks : (interruptedStore 0x1000).machine.blocks Machine.flatKernel 0xA 0x200000
      0x1000 = true := by decide +kernel
  have hown := ownEvent_interruptedStore 0x1000
  rw [if_pos hblocks] at hown
  have hdelivers := (delivers_vmexitHandler hexit).1
  rw [hown] at hdelivers
  rcases h _ _ _ _ _ ⟨by decide, by decide⟩ hexit with hcarries | hrecords
  · exact absurd ((carries_iff hdelivers _).mp hcarries).1 (by decide)
  · exact not_records_of_ownEvent hexit hown hrecords

end Vcpu

end NovaHypervisor

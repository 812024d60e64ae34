import NovaHypervisor.VmexitHandler

/-!
The event that an exit leaves for the next entry. The handler's own event depends on the
exit alone, and an interrupted event takes its place when there is none. Both are events
that an entry can deliver, so the fields are well formed after every exit that resumes.
-/
namespace NovaHypervisor

open General

namespace Machine

variable {Caller : Type*}

/-- Whether a violation is an access to a protected page that the handler blocks. -/
def blocks (kernelBaseInfo : KernelBaseInfo)
    (violationQualification guestPhysicalAddr guestRip : Word) (m : Machine Caller) : Bool :=
  pageAlign guestPhysicalAddr ≠ 0 &&
    (m.ept.hookedPages.find? fun hookedEntry =>
      (m.detail hookedEntry).physicalBaseAddress = pageAlign guestPhysicalAddr).isSome &&
    (EptViolation.deniedAccess violationQualification).isSome &&
    !kernelBaseInfo.isAccessFromKernelImage guestRip

/-- The handler injects a page fault for a blocked access and for no other. -/
theorem pendingInjection_handlePageHookExit (m : Machine Caller) (kernelBaseInfo : KernelBaseInfo)
    (violationQualification guestPhysicalAddr guestLinearAddress guestRip : Word) :
    (m.handlePageHookExit kernelBaseInfo violationQualification guestPhysicalAddr
      guestLinearAddress guestRip).2.guest.pendingInjection =
      if m.blocks kernelBaseInfo violationQualification guestPhysicalAddr guestRip then
        some (guestLinearAddress, EptViolation.pageFaultErrorCode violationQualification)
      else m.guest.pendingInjection := by
  by_cases hzero : pageAlign guestPhysicalAddr = 0
  · simp [handlePageHookExit, blocks, hzero]
  rcases hfound : m.ept.hookedPages.find? (fun hookedEntry =>
      (m.detail hookedEntry).physicalBaseAddress = pageAlign guestPhysicalAddr) with _ | r
  · simp [handlePageHookExit, blocks, hfound]
  rcases hdenied : EptViolation.deniedAccess violationQualification with _ | access
  · simp [handlePageHookExit, handleHookedPage, blocks, hfound, hdenied]
  by_cases himage : kernelBaseInfo.isAccessFromKernelImage guestRip = true
  · have hnot : m.blocks kernelBaseInfo violationQualification guestPhysicalAddr guestRip =
        false := by
      rw [blocks, himage, Bool.not_true, Bool.and_false]
    rw [hnot]
    simp only [handlePageHookExit, if_neg hzero, hfound, handleHookedPage, hdenied,
      if_pos himage]
    rfl
  · have hblocks : m.blocks kernelBaseInfo violationQualification guestPhysicalAddr guestRip =
        true := by
      rw [blocks, hfound, hdenied, Bool.eq_false_iff.mpr himage, decide_eq_true hzero]
      rfl
    rw [if_pos hblocks]
    simp only [handlePageHookExit, if_neg hzero, hfound, handleHookedPage, hdenied,
      if_neg himage]
    rfl

end Machine

namespace RegistersHandler

/-- Whether the handler has no emulation for the access to a control register. -/
def refusesCrAccess (exitQualification : Word) : Bool :=
  MovCrQualification.accessType.get exitQualification > typeMovFromCr ||
    (MovCrQualification.controlRegister.get exitQualification).toNat ∉ [0, 3, 4]

/-- The fields that the emulation of an access to a control register stores to. -/
def crFields : List VmcsField :=
  [.guestCr0, .cr0ReadShadow, .guestCr3, .guestCr4, .cr4ReadShadow, .guestRsp]

theorem movToCr_eq_none_iff (controlRegister : ℕ) (registerValue : Word) (vmcs : Vmcs) :
    movToCr controlRegister registerValue vmcs = none ↔ controlRegister ∉ [0, 3, 4] := by
  unfold movToCr
  split <;> simp_all

theorem movFromCr_eq_none_iff (controlRegister : ℕ) (vmcs : Vmcs) :
    movFromCr controlRegister vmcs = none ↔ controlRegister ∉ [0, 3, 4] := by
  unfold movFromCr
  split <;> simp_all

theorem agreeOutside_movToCr {controlRegister : ℕ} {registerValue : Word} {vmcs vmcs' : Vmcs}
    (h : movToCr controlRegister registerValue vmcs = some vmcs') :
    Vmcs.AgreeOutside crFields vmcs vmcs' := by
  unfold movToCr at h
  split at h
  · obtain rfl := Option.some.inj h
    exact ((Vmcs.AgreeOutside.refl _ vmcs).vmwrite (by decide) _).vmwrite (by decide) _
  · obtain rfl := Option.some.inj h
    exact (Vmcs.AgreeOutside.refl _ vmcs).vmwrite (by decide) _
  · obtain rfl := Option.some.inj h
    exact ((Vmcs.AgreeOutside.refl _ vmcs).vmwrite (by decide) _).vmwrite (by decide) _
  · exact absurd h.symm (Option.some_ne_none _)

/-- A refused access changes nothing, and another one only the control registers. -/
theorem handleCRAccess_ends (guestRegisters : GuestRegs) (vmcs : Vmcs) :
    (refusesCrAccess (vmcs.vmread .exitQualification) = true ∧
      handleCRAccess guestRegisters vmcs = (false, guestRegisters, vmcs)) ∨
    (refusesCrAccess (vmcs.vmread .exitQualification) = false ∧ ∃ registers vmcs',
      Vmcs.AgreeOutside crFields vmcs vmcs' ∧
        handleCRAccess guestRegisters vmcs = (true, registers, vmcs')) := by
  unfold handleCRAccess
  dsimp only
  by_cases htype : MovCrQualification.accessType.get (vmcs.vmread .exitQualification) >
      typeMovFromCr
  · left
    exact ⟨by simp [refusesCrAccess, htype], if_pos htype⟩
  rw [if_neg htype]
  have hrefuses : refusesCrAccess (vmcs.vmread .exitQualification) = decide
      ((MovCrQualification.controlRegister.get (vmcs.vmread .exitQualification)).toNat ∉
        [0, 3, 4]) := by
    simp [refusesCrAccess, htype]
  split
  · split
    · rename_i hnone
      left
      exact ⟨by rw [hrefuses, decide_eq_true ((movToCr_eq_none_iff _ _ _).mp hnone)], rfl⟩
    · rename_i vmcs' hsome
      right
      refine ⟨?_, guestRegisters, vmcs', agreeOutside_movToCr hsome, rfl⟩
      rw [hrefuses, decide_eq_false_iff_not, ← movToCr_eq_none_iff _ _ vmcs, hsome]
      exact Option.some_ne_none vmcs'
  · split
    · rename_i hnone
      left
      exact ⟨by rw [hrefuses, decide_eq_true ((movFromCr_eq_none_iff _ _).mp hnone)], rfl⟩
    · rename_i registerValue hsome
      right
      have haccepts : refusesCrAccess (vmcs.vmread .exitQualification) = false := by
        rw [hrefuses, decide_eq_false_iff_not, ← movFromCr_eq_none_iff _ vmcs, hsome]
        exact Option.some_ne_none registerValue
      split
      · exact ⟨haccepts, guestRegisters, _, (Vmcs.AgreeOutside.refl _ vmcs).vmwrite (by decide) _,
          rfl⟩
      · exact ⟨haccepts, _, vmcs, Vmcs.AgreeOutside.refl _ vmcs, rfl⟩

end RegistersHandler

namespace Vcpu

open Vmcs EventHandler

variable {Caller : Type*}

def generalProtection : EntryEvent := EntryEvent.fault .generalProtectionFault 0

/-- The event that the handler injects for an exit, as the exit alone decides it. -/
def eventOf (kernelBaseInfo : KernelBaseInfo) (host : Host) (reason : ExitReason)
    (v : Vcpu Caller) : Option EntryEvent :=
  match reason with
  | .exceptionNmi => reflected ((v.vmcs.vmread .vmExitIntrInfo).setWidth 32) v.vmcs
  | .crAccess =>
    if RegistersHandler.refusesCrAccess (v.vmcs.vmread .exitQualification) then
      some generalProtection
    else none
  | .msrRead | .msrWrite =>
    if RegistersHandler.isHyperVSyntheticMsr v.registers.rcx ||
        RegistersHandler.isValidMsr v.registers.rcx then none
    else some generalProtection
  | .xsetbv => if (emulateXsetbv host v.registers).isSome then none else some generalProtection
  | .eptViolation =>
    let qualification := v.vmcs.vmread .exitQualification
    if v.machine.blocks kernelBaseInfo qualification (v.vmcs.vmread .guestPhysicalAddress)
        (v.vmcs.vmread .guestRip) then
      some (EntryEvent.fault .pageFault (EptViolation.pageFaultErrorCode qualification))
    else none
  | _ => none

def ownEvent (kernelBaseInfo : KernelBaseInfo) (host : Host) (v : Vcpu Caller) :
    Option EntryEvent :=
  v.eventOf kernelBaseInfo host v.exitReason

/-- The fields that some case of the switch stores to. -/
def handledFields : List VmcsField :=
  entryFields ++ RegistersHandler.crFields ++ [.guestRflags]

/-- What a case of the switch leaves: its event in the fields, and no step over a fault. -/
structure Handled (own : Option EntryEvent) (v : Vcpu Caller)
    (result : VmExitAction × Vcpu Caller) : Prop where
  delivers : result.2.vmcs.Delivers own
  action : own.isSome → result.1 ≠ .advanceRip
  resumes : result.1 ≠ .shutdownVmx
  agree : AgreeOutside handledFields v.vmcs result.2.vmcs

namespace Handled

variable {v : Vcpu Caller}

theorem refuse (v : Vcpu Caller) : Handled (some generalProtection) v v.refuse := by
  refine ⟨delivers_injectInterruption _ _ _, ?_, VmExitAction.noConfusion, ?_⟩
  · intro _
    exact VmExitAction.noConfusion
  · exact (agreeOutside_injectInterruption _ _ _).mono (by decide)

/-- A case that injects nothing and stores at most outside the fields for the entry. -/
theorem quiet {v' : Vcpu Caller} {fields : List VmcsField} (h : v.vmcs.Delivers none)
    (hagree : AgreeOutside fields v.vmcs v'.vmcs) (hhandled : fields ⊆ handledFields)
    (hentry : ∀ f ∈ .vmExitInstructionLen :: entryFields, f ∉ fields) {action : VmExitAction}
    (haction : action ≠ .shutdownVmx) : Handled none v (action, v') :=
  ⟨h.congr hagree hentry, fun hsome => absurd hsome Bool.false_ne_true, haction,
    hagree.mono hhandled⟩

theorem same {result : VmExitAction × Vcpu Caller} (h : v.vmcs.Delivers none)
    (hsame : result.2.vmcs = v.vmcs) (haction : result.1 ≠ .shutdownVmx) :
    Handled none v result := by
  have hagree : AgreeOutside [] v.vmcs result.2.vmcs := fun f _ => by rw [hsame]
  exact quiet h hagree (List.nil_subset _) (fun _ _ => List.not_mem_nil) haction

end Handled

/-- The violation's case injects the page fault of a blocked access. -/
theorem handled_eptViolation (kernelBaseInfo : KernelBaseInfo) (host : Host) {v : Vcpu Caller}
    (h : v.vmcs.Delivers none) (hpending : v.machine.guest.pendingInjection = none) :
    Handled (v.eventOf kernelBaseInfo host .eptViolation) v
      (.resumeCurrentRip, v.handleEptViolation kernelBaseInfo) := by
  have hinjection := v.machine.pendingInjection_handlePageHookExit kernelBaseInfo
    (v.vmcs.vmread .exitQualification) (v.vmcs.vmread .guestPhysicalAddress)
    (v.vmcs.vmread .guestLinearAddress) (v.vmcs.vmread .guestRip)
  rw [handleEptViolation, eventOf]
  by_cases hblocks : v.machine.blocks kernelBaseInfo (v.vmcs.vmread .exitQualification)
      (v.vmcs.vmread .guestPhysicalAddress) (v.vmcs.vmread .guestRip) = true
  · rw [if_pos hblocks] at hinjection ⊢
    rw [hinjection]
    refine ⟨delivers_injectInterruption _ _ _, ?_, VmExitAction.noConfusion, ?_⟩
    · intro _
      exact VmExitAction.noConfusion
    · exact (agreeOutside_injectInterruption _ _ _).mono (by decide)
  · rw [if_neg hblocks] at hinjection ⊢
    rw [hinjection, hpending]
    refine Handled.same h ?_ ?_
    · rfl
    · exact VmExitAction.noConfusion

theorem reflected_action (injected : Bool) {action : VmExitAction}
    (hadvance : action ≠ .injectEvent) (hresume : action ≠ .resumeCurrentRip) :
    (if injected then VmExitAction.injectEvent else .resumeCurrentRip) ≠ action := by
  cases injected
  · exact hresume.symm
  · exact hadvance.symm

variable [DecidableEq Caller]

theorem vmexitHandler_eptViolation (os : Os) (kernelBaseInfo : KernelBaseInfo) (host : Host)
    {v : Vcpu Caller} (hreason : v.exitReason = .eptViolation)
    (hresumed : v.vmxoffState.isVmxoffExecuted = false) :
    v.vmexitHandler os kernelBaseInfo host = some (false,
      ((v.entered.handleEptViolation kernelBaseInfo).finishExit .resumeCurrentRip).2) := by
  have hoff : (v.entered.handleEptViolation kernelBaseInfo).vmxoffState = v.vmxoffState := by
    rw [handleEptViolation]
    split
    · rfl
    · rfl
  rw [vmexitHandler, hreason]
  refine congrArg some (Prod.ext ?_ rfl)
  rw [← hresumed, ← hoff]
  rfl

/-- Every case of the switch, under the fields that the exit's start clears. -/
theorem handled_handleExit {os : Os} {kernelBaseInfo : KernelBaseInfo} {host : Host}
    {reason : ExitReason} {v : Vcpu Caller} {result : VmExitAction × Vcpu Caller}
    (h : v.vmcs.Delivers none) (hpending : v.machine.guest.pendingInjection = none)
    (hexit : v.handleExit os kernelBaseInfo host reason = some result) :
    Handled (v.eventOf kernelBaseInfo host reason) v result := by
  cases reason with
  | exceptionNmi =>
    obtain rfl := Option.some.inj hexit
    refine ⟨delivers_injectEventFromVmExitInterruption h _, ?_, ?_, ?_⟩
    · intro _
      exact reflected_action _ VmExitAction.noConfusion VmExitAction.noConfusion
    · exact reflected_action _ VmExitAction.noConfusion VmExitAction.noConfusion
    · exact (agreeOutside_injectEventFromVmExitInterruption _ v.vmcs).mono (by decide)
  | tripleFault | eptMisconfig | unhandled | hlt | invd | userWait | cpuid =>
    obtain rfl := Option.some.inj hexit
    refine Handled.same h ?_ ?_
    · rfl
    · exact VmExitAction.noConfusion
  | monitorTrapFlag =>
    obtain ⟨machine, _, rfl⟩ := Option.map_eq_some_iff.mp hexit
    refine Handled.same h ?_ ?_
    · rfl
    · exact VmExitAction.noConfusion
  | eptViolation =>
    obtain rfl := Option.some.inj hexit
    exact handled_eptViolation kernelBaseInfo host h hpending
  | vmxInstruction =>
    obtain rfl := Option.some.inj hexit
    exact Handled.quiet h ((AgreeOutside.refl [.guestRflags] v.vmcs).vmwrite (by decide) _)
      (by decide) (by decide)
      VmExitAction.noConfusion
  | crAccess =>
    rw [eventOf]
    rcases RegistersHandler.handleCRAccess_ends v.registers v.vmcs with
      ⟨hrefuses, hresult⟩ | ⟨haccepts, registers, vmcs, hagree, hresult⟩
    · rw [handleExit, hresult] at hexit
      obtain rfl := Option.some.inj hexit
      rw [if_pos hrefuses]
      exact Handled.refuse v
    · rw [handleExit, hresult] at hexit
      obtain rfl := Option.some.inj hexit
      rw [if_neg (by rw [haccepts]; exact Bool.false_ne_true)]
      refine Handled.quiet h hagree ?_ ?_ VmExitAction.noConfusion
      · decide
      · decide
  | msrRead =>
    rw [handleExit, RegistersHandler.handleMSRRead] at hexit
    rw [eventOf]
    split at hexit
    · rename_i hvalid
      rw [if_pos hvalid]
      obtain ⟨read, hread, rfl⟩ := Option.map_eq_some_iff.mp hexit
      obtain ⟨content, _, rfl⟩ := Option.map_eq_some_iff.mp hread
      refine Handled.same h ?_ ?_
      · rfl
      · exact VmExitAction.noConfusion
    · rename_i hinvalid
      rw [if_neg hinvalid]
      obtain rfl := Option.some.inj hexit
      exact Handled.refuse v
  | msrWrite =>
    rw [handleExit, RegistersHandler.handleMSRWrite] at hexit
    rw [eventOf]
    split at hexit
    · rename_i hvalid
      rw [if_pos hvalid]
      obtain ⟨stored, hstored, rfl⟩ := Option.map_eq_some_iff.mp hexit
      dsimp only at hstored
      split at hstored
      · obtain rfl := Option.some.inj hstored
        refine Handled.same h ?_ ?_
        · rfl
        · exact VmExitAction.noConfusion
      · exact absurd hstored.symm (Option.some_ne_none _)
    · rename_i hinvalid
      rw [if_neg hinvalid]
      obtain rfl := Option.some.inj hexit
      exact Handled.refuse v
  | vmcall =>
    obtain ⟨v', hcall, rfl⟩ := Option.map_eq_some_iff.mp hexit
    exact Handled.same h (handleVmcall_ends hcall).1 VmExitAction.noConfusion
  | xsetbv =>
    rw [handleExit] at hexit
    rw [eventOf]
    split at hexit
    · rename_i hnone
      obtain rfl := Option.some.inj hexit
      rw [hnone, if_neg (by simp)]
      exact Handled.refuse v
    · rename_i requestedMask hsome
      rw [hsome, Option.isSome_some, if_pos rfl]
      split at hexit
      · obtain rfl := Option.some.inj hexit
        refine Handled.same h ?_ ?_
        · rfl
        · exact VmExitAction.noConfusion
      · exact absurd hexit.symm (Option.some_ne_none _)

omit [DecidableEq Caller] in
theorem eventOf_entered (kernelBaseInfo : KernelBaseInfo) (host : Host) (reason : ExitReason)
    (v : Vcpu Caller) :
    v.entered.eventOf kernelBaseInfo host reason = v.eventOf kernelBaseInfo host reason := by
  have hread : ∀ f ∉ entryFields, v.entered.vmcs.vmread f = v.vmcs.vmread f :=
    agreeOutside_clearPendingInjection v.vmcs
  cases reason with
  | exceptionNmi =>
    rw [eventOf, eventOf, reflected, hread _ (by decide), hread _ (by decide)]
    rfl
  | crAccess => rw [eventOf, eventOf, hread _ (by decide)]
  | eptViolation =>
    rw [eventOf, eventOf, hread _ (by decide), hread _ (by decide), hread _ (by decide)]
    rfl
  | _ => rfl

end Vcpu

/-- What an entry checks of its fields, and whose error code they hold. -/
structure WellFormedEntry (event : Option EntryEvent) (vmcs : Vmcs) : Prop where
  info : vmcs.vmread .vmEntryIntrInfoField = 0 ∨
    ((vmcs.vmread .vmEntryIntrInfoField).getLsbD 31 = true ∧
      ∀ i, 12 ≤ i → i ≤ 30 → (vmcs.vmread .vmEntryIntrInfoField).getLsbD i = false)
  injected : vmcs.vmread .vmEntryIntrInfoField = (Vmcs.entryInfo event).setWidth 64
  errorCode : vmcs.vmread .vmEntryExceptionErrorCode =
    if (vmcs.vmread .vmEntryIntrInfoField).getLsbD 11 = true then
      ((event.map EntryEvent.errorCode).getD 0).setWidth 64
    else 0
  length : vmcs.vmread .vmEntryInstructionLen =
    if InterruptInfo.isSoftware ((vmcs.vmread .vmEntryIntrInfoField).setWidth 32) then
      vmcs.vmread .vmExitInstructionLen
    else 0

namespace EntryEvent

variable (event : EntryEvent)

theorem getLsbD_valid : event.info.getLsbD 31 = true := by
  have hone : InterruptInfo.valid.get event.info = 1 :=
    (InterruptInfo.valid.get_eq_zero_or_one rfl event.info).resolve_left event.valid
  have hbit := InterruptInfo.valid.getLsbD_get event.info 0
  rw [hone] at hbit
  simpa [InterruptInfo.valid] using hbit.symm

theorem getLsbD_reserved {i : ℕ} (hlow : 12 ≤ i) (hhigh : i ≤ 30) :
    event.info.getLsbD i = false := by
  have hbit := InterruptInfo.reserved.getLsbD_get event.info (i - 12)
  rw [event.reserved, show InterruptInfo.reserved.offset + (i - 12) = i by
    simp only [InterruptInfo.reserved]
    omega, decide_eq_true (show i - 12 < InterruptInfo.reserved.width by
    simp only [InterruptInfo.reserved]
    omega)] at hbit
  simpa using hbit.symm

theorem deliverCode_ne_zero_iff :
    InterruptInfo.deliverCode.get event.info ≠ 0 ↔ event.info.getLsbD 11 = true := by
  have hbit := InterruptInfo.deliverCode.getLsbD_get event.info 0
  rcases InterruptInfo.deliverCode.get_eq_zero_or_one rfl event.info with h | h
  · rw [h] at hbit ⊢
    simpa [InterruptInfo.deliverCode] using hbit
  · rw [h] at hbit ⊢
    simpa [InterruptInfo.deliverCode] using hbit

end EntryEvent

/-- Fields that hold an event, or none, pass the checks of an entry. -/
theorem Vmcs.Delivers.wellFormedEntry {vmcs : Vmcs} {event : Option EntryEvent}
    (h : vmcs.Delivers event) : WellFormedEntry event vmcs := by
  have hbit : ∀ i < 32, (vmcs.vmread .vmEntryIntrInfoField).getLsbD i =
      (entryInfo event).getLsbD i := by
    intro i hi
    rw [h.info, BitVec.getLsbD_setWidth]
    simp [show i < 64 by omega]
  refine ⟨?_, h.info, ?_, ?_⟩
  · rcases event with _ | event
    · left
      rw [h.info]
      rfl
    · right
      refine ⟨?_, ?_⟩
      · rw [hbit 31 (by decide)]
        exact event.getLsbD_valid
      · intro i hlow hhigh
        rw [hbit i (by omega)]
        exact event.getLsbD_reserved hlow hhigh
  · rw [h.errorCode, hbit 11 (by decide)]
    rcases event with _ | event
    · rfl
    · by_cases hone : InterruptInfo.deliverCode.get event.info = 0
      · have hclear : ¬ event.info.getLsbD 11 = true :=
          mt event.deliverCode_ne_zero_iff.mpr (not_not_intro hone)
        rw [entryErrorCode, if_pos hone, entryInfo, if_neg hclear]
        rfl
      · rw [entryErrorCode, if_neg hone, entryInfo,
          if_pos (event.deliverCode_ne_zero_iff.mp hone)]
        rfl
  · rw [h.length, h.info, BitVec.setWidth_setWidth_of_le _ (by decide), BitVec.setWidth_eq]

namespace Vcpu

open Vmcs EventHandler

variable {Caller : Type*}

/-- The handler's part of an exit that resumes, in two stages. -/
theorem finishExit_resumed {action : VmExitAction} {v : Vcpu Caller}
    (hresumed : v.vmxoffState.isVmxoffExecuted = false) (haction : action ≠ .shutdownVmx) :
    (v.finishExit action).2.vmcs = (reinjectEventFromIdtVectoring
      (if action = .advanceRip then resumeToNextInstruction v.vmcs else v.vmcs)).2 := by
  rw [finishExit, hresumed]
  dsimp only
  rw [if_neg Bool.false_ne_true, if_pos haction]

/-- The end of an exit that resumes adds the interrupted event, if there is room for it. -/
theorem delivers_finishExit {own : Option EntryEvent} {v : Vcpu Caller}
    {result : VmExitAction × Vcpu Caller} (h : Handled own v result)
    (hresumed : result.2.vmxoffState.isVmxoffExecuted = false) :
    (result.2.finishExit result.1).2.vmcs.Delivers (own.or (vectored v.vmcs)) ∧
      ((result.2.finishExit result.1).2.vmcs.vmread .guestRip = v.vmcs.vmread .guestRip ∨
        (own = none ∧ (result.2.finishExit result.1).2.vmcs.vmread .guestRip =
          v.vmcs.vmread .guestRip + v.vmcs.vmread .vmExitInstructionLen)) := by
  have hread : ∀ f ∉ handledFields, result.2.vmcs.vmread f = v.vmcs.vmread f := h.agree
  have hvectored : vectored result.2.vmcs = vectored v.vmcs := by
    rw [vectored, hread _ (by decide), hread _ (by decide)]
    rfl
  rw [finishExit_resumed hresumed h.resumes]
  by_cases hadvance : result.1 = .advanceRip
  · have hnone : own = none := by
      by_contra hsome
      exact h.action (Option.isSome_iff_ne_none.mpr hsome) hadvance
    have hmoved : AgreeOutside [.guestRip] result.2.vmcs
        (resumeToNextInstruction result.2.vmcs) :=
      (AgreeOutside.refl _ _).vmwrite (by decide) _
    have hdelivers := delivers_reinjectEventFromIdtVectoring
      (h.delivers.congr hmoved (by decide))
    rw [if_pos hadvance]
    refine ⟨?_, Or.inr ⟨hnone, ?_⟩⟩
    · rw [vectored, hmoved _ (by decide), hmoved _ (by decide)] at hdelivers
      rw [← hvectored]
      exact hdelivers
    · rw [agreeOutside_reinjectEventFromIdtVectoring _ _ (by decide), resumeToNextInstruction,
        vmread_vmwrite_self, hread _ (by decide), hread _ (by decide)]
      exact BitVec.and_allOnes
  · rw [if_neg hadvance]
    refine ⟨?_, Or.inl ?_⟩
    · rw [← hvectored]
      exact delivers_reinjectEventFromIdtVectoring h.delivers
    · rw [agreeOutside_reinjectEventFromIdtVectoring _ _ (by decide), hread _ (by decide)]

variable [DecidableEq Caller]

/-- An exit that resumes leaves the handler's own event, or else the interrupted one. -/
theorem delivers_vmexitHandler {os : Os} {kernelBaseInfo : KernelBaseInfo} {host : Host}
    {v v' : Vcpu Caller}
    (hexit : v.vmexitHandler os kernelBaseInfo host = some (false, v')) :
    v'.vmcs.Delivers ((v.ownEvent kernelBaseInfo host).or (vectored v.vmcs)) ∧
      (v'.vmcs.vmread .guestRip = v.vmcs.vmread .guestRip ∨
        (v.ownEvent kernelBaseInfo host = none ∧ v'.vmcs.vmread .guestRip =
          v.vmcs.vmread .guestRip + v.vmcs.vmread .vmExitInstructionLen)) := by
  have hread : ∀ f ∉ entryFields, v.entered.vmcs.vmread f = v.vmcs.vmread f :=
    agreeOutside_clearPendingInjection v.vmcs
  obtain ⟨result, hhandled, hfinish⟩ := Option.map_eq_some_iff.mp hexit
  have h : Handled (v.entered.eventOf kernelBaseInfo host v.exitReason) v.entered result :=
    handled_handleExit (delivers_clearPendingInjection v.vmcs) rfl hhandled
  obtain ⟨hresumed, rfl⟩ := Prod.mk.inj hfinish
  have hends := delivers_finishExit h hresumed
  have hvectored : vectored v.entered.vmcs = vectored v.vmcs := by
    rw [vectored, hread _ (by decide), hread _ (by decide)]
    rfl
  rw [eventOf_entered, hvectored] at hends
  rw [hread _ (by decide), hread _ (by decide)] at hends
  exact hends

/-- After every exit that resumes, the fields are those of a well-formed event or of none,
and the guest does not step over an instruction that faults. -/
theorem wellFormedEntry_of_vmexitHandler {os : Os} {kernelBaseInfo : KernelBaseInfo}
    {host : Host} {v v' : Vcpu Caller}
    (hexit : v.vmexitHandler os kernelBaseInfo host = some (false, v')) :
    WellFormedEntry ((v.ownEvent kernelBaseInfo host).or (vectored v.vmcs)) v'.vmcs ∧
      (v'.vmcs.vmread .guestRip = v.vmcs.vmread .guestRip ∨
        (v.ownEvent kernelBaseInfo host = none ∧ v'.vmcs.vmread .guestRip =
          v.vmcs.vmread .guestRip + v.vmcs.vmread .vmExitInstructionLen)) := by
  obtain ⟨hdelivers, hrip⟩ := delivers_vmexitHandler hexit
  exact ⟨hdelivers.wellFormedEntry, hrip⟩

/-- A general protection fault at 0x1000, with its error code. -/
def faultedVcpu : Vcpu Unit :=
  flatVcpu (Machine.flatMachine 1 1) [(.vmExitReason, 0), (.vmExitIntrInfo, 0x80000B0D),
    (.vmExitIntrErrorCode, 0x10), (.guestRip, 0x1000)]

/-- An INT 30h at 0x1000, whose delivery has met a page without a record. -/
def interruptedVcpu : Vcpu Unit :=
  flatVcpu (Machine.flatMachine 1 1) [(.vmExitReason, 48), (.exitQualification, 0x2),
    (.guestPhysicalAddress, 0x200000), (.idtVectoringInfoField, 0x80000430),
    (.vmExitInstructionLen, 2), (.guestRip, 0x1000)]

/-- The fault is reflected with its error code, and the interrupt is delivered again. -/
theorem wellFormedEntry_of_vmexitHandler_events :
    (∃ v', faultedVcpu.vmexitHandler flatOs Machine.flatKernel flatHost = some (false, v') ∧
      WellFormedEntry ((faultedVcpu.ownEvent Machine.flatKernel flatHost).or
        (vectored faultedVcpu.vmcs)) v'.vmcs ∧
      v'.vmcs.vmread .vmEntryIntrInfoField = 0x80000B0D ∧
      v'.vmcs.vmread .vmEntryExceptionErrorCode = 0x10 ∧ v'.vmcs.vmread .guestRip = 0x1000) ∧
    ∃ v', interruptedVcpu.vmexitHandler flatOs Machine.flatKernel flatHost = some (false, v') ∧
      WellFormedEntry ((interruptedVcpu.ownEvent Machine.flatKernel flatHost).or
        (vectored interruptedVcpu.vmcs)) v'.vmcs ∧
      v'.vmcs.vmread .vmEntryIntrInfoField = 0x80000430 ∧
      v'.vmcs.vmread .vmEntryInstructionLen = 2 ∧ v'.vmcs.vmread .guestRip = 0x1000 := by
  have hfault : faultedVcpu.vmexitHandler flatOs Machine.flatKernel flatHost = some (false,
      (Vcpu.finishExit .injectEvent { faultedVcpu.entered with
        vmcs := (injectEventFromVmExitInterruption 0x80000B0D faultedVcpu.entered.vmcs).2 }).2) :=
    rfl
  have hinterrupt := vmexitHandler_eptViolation flatOs Machine.flatKernel flatHost
    (v := interruptedVcpu) (by decide) rfl
  refine ⟨⟨_, hfault, (wellFormedEntry_of_vmexitHandler hfault).1, ?_, ?_, ?_⟩,
    ⟨_, hinterrupt, (wellFormedEntry_of_vmexitHandler hinterrupt).1, ?_, ?_, ?_⟩⟩
  · decide +kernel
  · decide +kernel
  · decide +kernel
  · decide +kernel
  · decide +kernel
  · decide +kernel

end Vcpu

end NovaHypervisor

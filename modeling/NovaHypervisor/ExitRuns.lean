import NovaHypervisor.HookList
import NovaHypervisor.Vmexit

/-!
Runs of VM exits on one processor. An allowed violation leaves its record in the
guest state until the exit of the monitor trap flag writes through it. Nothing
takes it from there when the page is unhooked in between, so the record is one of
the hook list as long as no VMCALL takes it out of the list while it is pending.
-/
namespace NovaHypervisor

open General

inductive ExitAction (Caller : Type*) where
  | exit (exit : VmExit)
  | others (action : PoolAction Caller PoolBuffer)

namespace Machine

variable {Caller : Type*}

/-- The record whose page a violation opens. -/
def opened (kernelBaseInfo : KernelBaseInfo)
    (violationQualification guestPhysicalAddr guestRip : Word) (m : Machine Caller) :
    Option Pvoid :=
  if pageAlign guestPhysicalAddr = 0 ∨
      EptViolation.deniedAccess violationQualification = none ∨
      kernelBaseInfo.isAccessFromKernelImage guestRip = false then none
  else m.ept.hookedPages.find? fun hookedEntry =>
    (m.detail hookedEntry).physicalBaseAddress = pageAlign guestPhysicalAddr

/-- A page is open until the exit of the monitor trap flag. -/
def openPage (r : Pvoid) (m : Machine Caller) : Machine Caller :=
  { m.setPml1 (m.detail r).entryAddress (m.detail r).originalEntry with
    guest := { m.guest with hookedPage := some r }.setMonitorTrapFlag true }

theorem setPml1_setPml1 (m : Machine Caller) (entry : PeptPml1Entry) (v w : Word) :
    (m.setPml1 entry v).setPml1 entry w = m.setPml1 entry w := by
  simp only [setPml1, buffer_setBuffer_self]
  simp only [setBuffer, Function.update_idem]

/-- A violation opens the page of the record that it is about, or leaves all leaves alone. -/
theorem handlePageHookExit_ends (m : Machine Caller) (kernelBaseInfo : KernelBaseInfo)
    (violationQualification guestPhysicalAddr guestLinearAddress guestRip : Word) :
    (m.opened kernelBaseInfo violationQualification guestPhysicalAddr guestRip = none ∧
      ∃ injection, (m.handlePageHookExit kernelBaseInfo violationQualification
        guestPhysicalAddr guestLinearAddress guestRip).2 =
          { m with guest := { m.guest with pendingInjection := injection } }) ∨
    ∃ r ∈ m.ept.hookedPages,
      m.opened kernelBaseInfo violationQualification guestPhysicalAddr guestRip = some r ∧
        (m.handlePageHookExit kernelBaseInfo violationQualification
          guestPhysicalAddr guestLinearAddress guestRip).2 = m.openPage r := by
  by_cases hzero : pageAlign guestPhysicalAddr = 0
  · refine Or.inl ⟨by simp [opened, hzero], m.guest.pendingInjection, ?_⟩
    simp [handlePageHookExit, hzero]
  rcases hfound : m.ept.hookedPages.find? (fun hookedEntry =>
      (m.detail hookedEntry).physicalBaseAddress = pageAlign guestPhysicalAddr) with _ | r
  · refine Or.inl ⟨?_, m.guest.pendingInjection, ?_⟩
    · simp only [opened, hfound, ite_self]
    · simp [handlePageHookExit, hfound]
  rcases hdenied : EptViolation.deniedAccess violationQualification with _ | access
  · refine Or.inl ⟨by simp [opened, hdenied], m.guest.pendingInjection, ?_⟩
    simp only [handlePageHookExit, if_neg hzero, hfound, handleHookedPage, hdenied]
    rfl
  by_cases himage : kernelBaseInfo.isAccessFromKernelImage guestRip = true
  · have hr := List.mem_of_find?_eq_some hfound
    have hdetail : ∀ v, (m.setPml1 (m.detail r).entryAddress v).detail r = m.detail r :=
      fun v => detail_setPml1 m _ r v
    have hopened : ¬ (pageAlign guestPhysicalAddr = 0 ∨
        EptViolation.deniedAccess violationQualification = none ∨
        kernelBaseInfo.isAccessFromKernelImage guestRip = false) := by
      simp only [hdenied, himage, hzero, reduceCtorEq, or_self, not_false_eq_true]
    refine Or.inr ⟨r, hr, ?_, ?_⟩
    · rw [opened, if_neg hopened, hfound]
    · simp only [handlePageHookExit, if_neg hzero, hfound, handleHookedPage, hdenied,
        himage, if_true, hdetail, setPml1_setPml1]
      rfl
  · refine Or.inl ⟨by simp [opened, himage],
      some (guestLinearAddress, EptViolation.pageFaultErrorCode violationQualification), ?_⟩
    simp only [handlePageHookExit, if_neg hzero, hfound, handleHookedPage, hdenied,
      himage]
    rfl

/-- The exit of the monitor trap flag arms the page of the pending record again. -/
def closePage (r : Pvoid) (m : Machine Caller) : Machine Caller :=
  { m.setPml1 (m.detail r).entryAddress (m.detail r).changedEntry with
    guest := { m.guest with hookedPage := none }.setMonitorTrapFlag false }

theorem monitorTrapFlagExit_ends {m m' : Machine Caller} (hexit : m.monitorTrapFlagExit = some m') :
    (m.guest.hookedPage = none ∧ m' = { m with guest := m.guest.setMonitorTrapFlag false }) ∨
    ∃ r, m.guest.hookedPage = some r ∧ m' = m.closePage r := by
  unfold monitorTrapFlagExit at hexit
  rcases hpending : m.guest.hookedPage with _ | r
  · simp only [hpending, Option.map_some, Option.some.injEq] at hexit
    exact Or.inl ⟨rfl, hexit.symm⟩
  · refine Or.inr ⟨r, rfl, ?_⟩
    simp only [hpending, Option.map_map, handleMonitorTrapFlag] at hexit
    split at hexit
    · simp at hexit
    · exact (Option.some.inj hexit).symm

/-- The exit comes to its end where the pending record points to an entry. -/
theorem monitorTrapFlagExit_isSome {m : Machine Caller}
    (hentry : ∀ r ∈ m.guest.hookedPage, (m.detail r).entryAddress.table ≠ null) :
    m.monitorTrapFlagExit.isSome = true := by
  unfold monitorTrapFlagExit
  rcases hpending : m.guest.hookedPage with _ | r
  · rfl
  · simp only [handleMonitorTrapFlag, if_neg (hentry r hpending), Option.map_some,
      Option.isSome_some]

variable [DecidableEq Caller]

def exitStep (os : Os) (kernelBaseInfo : KernelBaseInfo) (m : Machine Caller) :
    ExitAction Caller → Option (Machine Caller)
  | .exit exit => (m.vmexitHandler os kernelBaseInfo exit).map Prod.snd
  | .others action => m.othersStep os action

/-- What a step can do: one of the three exits between entering and leaving root mode, or a
step of the pool's other parties. -/
inductive ExitOutcome (os : Os) (kernelBaseInfo : KernelBaseInfo) (m : Machine Caller) :
    ExitAction Caller → Machine Caller → Prop
  | eptViolation (exitQualification guestPhysicalAddr guestLinearAddress guestRip : Word) :
      ExitOutcome os kernelBaseInfo m
        (.exit (.eptViolation exitQualification guestPhysicalAddr guestLinearAddress guestRip))
        (m.enterRoot.handlePageHookExit kernelBaseInfo exitQualification guestPhysicalAddr
          guestLinearAddress guestRip).2.leaveRoot
  | monitorTrapFlag {m' : Machine Caller} (hexit : m.enterRoot.monitorTrapFlagExit = some m') :
      ExitOutcome os kernelBaseInfo m (.exit .monitorTrapFlag) m'.leaveRoot
  | vmcall {vmcallNumber optionalParam1 optionalParam2 : Word} {status : Ntstatus}
      {m' : Machine Caller} (hcall : m.enterRoot.vmcallHandler os vmcallNumber optionalParam1
        optionalParam2 = some (status, m')) :
      ExitOutcome os kernelBaseInfo m
        (.exit (.vmcall vmcallNumber optionalParam1 optionalParam2)) m'.leaveRoot
  | others {action : PoolAction Caller PoolBuffer} {m' : Machine Caller}
      (hstep : m.othersStep os action = some m') :
      ExitOutcome os kernelBaseInfo m (.others action) m'

theorem exitStep_cases {os : Os} {kernelBaseInfo : KernelBaseInfo} {m m' : Machine Caller}
    {action : ExitAction Caller} (hstep : m.exitStep os kernelBaseInfo action = some m') :
    ExitOutcome os kernelBaseInfo m action m' := by
  cases action with
  | others action => exact .others hstep
  | exit exit =>
    obtain ⟨⟨status, m1⟩, hexit, rfl⟩ := Option.map_eq_some_iff.mp hstep
    cases exit with
    | eptViolation exitQualification guestPhysicalAddr guestLinearAddress guestRip =>
      obtain ⟨_, rfl⟩ := Prod.mk.inj (Option.some.inj hexit)
      exact .eptViolation exitQualification guestPhysicalAddr guestLinearAddress guestRip
    | monitorTrapFlag =>
      obtain ⟨m2, hrestored, heq⟩ := Option.map_eq_some_iff.mp hexit
      obtain ⟨_, rfl⟩ := Prod.mk.inj heq
      exact .monitorTrapFlag hrestored
    | vmcall vmcallNumber optionalParam1 optionalParam2 =>
      obtain ⟨⟨code, m2⟩, hcall, heq⟩ := Option.map_eq_some_iff.mp hexit
      obtain ⟨_, rfl⟩ := Prod.mk.inj heq
      exact .vmcall hcall

/-- The pending record is in the hook list and the processor has not freed it. -/
def PendingListed (m : Machine Caller) : Prop :=
  ∀ r ∈ m.guest.hookedPage, r ∈ m.ept.hookedPages ∧ m.Private (.eptHookPage, r)

/-- The records that an action takes out of the hook list. -/
def released (m : Machine Caller) : ExitAction Caller → List Pvoid
  | .exit (.vmcall vmcallNumber optionalParam1 _) =>
    match vmcallNumber.toNat with
    | 6 => if optionalParam1 = 0 then [] else (m.getHookedPage optionalParam1).toList
    | 7 => m.ept.hookedPages
    | _ => []
  | _ => []

omit [DecidableEq Caller] in
theorem released_of_kept {m : Machine Caller} {vmcallNumber optionalParam1 optionalParam2 : Word}
    (hzero : vmcallNumber.toNat = 6 → optionalParam1 = 0) (hnot7 : vmcallNumber.toNat ≠ 7) :
    m.released (.exit (.vmcall vmcallNumber optionalParam1 optionalParam2)) = [] := by
  simp only [released]
  split
  · rename_i hnumber
    rw [if_pos (hzero hnumber)]
  · rename_i hnumber
    exact absurd hnumber hnot7
  · rfl

/-- The action does not take the pending record out of the list. -/
def PendingKept (m : Machine Caller) (action : ExitAction Caller) : Prop :=
  ∀ r ∈ m.guest.hookedPage, r ∉ m.released action

instance (m : Machine Caller) (action : ExitAction Caller) : Decidable (m.PendingKept action) :=
  decidable_of_iff (m.guest.hookedPage.all fun r => !(m.released action).contains r)
    (by rw [PendingKept]; cases m.guest.hookedPage <;> simp)

namespace Listed

variable {os : Os} {m m' : Machine Caller}

theorem withGuest (h : m.Listed os) (guest : VmState) :
    ({ m with guest := guest } : Machine Caller).Listed os :=
  ⟨h.safe, h.tracked, h.nodup, h.owned⟩

theorem handlePageHookExit (h : m.Listed os) (kernelBaseInfo : KernelBaseInfo)
    (violationQualification guestPhysicalAddr guestLinearAddress guestRip : Word)
    {handled : Bool} (hexit : m.handlePageHookExit kernelBaseInfo violationQualification
      guestPhysicalAddr guestLinearAddress guestRip = (handled, m')) :
    m'.Listed os ∧ m'.ept = m.ept ∧ (m'.guest.hookedPage = m.guest.hookedPage ∨
      ∃ r ∈ m.ept.hookedPages, m'.guest.hookedPage = some r) := by
  have hm' : m' = (m.handlePageHookExit kernelBaseInfo violationQualification guestPhysicalAddr
      guestLinearAddress guestRip).2 := (congrArg Prod.snd hexit).symm
  rcases handlePageHookExit_ends m kernelBaseInfo violationQualification guestPhysicalAddr
    guestLinearAddress guestRip with ⟨_, injection, hresult⟩ | ⟨r, hr, _, hresult⟩
  · rw [hm', hresult]
    exact ⟨h.withGuest _, rfl, Or.inl rfl⟩
  · rw [hm', hresult]
    exact ⟨(h.setBuffer _ _).withGuest _, rfl, Or.inr ⟨r, hr, rfl⟩⟩

theorem monitorTrapFlagExit (h : m.Listed os) (hexit : m.monitorTrapFlagExit = some m') :
    m'.Listed os ∧ m'.ept = m.ept ∧ m'.guest.hookedPage = none := by
  rcases monitorTrapFlagExit_ends hexit with ⟨hpending, rfl⟩ | ⟨r, _, rfl⟩
  · exact ⟨h.withGuest _, rfl, hpending⟩
  · exact ⟨(h.setBuffer _ _).withGuest _, rfl, rfl⟩

/-- A VMCALL keeps the pending record and takes the released ones out of the list. -/
theorem vmcallHandler (h : m.Listed os) (hroot : m.guest.isOnVmxRoot = true)
    {vmcallNumber optionalParam1 optionalParam2 : Word} {status : Ntstatus}
    (hcall : m.vmcallHandler os vmcallNumber optionalParam1 optionalParam2 =
      some (status, m')) :
    m'.Listed os ∧ m'.guest.hookedPage = m.guest.hookedPage ∧
      (∀ r ∈ m.ept.hookedPages,
        r ∈ m'.ept.hookedPages ↔
          r ∉ m.released (.exit (.vmcall vmcallNumber optionalParam1 optionalParam2))) := by
  rcases vmcallHandler_cases hcall with ⟨hnumber, hooked, hhook⟩ | ⟨hnumber, hnonzero, rfl⟩ |
    ⟨hnumber, rfl⟩ | ⟨hzero, hnot7, isLaunched, rfl⟩
  · have hnone : m.released (.exit (.vmcall vmcallNumber optionalParam1 optionalParam2)) = [] :=
      released_of_kept (by omega) (by omega)
    obtain ⟨hlisted, hkept, hguest⟩ := h.rootModePageHook hhook
    refine ⟨hlisted, by rw [hguest], fun r hr => ?_⟩
    simp [hnone, hkept r hr]
  · simp only [released, hnumber, if_neg hnonzero]
    rw [pageUnhookVmcall, if_neg (not_not_intro hroot)]
    rcases hfound : m.getHookedPage optionalParam1 with _ | r
    · refine ⟨h, rfl, fun r hr => ?_⟩
      simp [hr]
    · obtain ⟨hlisted, hlist⟩ := h.releaseHook (List.mem_of_find?_eq_some hfound)
      refine ⟨hlisted, rfl, fun q hq => ?_⟩
      simp only
      rw [hlist, h.nodup.mem_erase_iff]
      simp [hq]
  · simp only [released, hnumber]
    rw [unhookAllPagesVmcall, if_neg (not_not_intro hroot)]
    obtain ⟨hlisted, hlist, hguest⟩ := h.unhookAll
    refine ⟨hlisted, congrArg VmState.hookedPage hguest, fun r hr => ?_⟩
    simp [hlist, hr]
  · have hnone : m.released (.exit (.vmcall vmcallNumber optionalParam1 optionalParam2)) = [] :=
      released_of_kept hzero hnot7
    refine ⟨h.withGuest _, rfl, fun r hr => ?_⟩
    simp [hnone, hr]

end Listed

/-- In a state that keeps the hook list's law, an action leaves the pending record listed
exactly when it does not take it out of the list. -/
theorem exitStep_listed {os : Os} {kernelBaseInfo : KernelBaseInfo} {m m' : Machine Caller}
    (h : m.Listed os) {action : ExitAction Caller}
    (hstep : m.exitStep os kernelBaseInfo action = some m') :
    m'.Listed os ∧ ((∀ r ∈ m.guest.hookedPage, r ∈ m.ept.hookedPages) →
      ((∀ r ∈ m'.guest.hookedPage, r ∈ m'.ept.hookedPages) ↔ m.PendingKept action)) := by
  have henter : m.enterRoot.Listed os := h.withGuest _
  cases exitStep_cases hstep with
  | eptViolation exitQualification guestPhysicalAddr guestLinearAddress guestRip =>
    rcases hviolation : m.enterRoot.handlePageHookExit kernelBaseInfo exitQualification
      guestPhysicalAddr guestLinearAddress guestRip with ⟨handled, m2⟩
    obtain ⟨hlisted, hept, hguest⟩ := henter.handlePageHookExit kernelBaseInfo
      exitQualification guestPhysicalAddr guestLinearAddress guestRip hviolation
    refine ⟨hlisted.withGuest _, fun hpending => iff_of_true ?_ fun r _ => by simp [released]⟩
    simp only [leaveRoot, hept]
    rcases hguest with hsame | ⟨r, hr, hnow⟩
    · rw [hsame]
      exact hpending
    · rw [hnow]
      intro q hq
      obtain rfl : r = q := Option.some.inj hq
      exact hr
  | monitorTrapFlag hexit =>
    obtain ⟨hlisted, hept, hguest⟩ := henter.monitorTrapFlagExit hexit
    refine ⟨hlisted.withGuest _, fun hpending => iff_of_true ?_ fun r _ => by simp [released]⟩
    simp only [leaveRoot, hguest]
    simp
  | vmcall hcall =>
    obtain ⟨hlisted, hguest, hlist⟩ := henter.vmcallHandler rfl hcall
    refine ⟨hlisted.withGuest _, fun hpending => ?_⟩
    simp only [leaveRoot, hguest, PendingKept]
    refine forall₂_congr fun r hr => ?_
    exact hlist r (hpending r hr)
  | others hstep =>
    obtain ⟨hlisted, hept, hguest⟩ := h.othersStep hstep
    refine ⟨hlisted, fun hpending => iff_of_true ?_ fun r _ => by simp [released]⟩
    rw [hept, hguest]
    exact hpending

theorem pendingListed_of_listed {os : Os} {m : Machine Caller} (h : m.Listed os)
    (hpending : ∀ r ∈ m.guest.hookedPage, r ∈ m.ept.hookedPages) : m.PendingListed :=
  fun r hr => ⟨hpending r hr, h.owned r (hpending r hr)⟩

/-- As long as no action takes the pending record out of the hook list, the exit of the
monitor trap flag writes through a listed record; an action that does breaks it. -/
theorem pendingListed_of_run {os : Os} {kernelBaseInfo : KernelBaseInfo}
    {pageTable : VmmEptPageTable} {m m' : Machine Caller} {actions : List (ExitAction Caller)}
    (hstart : Started os pageTable m) (hidle : m.guest.hookedPage = none)
    (hrun : GuardedRun (exitStep os kernelBaseInfo) PendingKept m actions m') :
    m'.PendingListed ∧ ∀ action m'', m'.exitStep os kernelBaseInfo action = some m'' →
      (m''.PendingListed ↔ m'.PendingKept action) := by
  have hreached : m'.Listed os ∧ ∀ r ∈ m'.guest.hookedPage, r ∈ m'.ept.hookedPages := by
    refine GuardedRun.invariant
      (I := fun s => s.Listed os ∧ ∀ r ∈ s.guest.hookedPage, r ∈ s.ept.hookedPages) ?_ hrun
      ⟨hstart.coherent.listed, by simp [hidle]⟩
    intro s action s' hinv hguard hstep
    obtain ⟨hlisted, hpending⟩ := hinv
    obtain ⟨hlisted', hiff⟩ := exitStep_listed hlisted hstep
    exact ⟨hlisted', (hiff hpending).mpr hguard⟩
  obtain ⟨hlisted, hpending⟩ := hreached
  refine ⟨pendingListed_of_listed hlisted hpending, ?_⟩
  intro action m'' hstep
  obtain ⟨hlisted', hiff⟩ := exitStep_listed hlisted hstep
  refine Iff.trans ⟨fun h r hr => (h r hr).1, pendingListed_of_listed hlisted'⟩ (hiff hpending)

/-- A kernel image at a fixed place, and a write of its code to a page that it may read. -/
def flatKernel : KernelBaseInfo := ⟨0xFFFFF80000000000#64, 0x1000000#32⟩

def kernelWrite (address : Word) : VmExit :=
  .eptViolation 0xA#64 address address 0xFFFFF80000001000#64

/-- A page is hooked, written to and single-stepped, and unhooked after that. -/
theorem pendingListed_of_run_step :
    (execute (exitStep flatOs flatKernel) (flatMachine 1 1) [.exit (.vmcall 3 0x200000#64 1),
      .exit (kernelWrite 0x200000#64), .exit .monitorTrapFlag, .others .processFree,
      .exit (.vmcall 6 0x200000#64 0)]).PendingListed :=
  (pendingListed_of_run (flatMachine_started 1 1) rfl
    (guardedRun_of_allowed (by decide +kernel))).1

/-- A page is unhooked between an allowed write and the exit of the monitor trap flag. -/
theorem not_pendingListed_of_unhook :
    ¬ ∀ (os : Os) (kernelBaseInfo : KernelBaseInfo) (pageTable : VmmEptPageTable)
      (m m' : Machine Unit) (actions : List (ExitAction Unit)), Started os pageTable m →
        m.guest.hookedPage = none → Run (exitStep os kernelBaseInfo) m actions m' →
        m'.guest.monitorTrapFlag = true → m'.PendingListed := by
  intro h
  obtain ⟨actions, hrun⟩ := exists_run_execute (exitStep flatOs flatKernel) (flatMachine 1 1)
    [.exit (.vmcall 3 0x200000#64 1), .exit (kernelWrite 0x200000#64),
      .exit (.vmcall 6 0x200000#64 0)]
  have hlisted := h flatOs flatKernel flatTable _ _ actions (flatMachine_started 1 1) rfl hrun
    (by decide +kernel)
  obtain ⟨hmem, _⟩ := hlisted 0x20000#64 (by decide +kernel)
  exact absurd hmem (by decide +kernel)

end Machine

end NovaHypervisor

import NovaHypervisor.CachedTranslations

/-!
Exits during which no other party of the pool acts. They read the pool's lists and the
buffers, but neither what the other parties hold nor what the processor did before, so
they come out the same among any callers and after any history.
-/
namespace NovaHypervisor

open General

namespace SharedPool

variable {Caller β : Type*}

/-- The pool among other callers. -/
def among (callers : Caller → CallerState) (p : SharedPool Caller β) : SharedPool Caller β :=
  { p with state := { p.state with callers := callers } }

variable [DecidableEq Caller] [Zero β]

theorem allocateFrom_among (os : Allocator) (type : AllocationType) (fuel : ℕ)
    (stage : PoolManager.AllocateStage) (callers : Caller → CallerState) {p : SharedPool Caller β}
    (h : p.upcoming = []) :
    allocateFrom os type fuel stage (p.among callers) =
      ((allocateFrom os type fuel stage p).1,
        (allocateFrom os type fuel stage p).2.among callers) := by
  induction fuel generalizing stage p with
  | zero => rfl
  | succ fuel ih =>
    obtain ⟨state, upcoming⟩ := p
    obtain rfl : upcoming = [] := h
    simp only [allocateFrom]
    have hmanager : (interrupt os (among callers ⟨state, []⟩)).state.manager =
        (interrupt os ⟨state, []⟩).state.manager := rfl
    rw [hmanager]
    rcases PoolManager.allocateStep type stage (interrupt os ⟨state, []⟩).state.manager with
      ⟨stage' | result, manager⟩
    · exact ih stage' (p := (interrupt os ⟨state, []⟩).setManager manager) rfl
    · rfl

theorem allocate_among (os : Allocator) (type : AllocationType) (callers : Caller → CallerState)
    {p : SharedPool Caller β} (h : p.upcoming = []) :
    allocate os type (p.among callers) =
      ((allocate os type p).1, (allocate os type p).2.among callers) :=
  allocateFrom_among os type _ _ callers h

theorem freeFrom_among (os : Allocator) (allocation : PoolAllocation) (fuel : ℕ)
    (stage : PoolManager.FreeStage) (callers : Caller → CallerState) {p : SharedPool Caller β}
    (h : p.upcoming = []) :
    freeFrom os allocation fuel stage (p.among callers) =
      (freeFrom os allocation fuel stage p).among callers := by
  induction fuel generalizing stage p with
  | zero => rfl
  | succ fuel ih =>
    obtain ⟨state, upcoming⟩ := p
    obtain rfl : upcoming = [] := h
    simp only [freeFrom]
    have hmanager : (interrupt os (among callers ⟨state, []⟩)).state.manager =
        (interrupt os ⟨state, []⟩).state.manager := rfl
    rw [hmanager]
    rcases PoolManager.freeStep allocation stage (interrupt os ⟨state, []⟩).state.manager with
      ⟨stage' | queued, manager⟩
    · exact ih stage' (p := (interrupt os ⟨state, []⟩).setManager manager) rfl
    · rfl

theorem free_among (os : Allocator) (address : Pvoid) (type : AllocationType)
    (callers : Caller → CallerState) {p : SharedPool Caller β} (h : p.upcoming = []) :
    free os address type (p.among callers) = (free os address type p).among callers := by
  unfold free
  split
  · rfl
  · exact freeFrom_among os _ _ _ callers h

end SharedPool

namespace Machine

variable {Caller : Type*}

/-- The machine among other callers, with more history behind it. -/
def among (callers : Caller → CallerState) (past : List PoolEvent) (m : Machine Caller) :
    Machine Caller :=
  { m with pool := m.pool.among callers, history := m.history ++ past }

/-- No other party of the pool acts during the exit. -/
def Quiet (m : Machine Caller) : Prop := m.pool.upcoming = []

section Among

variable (callers : Caller → CallerState) (past : List PoolEvent)

@[simp] theorem guest_among (m : Machine Caller) : (m.among callers past).guest = m.guest := rfl

@[simp] theorem ept_among (m : Machine Caller) : (m.among callers past).ept = m.ept := rfl

@[simp] theorem pml1_among (m : Machine Caller) (entry : PeptPml1Entry) :
    (m.among callers past).pml1 entry = m.pml1 entry := rfl

@[simp] theorem detail_among (m : Machine Caller) (r : Pvoid) :
    (m.among callers past).detail r = m.detail r := rfl

@[simp] theorem getHookedPage_among (m : Machine Caller) (x : Word) :
    (m.among callers past).getHookedPage x = m.getHookedPage x := rfl

@[simp] theorem isHookExists_among (m : Machine Caller) (x : Word) :
    (m.among callers past).isHookExists x = m.isHookExists x := rfl

@[simp] theorem getPml1Entry_among (m : Machine Caller) (os : Os) (x : Word) :
    (m.among callers past).getPml1Entry os x = m.getPml1Entry os x := rfl

theorem enterRoot_among (m : Machine Caller) :
    (m.among callers past).enterRoot = m.enterRoot.among callers past := rfl

variable [DecidableEq Caller] (os : Os) {m : Machine Caller}

namespace Quiet

theorem allocate (h : m.Quiet) (type : AllocationType) :
    (m.allocate os type).2.Quiet ∧ (m.among callers past).allocate os type =
      ((m.allocate os type).1, (m.allocate os type).2.among callers past) := by
  have hpool := SharedPool.allocate_among os.toAllocator type callers h
  refine ⟨(SharedPool.allocate_quiet os.toAllocator type h).2, ?_⟩
  simp only [Machine.allocate, among, hpool, List.append_assoc]

theorem free (h : m.Quiet) (address : Pvoid) (type : AllocationType) :
    (m.free os address type).Quiet ∧ (m.among callers past).free os address type =
      (m.free os address type).among callers past := by
  have hpool := SharedPool.free_among os.toAllocator address type callers h
  refine ⟨(SharedPool.free_quiet os.toAllocator address type h).2, ?_⟩
  simp only [Machine.free, among, hpool, List.cons_append]

theorem splitLargePage (h : m.Quiet) (buffer : Pvoid) (x : Word) :
    (∀ r ∈ m.splitLargePage os buffer x, r.2.Quiet) ∧
      (m.among callers past).splitLargePage os buffer x =
        (m.splitLargePage os buffer x).map fun r => (r.1, r.2.among callers past) := by
  obtain ⟨hquiet, hfree⟩ := h.free callers past os buffer .split2mbPagingTo4kbPage
  simp only [Machine.splitLargePage, ept_among, hfree]
  split
  · exact ⟨by rintro r ⟨⟩; exact h, rfl⟩
  split
  · exact ⟨by rintro r ⟨⟩; exact h, rfl⟩
  · cases m.ept.eptPageTable with
    | none => exact ⟨by simp, rfl⟩
    | some pageTable =>
      simp only [Option.map_some]
      split
      · exact ⟨by rintro r ⟨⟩; exact hquiet, rfl⟩
      · exact ⟨by rintro r ⟨⟩; exact h, rfl⟩

theorem prepareHook (h : m.Quiet) (targetFunc : Pvoid) (permissions : BitVec 8) :
    (∀ r ∈ m.prepareHook os targetFunc permissions, r.2.Quiet) ∧
      (m.among callers past).prepareHook os targetFunc permissions =
        (m.prepareHook os targetFunc permissions).map fun r => (r.1, r.2.among callers past) := by
  obtain ⟨htaken, hallocate⟩ := h.allocate callers past os .split2mbPagingTo4kbPage
  simp only [Machine.prepareHook, guest_among, isHookExists_among, hallocate]
  split
  · exact ⟨by rintro r ⟨⟩; exact h, rfl⟩
  split
  · exact ⟨by rintro r ⟨⟩; exact h, rfl⟩
  split
  · exact ⟨by rintro r ⟨⟩; exact h, rfl⟩
  split
  · exact ⟨by rintro r ⟨⟩; exact h, rfl⟩
  clear hallocate
  generalize m.allocate os .split2mbPagingTo4kbPage = taken at htaken ⊢
  obtain ⟨_ | a, m1⟩ := taken
  · exact ⟨by rintro r ⟨⟩; exact htaken, rfl⟩
  obtain ⟨hsplit, heq⟩ := Quiet.splitLargePage callers past os htaken a
    (os.mmGetPhysicalAddress (pageAlign targetFunc))
  simp only [heq]
  clear heq
  generalize m1.splitLargePage os a (os.mmGetPhysicalAddress (pageAlign targetFunc)) = result
    at hsplit ⊢
  obtain _ | ⟨_ | _, m2⟩ := result
  · exact ⟨by simp, rfl⟩
  · obtain ⟨hquiet, hfree⟩ := Quiet.free callers past os (hsplit _ rfl) a
      .split2mbPagingTo4kbPage
    refine ⟨by rintro r ⟨⟩; exact hquiet, ?_⟩
    simp only [Option.map_some, hfree]
  · obtain ⟨hquiet, hfree⟩ := Quiet.free callers past os (hsplit _ rfl) a
      .split2mbPagingTo4kbPage
    simp only [Option.map_some, getPml1Entry_among]
    rcases m2.getPml1Entry os (os.mmGetPhysicalAddress (pageAlign targetFunc)) with
      _ | _ | entry
    · exact ⟨by simp, rfl⟩
    · refine ⟨by rintro r ⟨⟩; exact hquiet, ?_⟩
      simp only [Option.map_some, hfree]
    · refine ⟨by rintro r ⟨⟩; exact hsplit _ rfl, ?_⟩
      simp only [Option.map_some, pml1_among]

theorem rootModePageHook (h : m.Quiet) (targetFunc : Pvoid) (permissions : BitVec 8) :
    (∀ r ∈ m.rootModePageHook os targetFunc permissions, r.2.Quiet) ∧
      (m.among callers past).rootModePageHook os targetFunc permissions =
        (m.rootModePageHook os targetFunc permissions).map fun r =>
          (r.1, r.2.among callers past) := by
  obtain ⟨hprepared, heq⟩ := h.prepareHook callers past os targetFunc permissions
  simp only [Machine.rootModePageHook, heq]
  clear heq
  generalize m.prepareHook os targetFunc permissions = result at hprepared ⊢
  obtain _ | ⟨status | ⟨a, entry, changedEntry⟩, m1⟩ := result
  · exact ⟨by simp, rfl⟩
  · exact ⟨by rintro r ⟨⟩; exact hprepared _ rfl, rfl⟩
  · obtain ⟨htaken, hallocate⟩ := Quiet.allocate callers past os (hprepared _ rfl)
      .eptHookPage
    simp only [Option.map_some, hallocate]
    clear hallocate
    generalize m1.allocate os .eptHookPage = taken at htaken ⊢
    obtain ⟨_ | r, m2⟩ := taken
    · obtain ⟨hquiet, hfree⟩ := Quiet.free callers past os htaken a
        .split2mbPagingTo4kbPage
      refine ⟨by rintro r ⟨⟩; exact hquiet, ?_⟩
      simp only [hfree]
    · exact ⟨by rintro r ⟨⟩; exact htaken, rfl⟩

theorem releaseHook (h : m.Quiet) (r : Pvoid) : (m.releaseHook os r).Quiet ∧
    (m.among callers past).releaseHook os r = (m.releaseHook os r).among callers past :=
  Quiet.free callers past os (m := { m.setPml1 (m.detail r).entryAddress
      (m.detail r).originalEntry with
    ept := { m.ept with hookedPages := m.ept.hookedPages.erase r } }) h r .eptHookPage

theorem unhookAll (h : m.Quiet) (hooks : List Pvoid) :
    (hooks.foldl (fun m r => m.releaseHook os r) m).Quiet ∧
      hooks.foldl (fun m r => m.releaseHook os r) (m.among callers past) =
        (hooks.foldl (fun m r => m.releaseHook os r) m).among callers past := by
  induction hooks generalizing m with
  | nil => exact ⟨h, rfl⟩
  | cons r hooks ih =>
    obtain ⟨hquiet, heq⟩ := h.releaseHook callers past os r
    simp only [List.foldl_cons, heq]
    exact ih hquiet

theorem pageUnhookVmcall (h : m.Quiet) (guestVirtualAddress : Word) :
    (m.among callers past).pageUnhookVmcall os guestVirtualAddress =
      ((m.pageUnhookVmcall os guestVirtualAddress).1,
        (m.pageUnhookVmcall os guestVirtualAddress).2.among callers past) := by
  unfold Machine.pageUnhookVmcall
  by_cases hroot : ¬ m.guest.isOnVmxRoot = true
  · rw [if_pos (show ¬ (m.among callers past).guest.isOnVmxRoot = true from hroot), if_pos hroot]
  rw [if_neg (show ¬ ¬ (m.among callers past).guest.isOnVmxRoot = true from hroot), if_neg hroot,
    getHookedPage_among]
  rcases m.getHookedPage guestVirtualAddress with _ | r
  · rfl
  · simp only [(h.releaseHook callers past os r).2]

theorem unhookAllPagesVmcall (h : m.Quiet) : (m.among callers past).unhookAllPagesVmcall os =
    ((m.unhookAllPagesVmcall os).1, (m.unhookAllPagesVmcall os).2.among callers past) := by
  unfold Machine.unhookAllPagesVmcall
  by_cases hroot : ¬ m.guest.isOnVmxRoot = true
  · rw [if_pos (show ¬ (m.among callers past).guest.isOnVmxRoot = true from hroot), if_pos hroot]
  · rw [if_neg (show ¬ ¬ (m.among callers past).guest.isOnVmxRoot = true from hroot),
      if_neg hroot, ept_among, (h.unhookAll callers past os m.ept.hookedPages).2]

theorem vmcallHandler (h : m.Quiet) (vmcallNumber optionalParam1 optionalParam2 : Word) :
    (m.among callers past).vmcallHandler os vmcallNumber optionalParam1 optionalParam2 =
      (m.vmcallHandler os vmcallNumber optionalParam1 optionalParam2).map fun r =>
        (r.1, r.2.among callers past) := by
  unfold Machine.vmcallHandler
  split
  · rfl
  · rfl
  · split
    · rfl
    · rw [(h.rootModePageHook callers past os optionalParam1
        (optionalParam2.setWidth 8)).2, Option.map_map, Option.map_map]
      rfl
  · rfl
  · rfl
  · split
    · rfl
    · rw [h.pageUnhookVmcall]
      rfl
  · rw [h.unhookAllPagesVmcall]
    rfl
  · rfl

end Quiet

omit [DecidableEq Caller] in
theorem handlePageHookExit_among (kernelBaseInfo : KernelBaseInfo)
    (violationQualification guestPhysicalAddr guestLinearAddress guestRip : Word) :
    ((m.among callers past).handlePageHookExit kernelBaseInfo violationQualification
      guestPhysicalAddr guestLinearAddress guestRip).2 =
        (m.handlePageHookExit kernelBaseInfo violationQualification guestPhysicalAddr
          guestLinearAddress guestRip).2.among callers past := by
  unfold handlePageHookExit
  by_cases hzero : pageAlign guestPhysicalAddr = 0
  · simp only [if_pos hzero]
  simp only [if_neg hzero]
  have hfind : (m.among callers past).ept.hookedPages.find? (fun r =>
      ((m.among callers past).detail r).physicalBaseAddress = pageAlign guestPhysicalAddr) =
        m.ept.hookedPages.find? fun r =>
          (m.detail r).physicalBaseAddress = pageAlign guestPhysicalAddr := rfl
  rw [hfind]
  rcases m.ept.hookedPages.find? (fun r =>
    (m.detail r).physicalBaseAddress = pageAlign guestPhysicalAddr) with _ | r
  · rfl
  unfold handleHookedPage
  rcases EptViolation.deniedAccess violationQualification with _ | access
  · rfl
  · by_cases himage : kernelBaseInfo.isAccessFromKernelImage guestRip = true
    · simp only [if_pos himage]
      rfl
    · simp only [if_neg himage]
      rfl

/-- An exit comes out the same among other callers and after another history. -/
theorem Quiet.exitStep (h : m.Quiet) (kernelBaseInfo : KernelBaseInfo) (exit : VmExit) :
    (m.among callers past).exitStep os kernelBaseInfo (.exit exit) =
      (m.exitStep os kernelBaseInfo (.exit exit)).map (among callers past) := by
  cases exit with
  | eptViolation exitQualification guestPhysicalAddr guestLinearAddress guestRip =>
    have hexit := handlePageHookExit_among callers past (m := m.enterRoot) kernelBaseInfo
      exitQualification guestPhysicalAddr guestLinearAddress guestRip
    exact congrArg (fun x => some x.leaveRoot) hexit
  | monitorTrapFlag =>
    simp only [Machine.exitStep, vmexitHandler, enterRoot_among]
    unfold monitorTrapFlagExit
    rw [guest_among]
    rcases m.enterRoot.guest.hookedPage with _ | r
    · rfl
    · simp only [handleMonitorTrapFlag]
      rw [detail_among]
      by_cases hentry : (m.enterRoot.detail r).entryAddress.table = null
      · simp only [if_pos hentry]
        rfl
      · simp only [if_neg hentry]
        rfl
  | vmcall vmcallNumber optionalParam1 optionalParam2 =>
    have hquiet : m.enterRoot.Quiet := h
    simp only [Machine.exitStep, vmexitHandler, enterRoot_among,
      hquiet.vmcallHandler callers past, Option.map_map]
    rfl

/-- No other party acts after the exit either. -/
theorem Quiet.exitStep_quiet {os : Os} {kernelBaseInfo : KernelBaseInfo} {m' : Machine Caller}
    (h : m.Quiet) {exit : VmExit} (hstep : m.exitStep os kernelBaseInfo (.exit exit) = some m') :
    m'.Quiet := by
  have henter : m.enterRoot.Quiet := h
  cases exitStep_cases hstep with
  | eptViolation exitQualification guestPhysicalAddr guestLinearAddress guestRip =>
    unfold Quiet leaveRoot
    rcases handlePageHookExit_ends m.enterRoot kernelBaseInfo exitQualification guestPhysicalAddr
      guestLinearAddress guestRip with ⟨_, injection, hresult⟩ | ⟨r, _, _, hresult⟩
    · rw [hresult]
      exact h
    · rw [hresult]
      exact h
  | monitorTrapFlag hexit =>
    rcases monitorTrapFlagExit_ends hexit with ⟨_, rfl⟩ | ⟨r, _, rfl⟩
    · exact h
    · exact h
  | vmcall hcall =>
    rcases vmcallHandler_cases hcall with ⟨_, hooked, hhook⟩ | ⟨_, _, rfl⟩ | ⟨_, rfl⟩ |
      ⟨_, _, isLaunched, rfl⟩
    · exact (henter.rootModePageHook m.pool.state.callers [] os _ _).1 _ hhook
    · rcases pageUnhookVmcall_ends os _ m.enterRoot with heq | ⟨r, _, _, heq⟩
      · rw [heq]
        exact h
      · rw [heq]
        exact (henter.releaseHook m.pool.state.callers [] os r).1
    · rcases unhookAllPagesVmcall_ends os m.enterRoot with heq | heq
      · rw [heq]
        exact h
      · rw [heq]
        exact (henter.unhookAll m.pool.state.callers [] os _).1
    · exact h

theorem Quiet.installs (h : m.Quiet) (targetFunc : Pvoid) (permissions : BitVec 8) :
    (m.among callers past).installs os targetFunc permissions =
      m.installs os targetFunc permissions := by
  obtain ⟨hprepared, heq⟩ := h.prepareHook callers past os targetFunc permissions
  simp only [Machine.installs, heq]
  clear heq
  generalize m.prepareHook os targetFunc permissions = result at hprepared ⊢
  obtain _ | ⟨status | ⟨a, entry, changedEntry⟩, m1⟩ := result
  · rfl
  · rfl
  · simp only [Option.map_some,
      (Quiet.allocate callers past os (hprepared _ rfl) .eptHookPage).2]

theorem Quiet.recordDenied (h : m.Quiet) (targetFunc : Pvoid) (permissions : BitVec 8) :
    (m.among callers past).recordDenied os targetFunc permissions =
      m.recordDenied os targetFunc permissions := by
  obtain ⟨hprepared, heq⟩ := h.prepareHook callers past os targetFunc permissions
  simp only [Machine.recordDenied, heq]
  clear heq
  generalize m.prepareHook os targetFunc permissions = result at hprepared ⊢
  obtain _ | ⟨status | ⟨a, entry, changedEntry⟩, m1⟩ := result
  · rfl
  · rfl
  · simp only [Option.map_some,
      (Quiet.allocate callers past os (hprepared _ rfl) .eptHookPage).2]

/-- Nor do the INVEPTs of an exit depend on them. -/
theorem Quiet.exitInvalidates (h : m.Quiet) (kernelBaseInfo : KernelBaseInfo) (eptPointer : Word)
    (exit : VmExit) : (m.among callers past).exitInvalidates os kernelBaseInfo eptPointer exit =
      m.exitInvalidates os kernelBaseInfo eptPointer exit := by
  cases exit with
  | eptViolation => rfl
  | monitorTrapFlag => rfl
  | vmcall vmcallNumber optionalParam1 optionalParam2 =>
    have hquiet : m.enterRoot.Quiet := h
    simp only [Machine.exitInvalidates, enterRoot_among, vmcallInvalidates,
      hquiet.installs callers past, guest_among, getHookedPage_among, ept_among]

end Among

end Machine

end NovaHypervisor

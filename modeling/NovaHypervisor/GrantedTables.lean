import NovaHypervisor.ExitRuns

/-!
The tables behind the split entries of one processor. Whatever becomes of a table
after it was wired, its address is one that the kernel granted for a table, so no
later walk reads through a null pointer.
-/
namespace NovaHypervisor

open General

/-- The table is built, and every split entry leads to a granted buffer. -/
def Ept.TablesGranted (os : Os) (ept : Ept) : Prop :=
  ∃ pageTable, ept.eptPageTable = some pageTable ∧ ∀ e, IsSplit pageTable e →
    os.grants .split2mbPagingTo4kbPage (tableOf os pageTable e) = true

namespace Machine

variable {Caller : Type*}

theorem wireSplit_tables {os : Os} {m : Machine Caller} (h : m.ept.TablesGranted os) {a : Pvoid}
    (ha : os.grants .split2mbPagingTo4kbPage a = true) {pageTable : VmmEptPageTable}
    (htable : m.ept.eptPageTable = some pageTable) (e : PeptPml2Entry) :
    (m.wireSplit os a pageTable e).ept.TablesGranted os := by
  obtain ⟨pageTable0, htable0, hgrants⟩ := h
  obtain rfl : pageTable0 = pageTable := Option.some.inj (htable0.symm.trans htable)
  refine ⟨_, rfl, ?_⟩
  intro f hf
  rcases isSplit_wired_cases ha hf with ⟨_, htable⟩ | ⟨_, hold, htable⟩
  · rw [htable]
    exact ha
  · rw [htable]
    exact hgrants f hold

variable [DecidableEq Caller]

theorem splitLargePage_tables {os : Os} {m m' : Machine Caller} (h : m.ept.TablesGranted os)
    {a : Pvoid} (ha : os.grants .split2mbPagingTo4kbPage a = true) {x : Word} {status : Bool}
    (hsplit : m.splitLargePage os a x = some (status, m')) : m'.ept.TablesGranted os := by
  rcases splitLargePage_ends hsplit with ⟨_, rfl⟩ | ⟨_, pageTable, e, htable, rfl | ⟨_, rfl⟩⟩
  · exact h
  · exact h
  · exact wireSplit_tables h ha htable e

theorem prepareHook_tables {os : Os} {m m' : Machine Caller} (hm : m.Listed os)
    (h : m.ept.TablesGranted os) {targetFunc : Pvoid} {permissions : BitVec 8}
    {preparation : HookPreparation}
    (hprep : m.prepareHook os targetFunc permissions = some (preparation, m')) :
    m'.ept.TablesGranted os := by
  rcases prepareHook_ends hprep with ⟨rfl, _⟩ | ⟨halloc, _⟩ |
    ⟨a, m0, m1, status, halloc, hsplit, hend⟩
  · exact h
  · obtain ⟨_, hept, _⟩ := hm.allocate halloc
    exact hept ▸ h
  obtain ⟨hpool, hept, _⟩ := allocate_some hm.safe halloc
  have h1 := splitLargePage_tables (hept ▸ h : m0.ept.TablesGranted os) hpool.granted hsplit
  rcases hend with ⟨rfl, _⟩ | ⟨_, rfl, _⟩
  · exact h1
  · exact h1

theorem rootModePageHook_tables {os : Os} {m m' : Machine Caller} (hm : m.Listed os)
    (h : m.ept.TablesGranted os) {targetFunc : Pvoid} {permissions : BitVec 8} {status : Bool}
    (hcall : m.rootModePageHook os targetFunc permissions = some (status, m')) :
    m'.ept.TablesGranted os := by
  rcases rootModePageHook_ends hcall with hprep | ⟨a, entry, changedEntry, m1, hprep, hend⟩
  · exact prepareHook_tables hm h hprep
  have h1 := prepareHook_tables hm h hprep
  rcases hend with ⟨m2, halloc, _, rfl⟩ | ⟨r, m2, halloc, _, rfl⟩
  · have hept : m2.ept = m1.ept := (congrArg (fun p => p.2.ept) halloc).symm
    exact (hept ▸ h1 : m2.ept.TablesGranted os)
  · have hept : m2.ept = m1.ept := (congrArg (fun p => p.2.ept) halloc).symm
    exact (hept ▸ h1 : m2.ept.TablesGranted os)

/-- Unhooking touches no entry of the table's upper levels. -/
theorem unhookAll_tables {os : Os} (hooks : List Pvoid) {m : Machine Caller}
    (h : m.ept.TablesGranted os) :
    (hooks.foldl (fun m r => m.releaseHook os r) m).ept.TablesGranted os := by
  induction hooks generalizing m with
  | nil => exact h
  | cons r hooks ih => exact ih (m := m.releaseHook os r) h

theorem pageUnhookVmcall_tables {os : Os} {m : Machine Caller} (h : m.ept.TablesGranted os)
    (guestVirtualAddress : Word) :
    (m.pageUnhookVmcall os guestVirtualAddress).2.ept.TablesGranted os := by
  rcases pageUnhookVmcall_ends os guestVirtualAddress m with heq | ⟨r, _, _, heq⟩
  · exact heq ▸ h
  · rw [heq]
    exact h

theorem unhookAllPagesVmcall_tables {os : Os} {m : Machine Caller} (h : m.ept.TablesGranted os) :
    (m.unhookAllPagesVmcall os).2.ept.TablesGranted os := by
  rcases unhookAllPagesVmcall_ends os m with heq | heq
  · exact heq ▸ h
  · exact heq ▸ unhookAll_tables m.ept.hookedPages h

theorem vmcallHandler_tables {os : Os} {m m' : Machine Caller} (hm : m.Listed os)
    (h : m.ept.TablesGranted os) {vmcallNumber optionalParam1 optionalParam2 : Word}
    {status : Ntstatus} (hcall : m.vmcallHandler os vmcallNumber optionalParam1 optionalParam2 =
      some (status, m')) : m'.ept.TablesGranted os := by
  rcases vmcallHandler_cases hcall with ⟨_, hooked, hhook⟩ | ⟨_, _, rfl⟩ | ⟨_, rfl⟩ |
    ⟨_, _, isLaunched, rfl⟩
  · exact rootModePageHook_tables hm h hhook
  · exact pageUnhookVmcall_tables h optionalParam1
  · exact unhookAllPagesVmcall_tables h
  · exact h

theorem exitStep_tables {os : Os} {kernelBaseInfo : KernelBaseInfo} {m m' : Machine Caller}
    (hm : m.Listed os) (h : m.ept.TablesGranted os) {action : ExitAction Caller}
    (hstep : m.exitStep os kernelBaseInfo action = some m') : m'.ept.TablesGranted os := by
  have henter : m.enterRoot.Listed os := hm.withGuest _
  cases exitStep_cases hstep with
  | eptViolation exitQualification guestPhysicalAddr guestLinearAddress guestRip =>
    obtain ⟨_, hept, _⟩ := henter.handlePageHookExit kernelBaseInfo exitQualification
      guestPhysicalAddr guestLinearAddress guestRip rfl
    exact (hept ▸ h : (m.enterRoot.handlePageHookExit kernelBaseInfo exitQualification
      guestPhysicalAddr guestLinearAddress guestRip).2.ept.TablesGranted os)
  | @monitorTrapFlag m2 hexit =>
    obtain ⟨_, hept, _⟩ := henter.monitorTrapFlagExit hexit
    exact (hept ▸ h : m2.ept.TablesGranted os)
  | vmcall hcall =>
    have htables := vmcallHandler_tables henter h hcall
    exact htables
  | others hstep =>
    obtain ⟨_, hept, _⟩ := hm.othersStep hstep
    exact hept ▸ h

/-- Every run of exits keeps the records in one hand and the tables granted. -/
theorem tables_of_run {os : Os} {kernelBaseInfo : KernelBaseInfo} {pageTable : VmmEptPageTable}
    {m m' : Machine Caller} {actions : List (ExitAction Caller)} (hstart : Started os pageTable m)
    (hrun : Run (exitStep os kernelBaseInfo) m actions m') :
    m'.Listed os ∧ m'.ept.TablesGranted os := by
  refine hrun.invariant (I := fun m => m.Listed os ∧ m.ept.TablesGranted os) ?_
    ⟨hstart.coherent.listed, pageTable, hstart.pageTable_eq, fun e he => ?_⟩
  · intro s action s' hinv _ hstep
    obtain ⟨hlisted, htables⟩ := hinv
    exact ⟨(exitStep_listed hlisted hstep).1, exitStep_tables hlisted htables hstep⟩
  · exact absurd he (hstart.large e).1

end Machine

end NovaHypervisor

import NovaHypervisor.GuestSystem
import NovaHypervisor.RepeatedHook

/-!
The protection of a page on every processor of the system. What a processor has hooked stays
hooked, with the same record, until a VMCALL of its own unhooks it, whatever the other
processors and the pool's threads do; until then nothing outside the kernel image writes to
the page or executes it there.
-/
namespace NovaHypervisor

open General

/-- The VMCALLs that take records out of the list. -/
def unhookVmcall (vmcallNumber : Word) : Bool :=
  vmcallNumber.toNat = 6 || vmcallNumber.toNat = 7

namespace Machine

variable {Caller : Type*} [DecidableEq Caller] {os : Os} {kernelBaseInfo : KernelBaseInfo}
  {m m' m'' : Machine Caller}

/-- Every record is still there, with the same contents. -/
def Stays (m m' : Machine Caller) : Prop :=
  ∀ r ∈ m.ept.hookedPages, r ∈ m'.ept.hookedPages ∧ m'.detail r = m.detail r

/-- No entry that a record puts in place grants a write or a fetch. -/
def Closed (m : Machine Caller) : Prop :=
  ∀ r ∈ m.ept.hookedPages, ReadOnly (m.detail r).changedEntry

omit [DecidableEq Caller] in
theorem Stays.refl (m : Machine Caller) : Stays m m := fun _ hr => ⟨hr, rfl⟩

omit [DecidableEq Caller] in
theorem Stays.trans (h : Stays m m') (h' : Stays m' m'') : Stays m m'' := by
  intro r hr
  obtain ⟨hmem, hdetail⟩ := h r hr
  obtain ⟨hmem', hdetail'⟩ := h' r hmem
  exact ⟨hmem', hdetail'.trans hdetail⟩

omit [DecidableEq Caller] in
theorem SameRecords.stays (h : SameRecords m m') : Stays m m' :=
  fun r hr => ⟨h.hookedPages ▸ hr, h.detail r hr⟩

omit [DecidableEq Caller] in
theorem Closed.remains (h : m.Closed) (hremains : Remains m m') : m'.Closed := by
  intro r hr
  obtain ⟨hmem, hdetail⟩ := hremains r hr
  rw [hdetail]
  exact h r hmem

/-- A hook adds a record at most. -/
theorem Listed.rootModePageHook_stays (h : m.Listed os) {targetFunc : Pvoid}
    {permissions : BitVec 8} {status : Bool}
    (hcall : m.rootModePageHook os targetFunc permissions = some (status, m')) : Stays m m' := by
  rcases h.rootModePageHook_firstHook hcall with ⟨_, hsame⟩ | ⟨first, r, _, hhooked⟩
  · exact hsame.stays
  · intro q hq
    rw [hhooked.hookedPages]
    exact ⟨List.mem_cons_of_mem r hq, hhooked.detail q hq⟩

/-- An exit that is none of the unhooking VMCALLs takes no record out. -/
theorem exitStep_stays (h : m.Listed os) {exit : VmExit}
    (hnot : ∀ vmcallNumber optionalParam1 optionalParam2,
      exit = .vmcall vmcallNumber optionalParam1 optionalParam2 → unhookVmcall vmcallNumber = false)
    (hstep : m.exitStep os kernelBaseInfo (.exit exit) = some m') : Stays m m' := by
  have henter : m.enterRoot.Listed os := h.withGuest _
  cases exitStep_cases hstep with
  | eptViolation exitQualification guestPhysicalAddr guestLinearAddress guestRip =>
    unfold leaveRoot
    rcases handlePageHookExit_ends m.enterRoot kernelBaseInfo exitQualification guestPhysicalAddr
      guestLinearAddress guestRip with ⟨_, injection, hresult⟩ | ⟨r, _, _, hresult⟩
    · rw [hresult]
      exact fun q hq => ⟨hq, rfl⟩
    · rw [hresult]
      exact fun q hq => ⟨hq, detail_setPml1 m _ q _⟩
  | monitorTrapFlag hexit =>
    rcases monitorTrapFlagExit_ends hexit with ⟨_, rfl⟩ | ⟨r, _, rfl⟩
    · exact fun q hq => ⟨hq, rfl⟩
    · exact fun q hq => ⟨hq, detail_setPml1 m _ q _⟩
  | @vmcall vmcallNumber _ _ status _ hcall =>
    have hkept := hnot _ _ _ rfl
    simp only [unhookVmcall, Bool.or_eq_false_iff, decide_eq_false_iff_not] at hkept
    rcases vmcallHandler_cases hcall with ⟨_, hooked, hhook⟩ | ⟨hsix, _⟩ | ⟨hseven, _⟩ |
      ⟨_, _, isLaunched, rfl⟩
    · have hstays := henter.rootModePageHook_stays hhook
      exact hstays
    · exact absurd hsix hkept.1
    · exact absurd hseven hkept.2
    · exact fun q hq => ⟨hq, rfl⟩

theorem exitStep_closed (h : m.Listed os) (hclosed : m.Closed) {action : ExitAction Caller}
    (hstep : m.exitStep os kernelBaseInfo action = some m') : m'.Closed := by
  rcases exitStep_records h hstep with ⟨_, hremains⟩ | ⟨targetFunc, r, first, _, hhooked⟩
  · exact hclosed.remains hremains
  · intro q hq
    rw [hhooked.hookedPages] at hq
    rcases List.mem_cons.mp hq with rfl | hold
    · rw [hhooked.changedEntry]
      exact changeAccess_readOnly _ _
    · rw [hhooked.detail q hold]
      exact hclosed q hold

end Machine

namespace GuestCpu

variable {Caller : Type*} [DecidableEq Caller] {os : Os} {kernelBaseInfo : KernelBaseInfo}
  {s s' : GuestCpu Caller}

theorem step_stays (h : s.machine.Listed os) {action : GuestAction Caller}
    (hown : action.IsOwn = true)
    (hnot : ∀ vmcallNumber optionalParam1 optionalParam2,
      action = .vmcall vmcallNumber optionalParam1 optionalParam2 →
        unhookVmcall vmcallNumber = false)
    (hstep : s.step os kernelBaseInfo action = some s') : s.machine.Stays s'.machine := by
  rcases step_machine hown hstep with hsame | ⟨exit, _, hvmcall, hexit⟩
  · rw [hsame]
    exact .refl _
  · refine Machine.exitStep_stays h ?_ hexit
    intro vmcallNumber optionalParam1 optionalParam2 heq
    exact hnot _ _ _ (hvmcall _ _ _ heq)

theorem step_closed (h : s.machine.Listed os) (hclosed : s.machine.Closed)
    {action : GuestAction Caller} (hstep : s.step os kernelBaseInfo action = some s') :
    s'.machine.Closed := by
  rcases hown : action.IsOwn with _ | _
  · cases action with
    | others action =>
      obtain ⟨machine, hmachine, rfl⟩ := Option.map_eq_some_iff.mp hstep
      exact hclosed.remains (h.sameRecords_othersStep hmachine).remains
    | _ => simp [GuestAction.IsOwn] at hown
  · rcases step_machine hown hstep with hsame | ⟨exit, _, _, hexit⟩
    · rw [hsame]
      exact hclosed
    · exact Machine.exitStep_closed h hclosed hexit

theorem closed_of_run {pageTable : VmmEptPageTable} {actions : List (GuestAction Caller)}
    (hstart : s.Launched os pageTable)
    (hrun : GuardedRun (step os kernelBaseInfo) (Orderly os) s actions s') :
    s'.machine.Closed := by
  have hinvariant : (∃ pageTable, s'.Watched os kernelBaseInfo pageTable) ∧
      s'.machine.Closed := by
    refine GuardedRun.invariant
      (I := fun s => (∃ pageTable, s.Watched os kernelBaseInfo pageTable) ∧ s.machine.Closed)
      ?_ hrun ⟨⟨pageTable, hstart.watched kernelBaseInfo⟩, ?_⟩
    · intro s action s' hs hguard hstep
      obtain ⟨⟨pageTable, hwatched⟩, hclosed⟩ := hs
      exact ⟨step_watched hwatched hguard hstep,
        step_closed hwatched.monitored.coherent.listed hclosed hstep⟩
    · intro r hr
      rw [hstart.started.hookedPages] at hr
      exact absurd hr List.not_mem_nil
  exact hinvariant.2

/-- An instruction from outside the kernel image writes to no hooked page and executes none. -/
theorem Watched.not_completes {pageTable : VmmEptPageTable}
    (h : s.Watched os kernelBaseInfo pageTable) (hclosed : s.machine.Closed) {guestRip : Word}
    (hrip : s.guestRip = some guestRip)
    (hout : kernelBaseInfo.isAccessFromKernelImage guestRip = false) {r : Pvoid}
    (hr : r ∈ s.machine.ept.hookedPages) {access : GuestAccess}
    (hpage : (s.machine.detail r).physicalBaseAddress = pageAlign access.guestPhysicalAddr)
    (hmodifies : access.write = true ∨ access.execute = true) : ¬ s.Completes os access := by
  have hreadOnly := hclosed r hr
  rw [h.completes_record hr hpage, if_neg (h.not_pending hrip hout r)]
  rintro ⟨_, hwrite, hexecute⟩
  rcases hmodifies with hset | hset
  · exact hwrite hset hreadOnly.write
  · exact hexecute hset hreadOnly.execute

end GuestCpu

/-- The processor itself unhooks a page, or all. -/
def SystemAction.UnhooksOn {Processor : Type*} (i : Processor) :
    SystemAction Processor → Prop
  | .processor j (.vmcall vmcallNumber _ _) => j = i ∧ unhookVmcall vmcallNumber = true
  | _ => False

instance {Processor : Type*} [DecidableEq Processor] (i : Processor) :
    (action : SystemAction Processor) → Decidable (action.UnhooksOn i)
  | .processor j (.vmcall vmcallNumber _ _) =>
    inferInstanceAs (Decidable (j = i ∧ unhookVmcall vmcallNumber = true))
  | .processor _ (.fetch _) => inferInstanceAs (Decidable False)
  | .processor _ (.access _) => inferInstanceAs (Decidable False)
  | .processor _ .retire => inferInstanceAs (Decidable False)
  | .processor _ (.cache _) => inferInstanceAs (Decidable False)
  | .processor _ (.evict _) => inferInstanceAs (Decidable False)
  | .processor _ (.others _) => inferInstanceAs (Decidable False)
  | .pool _ => inferInstanceAs (Decidable False)

namespace GuestSystem

variable {Processor : Type*} [DecidableEq Processor] {os : Os}
  {kernelBaseInfo : KernelBaseInfo} {pageTables : Processor → VmmEptPageTable}
  {s0 s s' : GuestSystem Processor} {i : Processor}

/-- Only a processor's own unhooking takes records out of its list. -/
theorem Composed.stays (hstart : s0.Launched os pageTables)
    {done : List (SystemAction Processor)} {held : Processor → List Buffer}
    (h : Composed os kernelBaseInfo s0 done held s) {action : SystemAction Processor}
    (horderly : s.Orderly os action) (hnot : ¬ action.UnhooksOn i)
    (hstep : s.step os kernelBaseInfo action = some s') :
    (s.cpu i).machine.Stays (s'.cpu i).machine := by
  obtain ⟨acts, past, _, halone⟩ := h.alone i
  obtain ⟨pageTable, hwatched⟩ := GuestCpu.watched_of_run (hstart.cpus i) halone
  rcases hown : action.own i with _ | act
  · obtain ⟨held', _, helsewhere⟩ := h.elsewhere hstart horderly hstep
    obtain ⟨hcores, taken, htaken⟩ := helsewhere i hown
    obtain ⟨hext, _⟩ := GuestCpu.extends_of_others hwatched.monitored.coherent
      (alone_others kernelBaseInfo past hcores htaken)
    intro r hr
    exact ⟨hext.hookedPages ▸ hr, hext.detail r hr⟩
  · cases action with
    | processor j action =>
      obtain rfl : j = i := by
        by_contra hne
        simp [SystemAction.own, hne] at hown
      simp only [GuestSystem.step] at hstep
      split at hstep
      · rename_i hisOwn
        obtain ⟨cpu, hcpu, rfl⟩ := Option.map_eq_some_iff.mp hstep
        have hstays := GuestCpu.step_stays hwatched.monitored.coherent.listed hisOwn ?_
          (alone_step held past hisOwn hcpu)
        · have hquiet : (s.cpu j).machine.Quiet := rfl
          have hend := alone_setCpu held past s j (GuestCpu.step_quiet hquiet hisOwn hcpu)
          rw [← hend] at hstays
          exact hstays
        · rintro vmcallNumber optionalParam1 optionalParam2 rfl
          exact Bool.eq_false_iff.mpr fun hunhooks => hnot ⟨rfl, hunhooks⟩
      · simp at hstep
    | pool action => simp [SystemAction.own] at hown

theorem stays_of_run (hstart : s0.Launched os pageTables)
    {done actions : List (SystemAction Processor)} {held : Processor → List Buffer}
    (h : Composed os kernelBaseInfo s0 done held s)
    (hrun : GuardedRun (step os kernelBaseInfo)
      (fun s action => s.Orderly os action ∧ ¬ action.UnhooksOn i) s actions s') :
    (s.cpu i).machine.Stays (s'.cpu i).machine := by
  induction hrun generalizing done held with
  | nil s => exact .refl _
  | cons hguard hstep _ ih =>
    obtain ⟨held1, h1, _⟩ := h.elsewhere hstart hguard.1 hstep
    exact (h.stays hstart hguard.1 hguard.2 hstep).trans (ih h1)

/-- From the moment that a page is hooked on a processor until the processor itself unhooks
it, the record stays listed as it is, and no instruction from outside the kernel image writes
to the page or executes it there. -/
theorem protected_of_run (hstart : s0.Launched os pageTables)
    {before after : List (SystemAction Processor)}
    (hrun : GuardedRun (step os kernelBaseInfo) (Orderly os) s0 before s) {r : Pvoid}
    (hr : r ∈ (s.cpu i).machine.ept.hookedPages)
    (hlater : GuardedRun (step os kernelBaseInfo)
      (fun s action => s.Orderly os action ∧ ¬ action.UnhooksOn i) s after s') :
    (r ∈ (s'.cpu i).machine.ept.hookedPages ∧
        (s'.cpu i).machine.detail r = (s.cpu i).machine.detail r) ∧
      ∀ (guestRip : Word) (access : GuestAccess), (s'.cpu i).guestRip = some guestRip →
        kernelBaseInfo.isAccessFromKernelImage guestRip = false →
        ((s.cpu i).machine.detail r).physicalBaseAddress = pageAlign access.guestPhysicalAddr →
        access.write = true ∨ access.execute = true → ¬ (s'.cpu i).Completes os access := by
  obtain ⟨held, h⟩ := composed_of_run hstart (hstart.composed kernelBaseInfo) hrun
  obtain ⟨hmem, hdetail⟩ := stays_of_run hstart h hlater r hr
  obtain ⟨held', h'⟩ := composed_of_run hstart h (hlater.mono fun _ _ hguard => hguard.1)
  obtain ⟨acts, past, _, halone⟩ := h'.alone i
  obtain ⟨pageTable, hwatched⟩ := GuestCpu.watched_of_run (hstart.cpus i) halone
  refine ⟨⟨hmem, hdetail⟩, fun guestRip access hrip hout hpage hmodifies => ?_⟩
  have hblocked := hwatched.not_completes (GuestCpu.closed_of_run (hstart.cpus i) halone) hrip hout
    hmem ((congrArg EptHookedPageDetail.physicalBaseAddress hdetail).trans hpage) hmodifies
  exact hblocked

/-- The other processor unhooks all that it has hooked. -/
def otherUnhooks : List (SystemAction Bool) :=
  [.processor true (.vmcall 7 0 0), .processor false (.fetch 0x7000#64)]

theorem protected_of_run_otherUnhooks :
    0x20000#64 ∈ ((execute (step flatOs Machine.flatKernel)
        (execute (step flatOs Machine.flatKernel) flatSystem oneHooks) otherUnhooks).cpu
          false).machine.ept.hookedPages ∧
      ¬ ((execute (step flatOs Machine.flatKernel)
        (execute (step flatOs Machine.flatKernel) flatSystem oneHooks) otherUnhooks).cpu
          false).Completes flatOs (GuestCpu.writeAccess 0x200018#64) := by
  have hlater : GuardedRun (step flatOs Machine.flatKernel)
      (fun s action => s.Orderly flatOs action ∧ ¬ action.UnhooksOn false)
      (execute (step flatOs Machine.flatKernel) flatSystem oneHooks) otherUnhooks
      (execute (step flatOs Machine.flatKernel)
        (execute (step flatOs Machine.flatKernel) flatSystem oneHooks) otherUnhooks) :=
    guardedRun_of_allowed (by decide +kernel)
  have hpage : (((execute (step flatOs Machine.flatKernel) flatSystem oneHooks).cpu
      false).machine.detail 0x20000#64).physicalBaseAddress = pageAlign 0x200018#64 := by
    decide +kernel
  have hr : (0x20000#64 : Pvoid) ∈ ((execute (step flatOs Machine.flatKernel) flatSystem
      oneHooks).cpu false).machine.ept.hookedPages := by
    decide +kernel
  have hrip : ((execute (step flatOs Machine.flatKernel)
      (execute (step flatOs Machine.flatKernel) flatSystem oneHooks) otherUnhooks).cpu
        false).guestRip = some 0x7000#64 := by
    decide +kernel
  obtain ⟨⟨hmem, _⟩, hblocked⟩ := protected_of_run flatSystem_launched oneHooks_run hr hlater
  exact ⟨hmem, hblocked _ _ hrip (by decide) hpage (Or.inl rfl)⟩

end GuestSystem

end NovaHypervisor

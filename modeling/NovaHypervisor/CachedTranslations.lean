import NovaHypervisor.GrantedTables
import NovaHypervisor.GuestCpu

/-!
What a processor has cached of its page table. Each exit either invalidates it or
leaves every page's frame and rights alone, whatever it does to the tables: a split
keeps them, and a leaf is never stored without the INVEPT behind it while the guest
runs. So no access goes through a stale translation, in any run without a denied hook
and without an unhook of the pending record.
-/
namespace NovaHypervisor

open General

theorem Translation.SameAccess.symm {t u : Translation} (h : t.SameAccess u) : u.SameAccess t :=
  ⟨h.1.symm, h.2.1.symm, h.2.2.1.symm, h.2.2.2.symm⟩

/-- A page and its addresses translate alike. -/
theorem pageAlign_key (x : Word) :
    pml2Key (pageAlign x) = pml2Key x ∧ pml1Index (pageAlign x) = pml1Index x := by
  refine ⟨Prod.ext (Fin.ext ?_) (Fin.ext ?_), Fin.ext ?_⟩
  · simp only [pml2Key, pml3Index, toNat_pml3Index, toNat_pageAlign]
    omega
  · simp only [pml2Key, pml2Index, toNat_pml2Index, toNat_pageAlign]
    omega
  · simp only [pml1Index, toNat_pml1Index, toNat_pageAlign]
    omega

namespace Machine

variable {Caller : Type*} [DecidableEq Caller]

/-- The exit does not deny a hook its record and does not take out the pending record. -/
def KeepsTable (os : Os) (m : Machine Caller) : VmExit → Prop
  | .vmcall vmcallNumber optionalParam1 optionalParam2 =>
    (vmcallNumber.toNat = 3 → optionalParam1 ≠ 0 →
      m.enterRoot.recordDenied os optionalParam1 (optionalParam2.setWidth 8) = false) ∧
    m.PendingKept (.exit (.vmcall vmcallNumber optionalParam1 optionalParam2))
  | _ => True

instance (os : Os) (m : Machine Caller) : (exit : VmExit) → Decidable (m.KeepsTable os exit)
  | .eptViolation _ _ _ _ => inferInstanceAs (Decidable True)
  | .monitorTrapFlag => inferInstanceAs (Decidable True)
  | .vmcall _ _ _ => inferInstanceAs (Decidable (_ ∧ _))

/-- The exit's VMCALL, if it is one, keeps the tables. -/
def ExitKeepsTable (os : Os) (m : Machine Caller) : ExitAction Caller → Prop
  | .exit exit => m.KeepsTable os exit
  | .others _ => True

instance (os : Os) (m : Machine Caller) :
    (action : ExitAction Caller) → Decidable (m.ExitKeepsTable os action)
  | .exit exit => inferInstanceAs (Decidable (m.KeepsTable os exit))
  | .others _ => inferInstanceAs (Decidable True)

theorem vmcallHandler_hook_zero (os : Os) {m : Machine Caller}
    {vmcallNumber : Word} (hnumber : vmcallNumber.toNat = 3) (optionalParam2 : Word) :
    m.vmcallHandler os vmcallNumber 0 optionalParam2 = some (statusInvalidParameter, m) := by
  simp only [vmcallHandler, hnumber]
  rfl

/-- In root mode a hook gets as far as its leaf only after the launch. -/
theorem prepareHook_launched {os : Os} {m m' : Machine Caller} {targetFunc a : Pvoid}
    {permissions : BitVec 8} {entry : PeptPml1Entry} {changedEntry : Word}
    (hroot : m.guest.isOnVmxRoot = true) (h : m.prepareHook os targetFunc permissions =
      some (.ready a entry changedEntry, m')) : m.guest.isLaunched = true := by
  by_contra hnot
  rw [prepareHook, if_pos ⟨hroot, hnot⟩] at h
  simp at h

/-- A hook that adds a record in root mode comes to its INVEPT. -/
theorem Hooked.installs {os : Os} {pageTable pageTable' : VmmEptPageTable}
    {m m1 m' : Machine Caller} {targetFunc a r : Pvoid} {permissions : BitVec 8} {status : Bool}
    (hm : m.Coherent os pageTable) (hroot : m.guest.isOnVmxRoot = true)
    (hcall : m.rootModePageHook os targetFunc permissions = some (status, m'))
    (hhooked : Hooked os targetFunc permissions pageTable m a pageTable' m1 r m') :
    m.installs os targetFunc permissions = true ∧ m.guest.isLaunched = true := by
  have hlist : m'.ept.hookedPages = r :: m.ept.hookedPages := by
    rw [hhooked.installed.hookedPages, hhooked.hookedPages]
  have hlonger : m'.ept.hookedPages ≠ m.ept.hookedPages := by
    rw [hlist]
    exact List.cons_ne_self r _
  rcases prepareHook_cases hm targetFunc permissions with
    ⟨status', m2, hprep, hdone⟩ | ⟨b, _, m2, hprep, hready⟩
  · simp only [rootModePageHook, hprep, Option.map_some, Option.some.injEq, Prod.mk.injEq] at hcall
    rw [hcall.2] at hdone
    exact absurd hdone.hookedPages hlonger
  · refine ⟨?_, prepareHook_launched hroot hprep⟩
    rcases halloc : m2.allocate os .eptHookPage with ⟨_ | r', m3⟩
    · simp only [rootModePageHook, hprep, Option.map_some, halloc, Option.some.injEq,
        Prod.mk.injEq] at hcall
      obtain ⟨_, hept, _⟩ := allocate_none hready.coherent.safe halloc
      refine absurd ?_ hlonger
      rw [← hcall.2]
      change m3.ept.hookedPages = _
      rw [hept, hready.hookedPages]
    · simp only [Machine.installs, hprep, halloc, Option.isSome_some]

/-- The law of the tables, with the pending record in the hook list. -/
structure Tabled (os : Os) (pageTable : VmmEptPageTable) (m : Machine Caller) : Prop where
  coherent : m.Coherent os pageTable
  pending : ∀ r ∈ m.guest.hookedPage, r ∈ m.ept.hookedPages

/-- The law holds on, and the cached translations are invalidated or as good as before. -/
structure TableStep (os : Os) (pageTable : VmmEptPageTable) (m : Machine Caller)
    (invalidates : Bool) (pageTable' : VmmEptPageTable) (m' : Machine Caller) : Prop extends
    m'.Tabled os pageTable' where
  access : invalidates = true ∨
    ∀ x, (m.translate os pageTable x).SameAccess (m'.translate os pageTable' x)

namespace Tabled

variable {os : Os} {pageTable : VmmEptPageTable} {m m' : Machine Caller}

theorem extend (h : m.Tabled os pageTable) {pageTable' : VmmEptPageTable}
    (hext : Extends os pageTable m pageTable' m') (invalidates : Bool) :
    TableStep os pageTable m invalidates pageTable' m' := by
  refine ⟨⟨hext.coherent, ?_⟩, Or.inr fun x => (hext.access x).symm⟩
  rw [hext.guest, hext.hookedPages]
  exact h.pending

theorem withGuest (h : m.Tabled os pageTable) {guest : VmState}
    (hpending : ∀ r ∈ guest.hookedPage, r ∈ m.ept.hookedPages) :
    ({ m with guest := guest } : Machine Caller).Tabled os pageTable :=
  ⟨h.coherent.withGuest guest, hpending⟩

/-- Storing one of a record's two entries keeps the law. -/
theorem setRecord (h : m.Tabled os pageTable) {r : Pvoid} (hr : r ∈ m.ept.hookedPages)
    {value : Word} (hvalue : (Epte.pageFrameNumber.get value).toNat =
      (m.detail r).physicalAddress.toNat / 4096) {guest : VmState}
    (hpending : ∀ q ∈ guest.hookedPage, q ∈ m.ept.hookedPages) :
    ({ m.setPml1 (m.detail r).entryAddress value with guest := guest } :
      Machine Caller).Tabled os pageTable := by
  have hrecord := h.coherent.record r hr
  rw [hrecord.entry]
  refine ⟨(h.coherent.setPml1 hrecord.split _ ?_).withGuest guest, hpending⟩
  rw [hvalue, frame_eq hrecord.low]

theorem handlePageHookExit (h : m.Tabled os pageTable) (kernelBaseInfo : KernelBaseInfo)
    (violationQualification guestPhysicalAddr guestLinearAddress guestRip : Word) :
    TableStep os pageTable m
      (m.opened kernelBaseInfo violationQualification guestPhysicalAddr guestRip).isSome
      pageTable (m.handlePageHookExit kernelBaseInfo violationQualification guestPhysicalAddr
        guestLinearAddress guestRip).2 := by
  rcases handlePageHookExit_ends m kernelBaseInfo violationQualification guestPhysicalAddr
    guestLinearAddress guestRip with ⟨_, injection, hresult⟩ | ⟨r, hr, hopened, hresult⟩
  · rw [hresult]
    exact ⟨h.withGuest h.pending, Or.inr fun x => Translation.SameAccess.refl _⟩
  · rw [hresult, hopened]
    refine ⟨h.setRecord hr (h.coherent.record r hr).original ?_, Or.inl rfl⟩
    intro q hq
    obtain rfl : r = q := Option.some.inj hq
    exact hr

theorem monitorTrapFlagExit (h : m.Tabled os pageTable)
    (hexit : m.monitorTrapFlagExit = some m') :
    TableStep os pageTable m m.guest.hookedPage.isSome pageTable m' := by
  rcases monitorTrapFlagExit_ends hexit with ⟨_, rfl⟩ | ⟨r, hpending, rfl⟩
  · refine ⟨h.withGuest ?_, Or.inr fun x => Translation.SameAccess.refl _⟩
    exact h.pending
  · rw [hpending]
    have hr := h.pending r hpending
    refine ⟨h.setRecord hr (h.coherent.record r hr).changed ?_, Or.inl rfl⟩
    simp [VmState.setMonitorTrapFlag]

/-- A hook in root mode splits and frees tables without an INVEPT, and stores its leaf with one. -/
theorem rootModePageHook (h : m.Tabled os pageTable) (hroot : m.guest.isOnVmxRoot = true)
    {targetFunc : Pvoid} {permissions : BitVec 8} {status : Bool}
    (hnot : m.recordDenied os targetFunc permissions = false)
    (hcall : m.rootModePageHook os targetFunc permissions = some (status, m')) :
    ∃ pageTable', TableStep os pageTable m
      (m.installs os targetFunc permissions && m.guest.isLaunched) pageTable' m' := by
  rcases rootModePageHook_returned h.coherent hcall with
    hdone | ⟨hdenied, _⟩ | ⟨_, a, pageTable', m1, r, hhooked⟩
  · exact ⟨pageTable, h.extend hdone.toExtends _⟩
  · rw [hnot] at hdenied
    exact absurd hdenied (by simp)
  · have hinstalled := hhooked.installed
    obtain ⟨hinstalls, hlaunched⟩ := hhooked.installs h.coherent hroot hcall
    refine ⟨pageTable', ⟨hinstalled.coherent, ?_⟩, Or.inl ?_⟩
    · intro q hq
      rw [hinstalled.guest, hhooked.guest] at hq
      rw [hinstalled.hookedPages, hhooked.hookedPages]
      exact List.mem_cons_of_mem r (h.pending q hq)
    · rw [hinstalls, hlaunched]
      rfl

theorem releaseHook (h : m.Tabled os pageTable) {r : Pvoid} (hr : r ∈ m.ept.hookedPages)
    (hkept : ∀ q ∈ m.guest.hookedPage, q ≠ r) : (m.releaseHook os r).Tabled os pageTable := by
  have hunhooked := h.coherent.releaseHook hr
  refine ⟨hunhooked.coherent, ?_⟩
  intro q hq
  rw [hunhooked.guest] at hq
  rw [hunhooked.hookedPages, h.coherent.nodup.mem_erase_iff]
  exact ⟨hkept q hq, h.pending q hq⟩

/-- A VMCALL in root mode. -/
theorem vmcallHandler (h : m.Tabled os pageTable) (hroot : m.guest.isOnVmxRoot = true)
    {vmcallNumber optionalParam1 optionalParam2 : Word} (eptPointer : Word) {status : Ntstatus}
    (hnot : vmcallNumber.toNat = 3 → optionalParam1 ≠ 0 →
      m.recordDenied os optionalParam1 (optionalParam2.setWidth 8) = false)
    (hkept : m.PendingKept (.exit (.vmcall vmcallNumber optionalParam1 optionalParam2)))
    (hcall : m.vmcallHandler os vmcallNumber optionalParam1 optionalParam2 =
      some (status, m')) :
    ∃ pageTable', TableStep os pageTable m
      (m.vmcallInvalidates os eptPointer vmcallNumber optionalParam1 optionalParam2)
      pageTable' m' := by
  have hsame : ∀ invalidates, TableStep os pageTable m invalidates pageTable m :=
    fun _ => ⟨h, Or.inr fun x => Translation.SameAccess.refl _⟩
  rcases vmcallHandler_cases hcall with ⟨hnumber, hooked, hhook⟩ | ⟨hnumber, hnonzero, rfl⟩ |
    ⟨hnumber, rfl⟩ | ⟨_, _, isLaunched, rfl⟩
  · by_cases hzero : optionalParam1 = 0
    · subst hzero
      rw [vmcallHandler_hook_zero os hnumber] at hcall
      obtain ⟨_, rfl⟩ := Prod.mk.inj (Option.some.inj hcall)
      exact ⟨pageTable, hsame _⟩
    · obtain ⟨pageTable', hstep⟩ := h.rootModePageHook hroot (hnot hnumber hzero) hhook
      refine ⟨pageTable', ?_⟩
      have hnonzero : optionalParam1 ≠ 0#64 := hzero
      simpa [vmcallInvalidates, hnumber, hnonzero] using hstep
  · refine ⟨pageTable, ?_⟩
    have hnonzero' : optionalParam1 ≠ 0#64 := hnonzero
    simp only [PendingKept, released, hnumber, if_neg hnonzero] at hkept
    rcases pageUnhookVmcall_ends os optionalParam1 m with heq | ⟨r, hr, hfound, heq⟩
    · rw [heq]
      exact hsame _
    · rw [heq]
      refine ⟨h.releaseHook hr ?_, Or.inl ?_⟩
      · intro q hq hqr
        refine hkept q hq ?_
        rw [hfound, hqr]
        simp
      · simp [vmcallInvalidates, hnumber, hnonzero', hroot, hfound]
  · refine ⟨pageTable, ?_⟩
    simp only [PendingKept, released, hnumber] at hkept
    rw [unhookAllPagesVmcall, if_neg (not_not_intro hroot)]
    obtain ⟨_, hlist, hguest⟩ := h.coherent.listed.unhookAll
    rcases hempty : m.ept.hookedPages with _ | ⟨r, hooks⟩
    · exact hsame _
    · have hunhooked := h.coherent.unhookAll
      rw [hempty] at hunhooked hguest
      refine ⟨⟨hunhooked, ?_⟩, Or.inl ?_⟩
      · intro q hq
        rw [hguest] at hq
        exact absurd (h.pending q hq) (hkept q hq)
      · simp [vmcallInvalidates, hnumber, hroot, hempty]
  · exact ⟨pageTable, h.withGuest h.pending, Or.inr fun x => Translation.SameAccess.refl _⟩

/-- The entry of the pending record is in a table, so the exit that arms it again ends. -/
theorem monitorTrapFlagExit_isSome (h : m.Tabled os pageTable) (htables : m.ept.TablesGranted os) :
    m.monitorTrapFlagExit.isSome = true := by
  obtain ⟨table, htable, hgrants⟩ := htables
  obtain rfl := Option.some.inj (htable.symm.trans h.coherent.pageTable_eq)
  refine Machine.monitorTrapFlagExit_isSome fun r hr => ?_
  have hrecord := h.coherent.record r (h.pending r hr)
  rw [hrecord.entry]
  exact os.grants_nonnull _ _ (hgrants _ hrecord.split)

end Tabled

/-- An exit keeps the law, and invalidates what is cached unless every page keeps its
frame and its rights. -/
theorem exitStep_tabled {os : Os} {kernelBaseInfo : KernelBaseInfo} {pageTable : VmmEptPageTable}
    {m m' : Machine Caller} (h : m.Tabled os pageTable) (eptPointer : Word) {exit : VmExit}
    (hguard : m.KeepsTable os exit) (hstep : m.exitStep os kernelBaseInfo (.exit exit) = some m') :
    ∃ pageTable', TableStep os pageTable m
      (m.exitInvalidates os kernelBaseInfo eptPointer exit) pageTable' m' := by
  have henter : m.enterRoot.Tabled os pageTable := h.withGuest h.pending
  cases exitStep_cases hstep with
  | eptViolation exitQualification guestPhysicalAddr guestLinearAddress guestRip =>
    have hexit := henter.handlePageHookExit kernelBaseInfo exitQualification guestPhysicalAddr
      guestLinearAddress guestRip
    refine ⟨pageTable, hexit.toTabled.withGuest hexit.pending, hexit.access.imp_left ?_⟩
    intro hopened
    rw [exitInvalidates, invalidateEpt_self, Bool.and_true]
    exact hopened
  | monitorTrapFlag hrestored =>
    have hexit := henter.monitorTrapFlagExit hrestored
    refine ⟨pageTable, hexit.toTabled.withGuest hexit.pending, hexit.access.imp_left ?_⟩
    intro hpending
    rw [exitInvalidates, invalidateEpt_self, Bool.and_true]
    exact hpending
  | vmcall hcall =>
    obtain ⟨hnot, hkept⟩ := hguard
    obtain ⟨pageTable', hexit⟩ := henter.vmcallHandler rfl eptPointer hnot hkept hcall
    exact ⟨pageTable', hexit.toTabled.withGuest hexit.pending, hexit.access⟩

/-- In every state of a run that keeps the tables the exit of the monitor trap flag ends. -/
theorem monitorTrapFlag_of_run {os : Os} {kernelBaseInfo : KernelBaseInfo}
    {pageTable : VmmEptPageTable} {m m' : Machine Caller} {actions : List (ExitAction Caller)}
    (hstart : Started os pageTable m) (hidle : m.guest.hookedPage = none)
    (hrun : GuardedRun (exitStep os kernelBaseInfo) (ExitKeepsTable os) m actions m') :
    ∃ m'', m'.exitStep os kernelBaseInfo (.exit .monitorTrapFlag) = some m'' := by
  obtain ⟨hlisted, htables⟩ := tables_of_run hstart (hrun.mono fun _ _ _ => trivial)
  have hreached : ∃ pageTable', m'.Tabled os pageTable' := by
    refine hrun.invariant (I := fun m => ∃ pageTable', m.Tabled os pageTable') ?_
      ⟨pageTable, hstart.coherent, by simp [hidle]⟩
    intro s action s' hinv hguard hstep
    obtain ⟨pageTable', h⟩ := hinv
    cases action with
    | exit exit =>
      obtain ⟨pageTable'', htable⟩ := exitStep_tabled h 0 hguard hstep
      exact ⟨pageTable'', htable.toTabled⟩
    | others action =>
      exact ⟨pageTable', (h.extend (h.coherent.othersStep hstep) false).toTabled⟩
  obtain ⟨pageTable', h⟩ := hreached
  have henter : m'.enterRoot.Tabled os pageTable' := h.withGuest h.pending
  obtain ⟨m'', hexit⟩ := Option.isSome_iff_exists.mp (henter.monitorTrapFlagExit_isSome htables)
  refine ⟨m''.leaveRoot, ?_⟩
  simp only [exitStep, vmexitHandler, hexit, Option.map_some]

end Machine

namespace GuestCpu

variable {Caller : Type*} [DecidableEq Caller]

/-- The VMCALL of the action, if it is one, keeps the tables. -/
def KeepsTable (os : Os) (s : GuestCpu Caller) : GuestAction Caller → Prop
  | .vmcall vmcallNumber optionalParam1 optionalParam2 =>
    s.machine.KeepsTable os (.vmcall vmcallNumber optionalParam1 optionalParam2)
  | _ => True

instance (os : Os) (s : GuestCpu Caller) :
    (action : GuestAction Caller) → Decidable (s.KeepsTable os action)
  | .vmcall vmcallNumber optionalParam1 optionalParam2 => inferInstanceAs
      (Decidable (s.machine.KeepsTable os (.vmcall vmcallNumber optionalParam1 optionalParam2)))
  | .fetch _ => inferInstanceAs (Decidable True)
  | .access _ => inferInstanceAs (Decidable True)
  | .retire => inferInstanceAs (Decidable True)
  | .cache _ => inferInstanceAs (Decidable True)
  | .evict _ => inferInstanceAs (Decidable True)
  | .others _ => inferInstanceAs (Decidable True)

/-- The law of the tables, and a cache that agrees with them. -/
structure Fresh (os : Os) (pageTable : VmmEptPageTable) (s : GuestCpu Caller) : Prop where
  tabled : s.machine.Tabled os pageTable
  tlb : s.tlb.Agrees Translation.SameAccess (s.machine.translate os pageTable)

namespace Fresh

variable {os : Os} {kernelBaseInfo : KernelBaseInfo} {pageTable : VmmEptPageTable}
  {s s' : GuestCpu Caller}

/-- A step of the tables, with or without an INVEPT. -/
theorem of_tableStep (h : s.Fresh os pageTable) {pageTable' : VmmEptPageTable}
    {machine : Machine Caller} {invalidates : Bool}
    (hstep : Machine.TableStep os pageTable s.machine invalidates pageTable' machine) :
    ({ s with
        machine := machine
        tlb := if invalidates then Cache.empty else s.tlb } : GuestCpu Caller).Fresh os
      pageTable' := by
  refine ⟨hstep.toTabled, ?_⟩
  rcases hstep.access with hinvalidates | hsame
  · simp only [hinvalidates, if_true]
    exact Cache.agrees_empty
  · cases invalidates
    · exact h.tlb.of_table Translation.SameAccess.trans hsame
    · exact Cache.agrees_empty

theorem exit (h : s.Fresh os pageTable) {exit : VmExit}
    (hexit : s.exit os kernelBaseInfo exit = some s') (hguard : s.machine.KeepsTable os exit) :
    ∃ pageTable', s'.Fresh os pageTable' := by
  obtain ⟨machine, hstep, rfl⟩ := Option.map_eq_some_iff.mp hexit
  obtain ⟨pageTable', htable⟩ := Machine.exitStep_tabled h.tabled s.eptPointer hguard hstep
  exact ⟨pageTable', h.of_tableStep htable⟩

theorem withRip (h : s.Fresh os pageTable) (guestRip : Option Word) :
    ({ s with guestRip := guestRip } : GuestCpu Caller).Fresh os pageTable :=
  ⟨h.tabled, h.tlb⟩

theorem evict (h : s.Fresh os pageTable) (page : Word) :
    ({ s with tlb := s.tlb.evict page } : GuestCpu Caller).Fresh os pageTable :=
  ⟨h.tabled, h.tlb.evict page⟩

end Fresh

theorem step_fresh {os : Os} {kernelBaseInfo : KernelBaseInfo} {pageTable : VmmEptPageTable}
    {s s' : GuestCpu Caller} (h : s.Fresh os pageTable) {action : GuestAction Caller}
    (hguard : s.KeepsTable os action) (hstep : s.step os kernelBaseInfo action = some s') :
    ∃ pageTable', s'.Fresh os pageTable' := by
  cases action with
  | fetch guestRip =>
    simp only [step] at hstep
    split at hstep
    · obtain rfl := Option.some.inj hstep
      exact ⟨pageTable, h.withRip _⟩
    · simp at hstep
  | access access =>
    obtain ⟨guestRip, _, hstep⟩ := Option.bind_eq_some_iff.mp hstep
    obtain ⟨t, _, hstep⟩ := Option.bind_eq_some_iff.mp hstep
    split at hstep
    · obtain rfl := Option.some.inj hstep
      exact ⟨pageTable, h⟩
    · obtain ⟨s1, hexit, rfl⟩ := Option.map_eq_some_iff.mp hstep
      obtain ⟨pageTable', h1⟩ := (h.evict _).exit hexit trivial
      exact ⟨pageTable', h1.withRip _⟩
  | retire =>
    obtain ⟨guestRip, _, hstep⟩ := Option.bind_eq_some_iff.mp hstep
    obtain ⟨s1, hexit, rfl⟩ := Option.map_eq_some_iff.mp hstep
    split at hexit
    · obtain ⟨pageTable', h1⟩ := h.exit hexit trivial
      exact ⟨pageTable', h1.withRip _⟩
    · obtain rfl := Option.some.inj hexit
      exact ⟨pageTable, h.withRip _⟩
  | vmcall vmcallNumber optionalParam1 optionalParam2 =>
    obtain ⟨guestRip, _, hstep⟩ := Option.bind_eq_some_iff.mp hstep
    obtain ⟨s1, hexit, rfl⟩ := Option.map_eq_some_iff.mp hstep
    obtain ⟨pageTable', h1⟩ := h.exit hexit hguard
    exact ⟨pageTable', h1.withRip _⟩
  | cache guestPhysicalAddr =>
    simp only [step] at hstep
    split at hstep
    · obtain ⟨table, htable, rfl⟩ := Option.map_eq_some_iff.mp hstep
      obtain rfl := Option.some.inj (h.tabled.coherent.pageTable_eq.symm.trans htable)
      exact ⟨pageTable, h.tabled, h.tlb.fill (Translation.SameAccess.refl _)⟩
    · simp at hstep
  | evict guestPhysicalAddr =>
    obtain rfl := Option.some.inj hstep
    exact ⟨pageTable, h.evict _⟩
  | others action =>
    obtain ⟨machine, hothers, rfl⟩ := Option.map_eq_some_iff.mp hstep
    have hext := h.tabled.coherent.othersStep hothers
    exact ⟨pageTable, h.of_tableStep (h.tabled.extend hext false)⟩

/-- Whatever the guest accesses, and whatever the processor caches and drops, no access
goes through a frame or rights that the page table does not have. -/
theorem no_stale_translation {os : Os} {kernelBaseInfo : KernelBaseInfo}
    {pageTable : VmmEptPageTable} {s s' : GuestCpu Caller} {actions : List (GuestAction Caller)}
    (hstart : Machine.Started os pageTable s.machine) (hidle : s.machine.guest.hookedPage = none)
    (hempty : s.tlb = Cache.empty)
    (hrun : GuardedRun (step os kernelBaseInfo) (KeepsTable os) s actions s') :
    ∀ x : Word, x.toNat < 2 ^ 39 → ∃ t u, s'.translation os x = some t ∧
      s'.machine.translation os x = some u ∧ t.SameAccess u := by
  have hreached : ∃ pageTable', s'.Fresh os pageTable' := by
    refine GuardedRun.invariant (I := fun s => ∃ pageTable', s.Fresh os pageTable') ?_ hrun
      ⟨pageTable, ⟨hstart.coherent, by simp [hidle]⟩, hempty ▸ Cache.agrees_empty⟩
    intro s action s' hinv hguard hstep
    obtain ⟨pageTable', h⟩ := hinv
    exact step_fresh h hguard hstep
  obtain ⟨pageTable', h⟩ := hreached
  intro x hx
  have htable := h.tabled.coherent.pageTable_eq
  obtain ⟨hkey, hindex⟩ := pageAlign_key x
  have hwalk : s'.machine.translate os pageTable' (pageAlign x) =
      s'.machine.translate os pageTable' x := by
    simp only [Machine.translate, walk, hkey, hindex]
  refine ⟨s'.tlb.lookup (s'.machine.translate os pageTable') (pageAlign x),
    s'.machine.translate os pageTable' x, ?_, ?_, ?_⟩
  · rw [translation, if_neg (Nat.not_le.mpr hx), htable, Option.map_some]
  · rw [Machine.translation, htable, Option.map_some]
  · rw [← hwalk]
    exact h.tlb.lookup Translation.SameAccess.refl _

/-- A launched processor that has cached nothing yet. -/
def flatCpu (paging hooks : ℕ) : GuestCpu Unit where
  machine := Machine.flatMachine paging hooks
  eptPointer := 0x101E#64
  tlb := Cache.empty
  guestRip := none

def writeAccess (address : Word) : GuestAccess := ⟨address, address, false, true, false, false, 0⟩

/-- A page is cached, hooked, written to by the kernel and unhooked. -/
theorem no_stale_translation_hook : ∃ t u,
    (execute (step flatOs Machine.flatKernel) (flatCpu 1 1) [.cache 0x200010#64, .fetch 0x1000#64,
      .vmcall 3 0x200000#64 1, .cache 0x200000#64, .fetch 0xFFFFF80000001000#64,
      .access (writeAccess 0x200018#64), .cache 0x200000#64, .retire, .fetch 0x1003#64,
      .vmcall 6 0x200000#64 0]).translation flatOs 0x200010#64 = some t ∧
    (execute (step flatOs Machine.flatKernel) (flatCpu 1 1) [.cache 0x200010#64, .fetch 0x1000#64,
      .vmcall 3 0x200000#64 1, .cache 0x200000#64, .fetch 0xFFFFF80000001000#64,
      .access (writeAccess 0x200018#64), .cache 0x200000#64, .retire, .fetch 0x1003#64,
      .vmcall 6 0x200000#64 0]).machine.translation flatOs 0x200010#64 = some u ∧
    t.SameAccess u :=
  no_stale_translation (Machine.flatMachine_started 1 1) rfl rfl
    (guardedRun_of_allowed (by decide +kernel)) 0x200010#64 (by decide)

end GuestCpu

end NovaHypervisor

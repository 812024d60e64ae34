import NovaHypervisor.ExitRuns

/-!
The leaf of a hooked page between exits. An allowed violation puts the original
entry back and arms the monitor trap flag, whose exit puts the changed entry back.
The guest state has room for one record, so the protection comes back as long as
no violation of another page is allowed in between.
-/
namespace NovaHypervisor

open General

namespace Machine

variable {Caller : Type*}

/-- A violation opens a page only while no record, or that of the page, is pending. -/
def SlotFree (kernelBaseInfo : KernelBaseInfo) (m : Machine Caller) : ExitAction Caller → Prop
  | .exit (.eptViolation exitQualification guestPhysicalAddr _ guestRip) =>
    m.opened kernelBaseInfo exitQualification guestPhysicalAddr guestRip = none ∨
      m.guest.hookedPage = none ∨
      m.guest.hookedPage = m.opened kernelBaseInfo exitQualification guestPhysicalAddr guestRip
  | _ => True

instance (kernelBaseInfo : KernelBaseInfo) (m : Machine Caller) :
    (action : ExitAction Caller) → Decidable (m.SlotFree kernelBaseInfo action)
  | .exit (.eptViolation _ _ _ _) => inferInstanceAs (Decidable (_ ∨ _ ∨ _))
  | .exit .monitorTrapFlag => inferInstanceAs (Decidable True)
  | .exit (.vmcall _ _ _) => inferInstanceAs (Decidable True)
  | .others _ => inferInstanceAs (Decidable True)

/-- An exit of the two kinds that a guest's memory accesses raise, or a pool step. -/
def MemoryAccess : ExitAction Caller → Prop
  | .exit (.vmcall _ _ _) => False
  | _ => True

instance : (action : ExitAction Caller) → Decidable (MemoryAccess action)
  | .exit (.eptViolation _ _ _ _) => inferInstanceAs (Decidable True)
  | .exit .monitorTrapFlag => inferInstanceAs (Decidable True)
  | .exit (.vmcall _ _ _) => inferInstanceAs (Decidable False)
  | .others _ => inferInstanceAs (Decidable True)

variable [DecidableEq Caller]

/-- Distinct records are about distinct physical pages. -/
def DistinctPages (m : Machine Caller) : Prop :=
  ∀ r ∈ m.ept.hookedPages, ∀ q ∈ m.ept.hookedPages,
    (m.detail r).physicalBaseAddress = (m.detail q).physicalBaseAddress → r = q

/-- While the flag is clear, the live leaf of every hooked page is its changed entry. -/
def Rearmed (os : Os) (m : Machine Caller) : Prop :=
  m.guest.monitorTrapFlag = false → ∃ pageTable, m.ept.eptPageTable = some pageTable ∧
    ∀ r ∈ m.ept.hookedPages,
      m.leaf os pageTable (m.detail r).physicalAddress = (m.detail r).changedEntry

/-- Every page but the pending one is protected, and a page is pending while the flag is set. -/
structure Protected (os : Os) (pageTable : VmmEptPageTable) (m : Machine Caller) : Prop where
  coherent : m.Coherent os pageTable
  distinct : m.DistinctPages
  listed : ∀ r ∈ m.guest.hookedPage, r ∈ m.ept.hookedPages
  armed : ∀ r ∈ m.ept.hookedPages, m.guest.hookedPage ≠ some r →
    m.leaf os pageTable (m.detail r).physicalAddress = (m.detail r).changedEntry
  flag : m.guest.monitorTrapFlag = m.guest.hookedPage.isSome

namespace Protected

variable {os : Os} {pageTable : VmmEptPageTable} {m m' : Machine Caller}

theorem not_samePage (h : m.Protected os pageTable) {r q : Pvoid}
    (hr : r ∈ m.ept.hookedPages) (hq : q ∈ m.ept.hookedPages) (hne : q ≠ r) :
    ¬ SamePage (m.detail q).physicalAddress (m.detail r).physicalAddress := by
  intro hsame
  obtain ⟨hkey, hindex⟩ := hsame
  have hrecord := h.coherent.record r hr
  have hrecord' := h.coherent.record q hq
  have hframe := frame_injective hrecord'.low hrecord.low hkey hindex
  refine hne (h.distinct q hq r hr ?_)
  rw [hrecord'.base, hrecord.base]
  apply BitVec.eq_of_toNat_eq
  rw [toNat_pageAlign, toNat_pageAlign, hframe]

/-- A new guest state with the same pending record and the same flag. -/
theorem withGuest (h : m.Protected os pageTable) {guest : VmState}
    (hpending : guest.hookedPage = m.guest.hookedPage)
    (hflag : guest.monitorTrapFlag = m.guest.monitorTrapFlag) :
    ({ m with guest := guest } : Machine Caller).Protected os pageTable := by
  refine ⟨h.coherent.withGuest guest, h.distinct, ?_, ?_, ?_⟩
  · exact hpending ▸ h.listed
  · intro r hr hne
    exact h.armed r hr (hpending ▸ hne)
  · exact hflag.trans (h.flag.trans (congrArg Option.isSome hpending.symm))

/-- The leaf of one record's page is set, and the guest's slot and flag are changed. -/
theorem setRecord (h : m.Protected os pageTable) {r : Pvoid} (hr : r ∈ m.ept.hookedPages)
    {value : Word} (hvalue : (Epte.pageFrameNumber.get value).toNat =
      (m.detail r).physicalAddress.toNat / 4096) {guest : VmState}
    (hflag : guest.monitorTrapFlag = guest.hookedPage.isSome)
    (hlisted : ∀ q ∈ guest.hookedPage, q ∈ m.ept.hookedPages)
    (hself : guest.hookedPage ≠ some r → value = (m.detail r).changedEntry)
    (hother : ∀ q, q ≠ r → guest.hookedPage ≠ some q → m.guest.hookedPage ≠ some q) :
    ({ m.setPml1 (m.detail r).entryAddress value with guest := guest } :
      Machine Caller).Protected os pageTable := by
  have hrecord := h.coherent.record r hr
  have hset := h.coherent.leafSet hrecord.split value
  have hcoherent : (m.setPml1 (leafPointer os pageTable (m.detail r).physicalAddress)
      value).Coherent os pageTable :=
    h.coherent.setPml1 hrecord.split _ (by rw [hvalue, frame_eq hrecord.low])
  have hdetail : ∀ q ∈ m.ept.hookedPages,
      (m.setPml1 (leafPointer os pageTable (m.detail r).physicalAddress) value).detail q =
        m.detail q := fun q _ => detail_setPml1 m _ q value
  rw [hrecord.entry]
  refine ⟨hcoherent.withGuest guest, ?_, hlisted, ?_, hflag⟩
  · intro q hq q' hq' heq
    refine h.distinct q hq q' hq' ?_
    rw [← hdetail q hq, ← hdetail q' hq']
    exact heq
  · intro q hq hne
    change (m.setPml1 _ value).leaf os pageTable ((m.setPml1 _ value).detail q).physicalAddress =
      ((m.setPml1 _ value).detail q).changedEntry
    rw [hdetail q hq]
    by_cases hqr : q = r
    · subst hqr
      exact hset.leaf.trans (hself hne)
    · have hleaf := hset.other _ (h.coherent.record q hq).split (h.not_samePage hr hq hqr)
      exact hleaf.trans (h.armed q hq (hother q hqr hne))

theorem openPage (h : m.Protected os pageTable) {r : Pvoid} (hr : r ∈ m.ept.hookedPages)
    (hfree : m.guest.hookedPage = none ∨ m.guest.hookedPage = some r) :
    (m.openPage r).Protected os pageTable := by
  refine h.setRecord hr (h.coherent.record r hr).original ?_ ?_ ?_ ?_
  · rw [VmState.monitorTrapFlag_set]
    rfl
  · intro q hq
    obtain rfl : r = q := Option.some.inj hq
    exact hr
  · intro hne
    exact absurd rfl hne
  · intro q hqr _ hpending
    rcases hfree with hnone | hsame
    · rw [hnone] at hpending
      simp at hpending
    · rw [hsame] at hpending
      exact hqr (Option.some.inj hpending).symm

theorem monitorTrapFlagExit (h : m.Protected os pageTable)
    (hexit : m.monitorTrapFlagExit = some m') : m'.Protected os pageTable := by
  rcases monitorTrapFlagExit_ends hexit with ⟨hpending, rfl⟩ | ⟨r, hpending, rfl⟩
  · refine h.withGuest ?_ ?_
    · rfl
    · rw [VmState.monitorTrapFlag_set, h.flag, hpending]
      rfl
  · have hr := h.listed r hpending
    refine h.setRecord hr (h.coherent.record r hr).changed ?_ ?_ (fun _ => rfl) ?_
    · rw [VmState.monitorTrapFlag_set]
      rfl
    · simp [VmState.setMonitorTrapFlag]
    · intro q hqr _ hq
      rw [hpending] at hq
      exact hqr (Option.some.inj hq).symm

theorem extend (h : m.Protected os pageTable) {pageTable' : VmmEptPageTable}
    (hext : Extends os pageTable m pageTable' m') : m'.Protected os pageTable' := by
  refine ⟨hext.coherent, ?_, ?_, ?_, ?_⟩
  · intro r hr q hq heq
    rw [hext.hookedPages] at hr hq
    rw [hext.detail r hr, hext.detail q hq] at heq
    exact h.distinct r hr q hq heq
  · rw [hext.guest, hext.hookedPages]
    exact h.listed
  · intro r hr hne
    rw [hext.hookedPages] at hr
    rw [hext.guest] at hne
    rw [hext.detail r hr, hext.leaf_eq (h.coherent.record r hr).split]
    exact h.armed r hr hne
  · rw [hext.guest]
    exact h.flag

theorem rearmed (h : m.Protected os pageTable) : m.Rearmed os := by
  intro hclear
  have hidle : m.guest.hookedPage = none := by
    rw [h.flag] at hclear
    exact Option.isSome_eq_false_iff.mp hclear |> Option.isNone_iff_eq_none.mp
  refine ⟨pageTable, h.coherent.pageTable_eq, fun r hr => h.armed r hr ?_⟩
  rw [hidle]
  simp

/-- A hook of a physical page that no record is about. -/
theorem hook (h : m.Protected os pageTable) {targetFunc : Pvoid} {permissions : BitVec 8}
    {status : Bool} (hnot : m.recordDenied os targetFunc permissions = false)
    (hfresh : ∀ r ∈ m.ept.hookedPages,
      (m.detail r).physicalBaseAddress ≠ pageAlign (hookAddress os targetFunc))
    (hcall : m.rootModePageHook os targetFunc permissions = some (status, m')) :
    ∃ pageTable', m'.Protected os pageTable' := by
  rcases rootModePageHook_returned h.coherent hcall with
    hdone | ⟨hdenied, _⟩ | ⟨_, a, pageTable', m1, r, hhooked⟩
  · exact ⟨pageTable, h.extend hdone.toExtends⟩
  · rw [hnot] at hdenied
    exact absurd hdenied (by simp)
  have h1 := h.extend hhooked.toExtends
  have hinstalled := hhooked.installed
  have hr : m'.detail r = _ := hinstalled.record
  have hrm1 : r ∉ m1.ept.hookedPages := hhooked.hookedPages ▸ hhooked.fresh
  have hbase : ∀ q ∈ m1.ept.hookedPages, (m'.detail q).physicalBaseAddress ≠
      (m'.detail r).physicalBaseAddress := by
    intro q hq
    rw [hinstalled.detail q hq, hr]
    rw [hhooked.hookedPages] at hq
    rw [hhooked.detail q hq]
    exact hfresh q hq
  refine ⟨pageTable', hinstalled.coherent, ?_, ?_, ?_, ?_⟩
  · intro q hq q' hq' heq
    rw [hinstalled.hookedPages] at hq hq'
    rcases List.mem_cons.mp hq with hqr | hold
    · rcases List.mem_cons.mp hq' with hqr' | hold'
      · rw [hqr, hqr']
      · rw [hqr] at heq
        exact absurd heq.symm (hbase q' hold')
    · rcases List.mem_cons.mp hq' with hqr' | hold'
      · rw [hqr'] at heq
        exact absurd heq (hbase q hold)
      · rw [hinstalled.detail q hold, hinstalled.detail q' hold'] at heq
        exact h1.distinct q hold q' hold' heq
  · intro q hq
    rw [hinstalled.guest] at hq
    rw [hinstalled.hookedPages]
    exact List.mem_cons_of_mem r (h1.listed q hq)
  · intro q hq hne
    rw [hinstalled.hookedPages] at hq
    rw [hinstalled.guest] at hne
    rcases List.mem_cons.mp hq with rfl | hq
    · rw [hr]
      exact hinstalled.leafSet.leaf
    · have hrecord := h1.coherent.record q hq
      have hpage : ¬ SamePage (m1.detail q).physicalAddress (hookAddress os targetFunc) := by
        intro hsame
        obtain ⟨hkey, hindex⟩ := hsame
        have hframe := frame_injective hrecord.low hhooked.low hkey hindex
        refine hbase q hq ?_
        rw [hinstalled.detail q hq, hr, hrecord.base]
        apply BitVec.eq_of_toNat_eq
        change _ = (pageAlign (hookAddress os targetFunc)).toNat
        rw [toNat_pageAlign, toNat_pageAlign, hframe]
      rw [hinstalled.detail q hq, hinstalled.leafSet.other _ hrecord.split hpage]
      exact h1.armed q hq hne
  · rw [hinstalled.guest]
    exact h1.flag

end Protected

/-- A hook is not denied and is of a physical page that no record is about. -/
def FreshPage (os : Os) (m : Machine Caller) : HookAction Caller → Prop
  | .hook targetFunc permissions => m.recordDenied os targetFunc permissions = false ∧
      ∀ r ∈ m.ept.hookedPages,
        (m.detail r).physicalBaseAddress ≠ pageAlign (hookAddress os targetFunc)
  | .unhook _ => False
  | .unhookAll => False
  | _ => True

instance (os : Os) (m : Machine Caller) :
    (action : HookAction Caller) → Decidable (m.FreshPage os action)
  | .hook _ _ => @instDecidableAnd _ _ (inferInstanceAs (Decidable (_ = _)))
      (List.decidableBAll _ _)
  | .unhook _ => inferInstanceAs (Decidable False)
  | .unhookAll => inferInstanceAs (Decidable False)
  | .others _ => inferInstanceAs (Decidable True)
  | .guest _ _ => inferInstanceAs (Decidable True)

theorem FreshPage.notDenied {os : Os} {m : Machine Caller} {action : HookAction Caller}
    (h : m.FreshPage os action) : m.NotDenied os action := by
  cases action with
  | hook => exact h.1
  | _ => trivial

/-- Hooking any physical pages, each once, protects them all. -/
theorem protected_of_hooks {os : Os} {pageTable : VmmEptPageTable} {m m' : Machine Caller}
    {hooks : List (HookAction Caller)} (hstart : Started os pageTable m)
    (hidle : m.guest.hookedPage = none) (hclear : m.guest.monitorTrapFlag = false)
    (hrun : GuardedRun (hookStep os) (FreshPage os) m hooks m') :
    ∃ pageTable', m'.Protected os pageTable' := by
  refine GuardedRun.invariant (I := fun s => ∃ pageTable', s.Protected os pageTable') ?_ hrun ?_
  · intro s action s' hinv hguard hstep
    obtain ⟨pageTable', h⟩ := hinv
    cases action with
    | hook targetFunc permissions =>
      obtain ⟨hnot, hfresh⟩ := hguard
      simp only [hookStep, Option.map_eq_some_iff] at hstep
      obtain ⟨⟨status, s1⟩, hcall, rfl⟩ := hstep
      exact h.hook hnot hfresh hcall
    | unhook => exact hguard.elim
    | unhookAll => exact hguard.elim
    | others action => exact ⟨pageTable', h.extend (h.coherent.othersStep hstep)⟩
    | guest isOnVmxRoot isLaunched =>
      obtain rfl := Option.some.inj hstep
      exact ⟨pageTable', h.withGuest rfl rfl⟩
  · have hlist := hstart.hookedPages
    refine ⟨pageTable, hstart.coherent, ?_, ?_, ?_, ?_⟩
    · simp [DistinctPages, hlist]
    · simp [hidle]
    · simp [hlist]
    · rw [hclear, hidle]
      rfl

/-- An exit of a memory access, or a pool step, keeps the protection while the slot is free. -/
theorem exitStep_protected {os : Os} {kernelBaseInfo : KernelBaseInfo}
    {pageTable : VmmEptPageTable} {m m' : Machine Caller} (h : m.Protected os pageTable)
    {action : ExitAction Caller} (haccess : MemoryAccess action)
    (hfree : m.SlotFree kernelBaseInfo action)
    (hstep : m.exitStep os kernelBaseInfo action = some m') : m'.Protected os pageTable := by
  have henter : m.enterRoot.Protected os pageTable := h.withGuest rfl rfl
  cases exitStep_cases hstep with
  | eptViolation exitQualification guestPhysicalAddr guestLinearAddress guestRip =>
    rcases handlePageHookExit_ends m.enterRoot kernelBaseInfo exitQualification
      guestPhysicalAddr guestLinearAddress guestRip with
      ⟨_, injection, hresult⟩ | ⟨r, hr, hopened, hresult⟩
    · simp only [hresult]
      exact henter.withGuest rfl rfl
    · have hpending : m.guest.hookedPage = none ∨ m.guest.hookedPage = some r := by
        rcases hfree with hnone | hidle | hsame
        · exact absurd (hopened.symm.trans hnone) (by simp)
        · exact Or.inl hidle
        · exact Or.inr (hsame.trans hopened)
      simp only [hresult]
      exact (henter.openPage hr hpending).withGuest rfl rfl
  | monitorTrapFlag hexit => exact (henter.monitorTrapFlagExit hexit).withGuest rfl rfl
  | vmcall => exact haccess.elim
  | others hstep => exact h.extend (h.coherent.othersStep hstep)

/-- From any reachable state with protected pages that are pairwise distinct, the
protection comes back after every single step, as long as no violation of a page is
allowed while the record of another one is pending. -/
theorem rearmed_of_run {os : Os} {kernelBaseInfo : KernelBaseInfo} {pageTable : VmmEptPageTable}
    {m0 m m' : Machine Caller} {hooks : List (HookAction Caller)}
    {actions : List (ExitAction Caller)} (hstart : Started os pageTable m0)
    (hhooks : GuardedRun (hookStep os) (NotDenied os) m0 hooks m) (hdistinct : m.DistinctPages)
    (hidle : m.guest.hookedPage = none) (hclear : m.guest.monitorTrapFlag = false)
    (harmed : m.Rearmed os)
    (hrun : GuardedRun (exitStep os kernelBaseInfo)
      (fun s action => MemoryAccess action ∧ s.SlotFree kernelBaseInfo action) m actions m') :
    m'.Rearmed os := by
  obtain ⟨pageTable', hcoherent⟩ := coherent_of_run hstart hhooks
  obtain ⟨table, htable, hleaves⟩ := harmed hclear
  obtain rfl : pageTable' = table := Option.some.inj (hcoherent.pageTable_eq.symm.trans htable)
  have hprotected : m.Protected os pageTable' := by
    refine ⟨hcoherent, hdistinct, by simp [hidle], fun r hr _ => hleaves r hr, ?_⟩
    rw [hclear, hidle]
    rfl
  have hreached := GuardedRun.invariant (I := fun s => s.Protected os pageTable')
    (fun s action s' h hguard hstep => exitStep_protected h hguard.1 hguard.2 hstep) hrun
    hprotected
  exact hreached.rearmed

/-- Two hooked pages. -/
def twoHooks : Machine Unit :=
  execute (hookStep flatOs) (flatMachine 2 2) [.hook 0x200000#64 1, .hook 0x201000#64 1]

theorem twoHooks_run : GuardedRun (hookStep flatOs) (FreshPage flatOs) (flatMachine 2 2)
    [.hook 0x200000#64 1, .hook 0x201000#64 1] twoHooks :=
  guardedRun_of_allowed (by decide +kernel)

theorem twoHooks_protected : twoHooks.DistinctPages ∧ twoHooks.Rearmed flatOs := by
  obtain ⟨pageTable, h⟩ := protected_of_hooks (flatMachine_started 2 2) rfl (by decide) twoHooks_run
  exact ⟨h.distinct, h.rearmed⟩

/-- Each of the two pages is written to and single-stepped. -/
theorem rearmed_of_run_two : (execute (exitStep flatOs flatKernel) twoHooks
    [.exit (kernelWrite 0x200000#64), .exit .monitorTrapFlag, .others .processFree,
      .exit (kernelWrite 0x201000#64), .exit .monitorTrapFlag]).Rearmed flatOs :=
  rearmed_of_run (flatMachine_started 2 2) (twoHooks_run.mono fun _ _ h => h.notDenied)
    twoHooks_protected.1 (by decide +kernel) (by decide +kernel) twoHooks_protected.2
    (guardedRun_of_allowed (by decide +kernel))

/-- One instruction has written to both pages, and was single-stepped after that. -/
def twoWrites : Machine Unit :=
  execute (exitStep flatOs flatKernel) twoHooks [.exit (kernelWrite 0x200000#64),
    .exit (kernelWrite 0x201000#64), .exit .monitorTrapFlag]

theorem twoWrites_run : GuardedRun (exitStep flatOs flatKernel)
    (fun _ action => MemoryAccess action) twoHooks [.exit (kernelWrite 0x200000#64),
      .exit (kernelWrite 0x201000#64), .exit .monitorTrapFlag] twoWrites :=
  guardedRun_of_allowed (by decide +kernel)

/-- Only the page that was written to last is protected again. -/
theorem not_rearmed_of_two :
    ¬ ∀ (os : Os) (kernelBaseInfo : KernelBaseInfo) (pageTable : VmmEptPageTable)
      (m0 m m' : Machine Unit) (hooks : List (HookAction Unit))
      (actions : List (ExitAction Unit)), Started os pageTable m0 →
        GuardedRun (hookStep os) (NotDenied os) m0 hooks m → m.DistinctPages →
        m.guest.hookedPage = none → m.guest.monitorTrapFlag = false → m.Rearmed os →
        GuardedRun (exitStep os kernelBaseInfo) (fun _ action => MemoryAccess action)
          m actions m' → m'.Rearmed os := by
  intro h
  have hrearmed := h flatOs flatKernel flatTable _ _ _ _ _ (flatMachine_started 2 2)
    (twoHooks_run.mono fun _ _ h => h.notDenied) twoHooks_protected.1 (by decide +kernel)
    (by decide +kernel) twoHooks_protected.2 twoWrites_run
  obtain ⟨pageTable, htable, hleaf⟩ := hrearmed (by decide +kernel)
  have hclosed := hleaf 0x20000#64 (by decide +kernel)
  have hopen : (twoWrites.ept.eptPageTable.map fun pageTable =>
      twoWrites.leaf flatOs pageTable (twoWrites.detail 0x20000#64).physicalAddress) =
        some (twoWrites.detail 0x20000#64).originalEntry := by decide +kernel
  rw [htable, Option.map_some, hclosed] at hopen
  exact absurd hopen (by decide +kernel)

end Machine

end NovaHypervisor

import NovaHypervisor.Alias
import NovaHypervisor.ExitRuns
import NovaHypervisor.HookMap

/-!
Hooks of a page that has a record. Such a call returns true before it looks at the leaf,
so the record and the leaf stay those of the first call's permissions. A log keeps, for
each page, what the call that made its record found and was asked for.
-/
namespace NovaHypervisor

open General

/-- What a hook that adds a record reads from the leaf, before and after the allocation of
the record, and the permissions that it is called with. -/
structure FirstHook where
  readEntry : Word
  originalEntry : Word
  permissions : BitVec 8

/-- Of the permissions, a changed entry has the read right only. -/
theorem changeAccess_eq_iff (flags : Word) (permissions other : BitVec 8) :
    changeAccess flags permissions = changeAccess flags other ↔
      permissions &&& eptPageRead = other &&& eptPageRead := by
  have hread := (changeAccess_access flags permissions).1
  have hread' := (changeAccess_access flags other).1
  refine ⟨?_, ?_⟩
  · intro heq
    rw [heq, hread'] at hread
    have hlow := congrArg (BitVec.setWidth 8) hread
    rw [BitVec.setWidth_setWidth_of_le _ (by decide),
      BitVec.setWidth_setWidth_of_le _ (by decide)] at hlow
    exact hlow.symm
  · intro heq
    refine eq_of_readOnly (changeAccess_readOnly flags permissions)
      (changeAccess_readOnly flags other) ?_ ?_
    · rw [hread, hread', heq]
    · intro i hi
      rw [changeAccess_other flags permissions hi, changeAccess_other flags other hi]

namespace Machine

variable {Caller : Type*} [DecidableEq Caller]

def firstHook (os : Os) (targetFunc : Pvoid) (permissions : BitVec 8) (m : Machine Caller) :
    Option FirstHook :=
  match m.prepareHook os targetFunc permissions with
  | some (.ready _ pml1Entry _, m) =>
    let readEntry := m.pml1 pml1Entry
    match m.allocate os .eptHookPage with
    | (some _, m) => some ⟨readEntry, m.pml1 pml1Entry, permissions⟩
    | (none, _) => none
  | _ => none

/-- While every table in use is this processor's own, both reads find the leaf from before
the call, or the one that splitting the large page makes. -/
theorem Coherent.firstHook {os : Os} {pageTable : VmmEptPageTable} {m : Machine Caller}
    (h : m.Coherent os pageTable) {targetFunc : Pvoid} {permissions : BitVec 8}
    {first : FirstHook} (hfirst : m.firstHook os targetFunc permissions = some first) :
    first.readEntry = m.leafBefore os pageTable (hookAddress os targetFunc) ∧
      first.originalEntry = m.leafBefore os pageTable (hookAddress os targetFunc) := by
  rw [Machine.firstHook] at hfirst
  rcases prepareHook_cases h targetFunc permissions with
    ⟨status, m1, hprep, _⟩ | ⟨a, pageTable', m1, hprep, hready⟩
  · simp [hprep] at hfirst
  · rw [hprep] at hfirst
    dsimp only at hfirst
    rcases halloc : m1.allocate os .eptHookPage with ⟨_ | r, m2⟩
    · simp [halloc] at hfirst
    · rw [halloc] at hfirst
      obtain rfl := Option.some.inj hfirst
      obtain ⟨hext, _⟩ := hready.coherent.allocated halloc
      exact ⟨hready.leaf, (hext.leaf_eq hready.wired).trans hready.leaf⟩

/-- The page that an action hooks for the first time. -/
def firstHookOf (os : Os) (m : Machine Caller) : ExitAction Caller → Option (Word × FirstHook)
  | .exit (.vmcall vmcallNumber optionalParam1 optionalParam2) =>
    if vmcallNumber.toNat = 3 ∧ optionalParam1 ≠ 0 then
      (m.enterRoot.firstHook os optionalParam1 (optionalParam2.setWidth 8)).map fun first =>
        (pageAlign optionalParam1, first)
    else none
  | _ => none

/-- An exit or a step of another party, with the log of the first hooks. -/
def protectStep (os : Os) (kernelBaseInfo : KernelBaseInfo)
    (s : Machine Caller × (Word → Option FirstHook)) (action : ExitAction Caller) :
    Option (Machine Caller × (Word → Option FirstHook)) :=
  (s.1.exitStep os kernelBaseInfo action).map fun m =>
    (m, match s.1.firstHookOf os action with
      | some (page, first) => Function.update s.2 page (some first)
      | none => s.2)

/-- A record is what the first hook of its page made. -/
def RecordOf (m : Machine Caller) (log : Word → Option FirstHook) (r : Pvoid) : Prop :=
  ∃ first, log (m.detail r).virtualAddress = some first ∧
    (m.detail r).originalEntry = first.originalEntry ∧
    (m.detail r).changedEntry = changeAccess first.readEntry first.permissions

structure Remembered (os : Os) (s : Machine Caller × (Word → Option FirstHook)) : Prop where
  listed : s.1.Listed os
  record : ∀ r ∈ s.1.ept.hookedPages, s.1.RecordOf s.2 r

theorem not_mem_pages_of_ready {os : Os} {m m1 : Machine Caller} {targetFunc : Pvoid}
    {permissions : BitVec 8} {a : Pvoid} {entry : PeptPml1Entry} {changedEntry : Word}
    (hprep : m.prepareHook os targetFunc permissions = some (.ready a entry changedEntry, m1)) :
    pageAlign targetFunc ∉ m.pages := by
  intro hpage
  have hexists := (isHookExists_iff_mem_pages m targetFunc).mpr hpage
  rw [prepareHook] at hprep
  split at hprep
  · simp at hprep
  split at hprep
  · simp at hprep
  simp [hexists] at hprep

structure FirstHooked (targetFunc r : Pvoid) (first : FirstHook) (m m' : Machine Caller) :
    Prop where
  fresh : pageAlign targetFunc ∉ m.pages
  hookedPages : m'.ept.hookedPages = r :: m.ept.hookedPages
  detail : ∀ q ∈ m.ept.hookedPages, m'.detail q = m.detail q
  virtualAddress : (m'.detail r).virtualAddress = pageAlign targetFunc
  originalEntry : (m'.detail r).originalEntry = first.originalEntry
  changedEntry : (m'.detail r).changedEntry = changeAccess first.readEntry first.permissions

/-- A hook leaves the records alone, or adds the one that `firstHook` describes. -/
theorem Listed.rootModePageHook_firstHook {os : Os} {m m' : Machine Caller} (h : m.Listed os)
    {targetFunc : Pvoid} {permissions : BitVec 8} {status : Bool}
    (hcall : m.rootModePageHook os targetFunc permissions = some (status, m')) :
    (m.firstHook os targetFunc permissions = none ∧ SameRecords m m') ∨
    ∃ first r, m.firstHook os targetFunc permissions = some first ∧
      FirstHooked targetFunc r first m m' := by
  rw [firstHook]
  rcases rootModePageHook_ends hcall with hprep | ⟨a, entry, changedEntry, m1, hprep, hend⟩
  · rw [hprep]
    exact Or.inl ⟨rfl, h.sameRecords_prepareHook hprep⟩
  have h1 := (h.prepareHook hprep).1
  have hsame1 := h.sameRecords_prepareHook hprep
  have hfresh := not_mem_pages_of_ready hprep
  obtain ⟨_, _, _, _, hchanged⟩ := prepareHook_ready hprep
  rw [hprep]
  dsimp only
  rcases hend with ⟨m2, halloc, _, rfl⟩ | ⟨r, m2, halloc, _, rfl⟩
  · have h2 := (h1.allocate halloc).1
    rw [halloc]
    have hsame := (h1.sameRecords_allocate halloc).trans (h2.sameRecords_free a)
    exact Or.inl ⟨rfl, hsame1.trans hsame⟩
  · have hsame := hsame1.trans (h1.sameRecords_allocate halloc)
    obtain ⟨hpool, hept, _⟩ := allocate_some h1.safe halloc
    have hnew : r ∉ m2.ept.hookedPages := by
      rw [hept]
      exact fun hmem => hpool.fresh (h1.owned r hmem)
    have hhead := detail_installHook os m2 targetFunc entry changedEntry r
    have hne : ∀ q ∈ m2.ept.hookedPages, q ≠ r := fun q hq heq => hnew (heq ▸ hq)
    rw [halloc]
    refine Or.inr ⟨_, r, rfl, hfresh, ?_, ?_, ?_, ?_, ?_⟩
    · rw [← hsame.hookedPages]
      rfl
    · intro q hq
      rw [detail_installHook_of_ne os m2 targetFunc entry changedEntry
        (hne q (hsame.hookedPages ▸ hq)), hsame.detail q hq]
    · rw [hhead]
      rfl
    · rw [hhead]
      rfl
    · rw [hhead]
      exact hchanged

omit [DecidableEq Caller] in
/-- The log keeps what it says of the records that stay. -/
theorem RecordOf.keep {m m' : Machine Caller} {log : Word → Option FirstHook} {r : Pvoid}
    (h : m.RecordOf log r) (hdetail : m'.detail r = m.detail r) : m'.RecordOf log r := by
  rw [RecordOf, hdetail]
  exact h

/-- The records are among those that there were, with the same contents. -/
def Remains (m m' : Machine Caller) : Prop :=
  ∀ r ∈ m'.ept.hookedPages, r ∈ m.ept.hookedPages ∧ m'.detail r = m.detail r

omit [DecidableEq Caller] in
theorem SameRecords.remains {m m' : Machine Caller} (h : SameRecords m m') : Remains m m' := by
  intro r hr
  have hmem : r ∈ m.ept.hookedPages := h.hookedPages ▸ hr
  exact ⟨hmem, h.detail r hmem⟩

theorem Remembered.keep {os : Os} {m m' : Machine Caller} {log : Word → Option FirstHook}
    (h : Remembered os (m, log)) (hlisted : m'.Listed os) (hkept : Remains m m') :
    Remembered os (m', log) := by
  refine ⟨hlisted, fun r hr => ?_⟩
  obtain ⟨hmem, hdetail⟩ := hkept r hr
  exact (h.record r hmem).keep hdetail

theorem Remembered.firstHooked {os : Os} {m m' : Machine Caller} {log : Word → Option FirstHook}
    (h : Remembered os (m, log)) (hlisted : m'.Listed os) {targetFunc r : Pvoid}
    {first : FirstHook} (hhooked : FirstHooked targetFunc r first m m') :
    Remembered os (m', Function.update log (pageAlign targetFunc) (some first)) := by
  refine ⟨hlisted, fun q hq => ?_⟩
  have hmem : q ∈ r :: m.ept.hookedPages := hhooked.hookedPages ▸ hq
  rcases List.mem_cons.mp hmem with rfl | hold
  · refine ⟨first, ?_, hhooked.originalEntry, hhooked.changedEntry⟩
    rw [hhooked.virtualAddress]
    exact Function.update_self ..
  · obtain ⟨found, hfound, hrecord⟩ := h.record q hold
    have hother : (m.detail q).virtualAddress ≠ pageAlign targetFunc :=
      fun heq => hhooked.fresh (mem_pages.mpr ⟨q, hold, heq⟩)
    rw [RecordOf, hhooked.detail q hold]
    exact ⟨found, (Function.update_of_ne hother ..).trans hfound, hrecord⟩

namespace Listed

variable {os : Os} {m m' : Machine Caller}

omit [DecidableEq Caller] in
theorem remains_handlePageHookExit (m : Machine Caller) (kernelBaseInfo : KernelBaseInfo)
    (violationQualification guestPhysicalAddr guestLinearAddress guestRip : Word) :
    Remains m (m.handlePageHookExit kernelBaseInfo violationQualification guestPhysicalAddr
      guestLinearAddress guestRip).2 := by
  rcases handlePageHookExit_ends m kernelBaseInfo violationQualification guestPhysicalAddr
    guestLinearAddress guestRip with ⟨_, injection, hresult⟩ | ⟨r, _, _, hresult⟩
  · rw [hresult]
    exact fun q hq => ⟨hq, rfl⟩
  · rw [hresult]
    exact fun q hq => ⟨hq, detail_setPml1 m _ q _⟩

omit [DecidableEq Caller] in
theorem remains_monitorTrapFlagExit (hexit : m.monitorTrapFlagExit = some m') : Remains m m' := by
  rcases monitorTrapFlagExit_ends hexit with ⟨_, rfl⟩ | ⟨r, _, rfl⟩
  · exact fun q hq => ⟨hq, rfl⟩
  · exact fun q hq => ⟨hq, detail_setPml1 m _ q _⟩

theorem remains_releaseHook (h : m.Listed os) {r : Pvoid} (hr : r ∈ m.ept.hookedPages) :
    Remains m (m.releaseHook os r) := by
  intro q hq
  rw [(h.releaseHook hr).2] at hq
  obtain ⟨hne, hmem⟩ := (h.nodup.mem_erase_iff).mp hq
  exact ⟨hmem, h.releaseHook_detail hmem hne⟩

theorem remains_vmcallHandler (h : m.Listed os)
    {vmcallNumber optionalParam1 optionalParam2 : Word} {status : Ntstatus}
    (hnumber : ¬ (vmcallNumber.toNat = 3 ∧ optionalParam1 ≠ 0))
    (hcall : m.vmcallHandler os vmcallNumber optionalParam1 optionalParam2 =
      some (status, m')) : Remains m m' := by
  have hsame : Remains m m := fun q hq => ⟨hq, rfl⟩
  by_cases hhook : vmcallNumber.toNat = 3
  · have hzero : optionalParam1 = 0 := not_not.mp fun hne => hnumber ⟨hhook, hne⟩
    rw [Machine.vmcallHandler, hhook, if_pos hzero] at hcall
    obtain ⟨_, rfl⟩ := Prod.mk.inj (Option.some.inj hcall)
    exact hsame
  rcases vmcallHandler_cases hcall with ⟨hthree, _⟩ | ⟨_, _, rfl⟩ | ⟨_, rfl⟩ |
    ⟨_, _, isLaunched, rfl⟩
  · exact absurd hthree hhook
  · rcases pageUnhookVmcall_ends os optionalParam1 m with heq | ⟨r, hr, _, heq⟩
    · rw [heq]
      exact hsame
    · rw [heq]
      exact h.remains_releaseHook hr
  · rcases unhookAllPagesVmcall_ends os m with heq | heq
    · rw [heq]
      exact hsame
    · rw [heq]
      intro q hq
      rw [h.unhookAll.2.1] at hq
      exact absurd hq List.not_mem_nil
  · exact fun q hq => ⟨hq, rfl⟩

end Listed

/-- An exit takes records out at most, or adds the one that the log gets. -/
theorem exitStep_records {os : Os} {kernelBaseInfo : KernelBaseInfo} {m m' : Machine Caller}
    (h : m.Listed os) {action : ExitAction Caller}
    (hstep : m.exitStep os kernelBaseInfo action = some m') :
    (m.firstHookOf os action = none ∧ Remains m m') ∨
    ∃ targetFunc r first, m.firstHookOf os action = some (pageAlign targetFunc, first) ∧
      FirstHooked targetFunc r first m m' := by
  have henter : m.enterRoot.Listed os := h.withGuest _
  cases exitStep_cases hstep with
  | others hstep => exact Or.inl ⟨rfl, (h.sameRecords_othersStep hstep).remains⟩
  | eptViolation exitQualification guestPhysicalAddr guestLinearAddress guestRip =>
    exact Or.inl ⟨rfl, Listed.remains_handlePageHookExit m.enterRoot kernelBaseInfo
      exitQualification guestPhysicalAddr guestLinearAddress guestRip⟩
  | monitorTrapFlag hexit =>
    have hremains := Listed.remains_monitorTrapFlagExit hexit
    exact Or.inl ⟨rfl, hremains⟩
  | @vmcall vmcallNumber optionalParam1 optionalParam2 status m' hcall =>
    rw [firstHookOf]
    by_cases hnumber : vmcallNumber.toNat = 3 ∧ optionalParam1 ≠ 0
    · rw [if_pos hnumber]
      rw [vmcallHandler, hnumber.1, if_neg hnumber.2] at hcall
      obtain ⟨⟨hooked, m3⟩, hhook, heq⟩ := Option.map_eq_some_iff.mp hcall
      obtain ⟨_, rfl⟩ := Prod.mk.inj heq
      rcases henter.rootModePageHook_firstHook hhook with ⟨hnone, hsame⟩ |
        ⟨first, r, hfirst, hhooked⟩
      · rw [hnone]
        exact Or.inl ⟨rfl, hsame.remains⟩
      · rw [hfirst]
        exact Or.inr ⟨optionalParam1, r, first, rfl, hhooked.fresh, hhooked.hookedPages,
          hhooked.detail, hhooked.virtualAddress, hhooked.originalEntry, hhooked.changedEntry⟩
    · have hkept := henter.remains_vmcallHandler hnumber hcall
      rw [if_neg hnumber]
      exact Or.inl ⟨rfl, hkept⟩

theorem protectStep_remembered {os : Os} {kernelBaseInfo : KernelBaseInfo}
    {s s' : Machine Caller × (Word → Option FirstHook)} (h : Remembered os s)
    {action : ExitAction Caller} (hstep : protectStep os kernelBaseInfo s action = some s') :
    Remembered os s' := by
  obtain ⟨m, log⟩ := s
  obtain ⟨m', hexit, rfl⟩ := Option.map_eq_some_iff.mp hstep
  have hlisted := (exitStep_listed h.listed hexit).1
  rcases exitStep_records h.listed hexit with ⟨hnone, hkept⟩ |
    ⟨targetFunc, r, first, hfirst, hhooked⟩
  · have hsame : Remembered os (m', log) := h.keep hlisted hkept
    rw [hnone]
    exact hsame
  · have hadded := h.firstHooked hlisted hhooked
    rw [hfirst]
    exact hadded

theorem remembered_of_run {os : Os} {kernelBaseInfo : KernelBaseInfo}
    {pageTable : VmmEptPageTable} {m : Machine Caller}
    {s : Machine Caller × (Word → Option FirstHook)} {actions : List (ExitAction Caller)}
    (hstart : Started os pageTable m)
    (hrun : Run (protectStep os kernelBaseInfo) (m, fun _ => none) actions s) :
    Remembered os s := by
  have hempty : Remembered os (m, fun _ => none) := by
    refine ⟨hstart.coherent.listed, fun r hr => ?_⟩
    rw [hstart.hookedPages] at hr
    exact absurd hr List.not_mem_nil
  exact hrun.invariant (fun _ _ _ h _ hstep => protectStep_remembered h hstep) hempty

/-- A hook of a page with a record changes nothing. -/
theorem rootModePageHook_hooked {os : Os} {m m' : Machine Caller} {targetFunc : Pvoid}
    {permissions : BitVec 8} (hpage : pageAlign targetFunc ∈ m.pages)
    (hcall : m.rootModePageHook os targetFunc permissions = some (true, m')) : m' = m := by
  have hexists := (isHookExists_iff_mem_pages m targetFunc).mpr hpage
  rw [rootModePageHook, prepareHook] at hcall
  split at hcall
  · simp at hcall
  split at hcall
  · simp at hcall
  simp only [hexists, if_true, Option.map_some, Option.some.injEq, Prod.mk.injEq, true_and]
    at hcall
  exact hcall.symm

/-- The record and the leaf are the ones that a first hook with the permissions makes. -/
def LastProtectWins (m : Machine Caller) (r : Pvoid) (first : FirstHook)
    (permissions : BitVec 8) : Prop :=
  (m.detail r).changedEntry = changeAccess first.readEntry permissions ∧
    m.pml1 (m.detail r).entryAddress = changeAccess first.readEntry permissions ∧
    (m.detail r).originalEntry = first.originalEntry

/-- In every reachable state, a further hook that returns true has the effect of a first
one exactly if it asks for read as the first one did, and the leaf is still the changed one. -/
theorem lastProtectWins_iff {os : Os} {kernelBaseInfo : KernelBaseInfo}
    {pageTable : VmmEptPageTable} {m0 m m' : Machine Caller} {log : Word → Option FirstHook}
    {actions : List (ExitAction Caller)} {r targetFunc : Pvoid} {permissions : BitVec 8}
    (hstart : Started os pageTable m0)
    (hrun : Run (protectStep os kernelBaseInfo) (m0, fun _ => none) actions (m, log))
    (hr : r ∈ m.ept.hookedPages) (hpage : (m.detail r).virtualAddress = pageAlign targetFunc)
    (hcall : m.enterRoot.rootModePageHook os targetFunc permissions = some (true, m')) :
    ∃ first, log (pageAlign targetFunc) = some first ∧
      (m'.LastProtectWins r first permissions ↔
        permissions &&& eptPageRead = first.permissions &&& eptPageRead ∧
          m.pml1 (m.detail r).entryAddress = (m.detail r).changedEntry) := by
  obtain ⟨first, hfirst, horiginal, hchanged⟩ := (remembered_of_run hstart hrun).record r hr
  have hhooked : pageAlign targetFunc ∈ m.enterRoot.pages := mem_pages.mpr ⟨r, hr, hpage⟩
  obtain rfl := rootModePageHook_hooked hhooked hcall
  rw [hpage] at hfirst
  refine ⟨first, hfirst, ?_⟩
  have hwins : m.enterRoot.LastProtectWins r first permissions ↔
      (m.detail r).changedEntry = changeAccess first.readEntry permissions ∧
        m.pml1 (m.detail r).entryAddress = changeAccess first.readEntry permissions ∧
        (m.detail r).originalEntry = first.originalEntry := Iff.rfl
  rw [hwins, hchanged, changeAccess_eq_iff]
  refine ⟨?_, ?_⟩
  · intro h
    refine ⟨h.1.symm, ?_⟩
    rw [h.2.1, changeAccess_eq_iff]
    exact h.1.symm
  · intro h
    refine ⟨h.1.symm, ?_, horiginal⟩
    rw [h.2, changeAccess_eq_iff]
    exact h.1.symm

def protectedPage : Machine Unit × (Word → Option FirstHook) :=
  execute (protectStep flatOs flatKernel) (flatMachine 2 2, fun _ => none)
    [.exit (.vmcall 3 0x200000#64 1)]

theorem protectedPage_run : ∃ actions, Run (protectStep flatOs flatKernel)
    (flatMachine 2 2, fun _ => none) actions (protectedPage.1, protectedPage.2) :=
  exists_run_execute _ _ _

theorem protectedPage_record : 0x20000#64 ∈ protectedPage.1.ept.hookedPages ∧
    (protectedPage.1.detail 0x20000#64).virtualAddress = pageAlign 0x200000#64 ∧
    protectedPage.1.pml1 (protectedPage.1.detail 0x20000#64).entryAddress =
      (protectedPage.1.detail 0x20000#64).changedEntry := by
  decide +kernel

/-- A further hook of the page returns true, whatever it asks for. -/
theorem protectedPage_hook {permissions : BitVec 8} (h : ¬ WriteWithoutRead permissions) :
    protectedPage.1.enterRoot.rootModePageHook flatOs 0x200000#64 permissions =
      some (true, protectedPage.1.enterRoot) := by
  refine rootModePageHook_of_hooked flatOs (by decide +kernel) h ?_
  exact mem_pages.mpr ⟨_, protectedPage_record.1, protectedPage_record.2.1⟩

/-- The second request asks for more rights, of which the entry never has any but read. -/
theorem lastProtectWins_iff_same : ∃ first, protectedPage.2 (pageAlign 0x200000#64) = some first ∧
    protectedPage.1.enterRoot.LastProtectWins 0x20000#64 first 7 := by
  obtain ⟨actions, hrun⟩ := protectedPage_run
  obtain ⟨hr, hpage, hleaf⟩ := protectedPage_record
  have hcall : protectedPage.1.enterRoot.rootModePageHook flatOs 0x200000#64 7 =
      some (true, protectedPage.1.enterRoot) := protectedPage_hook (by decide)
  obtain ⟨first, hfirst, hiff⟩ :=
    lastProtectWins_iff (flatMachine_started 2 2) hrun hr hpage hcall
  have hread : (7 : BitVec 8) &&& eptPageRead = first.permissions &&& eptPageRead := by
    have hlog : (protectedPage.2 (pageAlign 0x200000#64)).map FirstHook.permissions =
        some 1 := by decide +kernel
    rw [hfirst] at hlog
    rw [Option.some.inj hlog]
    decide
  exact ⟨first, hfirst, hiff.mpr ⟨hread, hleaf⟩⟩

/-- The second request takes the read right away. -/
theorem not_lastProtectWins_of_tighter :
    ¬ ∀ (os : Os) (kernelBaseInfo : KernelBaseInfo) (pageTable : VmmEptPageTable)
      (m0 m m' : Machine Unit) (log : Word → Option FirstHook) (actions : List (ExitAction Unit))
      (r targetFunc : Pvoid) (permissions : BitVec 8) (first : FirstHook),
      Started os pageTable m0 →
      Run (protectStep os kernelBaseInfo) (m0, fun _ => none) actions (m, log) →
      r ∈ m.ept.hookedPages → (m.detail r).virtualAddress = pageAlign targetFunc →
      permissionsAccepted permissions = true →
      m.enterRoot.rootModePageHook os targetFunc permissions = some (true, m') →
      log (pageAlign targetFunc) = some first → m'.LastProtectWins r first permissions := by
  intro h
  obtain ⟨actions, hrun⟩ := protectedPage_run
  obtain ⟨hr, hpage, hleaf⟩ := protectedPage_record
  obtain ⟨first, hfirst⟩ : ∃ first, protectedPage.2 (pageAlign 0x200000#64) = some first :=
    Option.isSome_iff_exists.mp (by decide +kernel)
  have hwins := h flatOs flatKernel flatTable (flatMachine 2 2) protectedPage.1 _ protectedPage.2
    actions 0x20000#64 0x200000#64 4 first (flatMachine_started 2 2) hrun hr hpage (by decide)
    (protectedPage_hook (by decide)) hfirst
  have hread := (changeAccess_access first.readEntry 4).1
  rw [← hwins.1] at hread
  revert hread
  decide +kernel

end Machine

end NovaHypervisor

import NovaHypervisor.GuestMonitor

/-!
What the guest's instructions can do to memory, over whole runs of a processor with
its cached translations, its exits and the pool's other parties. A run is orderly while no
VMCALL comes when a page is open, no hook is denied its record or is of a physical page that
another virtual page's hook is about, and an instruction of the kernel image accesses one
hooked page at most.
-/
namespace NovaHypervisor

open General

namespace Machine

variable {Caller : Type*} [DecidableEq Caller]

/-- No page is open at a VMCALL, and a hook is not denied and adds no second record of a
physical page. -/
def Orderly (os : Os) (m : Machine Caller)
    (vmcallNumber optionalParam1 optionalParam2 : Word) : Prop :=
  m.guest.hookedPage = none ∧ (vmcallNumber.toNat = 3 → optionalParam1 ≠ 0 →
    m.enterRoot.recordDenied os optionalParam1 (optionalParam2.setWidth 8) = false ∧
    (m.isHookExists (pageAlign optionalParam1) = true ∨ ∀ r ∈ m.ept.hookedPages,
      (m.detail r).physicalBaseAddress ≠ pageAlign (hookAddress os optionalParam1)))

instance (os : Os) (m : Machine Caller) (vmcallNumber optionalParam1 optionalParam2 : Word) :
    Decidable (m.Orderly os vmcallNumber optionalParam1 optionalParam2) :=
  decidable_of_iff (m.guest.hookedPage = none ∧ (vmcallNumber.toNat = 3 → optionalParam1 ≠ 0 →
      m.enterRoot.recordDenied os optionalParam1 (optionalParam2.setWidth 8) = false ∧
      (m.isHookExists (pageAlign optionalParam1) = true ∨ m.ept.hookedPages.all (fun r =>
        (m.detail r).physicalBaseAddress ≠ pageAlign (hookAddress os optionalParam1)) = true)))
    (by simp only [Orderly, List.all_eq_true, decide_eq_true_eq])

theorem Orderly.keepsTable {os : Os} {m : Machine Caller}
    {vmcallNumber optionalParam1 optionalParam2 : Word}
    (h : m.Orderly os vmcallNumber optionalParam1 optionalParam2) :
    m.KeepsTable os (.vmcall vmcallNumber optionalParam1 optionalParam2) := by
  refine ⟨fun hnumber hnonzero => (h.2 hnumber hnonzero).1, ?_⟩
  rw [PendingKept, h.1]
  simp

/-- A hook that adds a record has found a physical address, which is that of a page. -/
theorem installs_nonzero {os : Os} {m : Machine Caller} {targetFunc : Pvoid}
    {permissions : BitVec 8} (h : m.installs os targetFunc permissions = true) :
    pageAlign (hookAddress os targetFunc) ≠ 0 := by
  have haligned := os.physical_aligned (pageAlign targetFunc) (by rw [toNat_pageAlign]; omega)
  have hself : pageAlign (hookAddress os targetFunc) = hookAddress os targetFunc := by
    apply BitVec.eq_of_toNat_eq
    rw [toNat_pageAlign, hookAddress]
    omega
  rw [hself]
  intro hzero
  have hphysical : os.mmGetPhysicalAddress (pageAlign targetFunc) = 0 := hzero
  simp only [installs, prepareHook, hphysical, if_true] at h
  split at h
  · rename_i hprep
    split at hprep
    · simp at hprep
    split at hprep
    · simp at hprep
    split at hprep
    · simp at hprep
    · simp at hprep
  · simp at h

namespace Monitored

variable {os : Os} {pageTable : VmmEptPageTable} {m m' : Machine Caller}

theorem rootModePageHook (h : m.Monitored os pageTable) (hroot : m.guest.isOnVmxRoot = true)
    {targetFunc : Pvoid} {permissions : BitVec 8} {status : Bool}
    (hnot : m.recordDenied os targetFunc permissions = false)
    (hfresh : m.isHookExists (pageAlign targetFunc) = true ∨ ∀ r ∈ m.ept.hookedPages,
      (m.detail r).physicalBaseAddress ≠ pageAlign (hookAddress os targetFunc))
    (hcall : m.rootModePageHook os targetFunc permissions = some (status, m')) :
    ∃ pageTable', m'.Monitored os pageTable' ∧ m'.guest = m.guest := by
  rcases rootModePageHook_returned h.coherent hcall with
    hdone | ⟨hdenied, _⟩ | ⟨_, a, pageTable', m1, r, hhooked⟩
  · exact ⟨pageTable, h.extend hdone.toExtends, hdone.guest⟩
  · rw [hnot] at hdenied
    exact absurd hdenied (by simp)
  · have hother : ∀ r ∈ m.ept.hookedPages,
        (m.detail r).physicalBaseAddress ≠ pageAlign (hookAddress os targetFunc) := by
      refine hfresh.resolve_left ?_
      rw [hhooked.notHooked]
      simp
    have hinstalled := hhooked.installed
    obtain ⟨table, hprotected⟩ := h.toProtected.hook hnot hother hcall
    obtain rfl : pageTable' = table := Option.some.inj
      (hinstalled.coherent.pageTable_eq.symm.trans hprotected.coherent.pageTable_eq)
    have hnonzero := installs_nonzero (hhooked.installs h.coherent hroot hcall).1
    refine ⟨pageTable', (h.extend hhooked.toExtends).installed hhooked.low hhooked.wired hnonzero
      ?_ hinstalled hprotected, hinstalled.guest.trans hhooked.guest⟩
    intro q hq
    rw [hhooked.hookedPages] at hq
    rw [hhooked.detail q hq]
    exact hother q hq

/-- A VMCALL in root mode while no page is open. -/
theorem vmcallHandler (h : m.Monitored os pageTable) (hroot : m.guest.isOnVmxRoot = true)
    {vmcallNumber optionalParam1 optionalParam2 : Word} {status : Ntstatus}
    (hidle : m.guest.hookedPage = none)
    (hguard : vmcallNumber.toNat = 3 → optionalParam1 ≠ 0 →
      m.recordDenied os optionalParam1 (optionalParam2.setWidth 8) = false ∧
      (m.isHookExists (pageAlign optionalParam1) = true ∨ ∀ r ∈ m.ept.hookedPages,
        (m.detail r).physicalBaseAddress ≠ pageAlign (hookAddress os optionalParam1)))
    (hcall : m.vmcallHandler os vmcallNumber optionalParam1 optionalParam2 =
      some (status, m')) :
    ∃ pageTable', m'.Monitored os pageTable' ∧ m'.guest.hookedPage = none := by
  rcases vmcallHandler_cases hcall with ⟨hnumber, hooked, hhook⟩ | ⟨hnumber, hnonzero, rfl⟩ |
    ⟨hnumber, rfl⟩ | ⟨_, _, isLaunched, rfl⟩
  · by_cases hzero : optionalParam1 = 0
    · subst hzero
      rw [vmcallHandler_hook_zero os hnumber] at hcall
      obtain ⟨_, rfl⟩ := Prod.mk.inj (Option.some.inj hcall)
      exact ⟨pageTable, h, hidle⟩
    · obtain ⟨hnot, hfresh⟩ := hguard hnumber hzero
      obtain ⟨pageTable', h', hguest⟩ := h.rootModePageHook hroot hnot hfresh hhook
      exact ⟨pageTable', h', by rw [hguest, hidle]⟩
  · refine ⟨pageTable, ?_⟩
    rcases pageUnhookVmcall_ends os optionalParam1 m with heq | ⟨r, hr, _, heq⟩
    · rw [heq]
      exact ⟨h, hidle⟩
    · rw [heq]
      have hunhooked := h.coherent.releaseHook hr
      exact ⟨h.unhook hr hidle hunhooked, by rw [hunhooked.guest, hidle]⟩
  · refine ⟨pageTable, ?_⟩
    rw [unhookAllPagesVmcall, if_neg (not_not_intro hroot)]
    exact h.unhookAll hidle
  · exact ⟨pageTable, h.withGuest rfl rfl, hidle⟩

/-- The leaf of a record's page: the saved entry while its record is pending, else the
changed entry. -/
theorem translate_record (h : m.Monitored os pageTable) {r : Pvoid} (hr : r ∈ m.ept.hookedPages)
    {x : Word} (hlow : x.toNat < 2 ^ 39) (hpage : m.About r x) (access : GuestAccess) :
    access.GrantedBy (m.translate os pageTable x) ↔ access.GrantedByEntry
      (if m.guest.hookedPage = some r then (m.detail r).originalEntry
        else (m.detail r).changedEntry) := by
  have hrecord := h.coherent.record r hr
  have hsame := (samePage_iff hlow hrecord.low).mpr (Eq.symm hpage)
  have hsplit : IsSplit pageTable (pml2Key x) := by
    rw [hsame.1]
    exact hrecord.split
  obtain ⟨hread, hwrite, hexecute⟩ := h.coherent.translate_rights hsplit
  have hleaf : m.leaf os pageTable x = if m.guest.hookedPage = some r
      then (m.detail r).originalEntry else (m.detail r).changedEntry := by
    rw [leaf_congr m hsame]
    split
    · rename_i hpending
      exact h.opened r hpending
    · rename_i hpending
      exact h.armed r hr hpending
  rw [GuestAccess.GrantedBy, GuestAccess.GrantedByEntry, hread, hwrite, hexecute, hleaf]

/-- A page without a record grants everything. -/
theorem translate_free (h : m.Monitored os pageTable) {x : Word} (hlow : x.toNat < 2 ^ 39)
    (hnone : ∀ r ∈ m.ept.hookedPages, ¬ m.About r x) (access : GuestAccess) :
    access.GrantedBy (m.translate os pageTable x) := by
  obtain ⟨hread, hwrite, hexecute⟩ := h.free x hlow hnone
  refine ⟨fun _ => ?_, fun _ => ?_, fun _ => ?_⟩
  · rw [hread]
    decide
  · rw [hwrite]
    decide
  · rw [hexecute]
    decide

/-- The record of a page is the one that the handler's search finds. -/
theorem find_record (h : m.Monitored os pageTable) {r : Pvoid} (hr : r ∈ m.ept.hookedPages)
    {x : Word} (hpage : (m.detail r).physicalBaseAddress = pageAlign x) :
    m.ept.hookedPages.find? (fun hookedEntry =>
      (m.detail hookedEntry).physicalBaseAddress = pageAlign x) = some r := by
  rcases hfound : m.ept.hookedPages.find? (fun hookedEntry =>
      (m.detail hookedEntry).physicalBaseAddress = pageAlign x) with _ | q
  · have hnot := List.find?_eq_none.mp hfound r hr
    simp [hpage] at hnot
  · have hq := List.mem_of_find?_eq_some hfound
    have hbase := List.find?_some hfound
    simp only [decide_eq_true_eq] at hbase
    rw [h.distinct q hq r hr (hbase.trans hpage.symm)]

end Monitored

omit [DecidableEq Caller] in
/-- A violation from outside the kernel image injects a page fault and does nothing else. -/
theorem handlePageHookExit_blocked {m : Machine Caller} {kernelBaseInfo : KernelBaseInfo}
    {violationQualification guestPhysicalAddr guestLinearAddress guestRip : Word} {r : Pvoid}
    (hnonzero : pageAlign guestPhysicalAddr ≠ 0)
    (hfound : m.ept.hookedPages.find? (fun hookedEntry =>
      (m.detail hookedEntry).physicalBaseAddress = pageAlign guestPhysicalAddr) = some r)
    (hdenied : EptViolation.deniedAccess violationQualification ≠ none)
    (hout : kernelBaseInfo.isAccessFromKernelImage guestRip = false) :
    m.handlePageHookExit kernelBaseInfo violationQualification guestPhysicalAddr
      guestLinearAddress guestRip = (true, m.injectPageFault guestLinearAddress
        (EptViolation.pageFaultErrorCode violationQualification)) := by
  obtain ⟨access, hsome⟩ := Option.ne_none_iff_exists'.mp hdenied
  simp only [handlePageHookExit, if_neg hnonzero, hfound, handleHookedPage, hsome, hout]
  rfl

omit [DecidableEq Caller] in
/-- A violation from inside the kernel image injects nothing. -/
theorem handlePageHookExit_inside (m : Machine Caller) {kernelBaseInfo : KernelBaseInfo}
    (violationQualification guestPhysicalAddr guestLinearAddress : Word) {guestRip : Word}
    (hin : kernelBaseInfo.isAccessFromKernelImage guestRip = true) :
    (m.handlePageHookExit kernelBaseInfo violationQualification guestPhysicalAddr
      guestLinearAddress guestRip).2.guest.pendingInjection = m.guest.pendingInjection := by
  unfold handlePageHookExit
  simp only
  split
  · rfl
  split
  · rfl
  · rename_i r hfound
    rcases hdenied : EptViolation.deniedAccess violationQualification with _ | access
    · simp only [handleHookedPage, hdenied]
      rfl
    · simp only [handleHookedPage, hdenied, hin, if_true]
      rfl

/-- An exit keeps the monitor's law while at most one page is open. -/
theorem exitStep_monitored {os : Os} {kernelBaseInfo : KernelBaseInfo}
    {pageTable : VmmEptPageTable} {m m' : Machine Caller} (h : m.Monitored os pageTable)
    {exit : VmExit} (hfree : m.SlotFree kernelBaseInfo (.exit exit))
    (horderly : ∀ vmcallNumber optionalParam1 optionalParam2,
      exit = .vmcall vmcallNumber optionalParam1 optionalParam2 →
        m.Orderly os vmcallNumber optionalParam1 optionalParam2)
    (hstep : m.exitStep os kernelBaseInfo (.exit exit) = some m') :
    ∃ pageTable', m'.Monitored os pageTable' := by
  have henter : m.enterRoot.Monitored os pageTable := h.withGuest rfl rfl
  cases exitStep_cases hstep with
  | eptViolation exitQualification guestPhysicalAddr guestLinearAddress guestRip =>
    refine ⟨pageTable, ?_⟩
    rcases handlePageHookExit_ends m.enterRoot kernelBaseInfo exitQualification
      guestPhysicalAddr guestLinearAddress guestRip with
      ⟨_, injection, hresult⟩ | ⟨r, hr, hopened, hresult⟩
    · simp only [hresult]
      exact henter.withGuest rfl rfl
    · have hpending : m.guest.hookedPage = none ∨ m.guest.hookedPage = some r := by
        rcases hfree with hnone | hidle | hsame
        · exact absurd (hopened.symm.trans hnone) (by simp)
        · exact Or.inl hidle
        · exact Or.inr (hsame.trans hopened)
      simp only [hresult]
      exact (henter.openPage hr hpending).withGuest rfl rfl
  | monitorTrapFlag hexit =>
    exact ⟨pageTable, (henter.monitorTrapFlagExit hexit).1.withGuest rfl rfl⟩
  | vmcall hcall =>
    obtain ⟨hidle, hguard⟩ := horderly _ _ _ rfl
    obtain ⟨pageTable', h', _⟩ := henter.vmcallHandler rfl hidle hguard hcall
    exact ⟨pageTable', h'.withGuest rfl rfl⟩

end Machine

namespace GuestCpu

variable {Caller : Type*} [DecidableEq Caller]

/-- While a page is open the instruction accesses no other hooked page; VMCALLs are orderly. -/
def Orderly (os : Os) (s : GuestCpu Caller) : GuestAction Caller → Prop
  | .access access =>
    ∀ r ∈ s.machine.guest.hookedPage, ∀ q ∈ s.machine.ept.hookedPages,
      (s.machine.detail q).physicalBaseAddress = pageAlign access.guestPhysicalAddr → q = r
  | .vmcall vmcallNumber optionalParam1 optionalParam2 =>
    s.machine.Orderly os vmcallNumber optionalParam1 optionalParam2
  | _ => True

instance (os : Os) (s : GuestCpu Caller) :
    (action : GuestAction Caller) → Decidable (s.Orderly os action)
  | .access access =>
    decidable_of_iff (s.machine.guest.hookedPage.all fun r => s.machine.ept.hookedPages.all
      fun q => (s.machine.detail q).physicalBaseAddress ≠ pageAlign access.guestPhysicalAddr ||
        q = r) (by
          simp only [Orderly]
          cases s.machine.guest.hookedPage <;> simp [or_iff_not_imp_left])
  | .vmcall vmcallNumber optionalParam1 optionalParam2 => inferInstanceAs
      (Decidable (s.machine.Orderly os vmcallNumber optionalParam1 optionalParam2))
  | .fetch _ => inferInstanceAs (Decidable True)
  | .retire => inferInstanceAs (Decidable True)
  | .cache _ => inferInstanceAs (Decidable True)
  | .evict _ => inferInstanceAs (Decidable True)
  | .others _ => inferInstanceAs (Decidable True)

/-- The law of the monitor, with fresh translations, and with an instruction of the kernel
image executing whenever a page is open. -/
structure Watched (os : Os) (kernelBaseInfo : KernelBaseInfo) (pageTable : VmmEptPageTable)
    (s : GuestCpu Caller) : Prop where
  monitored : s.machine.Monitored os pageTable
  tlb : s.tlb.Agrees Translation.SameAccess (s.machine.translate os pageTable)
  kernel : ∀ r ∈ s.machine.guest.hookedPage, ∃ guestRip, s.guestRip = some guestRip ∧
    kernelBaseInfo.isAccessFromKernelImage guestRip = true

namespace Watched

variable {os : Os} {kernelBaseInfo : KernelBaseInfo} {pageTable : VmmEptPageTable}
  {s s' : GuestCpu Caller}

theorem fresh (h : s.Watched os kernelBaseInfo pageTable) : s.Fresh os pageTable :=
  ⟨h.monitored.tabled, h.tlb⟩

/-- The translation of a hooked page's access grants what the record's entry grants. -/
theorem completes_record (h : s.Watched os kernelBaseInfo pageTable) {r : Pvoid}
    (hr : r ∈ s.machine.ept.hookedPages) {access : GuestAccess}
    (hpage : (s.machine.detail r).physicalBaseAddress = pageAlign access.guestPhysicalAddr) :
    s.Completes os access ↔ access.GrantedByEntry
      (if s.machine.guest.hookedPage = some r then (s.machine.detail r).originalEntry
        else (s.machine.detail r).changedEntry) := by
  have hrecord := h.monitored.coherent.record r hr
  have habout := (Machine.base_eq_iff_about hrecord _).mp hpage
  have halign : s.machine.About r (pageAlign access.guestPhysicalAddr) := by
    rw [← Machine.base_eq_iff_about hrecord, hpage, pageAlign_pageAlign]
  have hlow : access.guestPhysicalAddr.toNat < 2 ^ 39 := by
    have hlow := hrecord.low
    simp only [Machine.About] at habout
    omega
  have hlow' : (pageAlign access.guestPhysicalAddr).toNat < 2 ^ 39 := by
    rw [toNat_pageAlign]
    omega
  have hlookup := h.tlb.lookup Translation.SameAccess.refl (pageAlign access.guestPhysicalAddr)
  rw [← h.monitored.translate_record hr hlow' halign access,
    ← access.grantedBy_congr hlookup, Completes, translation, if_neg (Nat.not_le.mpr hlow),
    h.monitored.coherent.pageTable_eq, Option.map_some]
  simp

/-- An access to a page below 512GB without a record completes. -/
theorem completes_free (h : s.Watched os kernelBaseInfo pageTable) {access : GuestAccess}
    (hlow : access.guestPhysicalAddr.toNat < 2 ^ 39) (hnone : ∀ r ∈ s.machine.ept.hookedPages,
      (s.machine.detail r).physicalBaseAddress ≠ pageAlign access.guestPhysicalAddr) :
    s.Completes os access := by
  have hlow' : (pageAlign access.guestPhysicalAddr).toNat < 2 ^ 39 := by
    rw [toNat_pageAlign]
    omega
  have hlookup := h.tlb.lookup Translation.SameAccess.refl (pageAlign access.guestPhysicalAddr)
  refine ⟨_, ?_, (access.grantedBy_congr hlookup).mpr (h.monitored.translate_free hlow' ?_ access)⟩
  · rw [translation, if_neg (Nat.not_le.mpr hlow), h.monitored.coherent.pageTable_eq,
      Option.map_some]
  · intro r hr hpage
    have hrecord := h.monitored.coherent.record r hr
    refine hnone r hr ?_
    rw [← pageAlign_pageAlign access.guestPhysicalAddr]
    exact (Machine.base_eq_iff_about hrecord _).mpr hpage

/-- The two halves of the law speak of one page table. -/
theorem of_fresh {pageTable' : VmmEptPageTable} (hfresh : s.Fresh os pageTable)
    (hmonitored : s.machine.Monitored os pageTable')
    (hkernel : ∀ r ∈ s.machine.guest.hookedPage, ∃ guestRip, s.guestRip = some guestRip ∧
      kernelBaseInfo.isAccessFromKernelImage guestRip = true) :
    ∃ pageTable'', s.Watched os kernelBaseInfo pageTable'' := by
  obtain rfl : pageTable = pageTable' := Option.some.inj
    (hfresh.tabled.coherent.pageTable_eq.symm.trans hmonitored.coherent.pageTable_eq)
  exact ⟨pageTable, hmonitored, hfresh.tlb, hkernel⟩

end Watched

theorem Orderly.keepsTable {os : Os} {s : GuestCpu Caller} {action : GuestAction Caller}
    (h : s.Orderly os action) : s.KeepsTable os action := by
  cases action with
  | vmcall => exact Machine.Orderly.keepsTable h
  | _ => trivial

/-- Only the access's own page can be opened by a violation of an orderly run. -/
theorem Orderly.slotFree {os : Os} {s : GuestCpu Caller} {access : GuestAccess}
    (h : s.Orderly os (.access access)) (kernelBaseInfo : KernelBaseInfo)
    (exitQualification guestLinearAddress guestRip : Word) :
    s.machine.SlotFree kernelBaseInfo (.exit (.eptViolation exitQualification
      access.guestPhysicalAddr guestLinearAddress guestRip)) := by
  rw [Machine.SlotFree]
  rcases hpending : s.machine.guest.hookedPage with _ | r
  · exact Or.inr (Or.inl rfl)
  rcases hopened : s.machine.opened kernelBaseInfo exitQualification access.guestPhysicalAddr
    guestRip with _ | q
  · exact Or.inl rfl
  · rw [Machine.opened] at hopened
    split at hopened
    · simp at hopened
    · have hbase := List.find?_some hopened
      simp only [decide_eq_true_eq] at hbase
      exact Or.inr (Or.inr (by rw [h r hpending q (List.mem_of_find?_eq_some hopened) hbase]))

/-- The state that a violation leaves. -/
theorem violate_eq (os : Os) (kernelBaseInfo : KernelBaseInfo) (access : GuestAccess)
    (t : Translation) (guestRip : Word) (s : GuestCpu Caller) :
    s.violate os kernelBaseInfo access t guestRip =
      let machine := (s.machine.enterRoot.handlePageHookExit kernelBaseInfo
        (access.qualification t) access.guestPhysicalAddr access.guestLinearAddress
        guestRip).2.leaveRoot
      some { s with
        machine := machine
        tlb := if s.machine.exitInvalidates os kernelBaseInfo s.eptPointer (.eptViolation
            (access.qualification t) access.guestPhysicalAddr access.guestLinearAddress guestRip)
          then Cache.empty else s.tlb.evict (pageAlign access.guestPhysicalAddr)
        guestRip := if machine.guest.pendingInjection.isSome then none else s.guestRip } := rfl

/-- A violation leaves the instruction of an open page executing. -/
theorem violate_kernel {os : Os} {kernelBaseInfo : KernelBaseInfo} {s s' : GuestCpu Caller}
    {access : GuestAccess} {t : Translation} {guestRip : Word} (hrip : s.guestRip = some guestRip)
    (hkernel : ∀ r ∈ s.machine.guest.hookedPage, ∃ guestRip, s.guestRip = some guestRip ∧
      kernelBaseInfo.isAccessFromKernelImage guestRip = true)
    (hstep : s.violate os kernelBaseInfo access t guestRip = some s') :
    ∀ r ∈ s'.machine.guest.hookedPage, ∃ guestRip, s'.guestRip = some guestRip ∧
      kernelBaseInfo.isAccessFromKernelImage guestRip = true := by
  rw [violate_eq] at hstep
  obtain rfl := Option.some.inj hstep
  by_cases hin : kernelBaseInfo.isAccessFromKernelImage guestRip = true
  · intro r _
    have hnone : (s.machine.enterRoot.handlePageHookExit kernelBaseInfo (access.qualification t)
        access.guestPhysicalAddr access.guestLinearAddress guestRip).2.guest.pendingInjection =
          none :=
      Machine.handlePageHookExit_inside s.machine.enterRoot _ _ _ hin
    refine ⟨guestRip, ?_, hin⟩
    simp only [Machine.leaveRoot, hnone, Option.isSome_none, Bool.false_eq_true, if_false]
    exact hrip
  · have hidle : s.machine.guest.hookedPage = none := by
      rcases hpending : s.machine.guest.hookedPage with _ | r
      · rfl
      · obtain ⟨rip, hsome, himage⟩ := hkernel r hpending
        obtain rfl := Option.some.inj (hrip.symm.trans hsome)
        exact absurd himage hin
    rcases Machine.handlePageHookExit_ends s.machine.enterRoot kernelBaseInfo
      (access.qualification t) access.guestPhysicalAddr access.guestLinearAddress guestRip with
      ⟨_, injection, hresult⟩ | ⟨r, _, hopened, _⟩
    · have hnone : (s.machine.enterRoot.handlePageHookExit kernelBaseInfo
          (access.qualification t) access.guestPhysicalAddr access.guestLinearAddress
          guestRip).2.guest.hookedPage = none := by
        rw [hresult]
        exact hidle
      intro r hr
      have hpending : r ∈ (s.machine.enterRoot.handlePageHookExit kernelBaseInfo
          (access.qualification t) access.guestPhysicalAddr access.guestLinearAddress
          guestRip).2.guest.hookedPage := hr
      rw [hnone] at hpending
      simp at hpending
    · simp only [Machine.opened, Bool.eq_false_iff.mpr hin, or_true, if_true] at hopened
      simp at hopened

theorem step_watched {os : Os} {kernelBaseInfo : KernelBaseInfo} {pageTable : VmmEptPageTable}
    {s s' : GuestCpu Caller} (h : s.Watched os kernelBaseInfo pageTable)
    {action : GuestAction Caller} (hguard : s.Orderly os action)
    (hstep : s.step os kernelBaseInfo action = some s') :
    ∃ pageTable', s'.Watched os kernelBaseInfo pageTable' := by
  obtain ⟨table, hfresh⟩ := step_fresh h.fresh hguard.keepsTable hstep
  cases action with
  | fetch guestRip =>
    simp only [step] at hstep
    split at hstep
    · rename_i hnone
      obtain rfl := Option.some.inj hstep
      refine Watched.of_fresh hfresh h.monitored ?_
      intro r hr
      obtain ⟨rip, hrip, _⟩ := h.kernel r hr
      rw [hnone.1] at hrip
      simp at hrip
    · simp at hstep
  | access access =>
    obtain ⟨guestRip, hrip, hstep⟩ := Option.bind_eq_some_iff.mp hstep
    obtain ⟨t, _, hstep⟩ := Option.bind_eq_some_iff.mp hstep
    split at hstep
    · obtain rfl := Option.some.inj hstep
      exact ⟨pageTable, h⟩
    · have hkernel := violate_kernel hrip h.kernel hstep
      obtain ⟨s1, hexit, rfl⟩ := Option.map_eq_some_iff.mp hstep
      obtain ⟨machine, hmachine, rfl⟩ := Option.map_eq_some_iff.mp hexit
      obtain ⟨pageTable', hmonitored⟩ := Machine.exitStep_monitored h.monitored
        (hguard.slotFree kernelBaseInfo _ _ _) (by simp) hmachine
      exact Watched.of_fresh hfresh hmonitored hkernel
  | retire =>
    obtain ⟨guestRip, hrip, hstep⟩ := Option.bind_eq_some_iff.mp hstep
    obtain ⟨s1, hexit, rfl⟩ := Option.map_eq_some_iff.mp hstep
    split at hexit
    · obtain ⟨machine, hmachine, rfl⟩ := Option.map_eq_some_iff.mp hexit
      obtain ⟨pageTable', hmonitored⟩ := Machine.exitStep_monitored h.monitored
        (by trivial) (by simp) hmachine
      refine Watched.of_fresh hfresh hmonitored ?_
      have henter : s.machine.enterRoot.Monitored os pageTable := h.monitored.withGuest rfl rfl
      cases Machine.exitStep_cases hmachine with
      | @monitorTrapFlag restored hrestored =>
        intro r hr
        have hnone : r ∈ restored.guest.hookedPage := hr
        rw [(henter.monitorTrapFlagExit hrestored).2] at hnone
        simp at hnone
    · rename_i hclear
      obtain rfl := Option.some.inj hexit
      refine Watched.of_fresh hfresh h.monitored ?_
      intro r hr
      refine absurd ?_ hclear
      rw [h.monitored.flag, show s.machine.guest.hookedPage = some r from hr]
      rfl
  | vmcall vmcallNumber optionalParam1 optionalParam2 =>
    obtain ⟨guestRip, hrip, hstep⟩ := Option.bind_eq_some_iff.mp hstep
    obtain ⟨s1, hexit, rfl⟩ := Option.map_eq_some_iff.mp hstep
    obtain ⟨machine, hmachine, rfl⟩ := Option.map_eq_some_iff.mp hexit
    have horderly : s.machine.Orderly os vmcallNumber optionalParam1 optionalParam2 := hguard
    have henter : s.machine.enterRoot.Monitored os pageTable := h.monitored.withGuest rfl rfl
    cases Machine.exitStep_cases hmachine with
    | vmcall hcall =>
      obtain ⟨pageTable', hmonitored, hnone⟩ :=
        henter.vmcallHandler rfl horderly.1 horderly.2 hcall
      refine Watched.of_fresh hfresh (hmonitored.withGuest rfl rfl) ?_
      intro r hr
      have hpending : r ∈ _ := hr
      simp only [Machine.leaveRoot, hnone] at hpending
      simp at hpending
  | cache guestPhysicalAddr =>
    simp only [step] at hstep
    split at hstep
    · obtain ⟨table', _, rfl⟩ := Option.map_eq_some_iff.mp hstep
      exact Watched.of_fresh hfresh h.monitored h.kernel
    · simp at hstep
  | evict guestPhysicalAddr =>
    obtain rfl := Option.some.inj hstep
    exact Watched.of_fresh hfresh h.monitored h.kernel
  | others action =>
    obtain ⟨machine, hothers, rfl⟩ := Option.map_eq_some_iff.mp hstep
    have hext := h.monitored.coherent.othersStep hothers
    refine Watched.of_fresh hfresh (h.monitored.extend hext) ?_
    simp only [hext.guest]
    exact h.kernel

/-- A launched processor before its first hook, between two instructions. -/
structure Launched (os : Os) (pageTable : VmmEptPageTable) (s : GuestCpu Caller) : Prop where
  started : Machine.Started os pageTable s.machine
  idle : s.machine.guest.hookedPage = none
  clear : s.machine.guest.monitorTrapFlag = false
  empty : s.tlb = Cache.empty

theorem Launched.watched {os : Os} {pageTable : VmmEptPageTable} {s : GuestCpu Caller}
    (h : s.Launched os pageTable) (kernelBaseInfo : KernelBaseInfo) :
    s.Watched os kernelBaseInfo pageTable := by
  have hlist := h.started.hookedPages
  refine ⟨⟨⟨h.started.coherent, ?_, ?_, ?_, ?_⟩, ?_, ?_, ?_, ?_⟩, ?_, ?_⟩
  · simp [Machine.DistinctPages, hlist]
  · simp [h.idle]
  · simp [hlist]
  · rw [h.clear, h.idle]
    rfl
  · simp [hlist]
  · simp [hlist]
  · simp [h.idle]
  · intro x hx _
    exact h.started.aliased.free x hx (by simp [hlist])
  · rw [h.empty]
    exact Cache.agrees_empty
  · simp [h.idle]

theorem watched_of_run {os : Os} {kernelBaseInfo : KernelBaseInfo} {pageTable : VmmEptPageTable}
    {s s' : GuestCpu Caller} {actions : List (GuestAction Caller)}
    (hstart : s.Launched os pageTable)
    (hrun : GuardedRun (step os kernelBaseInfo) (Orderly os) s actions s') :
    ∃ pageTable', s'.Watched os kernelBaseInfo pageTable' := by
  refine GuardedRun.invariant (I := fun s => ∃ pageTable', s.Watched os kernelBaseInfo pageTable')
    ?_ hrun ⟨pageTable, hstart.watched kernelBaseInfo⟩
  intro s action s' hinv hguard hstep
  obtain ⟨pageTable', h⟩ := hinv
  exact step_watched h hguard hstep

/-- A hooked page's accesses go through some translation. -/
theorem Watched.translation_some {os : Os} {kernelBaseInfo : KernelBaseInfo}
    {pageTable : VmmEptPageTable} {s : GuestCpu Caller}
    (h : s.Watched os kernelBaseInfo pageTable) (x : Word) : ∃ t, s.translation os x = some t := by
  unfold translation
  split
  · exact ⟨_, rfl⟩
  · rw [h.monitored.coherent.pageTable_eq]
    exact ⟨_, rfl⟩

/-- No page is open to an instruction from outside the kernel image. -/
theorem Watched.not_pending {os : Os} {kernelBaseInfo : KernelBaseInfo}
    {pageTable : VmmEptPageTable} {s : GuestCpu Caller}
    (h : s.Watched os kernelBaseInfo pageTable) {guestRip : Word}
    (hrip : s.guestRip = some guestRip)
    (hout : kernelBaseInfo.isAccessFromKernelImage guestRip = false) (r : Pvoid) :
    s.machine.guest.hookedPage ≠ some r := by
  intro hpending
  obtain ⟨rip, hsome, himage⟩ := h.kernel r hpending
  obtain rfl := Option.some.inj (hrip.symm.trans hsome)
  rw [hout] at himage
  exact absurd himage (by simp)

/-- An access that does not complete is a violation. -/
theorem step_access_denied {os : Os} (kernelBaseInfo : KernelBaseInfo) {s : GuestCpu Caller}
    {access : GuestAccess} {t : Translation} {guestRip : Word} (hrip : s.guestRip = some guestRip)
    (ht : s.translation os access.guestPhysicalAddr = some t)
    (hnot : ¬ s.Completes os access) : ¬ access.GrantedBy t ∧
      s.step os kernelBaseInfo (.access access) =
        s.violate os kernelBaseInfo access t guestRip := by
  have hdenied : ¬ access.GrantedBy t := fun hgranted => hnot ⟨t, ht, hgranted⟩
  refine ⟨hdenied, ?_⟩
  simp only [step, hrip, Option.bind_some, ht, if_neg hdenied]

/-- In every state of an orderly run, an instruction from outside the kernel image accesses
a hooked page exactly as the record's changed entry grants. Any other access raises a page
fault at its own address, with its own error code, and changes neither table nor pool. -/
theorem access_outside_kernel {os : Os} {kernelBaseInfo : KernelBaseInfo}
    {pageTable : VmmEptPageTable} {s0 s : GuestCpu Caller} {actions : List (GuestAction Caller)}
    (hstart : s0.Launched os pageTable)
    (hrun : GuardedRun (step os kernelBaseInfo) (Orderly os) s0 actions s) {guestRip : Word}
    (hrip : s.guestRip = some guestRip)
    (hout : kernelBaseInfo.isAccessFromKernelImage guestRip = false) {r : Pvoid}
    (hr : r ∈ s.machine.ept.hookedPages) {access : GuestAccess}
    (hpage : (s.machine.detail r).physicalBaseAddress = pageAlign access.guestPhysicalAddr) :
    (s.Completes os access ↔ access.GrantedByEntry (s.machine.detail r).changedEntry) ∧
    (¬ s.Completes os access → ∃ s', s.step os kernelBaseInfo (.access access) = some s' ∧
      s'.guestRip = none ∧
      s'.machine.guest.pendingInjection = some (access.guestLinearAddress,
        1#32 ||| (if access.write then 2#32 else 0) ||| (if access.userMode then 4#32 else 0) |||
          (if access.execute then 16#32 else 0)) ∧
      s'.machine.ept = s.machine.ept ∧ s'.machine.pool = s.machine.pool) := by
  obtain ⟨pageTable', h⟩ := watched_of_run hstart hrun
  have hidle := h.not_pending hrip hout r
  refine ⟨?_, ?_⟩
  · rw [h.completes_record hr hpage, if_neg hidle]
  · intro hnot
    obtain ⟨t, ht⟩ := h.translation_some access.guestPhysicalAddr
    obtain ⟨hdenied, hstep⟩ := step_access_denied kernelBaseInfo hrip ht hnot
    have hblocked : s.machine.enterRoot.handlePageHookExit kernelBaseInfo
        (access.qualification t) access.guestPhysicalAddr access.guestLinearAddress guestRip =
          (true, s.machine.enterRoot.injectPageFault access.guestLinearAddress
            (EptViolation.pageFaultErrorCode (access.qualification t))) :=
      Machine.handlePageHookExit_blocked
      (fun hzero => h.monitored.nonzero r hr (hpage.trans hzero))
      (h.monitored.find_record hr hpage)
      (fun hnone => hdenied ((access.deniedAccess_qualification t).mp hnone)) hout
    refine ⟨_, hstep.trans (violate_eq os kernelBaseInfo access t guestRip s), ?_, ?_, ?_, ?_⟩
    · simp only [hblocked]
      rfl
    · simp only [hblocked, ← access.pageFaultErrorCode_qualification t]
      rfl
    · simp only [hblocked]
      rfl
    · simp only [hblocked]
      rfl

/-- In every state of an orderly run, an access below 512GB of an instruction of the kernel
image, or to a page without a record, completes, if need be after one violation that the
instruction does not notice. -/
theorem access_completes {os : Os} {kernelBaseInfo : KernelBaseInfo}
    {pageTable : VmmEptPageTable} {s0 s : GuestCpu Caller} {actions : List (GuestAction Caller)}
    (hstart : s0.Launched os pageTable)
    (hrun : GuardedRun (step os kernelBaseInfo) (Orderly os) s0 actions s) {guestRip : Word}
    (hrip : s.guestRip = some guestRip) {access : GuestAccess}
    (hlow : access.guestPhysicalAddr.toNat < 2 ^ 39) (horderly : s.Orderly os (.access access))
    (hallowed : kernelBaseInfo.isAccessFromKernelImage guestRip = true ∨
      ∀ r ∈ s.machine.ept.hookedPages,
        (s.machine.detail r).physicalBaseAddress ≠ pageAlign access.guestPhysicalAddr) :
    s.Completes os access ∨ ∃ s', s.step os kernelBaseInfo (.access access) = some s' ∧
      s'.guestRip = some guestRip ∧ s'.Completes os access := by
  obtain ⟨pageTable', h⟩ := watched_of_run hstart hrun
  by_cases hcompletes : s.Completes os access
  · exact Or.inl hcompletes
  by_cases hhooked : ∀ r ∈ s.machine.ept.hookedPages,
      (s.machine.detail r).physicalBaseAddress ≠ pageAlign access.guestPhysicalAddr
  · exact Or.inl (h.completes_free hlow hhooked)
  have hin := hallowed.resolve_right hhooked
  simp only [not_forall, not_not] at hhooked
  obtain ⟨r, hr, hpage⟩ := hhooked
  obtain ⟨t, ht⟩ := h.translation_some access.guestPhysicalAddr
  obtain ⟨hdenied, hstep⟩ := step_access_denied kernelBaseInfo hrip ht hcompletes
  obtain ⟨s', hs'⟩ : ∃ s', s.step os kernelBaseInfo (.access access) = some s' :=
    ⟨_, hstep.trans (violate_eq os kernelBaseInfo access t guestRip s)⟩
  obtain ⟨pageTable'', h'⟩ := step_watched h horderly hs'
  have hfound : s.machine.enterRoot.opened kernelBaseInfo (access.qualification t)
      access.guestPhysicalAddr guestRip = some r := by
    have hopened : ¬ (pageAlign access.guestPhysicalAddr = 0 ∨
        EptViolation.deniedAccess (access.qualification t) = none ∨
        kernelBaseInfo.isAccessFromKernelImage guestRip = false) := by
      rw [access.deniedAccess_qualification t, hin]
      rintro (hzero | hgranted | himage)
      · exact h.monitored.nonzero r hr (hpage.trans hzero)
      · exact hdenied hgranted
      · simp at himage
    rw [Machine.opened, if_neg hopened]
    exact h.monitored.find_record hr hpage
  have hmachine : s'.machine = (s.machine.enterRoot.openPage r).leaveRoot := by
    rcases Machine.handlePageHookExit_ends s.machine.enterRoot kernelBaseInfo
      (access.qualification t) access.guestPhysicalAddr access.guestLinearAddress guestRip with
      ⟨hnone, _⟩ | ⟨q, _, hq, hresult⟩
    · rw [hfound] at hnone
      simp at hnone
    · obtain rfl : r = q := Option.some.inj (hfound.symm.trans hq)
      rw [hstep, violate_eq] at hs'
      obtain rfl := Option.some.inj hs'
      simp only [hresult]
  have hpending : s'.machine.guest.hookedPage = some r := by
    rw [hmachine]
    rfl
  have hr' := h'.monitored.listed r hpending
  have hdetail : s'.machine.detail r = s.machine.detail r := by
    rw [hmachine]
    exact Machine.detail_setPml1 s.machine _ r _
  refine Or.inr ⟨s', hs', ?_, ?_⟩
  · obtain ⟨rip, hsome, _⟩ := h'.kernel r hpending
    rw [hstep, violate_eq] at hs'
    obtain rfl := Option.some.inj hs'
    simp only at hsome ⊢
    split at hsome
    · simp at hsome
    · rename_i hclear
      rw [if_neg hclear]
      exact hrip
  · rw [h'.completes_record hr' (hdetail ▸ hpage), if_pos hpending]
    exact (h'.monitored.original r hr').grantedByEntry access

theorem flatCpu_launched (paging hooks : ℕ) : (flatCpu paging hooks).Launched flatOs flatTable :=
  ⟨Machine.flatMachine_started paging hooks, rfl, (by decide : VmState.monitorTrapFlag
    ⟨true, true, none, 0, none⟩ = false), rfl⟩

def hookedCpu (guestRip : Word) : GuestCpu Unit :=
  execute (step flatOs Machine.flatKernel) (flatCpu 1 1)
    [.cache 0x200000#64, .fetch 0x1000#64, .vmcall 3 0x200000#64 1, .fetch guestRip]

theorem hookedCpu_run : GuardedRun (step flatOs Machine.flatKernel) (Orderly flatOs) (flatCpu 1 1)
    [.cache 0x200000#64, .fetch 0x1000#64, .vmcall 3 0x200000#64 1, .fetch 0x7000#64]
    (hookedCpu 0x7000#64) :=
  guardedRun_of_allowed (by decide +kernel)

theorem hookedCpu_run_kernel :
    GuardedRun (step flatOs Machine.flatKernel) (Orderly flatOs) (flatCpu 1 1)
      [.cache 0x200000#64, .fetch 0x1000#64, .vmcall 3 0x200000#64 1,
        .fetch 0xFFFFF80000001000#64] (hookedCpu 0xFFFFF80000001000#64) :=
  guardedRun_of_allowed (by decide +kernel)

/-- The page may be read, and a write to it faults. -/
theorem access_outside_kernel_write :
    (hookedCpu 0x7000#64).Completes flatOs
      ⟨0x200018#64, 0x200018#64, true, false, false, true, 0⟩ ∧
    ¬ (hookedCpu 0x7000#64).Completes flatOs (writeAccess 0x200018#64) ∧
    ∃ s', (hookedCpu 0x7000#64).step flatOs Machine.flatKernel
        (.access (writeAccess 0x200018#64)) = some s' ∧
      s'.machine.guest.pendingInjection = some (0x200018#64, 3#32) := by
  have hpage : ((hookedCpu 0x7000#64).machine.detail 0x20000#64).physicalBaseAddress =
      pageAlign 0x200018#64 := by decide +kernel
  have hrecord : (0x20000#64 : Pvoid) ∈ (hookedCpu 0x7000#64).machine.ept.hookedPages := by
    decide +kernel
  have hrip : (hookedCpu 0x7000#64).guestRip = some 0x7000#64 := by decide +kernel
  have hwritten : ((hookedCpu 0x7000#64).machine.detail 0x20000#64).physicalBaseAddress =
      pageAlign (writeAccess 0x200018#64).guestPhysicalAddr := hpage
  obtain ⟨hgranted, hfaults⟩ := access_outside_kernel (flatCpu_launched 1 1) hookedCpu_run hrip
    (by decide) hrecord hwritten
  have hnot : ¬ (hookedCpu 0x7000#64).Completes flatOs (writeAccess 0x200018#64) :=
    fun hcompletes => absurd ((hgranted.mp hcompletes).2.1 rfl) (by decide +kernel)
  obtain ⟨s', hstep, _, hinjected, _⟩ := hfaults hnot
  refine ⟨?_, hnot, s', hstep, hinjected⟩
  refine (access_outside_kernel (flatCpu_launched 1 1) hookedCpu_run hrip (by decide) hrecord
    hpage).1.mpr ⟨fun _ => ?_, fun h => ?_, fun h => ?_⟩
  · decide +kernel
  · simp at h
  · simp at h

/-- The kernel's write to the page completes after a violation. -/
theorem access_completes_kernel :
    (hookedCpu 0xFFFFF80000001000#64).Completes flatOs (writeAccess 0x200018#64) ∨ ∃ s',
      (hookedCpu 0xFFFFF80000001000#64).step flatOs Machine.flatKernel
        (.access (writeAccess 0x200018#64)) = some s' ∧
      s'.guestRip = some 0xFFFFF80000001000#64 ∧ s'.Completes flatOs (writeAccess 0x200018#64) :=
  access_completes (flatCpu_launched 1 1) hookedCpu_run_kernel (by decide +kernel) (by decide)
    (by decide +kernel) (Or.inl (by decide +kernel))

end GuestCpu

end NovaHypervisor

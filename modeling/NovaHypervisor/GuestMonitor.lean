import NovaHypervisor.Alias
import NovaHypervisor.CachedTranslations

/-!
The hook list as a reference monitor of the guest's memory. While every hook is of a
page of its own, a page without a record is open, a page with one has the changed
entry of its record between instructions, and the saved, open entry only while an
instruction of the kernel image is executing.
-/
namespace NovaHypervisor

open General

/-- Two addresses on one page. -/
theorem pageAlign_eq_iff (x y : Word) :
    pageAlign x = pageAlign y ↔ x.toNat / 4096 = y.toNat / 4096 := by
  rw [← BitVec.toNat_inj, toNat_pageAlign, toNat_pageAlign]
  omega

def GuestAccess.GrantedByEntry (access : GuestAccess) (entry : Word) : Prop :=
  (access.read = true → Epte.readAccess.get entry ≠ 0) ∧
    (access.write = true → Epte.writeAccess.get entry ≠ 0) ∧
    (access.execute = true → Epte.executeAccess.get entry ≠ 0)

theorem FullAccess.grantedByEntry {entry : Word} (h : FullAccess entry) (access : GuestAccess) :
    access.GrantedByEntry entry := by
  refine ⟨fun _ => ?_, fun _ => ?_, fun _ => ?_⟩
  · rw [h.read]
    decide
  · rw [h.write]
    decide
  · rw [h.execute]
    decide

theorem GuestAccess.grantedBy_congr (access : GuestAccess) {t u : Translation}
    (h : t.SameAccess u) : access.GrantedBy t ↔ access.GrantedBy u := by
  rw [GuestAccess.GrantedBy, GuestAccess.GrantedBy, h.2.1, h.2.2.1, h.2.2.2]

namespace Machine

variable {Caller : Type*} [DecidableEq Caller]

/-- A split page grants what its leaf grants. -/
theorem Coherent.translate_rights {os : Os} {pageTable : VmmEptPageTable} {m : Machine Caller}
    (h : m.Coherent os pageTable) {x : Word} (hx : IsSplit pageTable (pml2Key x)) :
    (m.translate os pageTable x).read = Epte.readAccess.get (m.leaf os pageTable x) ∧
      (m.translate os pageTable x).write = Epte.writeAccess.get (m.leaf os pageTable x) ∧
      (m.translate os pageTable x).execute = Epte.executeAccess.get (m.leaf os pageTable x) := by
  obtain ⟨hread, hwrite, hexecute⟩ := newSplitPtr_access os (tableOf os pageTable (pml2Key x))
  have hone : ∀ f : BitField 64, f.width = 1 → ∀ y, 1 &&& f.get y = f.get y := by
    intro f hf y
    rcases BitField.get_eq_zero_or_one f hf y with hzero | hone
    · rw [hzero]
      decide
    · rw [hone]
      decide
  rw [translate, walk_of_split hx]
  simp only [h.pointer _ hx, hread, hwrite, hexecute, hone Epte.readAccess rfl,
    hone Epte.writeAccess rfl, hone Epte.executeAccess rfl]
  exact ⟨rfl, rfl, rfl⟩

omit [DecidableEq Caller] in
/-- The page is the physical page of the record. -/
theorem base_eq_iff_about {os : Os} {pageTable : VmmEptPageTable} {m : Machine Caller} {r : Pvoid}
    (h : RecordOf os pageTable (m.detail r)) (x : Word) :
    (m.detail r).physicalBaseAddress = pageAlign x ↔ m.About r x := by
  rw [h.base, pageAlign_eq_iff, About]

/-- Protected pages, each with one record, that are open between the violation that a
record allows and the end of the instruction; all other pages are open. -/
structure Monitored (os : Os) (pageTable : VmmEptPageTable) (m : Machine Caller) : Prop extends
    m.Protected os pageTable where
  nonzero : ∀ r ∈ m.ept.hookedPages, (m.detail r).physicalBaseAddress ≠ 0
  original : ∀ r ∈ m.ept.hookedPages, FullAccess (m.detail r).originalEntry
  opened : ∀ r, m.guest.hookedPage = some r →
    m.leaf os pageTable (m.detail r).physicalAddress = (m.detail r).originalEntry
  free : ∀ x : Word, x.toNat < 2 ^ 39 → (∀ r ∈ m.ept.hookedPages, ¬ m.About r x) →
    (m.translate os pageTable x).read = 1 ∧ (m.translate os pageTable x).write = 1 ∧
      (m.translate os pageTable x).execute = 1

/-- A record goes while no page is open. -/
theorem Protected.unhook {os : Os} {pageTable : VmmEptPageTable} {m m' : Machine Caller}
    (h : m.Protected os pageTable) {r : Pvoid} (hr : r ∈ m.ept.hookedPages)
    (hidle : m.guest.hookedPage = none) (hunhooked : Unhooked os pageTable r m m') :
    m'.Protected os pageTable := by
  have hmem : ∀ q, q ∈ m'.ept.hookedPages ↔ q ≠ r ∧ q ∈ m.ept.hookedPages := by
    intro q
    rw [hunhooked.hookedPages, h.coherent.nodup.mem_erase_iff]
  have hdetail : ∀ q ∈ m'.ept.hookedPages, m'.detail q = m.detail q := fun q hq =>
    hunhooked.detail q ((hmem q).mp hq).2 ((hmem q).mp hq).1
  refine ⟨hunhooked.coherent, ?_, ?_, ?_, ?_⟩
  · intro q hq p hp heq
    rw [hdetail q hq, hdetail p hp] at heq
    exact h.distinct q ((hmem q).mp hq).2 p ((hmem p).mp hp).2 heq
  · rw [hunhooked.guest, hidle]
    simp
  · intro q hq _
    obtain ⟨hqr, hold⟩ := (hmem q).mp hq
    rw [hdetail q hq, hunhooked.leafSet.other _ (h.coherent.record q hold).split
      (h.not_samePage hr hold hqr)]
    refine h.armed q hold ?_
    rw [hidle]
    simp
  · rw [hunhooked.guest]
    exact h.flag

namespace Monitored

variable {os : Os} {pageTable : VmmEptPageTable} {m m' : Machine Caller}

theorem tabled (h : m.Monitored os pageTable) : m.Tabled os pageTable := ⟨h.coherent, h.listed⟩

theorem withGuest (h : m.Monitored os pageTable) {guest : VmState}
    (hpending : guest.hookedPage = m.guest.hookedPage)
    (hflag : guest.monitorTrapFlag = m.guest.monitorTrapFlag) :
    ({ m with guest := guest } : Machine Caller).Monitored os pageTable := by
  refine ⟨h.toProtected.withGuest hpending hflag, h.nonzero, h.original, ?_, h.free⟩
  intro r hr
  exact h.opened r (hpending.symm.trans hr)

theorem extend (h : m.Monitored os pageTable) {pageTable' : VmmEptPageTable}
    (hext : Extends os pageTable m pageTable' m') : m'.Monitored os pageTable' := by
  refine ⟨h.toProtected.extend hext, ?_, ?_, ?_, ?_⟩
  · intro r hr
    rw [hext.hookedPages] at hr
    rw [hext.detail r hr]
    exact h.nonzero r hr
  · intro r hr
    rw [hext.hookedPages] at hr
    rw [hext.detail r hr]
    exact h.original r hr
  · intro r hpending
    rw [hext.guest] at hpending
    have hr := h.listed r hpending
    rw [hext.detail r hr, hext.leaf_eq (h.coherent.record r hr).split]
    exact h.opened r hpending
  · intro x hx hnone
    rw [hext.hookedPages] at hnone
    obtain ⟨_, hread, hwrite, hexecute⟩ := hext.access x
    rw [hread, hwrite, hexecute]
    refine h.free x hx fun r hr hpage => hnone r hr ?_
    exact (about_congr (hext.detail r hr) x).mpr hpage

/-- A record's leaf becomes the saved entry with its record pending, or nothing is pending. -/
theorem setRecord (h : m.Monitored os pageTable) {r : Pvoid} (hr : r ∈ m.ept.hookedPages)
    {value : Word} {guest : VmState}
    (hprotected : ({ m.setPml1 (m.detail r).entryAddress value with guest := guest } :
      Machine Caller).Protected os pageTable)
    (hopened : ∀ q, guest.hookedPage = some q → q = r ∧ value = (m.detail r).originalEntry) :
    ({ m.setPml1 (m.detail r).entryAddress value with guest := guest } :
      Machine Caller).Monitored os pageTable := by
  have hrecord := h.coherent.record r hr
  have hset := h.coherent.leafSet hrecord.split value
  have hdetail : ∀ q, (m.setPml1 (m.detail r).entryAddress value).detail q = m.detail q :=
    fun q => detail_setPml1 m _ q value
  refine ⟨hprotected, ?_, ?_, ?_, ?_⟩
  · intro q hq
    exact (hdetail q).symm ▸ h.nonzero q hq
  · intro q hq
    exact (hdetail q).symm ▸ h.original q hq
  · intro q hpending
    obtain ⟨rfl, hvalue⟩ := hopened q hpending
    change (m.setPml1 _ value).leaf os pageTable ((m.setPml1 _ value).detail q).physicalAddress =
      ((m.setPml1 _ value).detail q).originalEntry
    rw [hdetail q, ← hvalue, hrecord.entry]
    exact hset.leaf
  · intro x hx hnone
    have hpage : ¬ SamePage x (m.detail r).physicalAddress := by
      rw [samePage_iff hx hrecord.low]
      intro heq
      exact hnone r hr ((about_congr (hdetail r) x).mpr heq.symm)
    have htranslate := hset.translate_other hpage
    rw [← hrecord.entry] at htranslate
    change ((m.setPml1 _ value).translate os pageTable x).read = 1 ∧
      ((m.setPml1 _ value).translate os pageTable x).write = 1 ∧
        ((m.setPml1 _ value).translate os pageTable x).execute = 1
    rw [htranslate]
    exact h.free x hx fun q hq hq' => hnone q hq ((about_congr (hdetail q) x).mpr hq')

theorem openPage (h : m.Monitored os pageTable) {r : Pvoid} (hr : r ∈ m.ept.hookedPages)
    (hfree : m.guest.hookedPage = none ∨ m.guest.hookedPage = some r) :
    (m.openPage r).Monitored os pageTable := by
  refine h.setRecord hr (h.toProtected.openPage hr hfree) ?_
  intro q hq
  exact ⟨(Option.some.inj hq).symm, rfl⟩

theorem monitorTrapFlagExit (h : m.Monitored os pageTable)
    (hexit : m.monitorTrapFlagExit = some m') :
    m'.Monitored os pageTable ∧ m'.guest.hookedPage = none := by
  have hprotected := h.toProtected.monitorTrapFlagExit hexit
  rcases monitorTrapFlagExit_ends hexit with ⟨hpending, rfl⟩ | ⟨r, hpending, rfl⟩
  · refine ⟨h.withGuest rfl ?_, hpending⟩
    rw [VmState.monitorTrapFlag_set, h.flag, hpending]
    rfl
  · refine ⟨h.setRecord (h.listed r hpending) hprotected ?_, rfl⟩
    simp [VmState.setMonitorTrapFlag]

/-- A hook of a page of its own, with its record. -/
theorem installed (h : m.Monitored os pageTable) {targetFunc r : Pvoid} {permissions : BitVec 8}
    (hlow : (hookAddress os targetFunc).toNat < 2 ^ 39)
    (hsplit : IsSplit pageTable (pml2Key (hookAddress os targetFunc)))
    (hnonzero : pageAlign (hookAddress os targetFunc) ≠ 0)
    (hfresh : ∀ q ∈ m.ept.hookedPages,
      (m.detail q).physicalBaseAddress ≠ pageAlign (hookAddress os targetFunc))
    (hinstalled : Installed os targetFunc pageTable
      (changeAccess (m.leaf os pageTable (hookAddress os targetFunc)) permissions) m r m')
    (hprotected : m'.Protected os pageTable) : m'.Monitored os pageTable := by
  have hmem : ∀ q, q ∈ m'.ept.hookedPages ↔ q = r ∨ q ∈ m.ept.hookedPages := by
    intro q
    rw [hinstalled.hookedPages, List.mem_cons]
  have hself : m'.About r (hookAddress os targetFunc) := by
    rw [About, hinstalled.record]
    rfl
  have hnone : ∀ q ∈ m.ept.hookedPages, ¬ m.About q (hookAddress os targetFunc) := by
    intro q hq hpage
    exact hfresh q hq ((base_eq_iff_about (h.coherent.record q hq) _).mpr hpage)
  refine ⟨hprotected, ?_, ?_, ?_, ?_⟩
  · intro q hq
    rcases (hmem q).mp hq with rfl | hold
    · rw [hinstalled.record]
      exact hnonzero
    · rw [hinstalled.detail q hold]
      exact h.nonzero q hold
  · intro q hq
    rcases (hmem q).mp hq with rfl | hold
    · rw [hinstalled.record]
      exact (h.coherent.translate_access hsplit).mpr (h.free _ hlow hnone)
    · rw [hinstalled.detail q hold]
      exact h.original q hold
  · intro q hpending
    rw [hinstalled.guest] at hpending
    have hq := h.listed q hpending
    have hpage : ¬ SamePage (m.detail q).physicalAddress (hookAddress os targetFunc) := by
      rw [samePage_iff (h.coherent.record q hq).low hlow]
      exact hnone q hq
    rw [hinstalled.detail q hq, hinstalled.leafSet.other _ (h.coherent.record q hq).split hpage]
    exact h.opened q hpending
  · intro x hx hother
    have hpage : ¬ SamePage x (hookAddress os targetFunc) := by
      rw [samePage_iff hx hlow]
      intro heq
      exact hother r ((hmem r).mpr (Or.inl rfl)) (Eq.trans hself heq.symm)
    rw [hinstalled.leafSet.translate_other hpage]
    refine h.free x hx fun q hq hq' => ?_
    exact hother q ((hmem q).mpr (Or.inr hq)) ((about_congr (hinstalled.detail q hq) x).mpr hq')

theorem unhook (h : m.Monitored os pageTable) {r : Pvoid} (hr : r ∈ m.ept.hookedPages)
    (hidle : m.guest.hookedPage = none) (hunhooked : Unhooked os pageTable r m m') :
    m'.Monitored os pageTable := by
  have hrecord := h.coherent.record r hr
  have hmem : ∀ q, q ∈ m'.ept.hookedPages ↔ q ≠ r ∧ q ∈ m.ept.hookedPages := by
    intro q
    rw [hunhooked.hookedPages, h.coherent.nodup.mem_erase_iff]
  have hdetail : ∀ q ∈ m'.ept.hookedPages, m'.detail q = m.detail q := fun q hq =>
    hunhooked.detail q ((hmem q).mp hq).2 ((hmem q).mp hq).1
  refine ⟨h.toProtected.unhook hr hidle hunhooked, ?_, ?_, ?_, ?_⟩
  · intro q hq
    rw [hdetail q hq]
    exact h.nonzero q ((hmem q).mp hq).2
  · intro q hq
    rw [hdetail q hq]
    exact h.original q ((hmem q).mp hq).2
  · intro q hpending
    rw [hunhooked.guest, hidle] at hpending
    simp at hpending
  · intro x hx hnone
    by_cases hpage : m.About r x
    · have hsame := (samePage_iff hx hrecord.low).mpr (Eq.symm hpage)
      have hsplit : IsSplit pageTable (pml2Key x) := by
        rw [hsame.1]
        exact hrecord.split
      rw [← hunhooked.coherent.translate_access hsplit, leaf_congr m' hsame,
        hunhooked.leafSet.leaf]
      exact h.original r hr
    · have hother : ¬ SamePage x (m.detail r).physicalAddress := by
        rw [samePage_iff hx hrecord.low]
        exact fun heq => hpage heq.symm
      rw [hunhooked.leafSet.translate_other hother]
      refine h.free x hx fun q hq hq' => ?_
      by_cases hqr : q = r
      · exact hpage (hqr ▸ hq')
      · have hq1 := (hmem q).mpr ⟨hqr, hq⟩
        exact hnone q hq1 ((about_congr (hdetail q hq1) x).mpr hq')

theorem unhookAll (h : m.Monitored os pageTable) (hidle : m.guest.hookedPage = none) :
    (m.ept.hookedPages.foldl (fun m r => m.releaseHook os r) m).Monitored os pageTable ∧
      (m.ept.hookedPages.foldl (fun m r => m.releaseHook os r) m).guest.hookedPage = none := by
  generalize hl : m.ept.hookedPages = l
  induction l generalizing m with
  | nil => exact ⟨h, hidle⟩
  | cons r l ih =>
    have hr : r ∈ m.ept.hookedPages := by simp [hl]
    have hunhooked := h.coherent.releaseHook hr
    refine ih (h.unhook hr hidle hunhooked) ?_ ?_
    · rw [hunhooked.guest, hidle]
    · rw [hunhooked.hookedPages, hl, List.erase_cons_head]

end Monitored

end Machine

end NovaHypervisor

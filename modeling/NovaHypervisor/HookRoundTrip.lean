import NovaHypervisor.HookOutcome

/-!
`PageUnhookVmcall` after `RootModePageHook`. A large page stays split, so the two
calls are compared by what every page translates to. In the states that runs reach
the other parties of the pool may act; in any other state they may not, for nothing
is known there of the buffers that they write to.
-/
namespace NovaHypervisor

open General

namespace Machine

variable {Caller : Type*} [DecidableEq Caller]

theorem allocate_quiet {os : Os} {type : AllocationType} {m m' : Machine Caller}
    {result : Option Pvoid} (hquiet : m.pool.upcoming = [])
    (h : m.allocate os type = (result, m')) : m'.pool.upcoming = [] ∧ m'.buffer = m.buffer ∧
      m'.ept = m.ept ∧ m'.guest = m.guest := by
  have hpool := SharedPool.allocate_quiet os.toAllocator type hquiet
  obtain ⟨_, rfl⟩ := Prod.mk.inj h
  exact ⟨hpool.2, hpool.1, rfl, rfl⟩

theorem free_quiet (os : Os) (a : Pvoid) (type : AllocationType) {m : Machine Caller}
    (hquiet : m.pool.upcoming = []) : (m.free os a type).pool.upcoming = [] ∧
      (m.free os a type).buffer = m.buffer := by
  have hpool := SharedPool.free_quiet os.toAllocator a type hquiet
  exact ⟨hpool.2, hpool.1⟩

/-- The buffers that the page table and the hook list refer to. -/
def Refers (os : Os) (pageTable : VmmEptPageTable) (m : Machine Caller) (a : Pvoid) : Prop :=
  (∃ e, IsSplit pageTable e ∧ tableOf os pageTable e = a) ∨ a ∈ m.ept.hookedPages

/-- The pool, left to this processor, hands out buffers that nothing refers to. -/
structure HandsOutUnused (os : Os) (pageTable : VmmEptPageTable) (targetFunc : Pvoid)
    (permissions : BitVec 8) (m : Machine Caller) : Prop where
  quiet : m.pool.upcoming = []
  table : ∀ a m', m.allocate os .split2mbPagingTo4kbPage = (some a, m') →
    os.grants .split2mbPagingTo4kbPage a = true ∧ ¬ m.Refers os pageTable a
  record : ∀ a entry changedEntry m1, m.prepareHook os targetFunc permissions =
      some (.ready a entry changedEntry, m1) →
    ∀ r m2, m1.allocate os .eptHookPage = (some r, m2) → r ≠ a ∧ ¬ m.Refers os pageTable r

/-- The machine before the record: its table translates as the one before the call, and
every buffer but the hook's own is as it was. -/
structure Prepared (os : Os) (pageTable : VmmEptPageTable) (a x : Word) (entry : PeptPml1Entry)
    (m : Machine Caller) (pageTable' : VmmEptPageTable) (m' : Machine Caller) : Prop where
  quiet : m'.pool.upcoming = []
  guest : m'.guest = m.guest
  hookedPages : m'.ept.hookedPages = m.ept.hookedPages
  pageTable_eq : m'.ept.eptPageTable = some pageTable'
  split : IsSplit pageTable' (pml2Key x)
  entry_eq : entry = leafPointer os pageTable' x
  table : ∀ e, IsSplit pageTable' e → tableOf os pageTable' e = a ∨
    IsSplit pageTable e ∧ tableOf os pageTable e = tableOf os pageTable' e
  detail : ∀ r ∈ m.ept.hookedPages, m'.detail r = m.detail r
  access : ∀ y, (m'.translate os pageTable' y).SameAccess (m.translate os pageTable y)

theorem prepared_of_ready {os : Os} {pageTable : VmmEptPageTable} {m m1 : Machine Caller}
    {targetFunc a : Pvoid} {permissions : BitVec 8} {entry : PeptPml1Entry} {changedEntry : Word}
    (htable : m.ept.eptPageTable = some pageTable)
    (hlarge : ∀ e, ¬ IsSplit pageTable e → LargeAccess (pageTable.pml2 e))
    (hpool : HandsOutUnused os pageTable targetFunc permissions m)
    (hprep : m.prepareHook os targetFunc permissions =
      some (.ready a entry changedEntry, m1)) :
    ∃ pageTable', Prepared os pageTable a (hookAddress os targetFunc) entry m pageTable' m1 := by
  obtain ⟨m0, halloc, hsplit, hleaf, _⟩ := prepareHook_ready hprep
  obtain ⟨hquiet, hbuffer, hept, hguest⟩ := allocate_quiet hpool.quiet halloc
  obtain ⟨hgrant, hunused⟩ := hpool.table a m0 halloc
  obtain ⟨pageTable', htable', hwired, hentry⟩ := getPml1Entry_some hleaf
  obtain ⟨pageTable0, e, htable0, hcases⟩ :=
    ((splitLargePage_ends hsplit).resolve_left (by simp)).2
  obtain rfl : pageTable = pageTable0 := by
    rw [hept, htable] at htable0
    exact Option.some.inj htable0
  rcases hcases with rfl | ⟨he, rfl⟩
  · obtain ⟨hquiet1, hbuffer1⟩ := free_quiet os a .split2mbPagingTo4kbPage hquiet
    obtain rfl : pageTable = pageTable' := Option.some.inj (htable0.symm.trans htable')
    have hsame := hbuffer1.trans hbuffer
    refine ⟨pageTable, hquiet1, hguest, congrArg Ept.hookedPages hept, htable', hwired, hentry,
      fun e he => Or.inr ⟨he, rfl⟩, ?_, ?_⟩
    · intro r _
      rw [detail, hsame, detail]
    · intro y
      change (walk os pageTable (buffer (m0.free os a _)) y).SameAccess _
      rw [hsame]
      exact Translation.SameAccess.refl _
  · obtain rfl : pageTable.setPml2 e (Ept.newSplitPtr os a) = pageTable' :=
      Option.some.inj htable'
    have hlist : m0.ept.hookedPages = m.ept.hookedPages := by rw [hept]
    refine ⟨pageTable.setPml2 e (Ept.newSplitPtr os a), hquiet, hguest, hlist, rfl, hwired, hentry,
      ?_, ?_, ?_⟩
    · intro f hf
      rcases isSplit_wired_cases hgrant hf with ⟨_, hself⟩ | ⟨_, hold, hkept⟩
      · exact Or.inl hself
      · exact Or.inr ⟨hold, hkept.symm⟩
    · intro r hr
      have hra : r ≠ a := by
        intro heq
        subst heq
        exact hunused (Or.inr hr)
      refine (congrArg PoolBuffer.detail (buffer_setBuffer_of_ne m0 hra _)).trans ?_
      rw [hbuffer, detail]
    · intro y
      refine walk_split m0.ept hgrant (fun f hf heq => hunused (Or.inl ⟨f, hf, heq⟩)) he
        (hlarge e he) ?_ ?_ y
      · exact congrArg (fun b => b.split.pml1) (buffer_setBuffer_self m0 a _)
      · intro b hb
        exact (buffer_setBuffer_of_ne m0 hb _).trans (congrFun hbuffer b)

omit [DecidableEq Caller] in
/-- Writing back what a leaf held undoes the write. -/
theorem setPml1_restore {m : Machine Caller} {entry : PeptPml1Entry} {original : Word}
    (h : m.pml1 entry = original) (value : Word) :
    ((m.setPml1 entry value).setPml1 entry original).buffer = m.buffer := by
  subst h
  funext b
  by_cases hb : b = entry.table
  · subst hb
    simp [setPml1, pml1]
  · simp only [setPml1, buffer_setBuffer_of_ne _ hb]

omit [DecidableEq Caller] in
theorem getHookedPage_head {m : Machine Caller} {r : Pvoid} {hooks : List Pvoid} {v : Word}
    (hlist : m.ept.hookedPages = r :: hooks)
    (hvirtual : (m.detail r).virtualAddress = pageAlign v) : m.getHookedPage v = some r := by
  rw [getHookedPage, hlist]
  exact List.find?_cons_of_pos (decide_eq_true hvirtual)

theorem releaseHook_quiet (os : Os) {m : Machine Caller} (r : Pvoid)
    (hquiet : m.pool.upcoming = []) : (m.releaseHook os r).buffer =
      (m.setPml1 (m.detail r).entryAddress (m.detail r).originalEntry).buffer :=
  (free_quiet (m := { m.setPml1 (m.detail r).entryAddress (m.detail r).originalEntry with
    ept := { m.ept with hookedPages := m.ept.hookedPages.erase r } }) os r .eptHookPage hquiet).2

/-- Releasing the record that was just installed leaves what every other buffer held. -/
theorem releaseHook_installHook (os : Os) {m : Machine Caller} (targetFunc : Pvoid)
    {entry : PeptPml1Entry} (changedEntry : Word) {r : Pvoid} (hr : entry.table ≠ r)
    (hquiet : m.pool.upcoming = []) {b : Pvoid} (hb : b ≠ r) :
    ((m.installHook os targetFunc entry changedEntry r).releaseHook os r).buffer b =
      m.buffer b := by
  have hrecord := detail_installHook os m targetFunc entry changedEntry r
  have hleaf : (m.addRecord r (hookRecord os targetFunc entry (m.pml1 entry) changedEntry)).pml1
      entry = m.pml1 entry := by
    rw [pml1, pml1, buffer_addRecord_of_ne m hr]
  rw [releaseHook_quiet (m := m.installHook os targetFunc entry changedEntry r) os r hquiet,
    hrecord]
  change (((m.addRecord r _).setPml1 entry changedEntry).setPml1 entry (m.pml1 entry)).buffer b = _
  rw [setPml1_restore hleaf, buffer_addRecord_of_ne m hb]

/-- In any state, with no other party acting. -/
theorem unhook_of_quiet {os : Os} {pageTable : VmmEptPageTable} {m m' : Machine Caller}
    {targetFunc v : Pvoid} {permissions : BitVec 8}
    (htable : m.ept.eptPageTable = some pageTable)
    (hlarge : ∀ e, ¬ IsSplit pageTable e → LargeAccess (pageTable.pml2 e))
    (hpool : HandsOutUnused os pageTable targetFunc permissions m)
    (hroot : m.guest.isOnVmxRoot = true)
    (hnew : m.isHookExists (pageAlign targetFunc) = false)
    (hsame : pageAlign v = pageAlign targetFunc)
    (hcall : m.rootModePageHook os targetFunc permissions = some (true, m')) :
    ∃ m'', m'.pageUnhookVmcall os v = (true, m'') ∧ Unchanged os m m'' := by
  rcases rootModePageHook_ends hcall with hprep | ⟨a, entry, changedEntry, m1, hprep, hend⟩
  · rw [prepareHook_done_true hprep] at hnew
    exact absurd hnew (by simp)
  rcases hend with ⟨_, _, hfalse, _⟩ | ⟨r, m2, halloc, _, rfl⟩
  · simp at hfalse
  obtain ⟨pageTable', hprepared⟩ := prepared_of_ready htable hlarge hpool hprep
  obtain ⟨hra, hunused⟩ := hpool.record a entry changedEntry m1 hprep r m2 halloc
  obtain ⟨hquiet, hbuffer, hept, hguest⟩ := allocate_quiet hprepared.quiet halloc
  have htableOf : ∀ e, IsSplit pageTable' e → tableOf os pageTable' e ≠ r := by
    intro e he heq
    rcases hprepared.table e he with hnewTable | ⟨hold, holdTable⟩
    · exact hra (heq.symm.trans hnewTable)
    · exact hunused (Or.inl ⟨e, hold, holdTable.trans heq⟩)
  have hentry : entry.table ≠ r := by
    rw [hprepared.entry_eq]
    exact htableOf _ hprepared.split
  have hfound : (m2.installHook os targetFunc entry changedEntry r).getHookedPage v = some r :=
    getHookedPage_head rfl (by rw [detail_installHook, hsame]; rfl)
  have hrootNow : (m2.installHook os targetFunc entry changedEntry r).guest.isOnVmxRoot = true :=
    (congrArg VmState.isOnVmxRoot (hguest.trans hprepared.guest)).trans hroot
  have hother : ∀ b, b ≠ r → ((m2.installHook os targetFunc entry changedEntry r).releaseHook
      os r).buffer b = m1.buffer b := by
    intro b hb
    rw [releaseHook_installHook os targetFunc changedEntry hentry hquiet hb, hbuffer]
  refine ⟨(m2.installHook os targetFunc entry changedEntry r).releaseHook os r, ?_, ?_, ?_, ?_⟩
  · rw [pageUnhookVmcall, if_neg (not_not_intro hrootNow), hfound]
  · intro x _
    refine ⟨m.translate os pageTable x, ((m2.installHook os targetFunc entry changedEntry
      r).releaseHook os r).translate os pageTable' x, ?_, ?_, ?_⟩
    · rw [translation, htable, Option.map_some]
    · refine congrArg (Option.map _) (?_ : m2.ept.eptPageTable = some pageTable')
      rw [hept, hprepared.pageTable_eq]
    · have hwalk : ((m2.installHook os targetFunc entry changedEntry r).releaseHook
          os r).translate os pageTable' x = m1.translate os pageTable' x := by
        refine walk_congr rfl fun hsplit => ?_
        exact congrArg (fun b => b.split.pml1 (pml1Index x)) (hother _ (htableOf _ hsplit))
      rw [hwalk]
      exact hprepared.access x
  · refine (List.erase_cons_head r m2.ept.hookedPages).trans ?_
    rw [hept, hprepared.hookedPages]
  · intro q hq
    have hqr : q ≠ r := by
      intro heq
      subst heq
      exact hunused (Or.inr hq)
    exact (congrArg PoolBuffer.detail (hother q hqr)).trans (hprepared.detail q hq)

/-- The leaf of the hooked page gets back what it held, and every other page has kept its
translation since before the hook. -/
theorem Hooked.access_restored {os : Os} {targetFunc : Pvoid} {permissions : BitVec 8}
    {pageTable pageTable' : VmmEptPageTable} {m m' m1 m2 m'' : Machine Caller} {a r : Pvoid}
    (h : Hooked os targetFunc permissions pageTable m a pageTable' m2 r m')
    (hext : Extends os pageTable' m' pageTable' m1)
    (hset : LeafSet os pageTable' (hookAddress os targetFunc)
      (m2.leaf os pageTable' (hookAddress os targetFunc)) m1 m'') (x : Word) :
    (m''.translate os pageTable' x).SameAccess (m.translate os pageTable x) := by
  by_cases hpage : SamePage x (hookAddress os targetFunc)
  · have hwalk : m''.translate os pageTable' x = m2.translate os pageTable' x := by
      refine walk_congr rfl fun _ => ?_
      obtain ⟨hkey, hindex⟩ := hpage
      rw [hkey, hindex]
      exact hset.leaf
    rw [hwalk]
    exact h.access x
  · rw [hset.translate_other hpage]
    refine (hext.access x).trans ?_
    rw [h.installed.leafSet.translate_other hpage]
    exact h.access x

theorem unhook_of_coherent {os : Os} {pageTable : VmmEptPageTable} {m m' m1 : Machine Caller}
    {targetFunc v : Pvoid} {permissions : BitVec 8} {others : List (PoolAction Caller PoolBuffer)}
    (h : m.Coherent os pageTable) (hroot : m.guest.isOnVmxRoot = true)
    (hnew : m.isHookExists (pageAlign targetFunc) = false)
    (hsame : pageAlign v = pageAlign targetFunc)
    (hcall : m.rootModePageHook os targetFunc permissions = some (true, m'))
    (hothers : Run (othersStep os) m' others m1) :
    ∃ m'', m1.pageUnhookVmcall os v = (true, m'') ∧ Unchanged os m m'' := by
  rcases rootModePageHook_returned h hcall with
    hdone | ⟨_, hstatus⟩ | ⟨_, a, pageTable', m2, r, hhooked⟩
  · rw [hdone.status_iff rfl] at hnew
    exact absurd hnew (by simp)
  · exact absurd hstatus (by simp)
  have hinstalled := hhooked.installed
  have hext := hinstalled.coherent.othersRun hothers
  have hlist : m1.ept.hookedPages = r :: m.ept.hookedPages := by
    rw [hext.hookedPages, hinstalled.hookedPages, hhooked.hookedPages]
  have hr : r ∈ m1.ept.hookedPages := by simp [hlist]
  have hrecord : m1.detail r = m'.detail r :=
    hext.detail r (hext.hookedPages ▸ hr)
  rw [hinstalled.record] at hrecord
  have hunhooked := hext.coherent.releaseHook hr
  have hset := hunhooked.leafSet
  simp only [hrecord] at hset
  refine ⟨m1.releaseHook os r, ?_, ?_, ?_, ?_⟩
  · have hrootNow : m1.guest.isOnVmxRoot = true := by
      rw [hext.guest, hinstalled.guest, hhooked.guest, hroot]
    have hfound : m1.getHookedPage v = some r :=
      getHookedPage_head hlist (by rw [hrecord, hsame]; rfl)
    rw [pageUnhookVmcall, if_neg (not_not_intro hrootNow), hfound]
  · intro x _
    refine ⟨m.translate os pageTable x, (m1.releaseHook os r).translate os pageTable' x, ?_, ?_, ?_⟩
    · rw [translation, h.pageTable_eq, Option.map_some]
    · rw [translation, hunhooked.coherent.pageTable_eq, Option.map_some]
    · exact hhooked.access_restored hext hset x
  · rw [hunhooked.hookedPages, hlist, List.erase_cons_head]
  · intro q hq
    have hqr : q ≠ r := by
      intro heq
      subst heq
      exact hhooked.fresh hq
    have hq2 : q ∈ m2.ept.hookedPages := hhooked.hookedPages ▸ hq
    have hq' : q ∈ m'.ept.hookedPages := by
      rw [hinstalled.hookedPages]
      exact List.mem_cons_of_mem r hq2
    rw [hunhooked.detail q (hext.hookedPages ▸ hq') hqr, hext.detail q hq',
      hinstalled.detail q hq2, hhooked.detail q hq]

/-- Unprotecting a page undoes its protection, for any address of the virtual page: in
any state while the pool is left to this processor, and in the states that no denied
hook has led to also while the other parties act between the calls and in them. -/
theorem pageUnhookVmcall_rootModePageHook {os : Os} {m m' : Machine Caller}
    {targetFunc v : Pvoid} {permissions : BitVec 8} (hroot : m.guest.isOnVmxRoot = true)
    (hpage : ∀ r ∈ m.ept.hookedPages,
      (os.mmGetPhysicalAddress (m.detail r).virtualAddress).toNat / 4096 ≠
        (hookAddress os targetFunc).toNat / 4096)
    (hsame : pageAlign v = pageAlign targetFunc)
    (hcall : m.rootModePageHook os targetFunc permissions = some (true, m')) :
    (∀ pageTable, m.ept.eptPageTable = some pageTable →
      (∀ e, ¬ IsSplit pageTable e → LargeAccess (pageTable.pml2 e)) →
      HandsOutUnused os pageTable targetFunc permissions m →
      ∃ m'', m'.pageUnhookVmcall os v = (true, m'') ∧ Unchanged os m m'') ∧
    (∀ pageTable m0 actions, Started os pageTable m0 →
      GuardedRun (hookStep os) (NotDenied os) m0 actions m →
      ∀ others m1, Run (othersStep os) m' others m1 →
        ∃ m'', m1.pageUnhookVmcall os v = (true, m'') ∧ Unchanged os m m'') := by
  have hnew : m.isHookExists (pageAlign targetFunc) = false := by
    rw [← Bool.not_eq_true]
    intro hexists
    obtain ⟨r, hfound⟩ := Option.isSome_iff_exists.mp hexists
    have hvirtual := List.find?_some hfound
    rw [decide_eq_true_iff, pageAlign_pageAlign, pageAlign_pageAlign] at hvirtual
    exact hpage r (List.mem_of_find?_eq_some hfound) (by rw [hvirtual, hookAddress])
  refine ⟨?_, ?_⟩
  · intro pageTable htable hlarge hpool
    exact unhook_of_quiet htable hlarge hpool hroot hnew hsame hcall
  · intro pageTable m0 actions hstart hclean others m1 hothers
    obtain ⟨pageTable', hcoherent⟩ := coherent_of_run hstart hclean
    exact unhook_of_coherent hcoherent hroot hnew hsame hcall hothers

theorem flatMachine_not_refers (paging hooks : ℕ) (a : Pvoid) :
    ¬ (flatMachine paging hooks).Refers flatOs flatTable a := by
  intro hrefers
  rcases hrefers with ⟨e, he, _⟩ | hr
  · exact (flatTable_large e).1 he
  · simp [flatMachine] at hr

theorem flatMachine_handsOutUnused :
    HandsOutUnused flatOs flatTable 0x200000#64 5 (flatMachine 1 1) := by
  have htable : ((flatMachine 1 1).allocate flatOs .split2mbPagingTo4kbPage).1 =
      some 0x1000#64 := by decide +kernel
  have hrecord : ((flatMachine 1 1).prepareHook flatOs 0x200000#64 5).map
      (fun p => (p.2.allocate flatOs .eptHookPage).1) = some (some 0x20000#64) := by
    decide +kernel
  have htaken : ∀ a m', (flatMachine 1 1).allocate flatOs .split2mbPagingTo4kbPage =
      (some a, m') → a = 0x1000#64 := by
    intro a m' halloc
    rw [halloc] at htable
    exact Option.some.inj htable
  refine ⟨rfl, ?_, ?_⟩
  · intro a m' halloc
    obtain rfl := htaken a m' halloc
    exact ⟨by decide, flatMachine_not_refers 1 1 _⟩
  · intro a entry changedEntry m1 hprep r m2 halloc
    obtain ⟨m0, halloc0, _⟩ := prepareHook_ready hprep
    obtain rfl := htaken a m0 halloc0
    rw [hprep, Option.map_some, halloc] at hrecord
    obtain rfl := Option.some.inj (Option.some.inj hrecord)
    exact ⟨by decide, flatMachine_not_refers 1 1 _⟩

/-- A page is made readable and executable and is unprotected through another address. -/
theorem pageUnhookVmcall_rootModePageHook_flat : ∃ m',
    (flatMachine 1 1).rootModePageHook flatOs 0x200000#64 5 = some (true, m') ∧
    (∃ m'', m'.pageUnhookVmcall flatOs 0x200ABC#64 = (true, m'') ∧
      Unchanged flatOs (flatMachine 1 1) m'') ∧
    ∀ others m1, Run (othersStep flatOs) m' others m1 →
      ∃ m'', m1.pageUnhookVmcall flatOs 0x200ABC#64 = (true, m'') ∧
        Unchanged flatOs (flatMachine 1 1) m'' := by
  obtain ⟨⟨_, m'⟩, hcall, rfl⟩ := Option.map_eq_some_iff.mp (show
    ((flatMachine 1 1).rootModePageHook flatOs 0x200000#64 5).map Prod.fst = some true by
      decide +kernel)
  obtain ⟨hquiet, hreached⟩ := pageUnhookVmcall_rootModePageHook (v := 0x200ABC#64) rfl
    (by simp [flatMachine]) (by decide) hcall
  exact ⟨m', hcall,
    hquiet flatTable rfl (fun e _ => (flatTable_large e).2.toLargeAccess)
      flatMachine_handsOutUnused,
    hreached flatTable _ [] (flatMachine_started 1 1) (GuardedRun.nil _)⟩

end Machine

end NovaHypervisor

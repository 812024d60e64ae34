import NovaHypervisor.GrantedTables
import NovaHypervisor.HookRoundTrip
import NovaHypervisor.PoolSupply

/-!
`RootModePageHook` on a processor that has the pool to itself. What the call does
depends on the hook list, on the physical address and on how many free slots the
pool has: each way out is a claim of one buffer of each type, or of less.
-/
namespace NovaHypervisor

open General

/-- The free tables that a hook of `targetFunc` can use: none where its page is not
mapped or lies above 512GB. -/
def PoolManager.usableTables (os : Os) (targetFunc : Pvoid) (p : PoolManager) : ℕ :=
  if Machine.hookAddress os targetFunc ≠ 0 ∧
      (Machine.hookAddress os targetFunc).toNat < 2 ^ 39 then
    p.freeSlots .split2mbPagingTo4kbPage
  else 0

namespace Machine

variable {Caller : Type*}

abbrev usableTables (os : Os) (targetFunc : Pvoid) (m : Machine Caller) : ℕ :=
  m.pool.state.manager.usableTables os targetFunc

theorem usableTables_congr (os : Os) (targetFunc : Pvoid) {m m' : Machine Caller}
    (h : m'.pool.state.manager.freeSlots .split2mbPagingTo4kbPage =
      m.pool.state.manager.freeSlots .split2mbPagingTo4kbPage) :
    m'.usableTables os targetFunc = m.usableTables os targetFunc := by
  rw [usableTables, usableTables, PoolManager.usableTables, PoolManager.usableTables, h]

abbrev freeRecords (m : Machine Caller) : ℕ := m.pool.state.manager.freeSlots .eptHookPage

/-- The law of every state that matters here: records are used slots, and a split
entry leads to a buffer that the kernel granted. -/
structure HookReady (os : Os) (m : Machine Caller) : Prop where
  quiet : m.pool.upcoming = []
  wellFormed : m.pool.state.manager.WellFormed os.toAllocator
  table : m.ept.TablesGranted os
  used : ∀ r ∈ m.ept.hookedPages, m.pool.state.manager.Used .eptHookPage r

/-- The hook list is as it was, and so is every record in use. -/
structure Kept (os : Os) (m m' : Machine Caller) : Prop where
  ready : m'.HookReady os
  guest : m'.guest = m.guest
  hookedPages : m'.ept.hookedPages = m.ept.hookedPages
  record : ∀ r, m.pool.state.manager.Used .eptHookPage r →
    m'.pool.state.manager.Used .eptHookPage r ∧ m'.detail r = m.detail r
  freeRecords : m'.freeRecords = m.freeRecords

theorem Kept.refl {os : Os} {m : Machine Caller} (h : m.HookReady os) : Kept os m m :=
  ⟨h, rfl, rfl, fun _ hr => ⟨hr, rfl⟩, rfl⟩

theorem Kept.trans {os : Os} {m m' m'' : Machine Caller} (h : Kept os m m')
    (h' : Kept os m' m'') : Kept os m m'' := by
  refine ⟨h'.ready, h'.guest.trans h.guest, h'.hookedPages.trans h.hookedPages, ?_,
    h'.freeRecords.trans h.freeRecords⟩
  intro r hr
  obtain ⟨hused, hdetail⟩ := h.record r hr
  obtain ⟨hused', hdetail'⟩ := h'.record r hused
  exact ⟨hused', hdetail'.trans hdetail⟩

theorem isHookExists_iff (m : Machine Caller) (address : Word) :
    m.isHookExists (pageAlign address) = true ↔
      ∃ r ∈ m.ept.hookedPages, (m.detail r).virtualAddress = pageAlign address := by
  simp only [isHookExists, getHookedPage, pageAlign_pageAlign, List.find?_isSome,
    decide_eq_true_eq]

/-- Another hook list with the same records holds the same pages. -/
theorem isHookExists_congr {m m' : Machine Caller}
    (hlist : m'.ept.hookedPages = m.ept.hookedPages)
    (hdetail : ∀ r ∈ m.ept.hookedPages, m'.detail r = m.detail r) (address : Word) :
    m'.isHookExists (pageAlign address) = m.isHookExists (pageAlign address) := by
  rw [Bool.eq_iff_iff, isHookExists_iff, isHookExists_iff, hlist]
  refine exists_congr fun r => and_congr_right fun hr => ?_
  rw [hdetail r hr]

theorem Kept.isHookExists {os : Os} {m m' : Machine Caller} (h : Kept os m m')
    (hm : m.HookReady os) (address : Word) :
    m'.isHookExists (pageAlign address) = m.isHookExists (pageAlign address) :=
  isHookExists_congr h.hookedPages (fun r hr => (h.record r (hm.used r hr)).2) address

namespace HookReady

variable {os : Os} {m m' : Machine Caller}

/-- A change of the pool alone, with the same slots or with one more in use. -/
theorem kept_of_pool (h : m.HookReady os) (hept : m'.ept = m.ept) (hguest : m'.guest = m.guest)
    (hquiet : m'.pool.upcoming = []) (hbuffer : m'.buffer = m.buffer)
    (hwf : m'.pool.state.manager.WellFormed os.toAllocator)
    (hused : ∀ r, m.pool.state.manager.Used .eptHookPage r →
      m'.pool.state.manager.Used .eptHookPage r)
    (hfree : m'.freeRecords = m.freeRecords) : Kept os m m' := by
  refine ⟨⟨hquiet, hwf, hept ▸ h.table, ?_⟩, hguest, by rw [hept], ?_, hfree⟩
  · intro r hr
    rw [hept] at hr
    exact hused r (h.used r hr)
  · intro r hr
    exact ⟨hused r hr, by rw [detail, hbuffer, detail]⟩

/-- Only the half of a buffer that is a table is written. -/
theorem wireSplit (h : m.HookReady os) {a : Pvoid}
    (ha : os.grants .split2mbPagingTo4kbPage a = true) {pageTable : VmmEptPageTable}
    (htable : m.ept.eptPageTable = some pageTable) (e : PeptPml2Entry) :
    Kept os m (m.wireSplit os a pageTable e) := by
  exact ⟨⟨h.quiet, h.wellFormed, wireSplit_tables h.table ha htable e, h.used⟩, rfl, rfl,
    fun r hr => ⟨hr, detail_setBuffer_split m a r _⟩, rfl⟩

variable [DecidableEq Caller]

theorem allocate_of_free (h : m.HookReady os) {type : AllocationType}
    (hfree : 0 < m.pool.state.manager.freeSlots type) :
    ∃ a m', m.allocate os type = (some a, m') ∧
      PoolManager.Took os.toAllocator type a m.pool.state.manager m'.pool.state.manager ∧
      m'.pool.upcoming = [] ∧ m'.buffer = m.buffer ∧ m'.ept = m.ept ∧ m'.guest = m.guest := by
  obtain ⟨a, pool, hcall, htook⟩ := SharedPool.allocate_of_free h.quiet h.wellFormed hfree
  have halloc : m.allocate os type = (some a, { m with
      pool := pool
      history := .allocated (type, a) :: m.history }) := by
    simp [allocate, hcall]
  exact ⟨a, _, halloc, htook, allocate_quiet h.quiet halloc⟩

theorem allocateTable (h : m.HookReady os)
    (hfree : 0 < m.pool.state.manager.freeSlots .split2mbPagingTo4kbPage) :
    ∃ a m', m.allocate os .split2mbPagingTo4kbPage = (some a, m') ∧
      os.grants .split2mbPagingTo4kbPage a = true ∧ Kept os m m' ∧
      m'.pool.state.manager.freeSlots .split2mbPagingTo4kbPage + 1 =
        m.pool.state.manager.freeSlots .split2mbPagingTo4kbPage := by
  obtain ⟨a, m', halloc, htook, hquiet, hbuffer, hept, hguest⟩ := h.allocate_of_free hfree
  refine ⟨a, m', halloc, htook.granted, ?_, htook.freeSlots⟩
  refine h.kept_of_pool hept hguest hquiet hbuffer htook.wellFormed ?_
    (htook.freeSlots_of_ne _ (by decide))
  intro r hr
  exact (htook.used _ r).mpr (Or.inl hr)

theorem allocate_none (h : m.HookReady os) {type : AllocationType}
    (hfree : m.pool.state.manager.freeSlots type = 0) :
    ∃ m', m.allocate os type = (none, m') ∧ Kept os m m' ∧
      m.pool.state.manager.SameSlots m'.pool.state.manager := by
  obtain ⟨pool, hcall, hslots⟩ : ∃ pool, m.pool.allocate os.toAllocator type = (none, pool) ∧
      m.pool.state.manager.SameSlots pool.state.manager :=
    SharedPool.allocate_of_none_free h.quiet hfree
  have halloc : m.allocate os type = (none, { m with pool := pool }) := by
    simp [allocate, hcall]
  obtain ⟨hquiet, hbuffer, _, _⟩ := allocate_quiet h.quiet halloc
  refine ⟨_, halloc, ?_, hslots⟩
  exact h.kept_of_pool rfl rfl hquiet hbuffer (hslots.wellFormed h.wellFormed)
    (fun r hr => (hslots.used _ r).mpr hr) (hslots.freeSlots _)

theorem freeTable (h : m.HookReady os) (a : Pvoid) :
    Kept os m (m.free os a .split2mbPagingTo4kbPage) ∧
      m.pool.state.manager.SameSlots
        (m.free os a .split2mbPagingTo4kbPage).pool.state.manager := by
  obtain ⟨hquiet, hbuffer⟩ := free_quiet os a .split2mbPagingTo4kbPage h.quiet
  have hslots := SharedPool.free_sameSlots os.toAllocator a .split2mbPagingTo4kbPage h.quiet
  refine ⟨h.kept_of_pool rfl rfl hquiet hbuffer (hslots.wellFormed h.wellFormed)
    (fun r hr => (hslots.used _ r).mpr hr) (hslots.freeSlots _), hslots⟩

end HookReady

variable [DecidableEq Caller]

/-- Below 512GB the split succeeds with a granted buffer, whether it takes it or not, and
the page's leaf is found. -/
theorem HookReady.split {os : Os} {m : Machine Caller} (h : m.HookReady os) {a : Pvoid}
    (hgrant : os.grants .split2mbPagingTo4kbPage a = true) {x : Word} (hlow : x.toNat < 2 ^ 39) :
    ∃ entry m', m.splitLargePage os a x = some (true, m') ∧
      m'.getPml1Entry os x = some (some entry) ∧ Kept os m m' ∧
        m'.pool.state.manager.freeSlots .split2mbPagingTo4kbPage =
          m.pool.state.manager.freeSlots .split2mbPagingTo4kbPage := by
  have hnonnull := os.grants_nonnull _ a hgrant
  obtain ⟨pageTable, htable, hgrants⟩ := h.table
  by_cases hsplit : IsSplit pageTable (pml2Key x)
  · obtain ⟨hfreed, hslots⟩ := h.freeTable a
    refine ⟨leafPointer os pageTable x, m.free os a .split2mbPagingTo4kbPage,
      splitLargePage_of_split os hnonnull hlow htable hsplit, ?_, hfreed, hslots.freeSlots _⟩
    exact getPml1Entry_of_table hlow htable hsplit (os.grants_nonnull _ _ (hgrants _ hsplit))
  · have hwired := h.wireSplit hgrant htable (pml2Key x)
    obtain ⟨pageTable', htable', hgrants'⟩ := hwired.ready.table
    have hsplit' : IsSplit pageTable' (pml2Key x) := by
      obtain rfl := Option.some.inj htable'
      exact isSplit_wired os a pageTable _
    refine ⟨leafPointer os pageTable' x, m.wireSplit os a pageTable (pml2Key x),
      splitLargePage_of_large os hnonnull hlow htable hsplit, ?_, hwired, rfl⟩
    exact getPml1Entry_of_table hlow htable' hsplit' (os.grants_nonnull _ _ (hgrants' _ hsplit'))

/-- `RootModePageHook` up to the record: it ends, or it has taken one table. -/
theorem prepareHook_quiet {os : Os} {m : Machine Caller} (h : m.HookReady os)
    (hlaunched : m.guest.isLaunched = true) (targetFunc : Pvoid) {permissions : BitVec 8}
    (hperm : permissionsAccepted permissions = true) :
    (m.isHookExists (pageAlign targetFunc) = true ∧
      m.prepareHook os targetFunc permissions = some (.done true, m)) ∨
    (m.isHookExists (pageAlign targetFunc) = false ∧ m.usableTables os targetFunc = 0 ∧
      ∃ m', m.prepareHook os targetFunc permissions = some (.done false, m') ∧ Kept os m m' ∧
        m'.usableTables os targetFunc = 0) ∨
    (m.isHookExists (pageAlign targetFunc) = false ∧
      ∃ a entry changedEntry m', m.prepareHook os targetFunc permissions =
          some (.ready a entry changedEntry, m') ∧ Kept os m m' ∧
        m'.usableTables os targetFunc + 1 = m.usableTables os targetFunc) := by
  have hroot : ¬ (m.guest.isOnVmxRoot = true ∧ ¬ m.guest.isLaunched = true) := by
    simp [hlaunched]
  have hwrite : ¬ (permissions &&& eptPageWrite ≠ 0 ∧ permissions &&& eptPageRead = 0) := by
    intro hbad
    simp only [permissionsAccepted, Bool.not_eq_true', Bool.or_eq_false_iff,
      Bool.and_eq_false_iff, decide_eq_false_iff_not] at hperm
    exact hperm.2.elim (fun h => h hbad.1) fun h => h hbad.2
  unfold prepareHook
  rw [if_neg hroot, if_neg hwrite]
  simp only
  by_cases hexists : m.isHookExists (pageAlign targetFunc) = true
  · exact Or.inl ⟨hexists, by rw [if_pos hexists]⟩
  rw [if_neg hexists]
  refine Or.inr ?_
  simp only [Bool.not_eq_true] at hexists
  by_cases hzero : hookAddress os targetFunc = 0
  · have hnone : m.usableTables os targetFunc = 0 := if_neg fun hbad => hbad.1 hzero
    exact Or.inl ⟨hexists, hnone, m, if_pos hzero, Kept.refl h, hnone⟩
  have hnonzero : ¬ os.mmGetPhysicalAddress (pageAlign targetFunc) = 0 := hzero
  rw [if_neg hnonzero]
  rcases Nat.eq_zero_or_pos (m.pool.state.manager.freeSlots .split2mbPagingTo4kbPage)
    with hempty | hfree
  · obtain ⟨m', halloc, hkept, hslots⟩ := h.allocate_none hempty
    have hnone : m.usableTables os targetFunc = 0 := by
      rw [usableTables, PoolManager.usableTables, hempty, ite_self]
    refine Or.inl ⟨hexists, hnone, m', by rw [halloc], hkept, ?_⟩
    rw [usableTables_congr os targetFunc (hslots.freeSlots _), hnone]
  obtain ⟨a, m1, halloc, hgrant, hkept, hcount⟩ := h.allocateTable hfree
  obtain ⟨hfreed, -⟩ := hkept.ready.freeTable a
  by_cases hlow : (hookAddress os targetFunc).toNat < 2 ^ 39
  · obtain ⟨entry, m2, hstep, hleaf, hsplit, hsame⟩ := hkept.ready.split hgrant hlow
    have husable : ∀ n : Machine Caller, n.usableTables os targetFunc =
        n.pool.state.manager.freeSlots .split2mbPagingTo4kbPage :=
      fun _ => if_pos ⟨hzero, hlow⟩
    simp only [hookAddress] at hstep hleaf
    refine Or.inr ⟨hexists, a, entry, changeAccess (m2.pml1 entry) permissions, m2, ?_,
      hkept.trans hsplit, ?_⟩
    · simp only [halloc, hstep, hleaf, Option.map_some]
    · rw [husable, husable, hsame, hcount]
  · have hstep : m1.splitLargePage os a (os.mmGetPhysicalAddress (pageAlign targetFunc)) =
        some (false, m1) :=
      splitLargePage_of_high (os.physical_lt _) (Nat.le_of_not_lt hlow)
    have hnone : ∀ n : Machine Caller, n.usableTables os targetFunc = 0 :=
      fun _ => if_neg fun hbad => hlow hbad.2
    exact Or.inl ⟨hexists, hnone m, _, by simp only [halloc, hstep], hkept.trans hfreed, hnone _⟩

/-- What one hook does to the free slots and to the hook list. -/
inductive HookOutcome (os : Os) (targetFunc : Pvoid) (m : Machine Caller) :
    Bool → Machine Caller → Prop
  | found {m' : Machine Caller} : m.isHookExists (pageAlign targetFunc) = true →
      Kept os m m' → m'.usableTables os targetFunc = m.usableTables os targetFunc →
      HookOutcome os targetFunc m true m'
  | refused {m' : Machine Caller} : m.isHookExists (pageAlign targetFunc) = false →
      Kept os m m' → m.usableTables os targetFunc = 0 → m'.usableTables os targetFunc = 0 →
      HookOutcome os targetFunc m false m'
  | denied {m' : Machine Caller} : m.isHookExists (pageAlign targetFunc) = false →
      Kept os m m' → m'.usableTables os targetFunc + 1 = m.usableTables os targetFunc →
      m.freeRecords = 0 → HookOutcome os targetFunc m false m'
  | hooked {m' : Machine Caller} {r : Pvoid} : m.isHookExists (pageAlign targetFunc) = false →
      m'.HookReady os → m'.guest = m.guest →
      (∀ q, m.pool.state.manager.Used .eptHookPage q →
        m'.pool.state.manager.Used .eptHookPage q ∧ m'.detail q = m.detail q) →
      m'.usableTables os targetFunc + 1 = m.usableTables os targetFunc →
      m'.freeRecords + 1 = m.freeRecords →
      r ∉ m.ept.hookedPages → m'.ept.hookedPages = r :: m.ept.hookedPages →
      m'.isHookExists (pageAlign targetFunc) = true → HookOutcome os targetFunc m true m'

omit [DecidableEq Caller] in
/-- With a fresh record, the hook holds its page and disturbs no other record. -/
theorem HookReady.installHook {os : Os} {m m1 m2 : Machine Caller} {targetFunc : Pvoid}
    (h : m.HookReady os) (hexists : m.isHookExists (pageAlign targetFunc) = false)
    (hkept : Kept os m m1)
    (hcount : m1.usableTables os targetFunc + 1 = m.usableTables os targetFunc) {r : Pvoid}
    (htook : PoolManager.Took os.toAllocator .eptHookPage r m1.pool.state.manager
      m2.pool.state.manager)
    (hquiet : m2.pool.upcoming = []) (hbuffer : m2.buffer = m1.buffer) (hept : m2.ept = m1.ept)
    (hguest : m2.guest = m1.guest) (entry : PeptPml1Entry) (changedEntry : Word) :
    HookOutcome os targetFunc m true (m2.installHook os targetFunc entry changedEntry r) := by
  have hold : ∀ q, m.pool.state.manager.Used .eptHookPage q → q ≠ r := by
    intro q hq heq
    subst heq
    exact htook.fresh (hkept.record q hq).1
  have hlist : m2.ept.hookedPages = m.ept.hookedPages := by rw [hept, hkept.hookedPages]
  have hrecord : ∀ q, m.pool.state.manager.Used .eptHookPage q →
      m2.pool.state.manager.Used .eptHookPage q ∧
        (m2.installHook os targetFunc entry changedEntry r).detail q = m.detail q := by
    intro q hq
    obtain ⟨hused, hdetail⟩ := hkept.record q hq
    refine ⟨(htook.used _ q).mpr (Or.inl hused), ?_⟩
    have hbefore : m2.detail q = m1.detail q := by rw [detail, hbuffer, detail]
    rw [Machine.installHook, setPml1, detail_setBuffer_split, detail_addRecord_of_ne _ (hold q hq),
      hbefore, hdetail]
  have hready : (m2.installHook os targetFunc entry changedEntry r).HookReady os := by
    refine ⟨hquiet, htook.wellFormed, ?_, ?_⟩
    · have htable := hkept.ready.table
      rw [← hept] at htable
      exact htable
    · intro q hq
      rcases List.mem_cons.mp hq with rfl | hq
      · exact (htook.used _ q).mpr (Or.inr ⟨rfl, rfl⟩)
      · rw [hlist] at hq
        exact (hrecord q (h.used q hq)).1
  have hnew : r ∉ m.ept.hookedPages := by
    intro hmem
    exact hold r (h.used r hmem) rfl
  refine .hooked hexists hready (hguest.trans hkept.guest) hrecord ?_ ?_ hnew ?_ ?_
  · have hsame : (m2.installHook os targetFunc entry changedEntry r).usableTables os targetFunc =
        m1.usableTables os targetFunc :=
      usableTables_congr os targetFunc (htook.freeSlots_of_ne _ (by decide))
    rw [hsame, hcount]
  · exact htook.freeSlots.trans hkept.freeRecords
  · exact congrArg (List.cons r) hlist
  · rw [isHookExists_iff]
    refine ⟨r, List.mem_cons_self, ?_⟩
    rw [detail_installHook]
    rfl

/-- In a quiet pool the call returns, in one of the four ways. -/
theorem rootModePageHook_quiet {os : Os} {m : Machine Caller} (h : m.HookReady os)
    (hlaunched : m.guest.isLaunched = true) (targetFunc : Pvoid) {permissions : BitVec 8}
    (hperm : permissionsAccepted permissions = true) :
    ∃ status m', m.rootModePageHook os targetFunc permissions = some (status, m') ∧
      HookOutcome os targetFunc m status m' := by
  rcases prepareHook_quiet h hlaunched targetFunc hperm with ⟨hexists, hprep⟩ |
    ⟨hexists, hnone, m', hprep, hkept, hnone'⟩ |
    ⟨hexists, a, entry, changedEntry, m1, hprep, hkept, hcount⟩
  · exact ⟨true, m, by simp [rootModePageHook, hprep], .found hexists (Kept.refl h) rfl⟩
  · exact ⟨false, m', by simp [rootModePageHook, hprep], .refused hexists hkept hnone hnone'⟩
  rcases Nat.eq_zero_or_pos m1.freeRecords with hempty | hfree
  · obtain ⟨m2, halloc, hkept2, hslots⟩ := hkept.ready.allocate_none hempty
    obtain ⟨hfreed, hslots'⟩ := hkept2.ready.freeTable a
    refine ⟨false, m2.free os a .split2mbPagingTo4kbPage,
      by simp [rootModePageHook, hprep, halloc],
      .denied hexists ((hkept.trans hkept2).trans hfreed) ?_ (hkept.freeRecords ▸ hempty)⟩
    rw [usableTables_congr os targetFunc (hslots'.freeSlots _),
      usableTables_congr os targetFunc (hslots.freeSlots _), hcount]
  · obtain ⟨r, m2, halloc, htook, hquiet, hbuffer, hept, hguest⟩ :=
      hkept.ready.allocate_of_free hfree
    refine ⟨true, m2.installHook os targetFunc entry changedEntry r,
      by simp [rootModePageHook, hprep, halloc], ?_⟩
    exact h.installHook hexists hkept hcount htook hquiet hbuffer hept hguest entry changedEntry

end Machine

end NovaHypervisor

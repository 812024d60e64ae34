import NovaHypervisor.HookRuns

/-!
The part of the law that no hook breaks, denied or not. The records of the hook
list are distinct buffers of the processor, and the pool gives a record to one
owner only: a denied hook frees a table twice, but never a record.
-/
namespace NovaHypervisor

open General

namespace Machine

variable {Caller : Type*} [DecidableEq Caller]

structure Listed (os : Os) (m : Machine Caller) : Prop where
  safe : m.pool.state.Safe os.toAllocator
  tracked : m.pool.state.ledger.Tracked .eptHookPage
  nodup : m.ept.hookedPages.Nodup
  owned : ∀ r ∈ m.ept.hookedPages, m.Private (.eptHookPage, r)

theorem Coherent.listed {os : Os} {pageTable : VmmEptPageTable} {m : Machine Caller}
    (h : m.Coherent os pageTable) : m.Listed os :=
  ⟨h.safe, h.tracked _, h.nodup, fun _ hr => h.owned_record hr⟩

namespace Listed

variable {os : Os} {m m' : Machine Caller}

theorem evolves (h : m.Listed os)
    (hpool : SharedPool.Evolves os.toAllocator m.pool.state m'.pool.state)
    (hlist : m'.ept.hookedPages = m.ept.hookedPages) : m'.Listed os :=
  ⟨hpool.safe, hpool.tracked _ h.tracked, hlist ▸ h.nodup,
    fun r hr => (hpool.outside _ (h.owned r (hlist ▸ hr))).1⟩

theorem allocate (h : m.Listed os) {type : AllocationType} {result : Option Pvoid}
    (halloc : m.allocate os type = (result, m')) :
    m'.Listed os ∧ m'.ept = m.ept ∧ m'.guest = m.guest := by
  cases result with
  | none =>
    obtain ⟨hpool, hept, hguest, _⟩ := allocate_none h.safe halloc
    exact ⟨h.evolves hpool (by rw [hept]), hept, hguest⟩
  | some a =>
    obtain ⟨hpool, hept, hguest, _⟩ := allocate_some h.safe halloc
    exact ⟨h.evolves hpool.toEvolves (by rw [hept]), hept, hguest⟩

/-- Freeing a table leaves the records alone, whoever else uses the table. -/
theorem free_table (h : m.Listed os) (a : Pvoid) :
    (m.free os a .split2mbPagingTo4kbPage).Listed os := by
  have hfreed := SharedPool.free_spec os.toAllocator .split2mbPagingTo4kbPage a h.safe
  refine ⟨hfreed.safe, hfreed.tracked _ (by simp) h.tracked, h.nodup, ?_⟩
  intro r hr
  exact (hfreed.outside _ (by simp) (h.owned r hr)).1

theorem free_record (h : m.Listed os) {r : Pvoid} (hr : m.Private (.eptHookPage, r))
    (hlist : r ∉ m.ept.hookedPages) : (m.free os r .eptHookPage).Listed os := by
  have hfreed := SharedPool.free_spec os.toAllocator .eptHookPage r h.safe
  refine ⟨hfreed.safe, hfreed.tracked _ (fun _ => hr) h.tracked, h.nodup, ?_⟩
  intro q hq
  refine (hfreed.outside _ ?_ (h.owned q hq)).1
  intro heq
  obtain rfl : q = r := congrArg Prod.snd heq
  exact hlist hq

theorem setBuffer (h : m.Listed os) (a : Pvoid) (content : PoolBuffer) :
    (m.setBuffer a content).Listed os :=
  ⟨safe_setBuffer h.safe a content, tracked_setBuffer h.tracked a content, h.nodup,
    fun r hr => private_setBuffer (h.owned r hr) a content⟩

theorem setPml1 (h : m.Listed os) (entry : PeptPml1Entry) (value : Word) :
    (m.setPml1 entry value).Listed os :=
  h.setBuffer _ _

theorem wireSplit (h : m.Listed os) (a : Pvoid) (pageTable : VmmEptPageTable)
    (e : PeptPml2Entry) : (m.wireSplit os a pageTable e).Listed os := by
  obtain ⟨hsafe, htracked, hnodup, howned⟩ := h.setBuffer a
    { m.buffer a with split := ⟨m.ept.splitPml1Entry (pageTable.pml2 e), some e⟩ }
  exact ⟨hsafe, htracked, hnodup, howned⟩

theorem addRecord (h : m.Listed os) {r : Pvoid} (hr : m.Private (.eptHookPage, r))
    (hlist : r ∉ m.ept.hookedPages) (d : EptHookedPageDetail) :
    (m.addRecord r d).Listed os := by
  refine ⟨safe_setBuffer h.safe _ _, tracked_setBuffer h.tracked _ _,
    List.nodup_cons.mpr ⟨hlist, h.nodup⟩, ?_⟩
  intro q hq
  rcases List.mem_cons.mp hq with rfl | hq
  · exact private_setBuffer hr _ _
  · exact private_setBuffer (h.owned q hq) _ _

theorem splitLargePage (h : m.Listed os) {a : Pvoid} {x : Word} {status : Bool}
    (hsplit : m.splitLargePage os a x = some (status, m')) :
    m'.Listed os ∧ m'.ept.hookedPages = m.ept.hookedPages ∧ m'.guest = m.guest := by
  rcases splitLargePage_ends hsplit with ⟨_, rfl⟩ | ⟨_, pageTable, e, _, rfl | ⟨_, rfl⟩⟩
  · exact ⟨h, rfl, rfl⟩
  · exact ⟨h.free_table a, rfl, rfl⟩
  · exact ⟨h.wireSplit a pageTable e, rfl, rfl⟩

theorem prepareHook (h : m.Listed os) {targetFunc : Pvoid} {permissions : BitVec 8}
    {preparation : HookPreparation}
    (hprep : m.prepareHook os targetFunc permissions = some (preparation, m')) :
    m'.Listed os ∧ m'.ept.hookedPages = m.ept.hookedPages ∧ m'.guest = m.guest := by
  rcases prepareHook_ends hprep with ⟨rfl, _⟩ | ⟨halloc, _⟩ |
    ⟨a, m0, m1, status, halloc, hsplit, hend⟩
  · exact ⟨h, rfl, rfl⟩
  · obtain ⟨hlisted, hept, hguest⟩ := h.allocate halloc
    exact ⟨hlisted, by rw [hept], hguest⟩
  obtain ⟨hlisted, hept, hguest⟩ := h.allocate halloc
  obtain ⟨hlisted1, hlist1, hguest1⟩ := hlisted.splitLargePage hsplit
  have hlist : m1.ept.hookedPages = m.ept.hookedPages := hlist1.trans (by rw [hept])
  rcases hend with ⟨rfl, _⟩ | ⟨_, rfl, _⟩
  · exact ⟨hlisted1.free_table a, hlist, hguest1.trans hguest⟩
  · exact ⟨hlisted1, hlist, hguest1.trans hguest⟩

/-- A hook keeps the records and adds at most one at the head. -/
theorem rootModePageHook (h : m.Listed os) {targetFunc : Pvoid} {permissions : BitVec 8}
    {status : Bool} (hcall : m.rootModePageHook os targetFunc permissions = some (status, m')) :
    m'.Listed os ∧ (∀ r ∈ m.ept.hookedPages, r ∈ m'.ept.hookedPages) ∧ m'.guest = m.guest := by
  rcases rootModePageHook_ends hcall with hprep | ⟨a, entry, changedEntry, m1, hprep, hend⟩
  · obtain ⟨hlisted, hlist, hguest⟩ := h.prepareHook hprep
    exact ⟨hlisted, fun r hr => hlist ▸ hr, hguest⟩
  obtain ⟨hlisted, hlist, hguest⟩ := h.prepareHook hprep
  rcases hend with ⟨m2, halloc, _, rfl⟩ | ⟨r, m2, halloc, _, rfl⟩
  · obtain ⟨hlisted2, hept2, hguest2⟩ := hlisted.allocate halloc
    refine ⟨hlisted2.free_table a, ?_, hguest2.trans hguest⟩
    intro r hr
    change r ∈ m2.ept.hookedPages
    rw [hept2, hlist]
    exact hr
  · obtain ⟨hlisted2, hept2, hguest2⟩ := hlisted.allocate halloc
    obtain ⟨hpool, _⟩ := allocate_some hlisted.safe halloc
    have hfresh : r ∉ m2.ept.hookedPages := by
      rw [hept2]
      exact fun hmem => hpool.fresh (hlisted.owned r hmem)
    refine ⟨(hlisted2.addRecord (hpool.owned hlisted.tracked) hfresh _).setBuffer _ _, ?_,
      hguest2.trans hguest⟩
    intro q hq
    refine List.mem_cons_of_mem r ?_
    rw [hept2, hlist]
    exact hq

theorem releaseHook (h : m.Listed os) {r : Pvoid} (hr : r ∈ m.ept.hookedPages) :
    (m.releaseHook os r).Listed os ∧
      (m.releaseHook os r).ept.hookedPages = m.ept.hookedPages.erase r := by
  have hset := h.setPml1 (m.detail r).entryAddress (m.detail r).originalEntry
  have herase : ({ m.setPml1 (m.detail r).entryAddress (m.detail r).originalEntry with
      ept := { m.ept with hookedPages := m.ept.hookedPages.erase r } } :
        Machine Caller).Listed os :=
    ⟨hset.safe, hset.tracked, h.nodup.erase r,
      fun q hq => hset.owned q (List.mem_of_mem_erase hq)⟩
  exact ⟨herase.free_record (hset.owned r hr) h.nodup.not_mem_erase, rfl⟩

theorem unhookAll (h : m.Listed os) :
    (m.ept.hookedPages.foldl (fun m r => m.releaseHook os r) m).Listed os ∧
      (m.ept.hookedPages.foldl (fun m r => m.releaseHook os r) m).ept.hookedPages = [] ∧
      (m.ept.hookedPages.foldl (fun m r => m.releaseHook os r) m).guest = m.guest := by
  generalize hl : m.ept.hookedPages = l
  induction l generalizing m with
  | nil => exact ⟨h, hl, rfl⟩
  | cons r l ih =>
    obtain ⟨hlisted, hlist⟩ := h.releaseHook (r := r) (by simp [hl])
    exact ih hlisted (by rw [hlist, hl, List.erase_cons_head])

theorem othersStep (h : m.Listed os) {action : PoolAction Caller PoolBuffer}
    (hstep : m.othersStep os action = some m') :
    m'.Listed os ∧ m'.ept = m.ept ∧ m'.guest = m.guest := by
  simp only [Machine.othersStep, Option.map_eq_some_iff] at hstep
  obtain ⟨state, hstate, rfl⟩ := hstep
  exact ⟨h.evolves (SharedPool.evolves_of_step hstate h.safe) rfl, rfl, rfl⟩

end Listed

theorem hookStep_listed {os : Os} {m m' : Machine Caller} (h : m.Listed os)
    {action : HookAction Caller} (hstep : m.hookStep os action = some m') : m'.Listed os := by
  cases action with
  | hook targetFunc permissions =>
    simp only [hookStep, Option.map_eq_some_iff] at hstep
    obtain ⟨⟨status, m1⟩, hcall, rfl⟩ := hstep
    exact (h.rootModePageHook hcall).1
  | unhook guestVirtualAddress =>
    obtain rfl := Option.some.inj hstep
    rcases pageUnhookVmcall_ends os guestVirtualAddress m with heq | ⟨r, hr, _, heq⟩
    · exact heq ▸ h
    · exact heq ▸ (h.releaseHook hr).1
  | unhookAll =>
    obtain rfl := Option.some.inj hstep
    rcases unhookAllPagesVmcall_ends os m with heq | heq
    · exact heq ▸ h
    · exact heq ▸ h.unhookAll.1
  | others action => exact (h.othersStep hstep).1
  | guest isOnVmxRoot isLaunched =>
    obtain rfl := Option.some.inj hstep
    exact ⟨h.safe, h.tracked, h.nodup, h.owned⟩

/-- Every run, with denied hooks or without, keeps the records in one hand. -/
theorem listed_of_run {os : Os} {pageTable : VmmEptPageTable} {m m' : Machine Caller}
    {actions : List (HookAction Caller)} (hstart : Started os pageTable m)
    (hrun : Run (hookStep os) m actions m') : m'.Listed os :=
  hrun.invariant (fun _ _ _ h _ hstep => hookStep_listed h hstep) hstart.coherent.listed

end Machine

end NovaHypervisor

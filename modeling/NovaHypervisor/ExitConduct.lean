import NovaHypervisor.CachedTranslations
import NovaHypervisor.PoolConduct

/-!
A processor keeps to the rules that it relies on. The other modules let the other
parties of the pool take any of the pool's steps while a processor handles its exits.
What its own exits do to the pool's lists and to the buffers is a run of these steps, in
which it is one caller, who writes to buffers that it holds and frees each of them once.
-/
namespace NovaHypervisor

open General

namespace Machine

variable {Caller : Type*} [DecidableEq Caller]

/-- The pool with the processor among its parties, between two of its calls. -/
def withCaller (c : Caller) (held : List Buffer) (m : Machine Caller) :
    PoolState Caller PoolBuffer :=
  m.pool.withCaller c none held

/-- The caller's buffers include every table and record in use. -/
def Holds (os : Os) (held : List Buffer) (m : Machine Caller) : Prop :=
  ∀ pageTable, m.ept.eptPageTable = some pageTable → ∀ b, m.InUse os pageTable b → b ∈ held

/-- Work of the processor that the pool sees as the caller's. -/
structure Stretch (os : Os) (c : Caller) (offered : List (PoolAction Caller PoolBuffer))
    (m : Machine Caller) (held : List Buffer) (m' : Machine Caller) (held' : List Buffer) :
    Prop where
  conducts : PoolState.Conducts os.toAllocator c offered (m.withCaller c held)
    (m'.withCaller c held')
  offers : m'.pool.Offers c offered

section Stretches

variable {os : Os} {c : Caller} {offered : List (PoolAction Caller PoolBuffer)}
  {pageTable : VmmEptPageTable} {m m' m'' : Machine Caller} {held held' held'' : List Buffer}

theorem Stretch.refl (h : m.pool.Offers c offered) : Stretch os c offered m held m held :=
  ⟨.refl _, h⟩

theorem Stretch.trans (h : Stretch os c offered m held m' held')
    (h' : Stretch os c offered m' held' m'' held'') : Stretch os c offered m held m'' held'' :=
  ⟨h.conducts.trans h'.conducts, h'.offers⟩

/-- Work that is none of the pool's. -/
theorem Stretch.of_pool (h : m.pool.Offers c offered) (hpool : m'.pool = m.pool) :
    Stretch os c offered m held m' held := by
  refine ⟨?_, hpool ▸ h⟩
  rw [withCaller, withCaller, hpool]
  exact .refl _

omit [DecidableEq Caller] in
theorem Holds.of_ept (h : m.Holds os held) (hept : m'.ept = m.ept)
    (hheld : ∀ b, m.InUse os pageTable b → b ∈ held → b ∈ held')
    (htable : m.ept.eptPageTable = some pageTable) : m'.Holds os held' := by
  intro table heq b hb
  rw [hept, htable] at heq
  obtain rfl := Option.some.inj heq
  have hold : m.InUse os pageTable b := by
    rw [InUse, hept] at hb
    exact hb
  exact hheld b hold (h pageTable htable b hold)

theorem allocate_stretch {type : AllocationType} (h : m.pool.Offers c offered)
    (held : List Buffer) {result : Option Pvoid} (hcall : m.allocate os type = (result, m')) :
    Stretch os c offered m held m' ((result.map fun a => (type, a)).toList ++ held) := by
  simp only [allocate] at hcall
  rcases hpool : m.pool.allocate os.toAllocator type with ⟨result', pool⟩
  rw [hpool] at hcall
  obtain ⟨rfl, rfl⟩ := Prod.mk.inj hcall
  obtain ⟨hconducts, hoffers⟩ := SharedPool.allocate_conducts h held hpool
  exact ⟨hconducts, hoffers⟩

theorem free_stretch (os : Os) {type : AllocationType} {address : Pvoid}
    (h : m.pool.Offers c offered) (hheld : (type, address) ∈ held) :
    ∃ held', (∀ b ∈ held, b ≠ (type, address) → b ∈ held') ∧
      Stretch os c offered m held (m.free os address type) held' := by
  obtain ⟨held', hrest, hconducts, hoffers⟩ := SharedPool.free_conducts os.toAllocator h hheld
  exact ⟨held', hrest, hconducts, hoffers⟩

theorem setBuffer_stretch (os : Os) (h : m.pool.Offers c offered) {b : Buffer}
    (hheld : b ∈ held) (content : PoolBuffer) :
    Stretch os c offered m held (m.setBuffer b.2 content) held :=
  ⟨SharedPool.write_conducts os.toAllocator offered hheld content m.pool.state, h⟩

theorem setPml1_stretch (os : Os) (h : m.pool.Offers c offered) {entry : PeptPml1Entry}
    (hheld : (AllocationType.split2mbPagingTo4kbPage, entry.table) ∈ held) (value : Word) :
    Stretch os c offered m held (m.setPml1 entry value) held :=
  setBuffer_stretch os h hheld _

omit [DecidableEq Caller] in
/-- The table behind a leaf pointer. -/
theorem Holds.table (h : m.Holds os held) (htable : m.ept.eptPageTable = some pageTable) {x : Word}
    (hx : IsSplit pageTable (pml2Key x)) :
    (AllocationType.split2mbPagingTo4kbPage, (leafPointer os pageTable x).table) ∈ held :=
  h pageTable htable _ (Or.inl ⟨_, hx, rfl⟩)

/-- The record is filled and listed before its leaf is changed. -/
theorem installHook_stretch (h : m.pool.Offers c offered) (hholds : m.Holds os held)
    {r : Pvoid} (hheld : (AllocationType.eptHookPage, r) ∈ held) {entry : PeptPml1Entry}
    (htable : (AllocationType.split2mbPagingTo4kbPage, entry.table) ∈ held) (targetFunc : Pvoid)
    (changedEntry : Word) :
    Stretch os c offered m held (m.installHook os targetFunc entry changedEntry r) held ∧
      (m.installHook os targetFunc entry changedEntry r).Holds os held := by
  obtain ⟨hrecord, hoffers⟩ := setBuffer_stretch (m := m) os h hheld
    { m.buffer r with
      detail := hookRecord os targetFunc entry (m.pml1 entry) changedEntry }
  have hlisted : Stretch os c offered m held
      (m.addRecord r (hookRecord os targetFunc entry (m.pml1 entry) changedEntry)) held :=
    ⟨hrecord, hoffers⟩
  refine ⟨hlisted.trans (setPml1_stretch os hlisted.offers htable changedEntry),
    fun table heq b hb => ?_⟩
  rcases hb with ⟨e, he, rfl⟩ | ⟨q, hq, rfl⟩
  · exact hholds table heq _ (Or.inl ⟨e, he, rfl⟩)
  · rcases List.mem_cons.mp hq with rfl | hq
    · exact hheld
    · exact hholds table heq _ (Or.inr ⟨q, hq, rfl⟩)

/-- The large page of a hook's address is split by a buffer that the processor holds. -/
theorem wireSplit_stretch (h : m.pool.Offers c offered) {a : Pvoid}
    (hgrant : os.grants .split2mbPagingTo4kbPage a = true)
    (hheld : (AllocationType.split2mbPagingTo4kbPage, a) ∈ held)
    (htable : m.ept.eptPageTable = some pageTable) (hholds : m.Holds os held)
    (e : PeptPml2Entry) :
    Stretch os c offered m held (m.wireSplit os a pageTable e) held ∧
      (m.wireSplit os a pageTable e).Holds os held := by
  obtain ⟨hconducts, hoffers⟩ := setBuffer_stretch (m := m) os h hheld
    { m.buffer a with split := ⟨m.ept.splitPml1Entry (pageTable.pml2 e), some e⟩ }
  refine ⟨⟨hconducts, hoffers⟩, fun table heq b hb => ?_⟩
  obtain rfl := Option.some.inj heq
  rcases hb with ⟨f, hf, rfl⟩ | ⟨r, hr, rfl⟩
  · rcases isSplit_wired_cases hgrant hf with ⟨_, hwired⟩ | ⟨_, hold, hkept⟩
    · rw [hwired]
      exact hheld
    · rw [hkept]
      exact hholds pageTable htable _ (Or.inl ⟨f, hold, rfl⟩)
  · exact hholds pageTable htable _ (Or.inr ⟨r, hr, rfl⟩)

/-- What a hook does before it asks for its record. -/
theorem prepareHook_stretch (hm : m.Coherent os pageTable) (h : m.pool.Offers c offered)
    (hholds : m.Holds os held) {targetFunc : Pvoid} {permissions : BitVec 8}
    {preparation : HookPreparation}
    (hprep : m.prepareHook os targetFunc permissions = some (preparation, m')) :
    ∃ held', Stretch os c offered m held m' held' ∧ m'.Holds os held' := by
  rcases prepareHook_ends hprep with ⟨rfl, _⟩ | ⟨halloc, _⟩ |
    ⟨a, m0, m1, status, halloc, hsplit, hend⟩
  · exact ⟨held, .refl h, hholds⟩
  · obtain ⟨_, hept, _⟩ := allocate_none hm.safe halloc
    exact ⟨held, allocate_stretch h held halloc,
      hholds.of_ept hept (fun _ _ hb => hb) hm.pageTable_eq⟩
  have htaken := allocate_stretch h held halloc
  obtain ⟨_, hept, _, hhistory⟩ := allocate_some hm.safe halloc
  obtain ⟨hext, ha, hfresh, _⟩ := hm.allocated halloc
  have htable : m0.ept.eptPageTable = some pageTable := hept ▸ hm.pageTable_eq
  have hmem : (AllocationType.split2mbPagingTo4kbPage, a) ∈
      ((some a).map fun a => (AllocationType.split2mbPagingTo4kbPage, a)).toList ++ held :=
    List.mem_cons_self
  have hholds0 : m0.Holds os
      (((some a).map fun a => (AllocationType.split2mbPagingTo4kbPage, a)).toList ++ held) :=
    hholds.of_ept hept (fun _ _ hb => List.mem_cons_of_mem _ hb) hm.pageTable_eq
  -- the buffer goes back, by the split or after it
  have hfreed : ∃ held', Stretch os c offered m held (m0.free os a .split2mbPagingTo4kbPage)
      held' ∧ (m0.free os a .split2mbPagingTo4kbPage).Holds os held' := by
    obtain ⟨held', hrest, hstretch⟩ := free_stretch os htaken.offers hmem
    refine ⟨held', htaken.trans hstretch, hholds0.of_ept rfl ?_ htable⟩
    intro b hb hold
    refine hrest b hold ?_
    rintro rfl
    exact hfresh hb
  rcases prepareHook_cases hm targetFunc permissions with
    ⟨status', m2, hprep', hdone⟩ | ⟨b, table, m2, hprep', _⟩
  · obtain ⟨rfl, rfl⟩ := Prod.mk.inj (Option.some.inj (hprep.symm.trans hprep'))
    rcases hend with ⟨rfl, _⟩ | ⟨_, _, _, _, hready⟩
    · rcases splitLargePage_ends hsplit with ⟨_, rfl⟩ | ⟨_, table, e, htable', rfl | ⟨hlarge, rfl⟩⟩
      · exact hfreed
      · -- it does not go back twice
        rcases hdone.history with heq | ⟨b, _, heq⟩
        · have hlength := congrArg List.length heq
          simp only [free, hhistory, List.length_cons] at hlength
          omega
        · have hlength := congrArg List.length heq
          simp only [free, hhistory, List.length_cons] at hlength
          omega
      · -- nor does it once it is wired
        obtain rfl := Option.some.inj (htable.symm.trans htable')
        have hwired := isSplit_wired os a pageTable e
        have hsame := Option.some.inj hdone.coherent.pageTable_eq
        rw [hsame] at hwired
        exact absurd hwired hlarge
    · simp at hready
  · obtain ⟨rfl, rfl⟩ := Prod.mk.inj (Option.some.inj (hprep.symm.trans hprep'))
    rcases hend with ⟨_, hready⟩ | ⟨htrue, rfl, _⟩
    · simp at hready
    · rcases splitLargePage_ends hsplit with ⟨hfalse, _⟩ | ⟨_, table', e, htable', rfl | ⟨_, rfl⟩⟩
      · rw [htrue] at hfalse
        simp at hfalse
      · exact hfreed
      · obtain rfl := Option.some.inj (htable.symm.trans htable')
        obtain ⟨hstretch, hholds1⟩ := wireSplit_stretch htaken.offers
          (Private.granted hext.coherent.safe ha) hmem htable hholds0 e
        exact ⟨_, htaken.trans hstretch, hholds1⟩

/-- A hook that is not denied its record. -/
theorem rootModePageHook_stretch (hm : m.Coherent os pageTable) (h : m.pool.Offers c offered)
    (hholds : m.Holds os held) {targetFunc : Pvoid} {permissions : BitVec 8} {status : Bool}
    (hnot : m.recordDenied os targetFunc permissions = false)
    (hcall : m.rootModePageHook os targetFunc permissions = some (status, m')) :
    ∃ held', Stretch os c offered m held m' held' ∧ m'.Holds os held' := by
  rcases rootModePageHook_ends hcall with hprep | ⟨a, entry, changedEntry, m1, hprep, hend⟩
  · exact prepareHook_stretch hm h hholds hprep
  obtain ⟨held1, hstretch, hholds1⟩ := prepareHook_stretch hm h hholds hprep
  rcases hend with ⟨m2, halloc, _⟩ | ⟨r, m2, halloc, _, rfl⟩
  · simp [recordDenied, hprep, halloc] at hnot
  rcases prepareHook_cases hm targetFunc permissions with
    ⟨_, _, hdone, _⟩ | ⟨b, table, m3, hprep', hready⟩
  · have hmismatch := hprep.symm.trans hdone
    simp at hmismatch
  obtain ⟨hpreparation, rfl⟩ := Prod.mk.inj (Option.some.inj (hprep.symm.trans hprep'))
  simp only [HookPreparation.ready.injEq] at hpreparation
  obtain ⟨_, rfl, _⟩ := hpreparation
  have htaken := allocate_stretch hstretch.offers held1 halloc
  obtain ⟨hext, hr, hfresh, _⟩ := hready.coherent.allocated halloc
  obtain ⟨_, hept, _⟩ := allocate_some hready.coherent.safe halloc
  have hmem : (AllocationType.eptHookPage, r) ∈
      ((some r).map fun r => (AllocationType.eptHookPage, r)).toList ++ held1 :=
    List.mem_cons_self
  have hholds2 : m2.Holds os
      (((some r).map fun r => (AllocationType.eptHookPage, r)).toList ++ held1) :=
    hholds1.of_ept hept (fun _ _ hb => List.mem_cons_of_mem _ hb) hready.coherent.pageTable_eq
  obtain ⟨hinstalled, hholds3⟩ := installHook_stretch htaken.offers hholds2 hmem
    (hholds2.table hext.coherent.pageTable_eq hready.wired) targetFunc changedEntry
  exact ⟨_, (hstretch.trans htaken).trans hinstalled, hholds3⟩

/-- A leaf is restored, and its record is freed. -/
theorem releaseHook_stretch (hm : m.Coherent os pageTable) (h : m.pool.Offers c offered)
    (hholds : m.Holds os held) {r : Pvoid} (hr : r ∈ m.ept.hookedPages) :
    ∃ held', Stretch os c offered m held (m.releaseHook os r) held' ∧
      (m.releaseHook os r).Holds os held' := by
  have hrecord := hm.record r hr
  have htable := hholds.table hm.pageTable_eq hrecord.split
  rw [← hrecord.entry] at htable
  have hstore := setPml1_stretch os h htable (m.detail r).originalEntry
  have hheld : (AllocationType.eptHookPage, r) ∈ held :=
    hholds pageTable hm.pageTable_eq _ (Or.inr ⟨r, hr, rfl⟩)
  obtain ⟨held', hrest, hfree⟩ := free_stretch (m := { m.setPml1 (m.detail r).entryAddress
      (m.detail r).originalEntry with
    ept := { m.ept with hookedPages := m.ept.hookedPages.erase r } }) os hstore.offers hheld
  refine ⟨held', ⟨hstore.conducts.trans hfree.conducts, hfree.offers⟩, fun table heq b hb => ?_⟩
  have hold : m.InUse os table b ∧ b ≠ (.eptHookPage, r) := by
    rcases hb with ⟨e, he, rfl⟩ | ⟨q, hq, rfl⟩
    · exact ⟨Or.inl ⟨e, he, rfl⟩, by simp⟩
    · obtain ⟨hne, hmem⟩ := hm.nodup.mem_erase_iff.mp hq
      exact ⟨Or.inr ⟨q, hmem, rfl⟩, fun heq => hne (congrArg Prod.snd heq)⟩
  exact hrest b (hholds table heq b hold.1) hold.2

theorem unhookAll_stretch (hm : m.Coherent os pageTable) (h : m.pool.Offers c offered)
    (hholds : m.Holds os held) :
    ∃ held', Stretch os c offered m held
        (m.ept.hookedPages.foldl (fun m r => m.releaseHook os r) m) held' ∧
      (m.ept.hookedPages.foldl (fun m r => m.releaseHook os r) m).Holds os held' := by
  generalize hl : m.ept.hookedPages = l
  induction l generalizing m held with
  | nil => exact ⟨held, .refl h, hholds⟩
  | cons r l ih =>
    have hr : r ∈ m.ept.hookedPages := by simp [hl]
    obtain ⟨held1, hstretch, hholds1⟩ := releaseHook_stretch hm h hholds hr
    have hunhooked := hm.releaseHook hr
    obtain ⟨held2, hrest, hholds2⟩ := ih hunhooked.coherent hstretch.offers hholds1
      (by rw [hunhooked.hookedPages, hl, List.erase_cons_head])
    exact ⟨held2, hstretch.trans hrest, hholds2⟩

theorem vmcallHandler_stretch (hm : m.Coherent os pageTable) (h : m.pool.Offers c offered)
    (hholds : m.Holds os held) {vmcallNumber optionalParam1 optionalParam2 : Word}
    (hnot : vmcallNumber.toNat = 3 → optionalParam1 ≠ 0 →
      m.recordDenied os optionalParam1 (optionalParam2.setWidth 8) = false) {status : Ntstatus}
    (hcall : m.vmcallHandler os vmcallNumber optionalParam1 optionalParam2 = some (status, m')) :
    ∃ held', Stretch os c offered m held m' held' ∧ m'.Holds os held' := by
  rcases vmcallHandler_cases hcall with ⟨hnumber, hooked, hhook⟩ | ⟨_, _, rfl⟩ |
    ⟨_, rfl⟩ | ⟨_, _, isLaunched, rfl⟩
  · by_cases hzero : optionalParam1 = 0
    · subst hzero
      rw [vmcallHandler_hook_zero os hnumber] at hcall
      obtain ⟨_, rfl⟩ := Prod.mk.inj (Option.some.inj hcall)
      exact ⟨held, .refl h, hholds⟩
    · exact rootModePageHook_stretch hm h hholds (hnot hnumber hzero) hhook
  · rcases pageUnhookVmcall_ends os optionalParam1 m with heq | ⟨r, hr, _, heq⟩
    · rw [heq]
      exact ⟨held, .refl h, hholds⟩
    · rw [heq]
      exact releaseHook_stretch hm h hholds hr
  · rcases unhookAllPagesVmcall_ends os m with heq | heq
    · rw [heq]
      exact ⟨held, .refl h, hholds⟩
    · rw [heq]
      exact unhookAll_stretch hm h hholds
  · exact ⟨held, .of_pool h rfl, hholds⟩

end Stretches

/-- An exit is a stretch of the caller's work. -/
theorem exitStep_stretch {os : Os} {kernelBaseInfo : KernelBaseInfo} {pageTable : VmmEptPageTable}
    {m m' : Machine Caller} {c : Caller} {offered : List (PoolAction Caller PoolBuffer)}
    {held : List Buffer} (hm : m.Tabled os pageTable) (h : m.pool.Offers c offered)
    (hholds : m.Holds os held) {exit : VmExit} (hguard : m.KeepsTable os exit)
    (hstep : m.exitStep os kernelBaseInfo (.exit exit) = some m') :
    ∃ held', Stretch os c offered m held m' held' ∧ m'.Holds os held' := by
  cases exitStep_cases hstep with
  | eptViolation exitQualification guestPhysicalAddr guestLinearAddress guestRip =>
    rcases handlePageHookExit_ends m.enterRoot kernelBaseInfo exitQualification
      guestPhysicalAddr guestLinearAddress guestRip with
      ⟨_, injection, hresult⟩ | ⟨r, hr, _, hresult⟩
    · simp only [hresult]
      exact ⟨held, .of_pool h rfl, hholds⟩
    · simp only [hresult]
      have hrecord := hm.coherent.record r hr
      have htable := hholds.table hm.coherent.pageTable_eq hrecord.split
      rw [← hrecord.entry] at htable
      obtain ⟨hconducts, hoffers⟩ := setPml1_stretch os h htable (m.detail r).originalEntry
      exact ⟨held, ⟨hconducts, hoffers⟩, hholds⟩
  | monitorTrapFlag hexit =>
    rcases monitorTrapFlagExit_ends hexit with ⟨_, rfl⟩ | ⟨r, hpending, rfl⟩
    · exact ⟨held, .of_pool h rfl, hholds⟩
    · have hrecord := hm.coherent.record r (hm.pending r hpending)
      have htable := hholds.table hm.coherent.pageTable_eq hrecord.split
      rw [← hrecord.entry] at htable
      obtain ⟨hconducts, hoffers⟩ := setPml1_stretch os h htable (m.detail r).changedEntry
      exact ⟨held, ⟨hconducts, hoffers⟩, hholds⟩
  | vmcall hcall =>
    obtain ⟨held', hstretch, hholds'⟩ := vmcallHandler_stretch (m := m.enterRoot)
      (hm.coherent.withGuest _) h hholds hguard.1 hcall
    exact ⟨held', ⟨hstretch.conducts, hstretch.offers⟩, hholds'⟩

theorem stretch_of_run {os : Os} {kernelBaseInfo : KernelBaseInfo} {pageTable : VmmEptPageTable}
    {m m' : Machine Caller} {actions : List (ExitAction Caller)} {c : Caller}
    {offered : List (PoolAction Caller PoolBuffer)} {held : List Buffer}
    (hm : m.Tabled os pageTable) (h : m.pool.Offers c offered) (hholds : m.Holds os held)
    (hothers : ∀ action, .others action ∈ actions → action ∈ offered ∧ action.caller ≠ some c)
    (hrun : GuardedRun (exitStep os kernelBaseInfo) (ExitKeepsTable os) m actions m') :
    ∃ held', Stretch os c offered m held m' held' ∧ m'.Holds os held' := by
  induction hrun generalizing pageTable held with
  | nil m => exact ⟨held, .refl h, hholds⟩
  | @cons m m1 m2 action actions hguard hstep hrun ih =>
    have hrest : ∀ action, .others action ∈ actions →
        action ∈ offered ∧ action.caller ≠ some c :=
      fun a ha => hothers a (List.mem_cons_of_mem action ha)
    cases action with
    | exit exit =>
      obtain ⟨held1, hstretch, hholds1⟩ := exitStep_stretch hm h hholds hguard hstep
      obtain ⟨pageTable1, htable⟩ := exitStep_tabled hm 0 hguard hstep
      obtain ⟨held2, hlater, hholds2⟩ := ih htable.toTabled hstretch.offers hholds1 hrest
      exact ⟨held2, hstretch.trans hlater, hholds2⟩
    | others action =>
      obtain ⟨hoffered, hother⟩ := hothers action List.mem_cons_self
      obtain ⟨state, hstate, rfl⟩ := Option.map_eq_some_iff.mp hstep
      have hext := hm.coherent.othersStep hstep
      obtain ⟨held2, hlater, hholds2⟩ := ih (hm.extend hext false).toTabled h hholds hrest
      exact ⟨held2, ⟨(PoolState.Conducts.other hoffered hother hstate _).trans hlater.conducts,
        hlater.offers⟩, hholds2⟩

/-- Nothing is in use before the first hook. -/
theorem Started.holds {os : Os} {pageTable : VmmEptPageTable} {m : Machine Caller}
    (h : Started os pageTable m) : m.Holds os [] := by
  intro table htable b hb
  obtain rfl := Option.some.inj (h.pageTable_eq.symm.trans htable)
  rcases hb with ⟨e, he, _⟩ | ⟨r, hr, _⟩
  · exact absurd he (h.large e).1
  · rw [h.hookedPages] at hr
    exact absurd hr List.not_mem_nil

/-- Whatever the other parties of the pool do, the processor's exits are the work of one
caller more among them, and that caller holds every table and record in use. -/
theorem conducts_of_run {os : Os} {kernelBaseInfo : KernelBaseInfo} {pageTable : VmmEptPageTable}
    {m m' : Machine Caller} {actions : List (ExitAction Caller)} (hstart : Started os pageTable m)
    (hidle : m.guest.hookedPage = none) (c : Caller)
    {offered : List (PoolAction Caller PoolBuffer)} (hupcoming : m.pool.Offers c offered)
    (hothers : ∀ action, .others action ∈ actions → action ∈ offered ∧ action.caller ≠ some c)
    (hrun : GuardedRun (exitStep os kernelBaseInfo) (ExitKeepsTable os) m actions m') :
    ∃ taken held, GuardedRun (PoolState.step os.toAllocator)
        (fun _ action => PoolState.OwnOr c offered action) (m.withCaller c []) taken
        (m'.withCaller c held) ∧ m'.Holds os held := by
  obtain ⟨held, hstretch, hholds⟩ := stretch_of_run ⟨hstart.coherent, by simp [hidle]⟩ hupcoming
    hstart.holds hothers hrun
  obtain ⟨taken, htaken⟩ := hstretch.conducts
  exact ⟨taken, held, htaken, hholds⟩

/-- A page is hooked, written to and unhooked, while the free worker goes on. -/
def hookedAndUnhooked : List (ExitAction Unit) :=
  [.exit (.vmcall 3 0x200000#64 1), .exit (kernelWrite 0x200000#64), .exit .monitorTrapFlag,
    .others .processFree, .exit (.vmcall 6 0x200000#64 0)]

theorem conducts_of_run_unhook : ∃ taken held, GuardedRun (PoolState.step flatOs.toAllocator)
    (fun _ action => PoolState.OwnOr () [.processFree] action)
    ((flatMachine 1 1).withCaller () []) taken
    ((execute (exitStep flatOs flatKernel) (flatMachine 1 1) hookedAndUnhooked).withCaller
      () held) ∧
    (execute (exitStep flatOs flatKernel) (flatMachine 1 1) hookedAndUnhooked).Holds flatOs
      held := by
  have hupcoming : (flatMachine 1 1).pool.Offers () [.processFree] := by
    intro actions hactions
    exact absurd hactions List.not_mem_nil
  refine conducts_of_run (flatMachine_started 1 1) rfl () hupcoming ?_
    (guardedRun_of_allowed (by decide +kernel))
  intro action haction
  simp only [hookedAndUnhooked, List.mem_cons, reduceCtorEq, ExitAction.others.injEq,
    List.not_mem_nil, or_false, false_or] at haction
  subst haction
  exact ⟨List.mem_singleton_self _, by simp [PoolAction.caller]⟩

end Machine

end NovaHypervisor

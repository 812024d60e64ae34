import NovaHypervisor.ExitRuns
import NovaHypervisor.HookOutcome
import NovaHypervisor.PoolContents

/-!
The rights of the leaves on one processor. An entry that grants a right without
read is a misconfiguration, unless the right is execute and the processor has
execute-only pages. Every entry that the operations build or save grants read if
it grants anything, in every state that they come from, so the rest of the code
never has to ask which processor it runs on.
-/
namespace NovaHypervisor

open General

/-- The entry grants write without read, or execute without read and without the support
for it. -/
def Misconfigured (executeOnlySupport : Bool) (entry : Word) : Prop :=
  Epte.readAccess.get entry = 0 ∧ (Epte.writeAccess.get entry ≠ 0 ∨
    executeOnlySupport = false ∧ Epte.executeAccess.get entry ≠ 0)

/-- An entry that grants anything grants read. -/
def ReadIfPresent (entry : Word) : Prop :=
  Epte.readAccess.get entry = 0 →
    Epte.writeAccess.get entry = 0 ∧ Epte.executeAccess.get entry = 0

instance (entry : Word) : Decidable (ReadIfPresent entry) :=
  inferInstanceAs (Decidable (_ → _))

theorem ReadIfPresent.not_misconfigured {entry : Word} (h : ReadIfPresent entry)
    (executeOnlySupport : Bool) : ¬ Misconfigured executeOnlySupport entry := by
  intro hbad
  obtain ⟨hread, hgrant⟩ := hbad
  obtain ⟨hwrite, hexecute⟩ := h hread
  rcases hgrant with hw | ⟨_, hx⟩
  · exact hw hwrite
  · exact hx hexecute

theorem readIfPresent_zero : ReadIfPresent 0 := fun _ => ⟨BitField.get_zero _, BitField.get_zero _⟩

theorem readIfPresent_splitPml1Entry (ept : Ept) (pml2 : Word) (i : Fin 512) :
    ReadIfPresent (ept.splitPml1Entry pml2 i) := by
  intro hread
  rw [(splitPml1Entry_access ept pml2 i).1] at hread
  exact absurd hread (by decide)

/-- Whatever the permissions byte is, only its read bit survives. -/
theorem readIfPresent_changeAccess (flags : Word) (permissions : BitVec 8) :
    ReadIfPresent (changeAccess flags permissions) :=
  fun _ => (changeAccess_access flags permissions).2

/-- A large entry has its rights where a leaf has them. -/
theorem LargeAccess.readIfPresent {pml2 : Word} (h : LargeAccess pml2) : ReadIfPresent pml2 := by
  intro hread
  have hone : Epte.readAccess.get pml2 = 1 := h.read
  rw [hone] at hread
  exact absurd hread (by decide)

/-- The leaves of a table and the entries that a record saves. -/
structure PoolBuffer.ReadIfPresent (b : PoolBuffer) : Prop where
  leaf : ∀ i, NovaHypervisor.ReadIfPresent (b.split.pml1 i)
  original : NovaHypervisor.ReadIfPresent b.detail.originalEntry
  changed : NovaHypervisor.ReadIfPresent b.detail.changedEntry

instance (b : PoolBuffer) : Decidable b.ReadIfPresent :=
  decidable_of_iff ((∀ i, NovaHypervisor.ReadIfPresent (b.split.pml1 i)) ∧
      NovaHypervisor.ReadIfPresent b.detail.originalEntry ∧
      NovaHypervisor.ReadIfPresent b.detail.changedEntry)
    ⟨fun h => ⟨h.1, h.2.1, h.2.2⟩, fun h => ⟨h.leaf, h.original, h.changed⟩⟩

theorem PoolBuffer.readIfPresent_zero : PoolBuffer.ReadIfPresent 0 :=
  ⟨fun _ => NovaHypervisor.readIfPresent_zero, NovaHypervisor.readIfPresent_zero,
    NovaHypervisor.readIfPresent_zero⟩

namespace Machine

variable {Caller : Type*}

/-- No leaf of the page table is a misconfiguration: no 2MB entry, and no 4KB entry of
the table behind a split one. -/
def NoMisconfiguration (os : Os) (executeOnlySupport : Bool) (m : Machine Caller) : Prop :=
  ∀ pageTable, m.ept.eptPageTable = some pageTable → ∀ e,
    (¬ IsSplit pageTable e → ¬ Misconfigured executeOnlySupport (pageTable.pml2 e)) ∧
    (IsSplit pageTable e → ∀ i, ¬ Misconfigured executeOnlySupport
      ((m.buffer (tableOf os pageTable e)).split.pml1 i))

/-- The tables in use, the records in the list and the pending record are buffers of the
pool, and every buffer of the pool keeps the law. -/
structure Readable (os : Os) (m : Machine Caller) : Prop where
  safe : m.pool.state.Safe os.toAllocator
  lawful : m.pool.Lawful PoolBuffer.ReadIfPresent
  large : ∀ pageTable, m.ept.eptPageTable = some pageTable → ∀ e, ¬ IsSplit pageTable e →
    ReadIfPresent (pageTable.pml2 e)
  table : ∀ pageTable, m.ept.eptPageTable = some pageTable → ∀ e, IsSplit pageTable e →
    m.pool.state.ledger.slot (.split2mbPagingTo4kbPage, tableOf os pageTable e)
  record : ∀ r ∈ m.ept.hookedPages, m.pool.state.ledger.slot (.eptHookPage, r)
  pending : ∀ r ∈ m.guest.hookedPage, m.pool.state.ledger.slot (.eptHookPage, r)

namespace Readable

variable {os : Os} {m m' : Machine Caller}

theorem buffer (h : m.Readable os) {b : Buffer} (hb : m.pool.state.ledger.slot b) :
    (m.buffer b.2).ReadIfPresent :=
  h.lawful.contents b hb

theorem noMisconfiguration (h : m.Readable os) (executeOnlySupport : Bool) :
    m.NoMisconfiguration os executeOnlySupport := by
  intro pageTable htable e
  constructor
  · intro hlarge
    exact (h.large pageTable htable e hlarge).not_misconfigured _
  · intro hsplit i
    exact ((h.buffer (h.table pageTable htable e hsplit)).leaf i).not_misconfigured _

theorem withGuest (h : m.Readable os) {guest : VmState}
    (hpending : guest.hookedPage = m.guest.hookedPage) :
    ({ m with guest := guest } : Machine Caller).Readable os :=
  ⟨h.safe, h.lawful, h.large, h.table, h.record, fun r hr => h.pending r (hpending ▸ hr)⟩

/-- Moves of the pool that keep its slots and the law. -/
theorem keep (h : m.Readable os) (hept : m'.ept = m.ept) (hguest : m'.guest = m.guest)
    (hsafe : m'.pool.state.Safe os.toAllocator)
    (hslot : ∀ b, m.pool.state.ledger.slot b → m'.pool.state.ledger.slot b)
    (hlawful : m'.pool.Lawful PoolBuffer.ReadIfPresent) : m'.Readable os := by
  refine ⟨hsafe, hlawful, hept ▸ h.large, ?_, ?_, ?_⟩
  · intro pageTable htable e he
    exact hslot _ (h.table pageTable (hept ▸ htable) e he)
  · intro r hr
    exact hslot _ (h.record r (hept ▸ hr))
  · intro r hr
    exact hslot _ (h.pending r (hguest ▸ hr))

theorem setBuffer (h : m.Readable os) (a : Pvoid) {content : PoolBuffer}
    (hcontent : (∃ type, m.pool.state.ledger.slot (type, a)) → content.ReadIfPresent) :
    (m.setBuffer a content).Readable os := by
  refine ⟨safe_setBuffer h.safe _ _, ⟨?_, h.lawful.upcoming⟩, h.large, h.table, h.record,
    h.pending⟩
  intro b hb
  have hslot : m.pool.state.ledger.slot b := hb
  by_cases hba : b.2 = a
  · obtain ⟨type, address⟩ := b
    obtain rfl : address = a := hba
    have hself : (m.setBuffer address content).pool.state.memory address = content :=
      Function.update_self _ _ _
    simp only [hself]
    exact hcontent ⟨type, hslot⟩
  · have hold := h.buffer hslot
    rw [← buffer_setBuffer_of_ne m hba content] at hold
    exact hold

theorem setPml1 (h : m.Readable os) (entry : PeptPml1Entry) {value : Word}
    (hvalue : ReadIfPresent value) : (m.setPml1 entry value).Readable os := by
  refine h.setBuffer _ ?_
  intro hslot
  obtain ⟨type, hslot⟩ := hslot
  have hold := h.buffer hslot
  refine ⟨?_, hold.original, hold.changed⟩
  intro i
  rcases eq_or_ne i entry.index with rfl | hne
  · simpa using hvalue
  · simpa [hne] using hold.leaf i

variable [DecidableEq Caller]

theorem allocate (h : m.Readable os) {type : AllocationType} {result : Option Pvoid}
    (halloc : m.allocate os type = (result, m')) :
    m'.Readable os ∧ ∀ a ∈ result, m'.pool.state.ledger.slot (type, a) ∧
      os.grants type a = true := by
  have hlawful : m'.pool.Lawful PoolBuffer.ReadIfPresent := by
    have hpool : m'.pool = (m.pool.allocate os.toAllocator type).2 :=
      (congrArg (fun p => p.2.pool) halloc).symm
    rw [hpool]
    exact h.lawful.allocate PoolBuffer.readIfPresent_zero type h.safe
  cases result with
  | none =>
    obtain ⟨hpool, hept, hguest, _⟩ := allocate_none h.safe halloc
    exact ⟨h.keep hept hguest hpool.safe hpool.slot hlawful, by simp⟩
  | some a =>
    obtain ⟨hpool, hept, hguest, _⟩ := allocate_some h.safe halloc
    refine ⟨h.keep hept hguest hpool.safe hpool.slot hlawful, ?_⟩
    intro b hb
    obtain rfl : a = b := Option.some.inj hb
    exact ⟨hpool.taken, hpool.granted⟩

theorem free (h : m.Readable os) (a : Pvoid) (type : AllocationType) :
    (m.free os a type).Readable os := by
  have hfreed := SharedPool.free_spec os.toAllocator type a h.safe
  exact h.keep rfl rfl hfreed.safe hfreed.slot
    (h.lawful.free PoolBuffer.readIfPresent_zero a type h.safe)

omit [DecidableEq Caller] in
theorem wireSplit (h : m.Readable os) {a : Pvoid}
    (ha : m.pool.state.ledger.slot (.split2mbPagingTo4kbPage, a))
    (hgrant : os.grants .split2mbPagingTo4kbPage a = true) {pageTable : VmmEptPageTable}
    (htable : m.ept.eptPageTable = some pageTable) (e : PeptPml2Entry) :
    (m.wireSplit os a pageTable e).Readable os := by
  have hbuffer := h.buffer ha
  have hset : (m.setBuffer a { m.buffer a with split :=
      ⟨m.ept.splitPml1Entry (pageTable.pml2 e), some e⟩ }).Readable os :=
    h.setBuffer a fun _ => ⟨fun i => readIfPresent_splitPml1Entry m.ept _ i, hbuffer.original,
      hbuffer.changed⟩
  refine ⟨hset.safe, hset.lawful, ?_, ?_, hset.record, hset.pending⟩
  · intro pageTable' htable' f hf
    obtain rfl := Option.some.inj htable'
    have hfe : f ≠ e := by
      intro heq
      exact hf ((isSplit_setPml2_newSplitPtr os a pageTable e f).mpr (Or.inl heq))
    rw [setPml2_of_ne pageTable hfe]
    refine h.large pageTable htable f ?_
    intro hold
    exact hf ((isSplit_setPml2_newSplitPtr os a pageTable e f).mpr (Or.inr hold))
  · intro pageTable' htable' f hf
    obtain rfl := Option.some.inj htable'
    rcases isSplit_wired_cases hgrant hf with ⟨_, hwired⟩ | ⟨_, hold, hkept⟩
    · rw [hwired]
      exact ha
    · rw [hkept]
      exact h.table pageTable htable f hold

theorem splitLargePage (h : m.Readable os) {a : Pvoid}
    (ha : m.pool.state.ledger.slot (.split2mbPagingTo4kbPage, a))
    (hgrant : os.grants .split2mbPagingTo4kbPage a = true) {x : Word} {status : Bool}
    (hsplit : m.splitLargePage os a x = some (status, m')) : m'.Readable os := by
  rcases splitLargePage_ends hsplit with ⟨_, rfl⟩ | ⟨_, pageTable, e, htable, rfl | ⟨_, rfl⟩⟩
  · exact h
  · exact h.free a _
  · exact h.wireSplit ha hgrant htable e

omit [DecidableEq Caller] in
/-- A leaf that a hook finds is in a table of the pool. -/
theorem getPml1Entry (h : m.Readable os) {x : Word} {entry : PeptPml1Entry}
    (hentry : m.getPml1Entry os x = some (some entry)) : ReadIfPresent (m.pml1 entry) := by
  obtain ⟨pageTable, htable, hsplit, rfl⟩ := getPml1Entry_some hentry
  exact (h.buffer (h.table pageTable htable _ hsplit)).leaf _

theorem prepareHook (h : m.Readable os) {targetFunc : Pvoid} {permissions : BitVec 8}
    {preparation : HookPreparation}
    (hprep : m.prepareHook os targetFunc permissions = some (preparation, m')) :
    m'.Readable os := by
  rcases prepareHook_ends hprep with ⟨rfl, _⟩ | ⟨halloc, _⟩ |
    ⟨a, m0, m1, status, halloc, hsplit, hend⟩
  · exact h
  · exact (h.allocate halloc).1
  obtain ⟨h0, htaken⟩ := h.allocate halloc
  obtain ⟨hslot, hgrant⟩ := htaken a rfl
  have h1 := h0.splitLargePage hslot hgrant hsplit
  rcases hend with ⟨rfl, _⟩ | ⟨_, rfl, _⟩
  · exact h1.free a _
  · exact h1

omit [DecidableEq Caller] in
theorem addRecord (h : m.Readable os) {r : Pvoid}
    (hr : m.pool.state.ledger.slot (.eptHookPage, r)) {d : EptHookedPageDetail}
    (horiginal : ReadIfPresent d.originalEntry) (hchanged : ReadIfPresent d.changedEntry) :
    (m.addRecord r d).Readable os := by
  have hset : (m.setBuffer r { m.buffer r with detail := d }).Readable os :=
    h.setBuffer r fun _ => ⟨(h.buffer hr).leaf, horiginal, hchanged⟩
  refine ⟨hset.safe, hset.lawful, hset.large, hset.table, ?_, hset.pending⟩
  intro q hq
  rcases List.mem_cons.mp hq with rfl | hold
  · exact hr
  · exact h.record q hold

/-- Where the hook saves a leaf it saves one of a pool table, whatever happened to the table
since it was wired. -/
theorem rootModePageHook (h : m.Readable os) {targetFunc : Pvoid} {permissions : BitVec 8}
    {status : Bool} (hcall : m.rootModePageHook os targetFunc permissions = some (status, m')) :
    m'.Readable os := by
  rcases rootModePageHook_ends hcall with hprep | ⟨a, entry, changedEntry, m1, hprep, hend⟩
  · exact h.prepareHook hprep
  have h1 := h.prepareHook hprep
  rcases hend with ⟨m2, halloc, _, rfl⟩ | ⟨r, m2, halloc, _, rfl⟩
  · exact (h1.allocate halloc).1.free a _
  obtain ⟨h2, htaken⟩ := h1.allocate halloc
  obtain ⟨_, _, _, hentry, hchanged⟩ := prepareHook_ready hprep
  have hept : m2.ept = m1.ept := (congrArg (fun p => p.2.ept) halloc).symm
  have hentry2 : m2.getPml1Entry os (hookAddress os targetFunc) = some (some entry) := by
    rw [← hentry, Machine.getPml1Entry, Machine.getPml1Entry, hept]
  have hchanged2 : ReadIfPresent changedEntry := by
    rw [hchanged]
    exact readIfPresent_changeAccess _ permissions
  exact (h2.addRecord (htaken r rfl).1 (h2.getPml1Entry hentry2) hchanged2).setPml1 entry hchanged2

theorem releaseHook (h : m.Readable os) {r : Pvoid} (hr : r ∈ m.ept.hookedPages) :
    (m.releaseHook os r).Readable os := by
  have hset := h.setPml1 (m.detail r).entryAddress (h.buffer (h.record r hr)).original
  have herase : ({ m.setPml1 (m.detail r).entryAddress (m.detail r).originalEntry with
      ept := { m.ept with hookedPages := m.ept.hookedPages.erase r } } :
        Machine Caller).Readable os :=
    ⟨hset.safe, hset.lawful, hset.large, hset.table,
      fun q hq => hset.record q (List.mem_of_mem_erase hq), hset.pending⟩
  exact herase.free r .eptHookPage

theorem unhookAll (h : m.Readable os) :
    (m.ept.hookedPages.foldl (fun m r => m.releaseHook os r) m).Readable os := by
  generalize hl : m.ept.hookedPages = l
  induction l generalizing m with
  | nil => exact h
  | cons r l ih =>
    have hrest : (m.releaseHook os r).ept.hookedPages = l := by
      change m.ept.hookedPages.erase r = l
      rw [hl, List.erase_cons_head]
    exact ih (h.releaseHook (by simp [hl])) hrest

theorem vmcallHandler (h : m.Readable os) {vmcallNumber optionalParam1 optionalParam2 : Word}
    {status : Ntstatus} (hcall : m.vmcallHandler os vmcallNumber optionalParam1 optionalParam2 =
      some (status, m')) : m'.Readable os := by
  rcases vmcallHandler_cases hcall with ⟨_, hooked, hhook⟩ | ⟨_, _, rfl⟩ | ⟨_, rfl⟩ |
    ⟨_, _, isLaunched, rfl⟩
  · exact h.rootModePageHook hhook
  · rcases pageUnhookVmcall_ends os optionalParam1 m with heq | ⟨r, hr, _, heq⟩
    · exact heq ▸ h
    · exact heq ▸ h.releaseHook hr
  · rcases unhookAllPagesVmcall_ends os m with heq | heq
    · exact heq ▸ h
    · exact heq ▸ h.unhookAll
  · exact h.withGuest rfl

omit [DecidableEq Caller] in
/-- A violation writes back the leaf that the record saved. -/
theorem handlePageHookExit (h : m.Readable os) (kernelBaseInfo : KernelBaseInfo)
    (violationQualification guestPhysicalAddr guestLinearAddress guestRip : Word) :
    (m.handlePageHookExit kernelBaseInfo violationQualification guestPhysicalAddr
      guestLinearAddress guestRip).2.Readable os := by
  rcases handlePageHookExit_ends m kernelBaseInfo violationQualification guestPhysicalAddr
    guestLinearAddress guestRip with ⟨_, injection, heq⟩ | ⟨r, hr, _, heq⟩
  · exact heq ▸ h.withGuest rfl
  · rw [heq]
    have hset := h.setPml1 (m.detail r).entryAddress (h.buffer (h.record r hr)).original
    refine ⟨hset.safe, hset.lawful, hset.large, hset.table, hset.record, ?_⟩
    intro q hq
    obtain rfl : r = q := Option.some.inj hq
    exact h.record r hr

omit [DecidableEq Caller] in
/-- The pending record may have been freed since, and handed out again. -/
theorem monitorTrapFlagExit (h : m.Readable os) (hexit : m.monitorTrapFlagExit = some m') :
    m'.Readable os := by
  rcases monitorTrapFlagExit_ends hexit with ⟨_, rfl⟩ | ⟨r, hpending, rfl⟩
  · exact h.withGuest rfl
  · have hset := h.setPml1 (m.detail r).entryAddress (h.buffer (h.pending r hpending)).changed
    refine ⟨hset.safe, hset.lawful, hset.large, hset.table, hset.record, ?_⟩
    intro q hq
    exact absurd hq (by simp [closePage, VmState.setMonitorTrapFlag])

theorem othersStep (h : m.Readable os) {action : PoolAction Caller PoolBuffer}
    (hwrites : action.Writes PoolBuffer.ReadIfPresent)
    (hstep : m.othersStep os action = some m') : m'.Readable os := by
  obtain ⟨state, hstate, rfl⟩ := Option.map_eq_some_iff.mp hstep
  have hevolves := SharedPool.evolves_of_step hstate h.safe
  refine h.keep rfl rfl hevolves.safe hevolves.slot ⟨?_, h.lawful.upcoming⟩
  exact PoolState.step_contents PoolBuffer.readIfPresent_zero hstate h.safe hwrites
    h.lawful.contents

end Readable

/-- What another party writes, if the action is one of its steps, keeps the law. -/
def OthersReadable (_ : Machine Caller) : ExitAction Caller → Prop
  | .exit _ => True
  | .others action => action.Writes PoolBuffer.ReadIfPresent

instance (m : Machine Caller) : (action : ExitAction Caller) → Decidable (m.OthersReadable action)
  | .exit _ => inferInstanceAs (Decidable True)
  | .others action => inferInstanceAs (Decidable (action.Writes PoolBuffer.ReadIfPresent))

variable [DecidableEq Caller]

theorem exitStep_readable {os : Os} {kernelBaseInfo : KernelBaseInfo} {m m' : Machine Caller}
    (h : m.Readable os) {action : ExitAction Caller} (hothers : m.OthersReadable action)
    (hstep : m.exitStep os kernelBaseInfo action = some m') : m'.Readable os := by
  have henter : m.enterRoot.Readable os := h.withGuest rfl
  cases exitStep_cases hstep with
  | eptViolation exitQualification guestPhysicalAddr guestLinearAddress guestRip =>
    exact (henter.handlePageHookExit kernelBaseInfo exitQualification guestPhysicalAddr
      guestLinearAddress guestRip).withGuest rfl
  | monitorTrapFlag hexit => exact (henter.monitorTrapFlagExit hexit).withGuest rfl
  | vmcall hcall => exact (henter.vmcallHandler hcall).withGuest rfl
  | others hstep => exact h.othersStep hothers hstep

/-- A start in which the other parties have written, and are to write, only contents that
keep the law, and no record is pending. -/
structure StartedReadable (os : Os) (pageTable : VmmEptPageTable) (m : Machine Caller) :
    Prop extends Started os pageTable m where
  written : ∃ memory, ∃ buffers : PoolManager.InitialBuffers os.toAllocator, ∃ actions,
    GuardedRun (PoolState.step os.toAllocator)
      (fun _ action => action.Writes PoolBuffer.ReadIfPresent)
      (PoolState.initial memory buffers) actions m.pool.state
  upcoming : ∀ actions ∈ m.pool.upcoming, ∀ action ∈ actions,
    action.Writes PoolBuffer.ReadIfPresent
  idle : m.guest.hookedPage = none

theorem StartedReadable.readable {os : Os} {pageTable : VmmEptPageTable} {m : Machine Caller}
    (h : StartedReadable os pageTable m) : m.Readable os := by
  obtain ⟨memory, buffers, actions, hrun⟩ := h.written
  refine ⟨h.coherent.safe, ⟨PoolState.contents_of_run PoolBuffer.readIfPresent_zero hrun,
    h.upcoming⟩, ?_, ?_, by simp [h.hookedPages], by simp [h.idle]⟩
  · intro pageTable' htable e _
    obtain rfl : pageTable = pageTable' := Option.some.inj (h.pageTable_eq.symm.trans htable)
    exact (h.large e).2.toLargeAccess.readIfPresent
  · intro pageTable' htable e he
    obtain rfl : pageTable = pageTable' := Option.some.inj (h.pageTable_eq.symm.trans htable)
    exact absurd he (h.large e).1

/-- After every exit no leaf is a misconfiguration, with or without execute-only pages, and
every buffer of the pool keeps the law, which is what the other processors rely on. -/
theorem noMisconfiguration_of_run {os : Os} {kernelBaseInfo : KernelBaseInfo}
    {pageTable : VmmEptPageTable} {m m' : Machine Caller} {actions : List (ExitAction Caller)}
    (hstart : StartedReadable os pageTable m)
    (hrun : GuardedRun (exitStep os kernelBaseInfo) OthersReadable m actions m')
    (executeOnlySupport : Bool) :
    m'.NoMisconfiguration os executeOnlySupport ∧
      m'.pool.state.Contents PoolBuffer.ReadIfPresent := by
  have h : m'.Readable os :=
    hrun.invariant (fun _ _ _ h hothers hstep => exitStep_readable h hothers hstep)
      hstart.readable
  exact ⟨h.noMisconfiguration executeOnlySupport, h.lawful.contents⟩

theorem flatMachine_startedReadable (paging hooks : ℕ) :
    StartedReadable flatOs flatTable (flatMachine paging hooks) where
  toStarted := flatMachine_started paging hooks
  written := ⟨_, _, [], GuardedRun.nil _⟩
  upcoming := by simp [flatMachine]
  idle := rfl

/-- A denied hook gives a table in use back to the pool, the free worker zeroes it, and
another processor takes it and writes a leaf of its own. -/
theorem noMisconfiguration_of_run_denied :
    (execute (exitStep flatOs flatKernel) (flatMachine 1 0) [.exit (.vmcall 3 0x200000#64 4),
      .others .processFree, .others .processFree, .exit (kernelWrite 0x200000#64),
      .others (.allocate () .split2mbPagingTo4kbPage), .others (.advance ()),
      .others (.write () (.split2mbPagingTo4kbPage, 0x1000#64)
        ⟨⟨fun _ => 0x7#64, none⟩, (0 : PoolBuffer).detail⟩)]).NoMisconfiguration flatOs true :=
  (noMisconfiguration_of_run (flatMachine_startedReadable 1 0)
    (guardedRun_of_allowed (by decide +kernel)) true).1

end Machine

end NovaHypervisor

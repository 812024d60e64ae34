import NovaHypervisor.General.SetLog
import NovaHypervisor.QuietHook

/-!
The hook list of one launched processor as a set of pages. The calls that return true
insert a page, take one out or take all of them out; the others leave the list alone.
The leaves that an unhook restores are those of the records that it takes out. A hook
that the pool denies a table or a record is one of the calls.
-/
namespace NovaHypervisor

open General

/-- The calls that VMX root mode makes on the hook list. -/
inductive ListCall where
  | hook (targetFunc : Pvoid) (permissions : BitVec 8)
  | unhook (guestVirtualAddress : Word)
  | unhookAll

/-- What the call does to the set of hooked pages when it returns true. -/
def ListCall.operation : ListCall → SetOperation Word
  | .hook targetFunc _ => .insert (pageAlign targetFunc)
  | .unhook guestVirtualAddress => .erase (pageAlign guestVirtualAddress)
  | .unhookAll => .clear

inductive ListAction (Caller : Type*) where
  | call (call : ListCall)
  | others (action : PoolAction Caller PoolBuffer)

/-- Write permission without read permission, which `RootModePageHook` refuses first. -/
def WriteWithoutRead (permissions : BitVec 8) : Prop :=
  permissions &&& eptPageWrite ≠ 0 ∧ permissions &&& eptPageRead = 0

instance (permissions : BitVec 8) : Decidable (WriteWithoutRead permissions) :=
  inferInstanceAs (Decidable (_ ∧ _))

namespace Machine

variable {Caller : Type*}

/-- The virtual pages of the hook records, in list order. -/
def pages (m : Machine Caller) : List Word :=
  m.ept.hookedPages.map fun r => (m.detail r).virtualAddress

theorem mem_pages {m : Machine Caller} {page : Word} :
    page ∈ m.pages ↔ ∃ r ∈ m.ept.hookedPages, (m.detail r).virtualAddress = page :=
  List.mem_map

theorem isHookExists_iff_mem_pages (m : Machine Caller) (address : Word) :
    m.isHookExists (pageAlign address) = true ↔ pageAlign address ∈ m.pages := by
  rw [isHookExists_iff, mem_pages]

/-- The same records, with the same contents. -/
structure SameRecords (m m' : Machine Caller) : Prop where
  hookedPages : m'.ept.hookedPages = m.ept.hookedPages
  detail : ∀ r ∈ m.ept.hookedPages, m'.detail r = m.detail r

theorem SameRecords.refl (m : Machine Caller) : SameRecords m m := ⟨rfl, fun _ _ => rfl⟩

theorem SameRecords.trans {m m' m'' : Machine Caller} (h : SameRecords m m')
    (h' : SameRecords m' m'') : SameRecords m m'' :=
  ⟨h'.hookedPages.trans h.hookedPages,
    fun r hr => (h'.detail r (h.hookedPages ▸ hr)).trans (h.detail r hr)⟩

theorem SameRecords.pages {m m' : Machine Caller} (h : SameRecords m m') : m'.pages = m.pages := by
  rw [Machine.pages, Machine.pages, h.hookedPages]
  refine List.map_congr_left fun r hr => ?_
  rw [h.detail r hr]

variable [DecidableEq Caller]

def call (os : Os) : ListCall → Machine Caller → Option (Bool × Machine Caller)
  | .hook targetFunc permissions, m => m.rootModePageHook os targetFunc permissions
  | .unhook guestVirtualAddress, m => some (m.pageUnhookVmcall os guestVirtualAddress)
  | .unhookAll, m => some (m.unhookAllPagesVmcall os)

/-- A call, with the log of the successful ones, or a step of another party of the pool. -/
def listStep (os : Os) (s : Machine Caller × List (SetOperation Word)) :
    ListAction Caller → Option (Machine Caller × List (SetOperation Word))
  | .call call => (s.1.call os call).map fun (status, m) =>
      (m, if status then call.operation :: s.2 else s.2)
  | .others action => (s.1.othersStep os action).map fun m => (m, s.2)

namespace Listed

variable {os : Os} {m m' : Machine Caller}

theorem sameRecords_allocate (h : m.Listed os) {type : AllocationType} {result : Option Pvoid}
    (halloc : m.allocate os type = (result, m')) : SameRecords m m' := by
  have hevolves : SharedPool.Evolves os.toAllocator m.pool.state m'.pool.state ∧
      m'.ept = m.ept := by
    cases result with
    | none =>
      obtain ⟨hpool, hept, _⟩ := allocate_none h.safe halloc
      exact ⟨hpool, hept⟩
    | some a =>
      obtain ⟨hpool, hept, _⟩ := allocate_some h.safe halloc
      exact ⟨hpool.toEvolves, hept⟩
  refine ⟨by rw [hevolves.2], fun r hr => ?_⟩
  exact congrArg PoolBuffer.detail (hevolves.1.outside _ (h.owned r hr)).2

theorem sameRecords_free (h : m.Listed os) (a : Pvoid) :
    SameRecords m (m.free os a .split2mbPagingTo4kbPage) := by
  have hfreed := SharedPool.free_spec os.toAllocator .split2mbPagingTo4kbPage a h.safe
  refine ⟨rfl, fun r hr => ?_⟩
  exact congrArg PoolBuffer.detail (hfreed.outside _ (by simp) (h.owned r hr)).2

theorem sameRecords_othersStep (h : m.Listed os) {action : PoolAction Caller PoolBuffer}
    (hstep : m.othersStep os action = some m') : SameRecords m m' := by
  obtain ⟨state, hstate, rfl⟩ := Option.map_eq_some_iff.mp hstep
  have hevolves := SharedPool.evolves_of_step hstate h.safe
  refine ⟨rfl, fun r hr => ?_⟩
  exact congrArg PoolBuffer.detail (hevolves.outside _ (h.owned r hr)).2

theorem sameRecords_splitLargePage (h : m.Listed os) {a : Pvoid} {x : Word} {status : Bool}
    (hsplit : m.splitLargePage os a x = some (status, m')) : SameRecords m m' := by
  rcases splitLargePage_ends hsplit with ⟨_, rfl⟩ | ⟨_, pageTable, e, _, rfl | ⟨_, rfl⟩⟩
  · exact SameRecords.refl _
  · exact h.sameRecords_free a
  · exact ⟨rfl, fun r _ => detail_setBuffer_split m a r _⟩

theorem sameRecords_prepareHook (h : m.Listed os) {targetFunc : Pvoid} {permissions : BitVec 8}
    {preparation : HookPreparation}
    (hprep : m.prepareHook os targetFunc permissions = some (preparation, m')) :
    SameRecords m m' := by
  rcases prepareHook_ends hprep with ⟨rfl, _⟩ | ⟨halloc, _⟩ |
    ⟨a, m0, m1, status, halloc, hsplit, hend⟩
  · exact SameRecords.refl _
  · exact h.sameRecords_allocate halloc
  have h0 := (h.allocate halloc).1
  have h1 := (h0.splitLargePage hsplit).1
  have hsame := (h.sameRecords_allocate halloc).trans (h0.sameRecords_splitLargePage hsplit)
  rcases hend with ⟨rfl, _⟩ | ⟨_, rfl, _⟩
  · exact hsame.trans (h1.sameRecords_free a)
  · exact hsame

end Listed

theorem rootModePageHook_of_refused (os : Os) {m : Machine Caller} (targetFunc : Pvoid)
    {permissions : BitVec 8} (h : WriteWithoutRead permissions) :
    m.rootModePageHook os targetFunc permissions = some (false, m) := by
  have hguard : permissions &&& eptPageWrite ≠ 0 ∧ permissions &&& eptPageRead = 0 := h
  rw [rootModePageHook, prepareHook]
  split
  · rfl
  · rfl

theorem rootModePageHook_of_hooked (os : Os) {m : Machine Caller} {targetFunc : Pvoid}
    {permissions : BitVec 8} (hlaunched : m.guest.isLaunched = true)
    (hpermissions : ¬ WriteWithoutRead permissions) (hpage : pageAlign targetFunc ∈ m.pages) :
    m.rootModePageHook os targetFunc permissions = some (true, m) := by
  have hguard : ¬ (permissions &&& eptPageWrite ≠ 0 ∧ permissions &&& eptPageRead = 0) :=
    hpermissions
  have hexists := (isHookExists_iff_mem_pages m targetFunc).mpr hpage
  rw [rootModePageHook, prepareHook, if_neg (by simp [hlaunched]), if_neg hguard]
  simp only [hexists, if_true, Option.map_some]

/-- The call leaves the records alone, or adds one with the page at the head. -/
theorem Listed.rootModePageHook_records {os : Os} {m m' : Machine Caller} (h : m.Listed os)
    (hlaunched : m.guest.isLaunched = true) {targetFunc : Pvoid} {permissions : BitVec 8}
    {status : Bool} (hcall : m.rootModePageHook os targetFunc permissions = some (status, m')) :
    (SameRecords m m' ∧ (status = true → pageAlign targetFunc ∈ m.pages)) ∨
    (status = true ∧ pageAlign targetFunc ∉ m.pages ∧
      m'.pages = pageAlign targetFunc :: m.pages) := by
  rcases rootModePageHook_ends hcall with hprep | ⟨a, entry, changedEntry, m1, hprep, hend⟩
  · refine Or.inl ⟨h.sameRecords_prepareHook hprep, fun hstatus => ?_⟩
    rcases prepareHook_ends hprep with ⟨_, status', hdone, hexists⟩ | ⟨_, hdone⟩ |
      ⟨_, _, _, _, _, _, ⟨_, hdone⟩ | ⟨_, _, _, _, hready⟩⟩
    · obtain rfl := HookPreparation.done.inj hdone
      exact (isHookExists_iff_mem_pages m targetFunc).mp (hexists hstatus)
    · exact absurd (HookPreparation.done.inj hdone) (by simp [hstatus])
    · exact absurd (HookPreparation.done.inj hdone) (by simp [hstatus])
    · exact absurd hready (by simp)
  have h1 := (h.prepareHook hprep).1
  have hsame1 := h.sameRecords_prepareHook hprep
  rcases hend with ⟨m2, halloc, hstatus, rfl⟩ | ⟨r, m2, halloc, hstatus, rfl⟩
  · have h2 := (h1.allocate halloc).1
    have hsame := (h1.sameRecords_allocate halloc).trans (h2.sameRecords_free a)
    refine Or.inl ⟨hsame1.trans hsame, ?_⟩
    intro htrue
    exact absurd htrue (by simp [hstatus])
  · have hsame := hsame1.trans (h1.sameRecords_allocate halloc)
    obtain ⟨hpool, hept, _⟩ := allocate_some h1.safe halloc
    have hfresh : r ∉ m2.ept.hookedPages := by
      rw [hept]
      exact fun hmem => hpool.fresh (h1.owned r hmem)
    refine Or.inr ⟨hstatus, ?_, ?_⟩
    · intro hpage
      have hpermissions : ¬ WriteWithoutRead permissions := by
        intro hrefused
        have heq := Option.some.inj
          (hcall.symm.trans (rootModePageHook_of_refused os targetFunc hrefused))
        exact absurd (congrArg Prod.fst heq) (by simp [hstatus])
      have heq := Option.some.inj
        (hcall.symm.trans (rootModePageHook_of_hooked os hlaunched hpermissions hpage))
      have hlist : r :: m2.ept.hookedPages = m.ept.hookedPages :=
        congrArg (fun p => p.2.ept.hookedPages) heq
      rw [hsame.hookedPages] at hlist
      exact absurd (congrArg List.length hlist) (by simp)
    · rw [← hsame.pages]
      have hne : ∀ q ∈ m2.ept.hookedPages, q ≠ r := fun q hq heq => hfresh (heq ▸ hq)
      change List.map (fun q => ((m2.installHook os targetFunc entry changedEntry r).detail
        q).virtualAddress) (r :: m2.ept.hookedPages) = _
      rw [List.map_cons, detail_installHook]
      refine congrArg₂ List.cons rfl (List.map_congr_left fun q hq => ?_)
      rw [detail_installHook_of_ne os m2 targetFunc entry changedEntry (hne q hq)]

/-- The processor's own table, or any at all when no other party acts during the call. -/
def Undisturbed (m : Machine Caller) (table : Pvoid) : Prop :=
  m.pool.upcoming = [] ∨ m.Private (.split2mbPagingTo4kbPage, table)

/-- The call has taken the records out and written `OriginalEntry` to their leaves, and to no
other leaf. Where two of them share a leaf, one of the two entries is there at the end. -/
structure Restored (removed : List Pvoid) (m m' : Machine Caller) : Prop where
  leaf : ∀ entry, m.Undisturbed entry.table → (∃ r ∈ removed, (m.detail r).entryAddress = entry) →
    ∃ q ∈ removed, (m.detail q).entryAddress = entry ∧
      m'.pml1 entry = (m.detail q).originalEntry
  other : ∀ entry, m.Undisturbed entry.table →
    (∀ r ∈ removed, (m.detail r).entryAddress ≠ entry) → m'.pml1 entry = m.pml1 entry
  record : ∀ r ∈ m.ept.hookedPages, r ∉ removed → m'.detail r = m.detail r

namespace Listed

variable {os : Os} {m m' : Machine Caller}

/-- Freeing the record writes to no table of the processor, and to none if nobody else acts. -/
theorem releaseHook_pml1 (h : m.Listed os) {r : Pvoid} {entry : PeptPml1Entry}
    (htable : m.Undisturbed entry.table) :
    (m.releaseHook os r).pml1 entry =
        (m.setPml1 (m.detail r).entryAddress (m.detail r).originalEntry).pml1 entry ∧
      (m.releaseHook os r).Undisturbed entry.table := by
  have hset := h.setPml1 (m.detail r).entryAddress (m.detail r).originalEntry
  rcases htable with hquiet | howned
  · obtain ⟨hmemory, hupcoming⟩ := SharedPool.free_quiet os.toAllocator r .eptHookPage
      (p := (m.setPml1 (m.detail r).entryAddress (m.detail r).originalEntry).pool) hquiet
    refine ⟨?_, Or.inl hupcoming⟩
    exact congrArg (fun memory => (memory entry.table).split.pml1 entry.index) hmemory
  · have hfreed := SharedPool.free_spec os.toAllocator .eptHookPage r hset.safe
    obtain ⟨howned', hmemory⟩ := hfreed.outside (.split2mbPagingTo4kbPage, entry.table) (by simp)
      (private_setBuffer howned _ _)
    refine ⟨?_, Or.inr howned'⟩
    exact congrArg (fun b => b.split.pml1 entry.index) hmemory

theorem releaseHook_detail (h : m.Listed os) {r q : Pvoid} (hq : q ∈ m.ept.hookedPages)
    (hne : q ≠ r) : (m.releaseHook os r).detail q = m.detail q := by
  have hset := h.setPml1 (m.detail r).entryAddress (m.detail r).originalEntry
  have hfreed := SharedPool.free_spec os.toAllocator .eptHookPage r hset.safe
  have hmemory := (hfreed.outside (.eptHookPage, q) (by simp [hne]) (hset.owned q hq)).2
  exact (congrArg PoolBuffer.detail hmemory).trans (detail_setPml1 m _ q _)

theorem restored_releaseHook (h : m.Listed os) {r : Pvoid} :
    Restored [r] m (m.releaseHook os r) := by
  refine ⟨?_, ?_, ?_⟩
  · intro entry htable hentry
    obtain ⟨q, hq, hleaf⟩ := hentry
    obtain rfl := List.mem_singleton.mp hq
    refine ⟨q, List.mem_singleton_self q, hleaf, ?_⟩
    rw [(h.releaseHook_pml1 htable).1, hleaf, pml1_setPml1_self]
  · intro entry htable hentry
    rw [(h.releaseHook_pml1 htable).1]
    exact pml1_setPml1_of_ne m (hentry r (List.mem_singleton_self r)).symm _
  · intro q hq hremoved
    exact h.releaseHook_detail hq fun heq => hremoved (List.mem_singleton.mpr heq)

/-- The first record's leaf is written first, so a later record of the same leaf wins. -/
theorem restored_unhookAll (h : m.Listed os) : Restored m.ept.hookedPages m
    (m.ept.hookedPages.foldl (fun m r => m.releaseHook os r) m) := by
  generalize hl : m.ept.hookedPages = l
  induction l generalizing m with
  | nil =>
    refine ⟨?_, fun _ _ _ => rfl, fun _ _ _ => rfl⟩
    intro entry _ hentry
    obtain ⟨r, hr, _⟩ := hentry
    exact absurd hr (List.not_mem_nil)
  | cons r l ih =>
    obtain ⟨hlisted, hlist⟩ := h.releaseHook (r := r) (by simp [hl])
    rw [hl, List.erase_cons_head] at hlist
    have hrest := ih hlisted hlist
    have hnodup := h.nodup
    rw [hl] at hnodup
    have hdetail : ∀ q ∈ l, (m.releaseHook os r).detail q = m.detail q := by
      intro q hq
      refine h.releaseHook_detail (by simp [hl, hq]) ?_
      exact fun heq => (List.nodup_cons.mp hnodup).1 (heq ▸ hq)
    refine ⟨?_, ?_, ?_⟩
    · intro entry htable hentry
      obtain ⟨hpml1, htable'⟩ := h.releaseHook_pml1 (r := r) htable
      by_cases hlater : ∃ q ∈ l, (m.detail q).entryAddress = entry
      · obtain ⟨q, hq, hleaf⟩ := hlater
        obtain ⟨p, hp, hleafp, hvalue⟩ :=
          hrest.leaf entry htable' ⟨q, hq, by rw [hdetail q hq, hleaf]⟩
        rw [hdetail p hp] at hleafp hvalue
        exact ⟨p, List.mem_cons_of_mem r hp, hleafp, hvalue⟩
      · have hnone : ∀ q ∈ l, ((m.releaseHook os r).detail q).entryAddress ≠ entry := by
          intro q hq heq
          rw [hdetail q hq] at heq
          exact hlater ⟨q, hq, heq⟩
        obtain ⟨q, hq, hleaf⟩ := hentry
        rcases List.mem_cons.mp hq with rfl | hq
        · refine ⟨q, List.mem_cons_self, hleaf, ?_⟩
          rw [List.foldl_cons, hrest.other entry htable' hnone, hpml1, hleaf, pml1_setPml1_self]
        · exact absurd ⟨q, hq, hleaf⟩ hlater
    · intro entry htable hentry
      obtain ⟨hpml1, htable'⟩ := h.releaseHook_pml1 (r := r) htable
      have hnone : ∀ q ∈ l, ((m.releaseHook os r).detail q).entryAddress ≠ entry := by
        intro q hq
        rw [hdetail q hq]
        exact hentry q (List.mem_cons_of_mem r hq)
      rw [List.foldl_cons, hrest.other entry htable' hnone, hpml1]
      exact pml1_setPml1_of_ne m (hentry r List.mem_cons_self).symm _
    · intro q hq hremoved
      exact absurd (hl ▸ hq) hremoved

end Listed

/-- The list as a set of pages, with the log of the calls that made it. -/
structure HookSet (os : Os) (s : Machine Caller × List (SetOperation Word)) : Prop where
  listed : s.1.Listed os
  pageTable : s.1.ept.eptPageTable ≠ none
  root : s.1.guest.isOnVmxRoot = true
  launched : s.1.guest.isLaunched = true
  aligned : ∀ page ∈ s.1.pages, pageAlign page = page
  nodup : s.1.pages.Nodup
  contents : ∀ page, page ∈ s.1.pages ↔ page ∈ SetOperation.contents s.2

/-- What the claim of a map says about one call. A hook with write permission without read
permission is refused before the list is read. -/
def CallMeets (m : Machine Caller) : ListCall → Bool → Machine Caller → Prop
  | .hook targetFunc permissions, status, m' =>
    if WriteWithoutRead permissions then status = false ∧ m' = m
    else status = true ↔ pageAlign targetFunc ∈ m'.pages
  | .unhook guestVirtualAddress, status, m' =>
    (status = true ↔ pageAlign guestVirtualAddress ∈ m.pages) ∧
      if status then ∃ r ∈ m.ept.hookedPages,
        (m.detail r).virtualAddress = pageAlign guestVirtualAddress ∧
          m'.ept.hookedPages = m.ept.hookedPages.erase r ∧ Restored [r] m m'
      else m' = m
  | .unhookAll, status, m' =>
    status = true ∧ m'.ept.hookedPages = [] ∧ Restored m.ept.hookedPages m m'

theorem splitLargePage_returns (os : Os) {m : Machine Caller} (a : Pvoid) (x : Word)
    (htable : m.ept.eptPageTable ≠ none) : ∃ status m',
      m.splitLargePage os a x = some (status, m') ∧ m'.ept.eptPageTable ≠ none := by
  obtain ⟨pageTable, heq⟩ := Option.ne_none_iff_exists'.mp htable
  unfold splitLargePage
  split
  · exact ⟨false, m, rfl, htable⟩
  · split
    · exact ⟨false, m, rfl, htable⟩
    · rw [heq, Option.map_some]
      split
      · exact ⟨true, _, rfl, htable⟩
      · exact ⟨true, _, rfl, by simp [wireSplit]⟩

omit [DecidableEq Caller] in
theorem getPml1Entry_returns (os : Os) {m : Machine Caller} (x : Word)
    (htable : m.ept.eptPageTable ≠ none) : ∃ entry, m.getPml1Entry os x = some entry := by
  obtain ⟨pageTable, heq⟩ := Option.ne_none_iff_exists'.mp htable
  unfold getPml1Entry
  split
  · exact ⟨none, rfl⟩
  · rw [heq, Option.map_some]
    exact ⟨_, rfl⟩

theorem prepareHook_returns (os : Os) {m : Machine Caller} (targetFunc : Pvoid)
    (permissions : BitVec 8) (htable : m.ept.eptPageTable ≠ none) :
    ∃ preparation m', m.prepareHook os targetFunc permissions = some (preparation, m') ∧
      m'.ept.eptPageTable ≠ none := by
  unfold prepareHook
  split
  · exact ⟨_, m, rfl, htable⟩
  split
  · exact ⟨_, m, rfl, htable⟩
  simp only
  split
  · exact ⟨_, m, rfl, htable⟩
  split
  · exact ⟨_, m, rfl, htable⟩
  rcases halloc : m.allocate os .split2mbPagingTo4kbPage with ⟨_ | a, m0⟩
  · have hept : m0.ept = m.ept := (congrArg (fun p => p.2.ept) halloc).symm
    exact ⟨_, m0, rfl, hept ▸ htable⟩
  · have hept : m0.ept = m.ept := (congrArg (fun p => p.2.ept) halloc).symm
    obtain ⟨status, m1, hsplit, htable1⟩ := splitLargePage_returns os a
      (os.mmGetPhysicalAddress (pageAlign targetFunc)) (hept ▸ htable : m0.ept.eptPageTable ≠ none)
    obtain ⟨entry, hentry⟩ := getPml1Entry_returns os
      (os.mmGetPhysicalAddress (pageAlign targetFunc)) htable1
    cases status with
    | false =>
      refine ⟨.done false, m1.free os a .split2mbPagingTo4kbPage, ?_, htable1⟩
      simp only [hsplit]
    | true =>
      cases entry with
      | none =>
        refine ⟨.done false, m1.free os a .split2mbPagingTo4kbPage, ?_, htable1⟩
        simp only [hsplit, hentry, Option.map_some]
      | some entry =>
        refine ⟨.ready a entry (changeAccess (m1.pml1 entry) permissions), m1, ?_, htable1⟩
        simp only [hsplit, hentry, Option.map_some]

/-- No hook reads through a null page table. -/
theorem rootModePageHook_returns (os : Os) {m : Machine Caller} (targetFunc : Pvoid)
    (permissions : BitVec 8) (htable : m.ept.eptPageTable ≠ none) :
    ∃ status m', m.rootModePageHook os targetFunc permissions = some (status, m') ∧
      m'.ept.eptPageTable ≠ none := by
  obtain ⟨preparation, m1, hprep, htable1⟩ := prepareHook_returns os targetFunc permissions htable
  cases preparation with
  | done status => exact ⟨status, m1, by rw [rootModePageHook, hprep]; rfl, htable1⟩
  | ready a entry changedEntry =>
    rcases halloc : m1.allocate os .eptHookPage with ⟨_ | r, m2⟩
    · have hept : m2.ept = m1.ept := (congrArg (fun p => p.2.ept) halloc).symm
      refine ⟨false, m2.free os a .split2mbPagingTo4kbPage, ?_, hept ▸ htable1⟩
      simp only [rootModePageHook, hprep, Option.map_some, halloc]
    · have hept : m2.ept = m1.ept := (congrArg (fun p => p.2.ept) halloc).symm
      refine ⟨true, m2.installHook os targetFunc entry changedEntry r, ?_,
        (hept ▸ htable1 : m2.ept.eptPageTable ≠ none)⟩
      simp only [rootModePageHook, hprep, Option.map_some, halloc]

theorem unhookAll_pageTable {os : Os} {hooks : List Pvoid} {m : Machine Caller}
    (htable : m.ept.eptPageTable ≠ none) :
    (hooks.foldl (fun m r => m.releaseHook os r) m).ept.eptPageTable ≠ none := by
  induction hooks generalizing m with
  | nil => exact htable
  | cons r hooks ih => exact ih (m := m.releaseHook os r) htable

namespace HookSet

variable {os : Os} {m m' : Machine Caller} {log : List (SetOperation Word)}

theorem keep (h : HookSet os (m, log)) (hlisted : m'.Listed os) (hsame : SameRecords m m')
    (htable : m'.ept.eptPageTable ≠ none) (hguest : m'.guest = m.guest) : HookSet os (m', log) := by
  refine ⟨hlisted, htable, hguest ▸ h.root, hguest ▸ h.launched, ?_, ?_, ?_⟩
  · exact hsame.pages ▸ h.aligned
  · exact hsame.pages ▸ h.nodup
  · exact hsame.pages ▸ h.contents

theorem hook (h : HookSet os (m, log)) {targetFunc : Pvoid} {permissions : BitVec 8}
    {status : Bool} (hcall : m.rootModePageHook os targetFunc permissions = some (status, m')) :
    HookSet os (m', if status then .insert (pageAlign targetFunc) :: log else log) ∧
      m.CallMeets (.hook targetFunc permissions) status m' := by
  obtain ⟨hlisted, _, hguest⟩ := h.listed.rootModePageHook hcall
  obtain ⟨status', m'', hcall', htable⟩ :=
    rootModePageHook_returns os targetFunc permissions h.pageTable
  obtain ⟨rfl, rfl⟩ := Prod.mk.inj (Option.some.inj (hcall.symm.trans hcall'))
  constructor
  · rcases h.listed.rootModePageHook_records h.launched hcall with
      ⟨hsame, hexists⟩ | ⟨rfl, hfresh, hpages⟩
    · have hkept := h.keep hlisted hsame htable hguest
      cases status with
      | false => exact hkept
      | true =>
        refine ⟨hlisted, htable, hkept.root, hkept.launched, hkept.aligned, hkept.nodup, ?_⟩
        intro page
        rw [if_pos rfl, SetOperation.contents_cons, hkept.contents page]
        refine (Set.mem_insert_iff.trans (or_iff_right_of_imp ?_)).symm
        intro heq
        rw [heq]
        exact (h.contents _).mp (hexists rfl)
    · refine ⟨hlisted, htable, hguest ▸ h.root, hguest ▸ h.launched, ?_, ?_, ?_⟩
      · intro page hpage
        simp only [hpages] at hpage
        rcases List.mem_cons.mp hpage with rfl | hold
        · exact pageAlign_pageAlign _
        · exact h.aligned page hold
      · simp only [hpages]
        exact List.nodup_cons.mpr ⟨hfresh, h.nodup⟩
      · intro page
        simp only [hpages, if_true]
        rw [SetOperation.contents_cons, List.mem_cons, h.contents page]
        exact Set.mem_insert_iff.symm
  · simp only [CallMeets]
    split
    · rename_i hrefused
      obtain ⟨rfl, rfl⟩ := Prod.mk.inj
        (Option.some.inj (hcall.symm.trans (rootModePageHook_of_refused os targetFunc hrefused)))
      exact ⟨rfl, rfl⟩
    · rename_i hpermissions
      rcases h.listed.rootModePageHook_records h.launched hcall with
        ⟨hsame, hexists⟩ | ⟨rfl, _, hpages⟩
      · rw [hsame.pages]
        refine ⟨hexists, fun hpage => ?_⟩
        have heq := rootModePageHook_of_hooked os h.launched hpermissions hpage
        exact congrArg Prod.fst (Option.some.inj (hcall.symm.trans heq))
      · simp [hpages]

theorem unhook (h : HookSet os (m, log)) (guestVirtualAddress : Word) {status : Bool}
    (hcall : m.pageUnhookVmcall os guestVirtualAddress = (status, m')) :
    HookSet os (m', if status then .erase (pageAlign guestVirtualAddress) :: log else log) ∧
      m.CallMeets (.unhook guestVirtualAddress) status m' := by
  rw [pageUnhookVmcall, if_neg (not_not_intro h.root)] at hcall
  rcases hfound : m.getHookedPage guestVirtualAddress with _ | r
  · rw [hfound] at hcall
    obtain ⟨rfl, rfl⟩ := Prod.mk.inj hcall
    refine ⟨h, ?_, rfl⟩
    have hnone := List.find?_eq_none.mp hfound
    refine ⟨fun hfalse => absurd hfalse (by simp), fun hpage => ?_⟩
    obtain ⟨r, hr, hva⟩ := mem_pages.mp hpage
    exact absurd hva (by simpa using hnone r hr)
  · rw [hfound] at hcall
    obtain ⟨rfl, rfl⟩ := Prod.mk.inj hcall
    have hr := List.mem_of_find?_eq_some hfound
    have hva : (m.detail r).virtualAddress = pageAlign guestVirtualAddress := by
      simpa using List.find?_some hfound
    obtain ⟨hlisted, hlist⟩ := h.listed.releaseHook hr
    have hdetail : ∀ q ∈ m.ept.hookedPages.erase r,
        (m.releaseHook os r).detail q = m.detail q := by
      intro q hq
      obtain ⟨hne, hmem⟩ := (h.listed.nodup.mem_erase_iff).mp hq
      exact h.listed.releaseHook_detail hmem hne
    have hpages : (m.releaseHook os r).pages =
        (m.ept.hookedPages.erase r).map fun q => (m.detail q).virtualAddress := by
      rw [Machine.pages, hlist]
      exact List.map_congr_left fun q hq => by rw [hdetail q hq]
    have hsublist : ((m.ept.hookedPages.erase r).map fun q => (m.detail q).virtualAddress).Sublist
        m.pages := (List.erase_sublist).map _
    refine ⟨⟨hlisted, h.pageTable, h.root, h.launched, ?_, ?_, ?_⟩, ?_, r, hr, hva, hlist,
      h.listed.restored_releaseHook⟩
    · simp only [hpages]
      exact fun page hpage => h.aligned page (hsublist.mem hpage)
    · simp only [hpages]
      exact h.nodup.sublist hsublist
    · intro page
      simp only [hpages, if_true]
      rw [SetOperation.contents_cons]
      simp only [SetOperation.apply, Set.mem_sdiff, Set.mem_singleton_iff, ← h.contents page]
      constructor
      · intro hpage
        obtain ⟨q, hq, rfl⟩ := List.mem_map.mp hpage
        obtain ⟨hne, hmem⟩ := (h.listed.nodup.mem_erase_iff).mp hq
        refine ⟨hsublist.mem hpage, fun heq => hne ?_⟩
        exact List.inj_on_of_nodup_map h.nodup hmem hr (heq.trans hva.symm)
      · intro hpage
        obtain ⟨hmem, hne⟩ := hpage
        obtain ⟨q, hq, rfl⟩ := mem_pages.mp hmem
        refine List.mem_map.mpr ⟨q, (h.listed.nodup.mem_erase_iff).mpr ⟨?_, hq⟩, rfl⟩
        intro heq
        exact hne (heq ▸ hva)
    · exact iff_of_true rfl (mem_pages.mpr ⟨r, hr, hva⟩)

theorem unhookAll (h : HookSet os (m, log)) {status : Bool}
    (hcall : m.unhookAllPagesVmcall os = (status, m')) :
    HookSet os (m', if status then .clear :: log else log) ∧
      m.CallMeets .unhookAll status m' := by
  rw [unhookAllPagesVmcall, if_neg (not_not_intro h.root)] at hcall
  obtain ⟨rfl, rfl⟩ := Prod.mk.inj hcall
  obtain ⟨hlisted, hlist, hguest⟩ := h.listed.unhookAll
  have hpages : (m.ept.hookedPages.foldl (fun m r => m.releaseHook os r) m).pages = [] := by
    rw [Machine.pages, hlist, List.map_nil]
  refine ⟨⟨hlisted, unhookAll_pageTable h.pageTable, hguest ▸ h.root, hguest ▸ h.launched, ?_, ?_,
    ?_⟩, rfl, hlist, h.listed.restored_unhookAll⟩
  · simp [hpages]
  · simp [hpages]
  · intro page
    simp [hpages, SetOperation.apply]

theorem others (h : HookSet os (m, log)) {action : PoolAction Caller PoolBuffer}
    (hstep : m.othersStep os action = some m') : HookSet os (m', log) := by
  obtain ⟨hlisted, hept, hguest⟩ := h.listed.othersStep hstep
  exact h.keep hlisted (h.listed.sameRecords_othersStep hstep) (hept ▸ h.pageTable) hguest

end HookSet

theorem call_hookSet {os : Os} {m m' : Machine Caller} {log : List (SetOperation Word)}
    (h : HookSet os (m, log)) {call : ListCall} {status : Bool}
    (hcall : m.call os call = some (status, m')) :
    HookSet os (m', if status then call.operation :: log else log) ∧
      m.CallMeets call status m' := by
  cases call with
  | hook targetFunc permissions => exact h.hook hcall
  | unhook guestVirtualAddress => exact h.unhook guestVirtualAddress (Option.some.inj hcall)
  | unhookAll => exact h.unhookAll (Option.some.inj hcall)

theorem listStep_hookSet {os : Os} {s s' : Machine Caller × List (SetOperation Word)}
    (h : HookSet os s) {action : ListAction Caller} (hstep : listStep os s action = some s') :
    HookSet os s' := by
  obtain ⟨m, log⟩ := s
  cases action with
  | call call =>
    obtain ⟨⟨status, m'⟩, hcall, rfl⟩ := Option.map_eq_some_iff.mp hstep
    exact (call_hookSet h hcall).1
  | others action =>
    obtain ⟨m', hothers, rfl⟩ := Option.map_eq_some_iff.mp hstep
    exact h.others hothers

/-- In every run the list has each page once, and the pages in it are those whose last
successful operation is a hook. Every call returns what its effect on the list says, and an
unhook restores the leaves of the records that it takes out and no other leaf. -/
theorem hookSet_of_run {os : Os} {pageTable : VmmEptPageTable} {m m' : Machine Caller}
    {actions : List (ListAction Caller)} {log : List (SetOperation Word)}
    (hstart : Started os pageTable m) (hroot : m.guest.isOnVmxRoot = true)
    (hlaunched : m.guest.isLaunched = true)
    (hrun : Run (listStep os) (m, []) actions (m', log)) :
    m'.pages.Nodup ∧ (∀ page ∈ m'.pages, pageAlign page = page) ∧
      (∀ page, page ∈ m'.pages ↔
        log.find? (SetOperation.concerns page) = some (.insert page)) ∧
      ∀ call, ∃ status m'', m'.call os call = some (status, m'') ∧
        m'.CallMeets call status m'' := by
  have hinitial : HookSet os (m, []) := by
    have hpages : m.pages = [] := by rw [pages, hstart.hookedPages, List.map_nil]
    refine ⟨hstart.coherent.listed, by simp [hstart.pageTable_eq], hroot, hlaunched, ?_, ?_, ?_⟩
    · simp [hpages]
    · simp [hpages]
    · simp [hpages]
  have h : HookSet os (m', log) :=
    hrun.invariant (fun _ _ _ h _ hstep => listStep_hookSet h hstep) hinitial
  refine ⟨h.nodup, h.aligned, ?_, ?_⟩
  · intro page
    rw [h.contents page, SetOperation.mem_contents_iff]
  · intro call
    have hreturns : ∃ status m'', m'.call os call = some (status, m'') := by
      cases call with
      | hook targetFunc permissions =>
        obtain ⟨status, m'', hcall, _⟩ :=
          rootModePageHook_returns os targetFunc permissions h.pageTable
        exact ⟨status, m'', hcall⟩
      | unhook guestVirtualAddress => exact ⟨_, _, rfl⟩
      | unhookAll => exact ⟨_, _, rfl⟩
    obtain ⟨status, m'', hcall⟩ := hreturns
    exact ⟨status, m'', hcall, (call_hookSet h hcall).2⟩

/-- Two hooks of one page, a hook that is denied its record, and an unhook of the page. -/
theorem hookSet_of_run_hooks :
    (execute (listStep flatOs) (flatMachine 2 1, []) [.call (.hook 0x200123#64 1),
      .call (.hook 0x200456#64 5), .call (.hook 0x400000#64 1),
      .call (.unhook 0x200FFF#64)]).1.pages.Nodup :=
  (hookSet_of_run (flatMachine_started 2 1) rfl rfl
    (guardedRun_of_allowed (by decide +kernel))).1

/-- A page is hooked and hooked again with write permission alone. -/
theorem not_hook_true_iff_of_writeOnly :
    ¬ ∀ (os : Os) (pageTable : VmmEptPageTable) (m m' m'' : Machine Unit)
      (actions : List (ListAction Unit)) (log : List (SetOperation Word)) (targetFunc : Pvoid)
      (permissions : BitVec 8) (status : Bool), Started os pageTable m →
        m.guest.isOnVmxRoot = true → m.guest.isLaunched = true →
        Run (listStep os) (m, []) actions (m', log) →
        m'.rootModePageHook os targetFunc permissions = some (status, m'') →
        (status = true ↔ pageAlign targetFunc ∈ m''.pages) := by
  intro h
  obtain ⟨actions, hrun⟩ := exists_run_execute (listStep flatOs) (flatMachine 1 1, [])
    [.call (.hook 0x200000#64 1)]
  have hrefused : WriteWithoutRead eptPageWrite := by decide
  have hcall := rootModePageHook_of_refused flatOs 0x200000#64 hrefused
    (m := (execute (listStep flatOs) (flatMachine 1 1, []) [.call (.hook 0x200000#64 1)]).1)
  have hiff := h flatOs flatTable _ _ _ actions _ _ _ _ (flatMachine_started 1 1) rfl rfl hrun hcall
  exact absurd (hiff.mpr (by decide +kernel)) (by simp)

end Machine

end NovaHypervisor

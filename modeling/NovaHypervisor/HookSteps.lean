import NovaHypervisor.EptInvariant

/-!
What the hook operations do in a state that keeps the law: each way out of
`RootModePageHook` with the state it leaves, the record that a hook adds, and
the leaf and the record that an unhook gives back.
-/
namespace NovaHypervisor

open General

namespace Machine

variable {Caller : Type*} [DecidableEq Caller]

def translate (os : Os) (pageTable : VmmEptPageTable) (m : Machine Caller) (x : Word) :
    Translation := walk os pageTable m.pool.state.memory x

theorem allocate_none {os : Os} {type : AllocationType} {m m' : Machine Caller}
    (hm : m.pool.state.Safe os.toAllocator) (h : m.allocate os type = (none, m')) :
    SharedPool.Evolves os.toAllocator m.pool.state m'.pool.state ∧ m'.ept = m.ept ∧
      m'.guest = m.guest ∧ m'.history = m.history := by
  simp only [allocate] at h
  rcases hpool : m.pool.allocate os.toAllocator type with ⟨result, pool⟩
  rw [hpool] at h
  obtain ⟨rfl, rfl⟩ := Prod.mk.inj h
  exact ⟨SharedPool.allocate_none hm hpool, rfl, rfl, rfl⟩

theorem allocate_some {os : Os} {type : AllocationType} {m m' : Machine Caller} {a : Pvoid}
    (hm : m.pool.state.Safe os.toAllocator) (h : m.allocate os type = (some a, m')) :
    SharedPool.Allocated os.toAllocator type a m.pool.state m'.pool.state ∧ m'.ept = m.ept ∧
      m'.guest = m.guest ∧ m'.history = .allocated (type, a) :: m.history := by
  simp only [allocate] at h
  rcases hpool : m.pool.allocate os.toAllocator type with ⟨result, pool⟩
  rw [hpool] at h
  obtain ⟨rfl, rfl⟩ := Prod.mk.inj h
  exact ⟨SharedPool.allocate_some hm hpool, rfl, rfl, rfl⟩

/-- The machine has moved on, and every page kept its frame and its rights. Split
entries stay split, with the same tables; the hook list and its records stay. -/
structure Extends (os : Os) (pageTable : VmmEptPageTable) (m : Machine Caller)
    (pageTable' : VmmEptPageTable) (m' : Machine Caller) : Prop where
  coherent : m'.Coherent os pageTable'
  guest : m'.guest = m.guest
  hookedPages : m'.ept.hookedPages = m.ept.hookedPages
  detail : ∀ r ∈ m.ept.hookedPages, m'.detail r = m.detail r
  split : ∀ e, IsSplit pageTable e → pageTable'.pml2 e = pageTable.pml2 e
  table : ∀ e, IsSplit pageTable e →
    m'.buffer (tableOf os pageTable e) = m.buffer (tableOf os pageTable e)
  access : ∀ x, (m'.translate os pageTable' x).SameAccess (m.translate os pageTable x)

namespace Extends

variable {os : Os} {pageTable pageTable' pageTable'' : VmmEptPageTable} {m m' m'' : Machine Caller}

theorem isSplit (h : Extends os pageTable m pageTable' m') {e : PeptPml2Entry}
    (he : IsSplit pageTable e) : IsSplit pageTable' e := by
  rw [IsSplit, h.split e he]
  exact he

theorem tableOf_eq (h : Extends os pageTable m pageTable' m') {e : PeptPml2Entry}
    (he : IsSplit pageTable e) : tableOf os pageTable' e = tableOf os pageTable e := by
  rw [tableOf, h.split e he, tableOf]

theorem trans (h : Extends os pageTable m pageTable' m')
    (h' : Extends os pageTable' m' pageTable'' m'') : Extends os pageTable m pageTable'' m'' := by
  refine ⟨h'.coherent, h'.guest.trans h.guest, h'.hookedPages.trans h.hookedPages, ?_, ?_, ?_,
    fun x => (h'.access x).trans (h.access x)⟩
  · intro r hr
    rw [h'.detail r (h.hookedPages ▸ hr), h.detail r hr]
  · intro e he
    rw [h'.split e (h.isSplit he), h.split e he]
  · intro e he
    have htable := h'.table e (h.isSplit he)
    rw [h.tableOf_eq he] at htable
    exact htable.trans (h.table e he)

end Extends

namespace Coherent

variable {os : Os} {pageTable : VmmEptPageTable} {m : Machine Caller}

/-- Moves of the pool that keep the buffers in use change nothing that a page or a
record is read from. -/
theorem extends_of_kept (h : m.Coherent os pageTable) {m' : Machine Caller}
    (hept : m'.ept = m.ept) (hguest : m'.guest = m.guest)
    (hsafe : m'.pool.state.Safe os.toAllocator)
    (htracked : ∀ type, m'.pool.state.ledger.Tracked type)
    (hkept : ∀ b, m.InUse os pageTable b → m'.Private b ∧ m'.buffer b.2 = m.buffer b.2) :
    Extends os pageTable m pageTable m' := by
  refine ⟨h.keep hept hsafe htracked hkept, hguest, by rw [hept], ?_, fun _ _ => rfl, ?_, ?_⟩
  · intro r hr
    exact congrArg PoolBuffer.detail (hkept _ (Or.inr ⟨r, hr, rfl⟩)).2
  · intro e he
    exact (hkept _ (Or.inl ⟨e, he, rfl⟩)).2
  · intro x
    have hwalk : m'.translate os pageTable x = m.translate os pageTable x := by
      refine walk_congr rfl fun hsplit => ?_
      have hbuffer := (hkept _ (Or.inl ⟨_, hsplit, rfl⟩)).2
      simp only [buffer] at hbuffer
      rw [hbuffer]
    rw [hwalk]
    exact Translation.SameAccess.refl _

theorem extends_of_evolves (h : m.Coherent os pageTable) {m' : Machine Caller}
    (hept : m'.ept = m.ept) (hguest : m'.guest = m.guest)
    (hpool : SharedPool.Evolves os.toAllocator m.pool.state m'.pool.state) :
    Extends os pageTable m pageTable m' :=
  h.extends_of_kept hept hguest hpool.safe (fun type => hpool.tracked type (h.tracked type))
    fun b hb => hpool.outside b (h.owned b hb)

/-- Freeing a private buffer that is not in use disturbs nothing in use. -/
theorem extends_free (h : m.Coherent os pageTable) {type : AllocationType} {a : Pvoid}
    (ha : m.Private (type, a)) (hfree : ¬ m.InUse os pageTable (type, a)) :
    Extends os pageTable m pageTable (m.free os a type) := by
  have hfreed := SharedPool.free_spec os.toAllocator type a h.safe
  refine h.extends_of_kept rfl rfl hfreed.safe ?_ ?_
  · intro other
    exact hfreed.tracked other (fun _ => ha) (h.tracked other)
  · intro b hb
    refine hfreed.outside b ?_ (h.owned b hb)
    intro heq
    subst heq
    exact hfree hb

theorem extends_wireSplit (h : m.Coherent os pageTable) {a : Pvoid} {e : PeptPml2Entry}
    (ha : m.Private (.split2mbPagingTo4kbPage, a))
    (hfresh : ¬ m.InUse os pageTable (.split2mbPagingTo4kbPage, a))
    (he : ¬ IsSplit pageTable e) :
    Extends os pageTable m (pageTable.setPml2 e (Ept.newSplitPtr os a))
      (m.wireSplit os a pageTable e) := by
  have hne : ∀ f, IsSplit pageTable f → tableOf os pageTable f ≠ a := by
    intro f hf heq
    exact hfresh (Or.inl ⟨f, hf, by rw [heq]⟩)
  refine ⟨h.wireSplit ha hfresh he, rfl, rfl, ?_, ?_, ?_, ?_⟩
  · intro r hr
    have hra : r ≠ a := by
      intro heq
      subst heq
      have := Private.eq_of_address h.safe ha (h.owned_record hr) rfl
      simp at this
    exact congrArg PoolBuffer.detail (buffer_setBuffer_of_ne m hra _)
  · intro f hf
    have hfe : f ≠ e := by
      intro heq
      subst heq
      exact he hf
    exact setPml2_of_ne pageTable hfe _
  · intro f hf
    exact buffer_setBuffer_of_ne m (hne f hf) _
  · intro x
    refine walk_split m.ept (Private.granted h.safe ha) hne he
      (h.large e he).toLargeAccess ?_ ?_ x
    · exact congrArg (fun b => b.split.pml1) (buffer_setBuffer_self m a _)
    · exact fun b hb => buffer_setBuffer_of_ne m hb _

/-- A buffer that `Allocate` returns is private and was not in use. -/
theorem allocated (h : m.Coherent os pageTable) {type : AllocationType} {a : Pvoid}
    {m' : Machine Caller} (halloc : m.allocate os type = (some a, m')) :
    Extends os pageTable m pageTable m' ∧ m'.Private (type, a) ∧
      ¬ m'.InUse os pageTable (type, a) ∧ a ≠ null ∧
      m'.history = .allocated (type, a) :: m.history := by
  obtain ⟨hpool, hept, hguest, hhistory⟩ := allocate_some h.safe halloc
  refine ⟨h.extends_of_evolves hept hguest hpool.toEvolves, hpool.owned (h.tracked type), ?_,
    os.grants_nonnull type a hpool.granted, hhistory⟩
  intro huse
  have hold : m.InUse os pageTable (type, a) := by
    rcases huse with hsplit | ⟨r, hr, heq⟩
    · exact Or.inl hsplit
    · exact Or.inr ⟨r, hept ▸ hr, heq⟩
  exact hpool.fresh (h.owned _ hold)

end Coherent

def leaf (os : Os) (pageTable : VmmEptPageTable) (m : Machine Caller) (x : Word) : Word :=
  m.pml1 (leafPointer os pageTable x)

theorem Extends.leaf_eq {os : Os} {pageTable pageTable' : VmmEptPageTable}
    {m m' : Machine Caller} (h : Extends os pageTable m pageTable' m') {x : Word}
    (hx : IsSplit pageTable (pml2Key x)) : m'.leaf os pageTable' x = m.leaf os pageTable x := by
  have hpointer : leafPointer os pageTable' x = leafPointer os pageTable x := by
    rw [leafPointer, leafPointer, h.split _ hx]
  rw [Machine.leaf, hpointer]
  exact congrArg (fun b => b.split.pml1 (pml1Index x)) (h.table _ hx)

/-- The leaf of a page, or the leaf that splitting its large page makes for it. -/
def leafBefore (os : Os) (pageTable : VmmEptPageTable) (m : Machine Caller) (x : Word) : Word :=
  if IsSplit pageTable (pml2Key x) then m.leaf os pageTable x
  else m.ept.splitPml1Entry (pageTable.pml2 (pml2Key x)) (pml1Index x)

/-- The physical address that a hook of `targetFunc` is about. -/
def hookAddress (os : Os) (targetFunc : Pvoid) : Word :=
  os.mmGetPhysicalAddress (pageAlign targetFunc)

/-- The hook's buffer is wired, or the region was split and it is back in the pool. -/
structure Ready (os : Os) (targetFunc : Pvoid) (pageTable : VmmEptPageTable) (m : Machine Caller)
    (a : Pvoid) (pageTable' : VmmEptPageTable) (m' : Machine Caller) : Prop extends
    Extends os pageTable m pageTable' m' where
  notHooked : m.isHookExists (pageAlign targetFunc) = false
  low : (hookAddress os targetFunc).toNat < 2 ^ 39
  wired : IsSplit pageTable' (pml2Key (hookAddress os targetFunc))
  leaf : m'.leaf os pageTable' (hookAddress os targetFunc) =
    m.leafBefore os pageTable (hookAddress os targetFunc)
  history : (IsSplit pageTable (pml2Key (hookAddress os targetFunc)) ∧
      m'.history = .freed (.split2mbPagingTo4kbPage, a) ::
        .allocated (.split2mbPagingTo4kbPage, a) :: m.history) ∨
    (¬ IsSplit pageTable (pml2Key (hookAddress os targetFunc)) ∧
      tableOf os pageTable' (pml2Key (hookAddress os targetFunc)) = a ∧
      m'.history = .allocated (.split2mbPagingTo4kbPage, a) :: m.history)

/-- The hook ends before the record: nothing is taken, or it is given back once. -/
structure Done (os : Os) (targetFunc : Pvoid) (pageTable : VmmEptPageTable) (m : Machine Caller)
    (status : Bool) (m' : Machine Caller) : Prop extends
    Extends os pageTable m pageTable m' where
  status_iff : status = true → m.isHookExists (pageAlign targetFunc) = true
  history : m'.history = m.history ∨ ∃ a, ¬ m.InUse os pageTable (.split2mbPagingTo4kbPage, a) ∧
    m'.history = .freed (.split2mbPagingTo4kbPage, a) ::
      .allocated (.split2mbPagingTo4kbPage, a) :: m.history

omit [DecidableEq Caller] in
theorem getPml1Entry_of_table {os : Os} {pageTable : VmmEptPageTable} {m : Machine Caller}
    {x : Word} (hx : x.toNat < 2 ^ 39) (htable : m.ept.eptPageTable = some pageTable)
    (hsplit : IsSplit pageTable (pml2Key x)) (hnonnull : tableOf os pageTable (pml2Key x) ≠ null) :
    m.getPml1Entry os x = some (some (leafPointer os pageTable x)) := by
  have hzero : ¬ Epde2mb.largePage.get (pageTable.pml2 (pml2Key x)) ≠ 0 := not_not_intro hsplit
  rw [getPml1Entry, if_neg (not_pml4Index_pos hx), htable, Option.map_some]
  simp only [pml2Key] at hzero hnonnull
  rw [if_neg hzero]
  simp only [tableOf, tableAddress] at hnonnull
  rw [if_neg hnonnull]
  rfl

theorem getPml1Entry_of_split {os : Os} {pageTable : VmmEptPageTable} {m : Machine Caller}
    (h : m.Coherent os pageTable) {x : Word} (hx : x.toNat < 2 ^ 39)
    (hsplit : IsSplit pageTable (pml2Key x)) :
    m.getPml1Entry os x = some (some (leafPointer os pageTable x)) :=
  getPml1Entry_of_table hx h.pageTable_eq hsplit
    (os.grants_nonnull _ _ (Private.granted h.safe (h.owned_table hsplit)))

theorem splitLargePage_of_split (os : Os) {pageTable : VmmEptPageTable} {m : Machine Caller}
    {a : Pvoid} {x : Word} (ha : a ≠ null) (hx : x.toNat < 2 ^ 39)
    (htable : m.ept.eptPageTable = some pageTable) (hsplit : IsSplit pageTable (pml2Key x)) :
    m.splitLargePage os a x = some (true, m.free os a .split2mbPagingTo4kbPage) := by
  have hzero : Epde2mb.largePage.get (pageTable.pml2 (pml2Key x)) = 0 := hsplit
  rw [splitLargePage, if_neg ha, getPml2Entry_of_lt hx]
  simp only [htable, Option.map_some, if_pos hzero]

theorem splitLargePage_of_large (os : Os) {pageTable : VmmEptPageTable} {m : Machine Caller}
    {a : Pvoid} {x : Word} (ha : a ≠ null) (hx : x.toNat < 2 ^ 39)
    (htable : m.ept.eptPageTable = some pageTable) (hlarge : ¬ IsSplit pageTable (pml2Key x)) :
    m.splitLargePage os a x = some (true, m.wireSplit os a pageTable (pml2Key x)) := by
  have hone : ¬ Epde2mb.largePage.get (pageTable.pml2 (pml2Key x)) = 0 := hlarge
  rw [splitLargePage, if_neg ha, getPml2Entry_of_lt hx]
  simp only [htable, Option.map_some, if_neg hone]

/-- An address above 512GB is refused. -/
theorem splitLargePage_of_high {os : Os} {m : Machine Caller} {a : Pvoid} {x : Word}
    (hx : x.toNat < 2 ^ 48) (hhigh : 2 ^ 39 ≤ x.toNat) :
    m.splitLargePage os a x = some (false, m) := by
  have hpml2 : Ept.getPml2Entry x = none := by
    rw [Ept.getPml2Entry, if_pos ((pml4Index_pos_iff hx).mpr hhigh)]
  rw [splitLargePage, hpml2]
  split <;> rfl

theorem splitLargePage_ends {os : Os} {m m' : Machine Caller} {a : Pvoid} {x : Word}
    {status : Bool} (h : m.splitLargePage os a x = some (status, m')) :
    (status = false ∧ m' = m) ∨ (status = true ∧ ∃ pageTable e,
      m.ept.eptPageTable = some pageTable ∧
        (m' = m.free os a .split2mbPagingTo4kbPage ∨
          ¬ IsSplit pageTable e ∧ m' = m.wireSplit os a pageTable e)) := by
  unfold splitLargePage at h
  split at h
  · obtain ⟨rfl, rfl⟩ := Prod.mk.inj (Option.some.inj h)
    exact Or.inl ⟨rfl, rfl⟩
  split at h
  · obtain ⟨rfl, rfl⟩ := Prod.mk.inj (Option.some.inj h)
    exact Or.inl ⟨rfl, rfl⟩
  · rename_i e _
    obtain ⟨pageTable, htable, heq⟩ := Option.map_eq_some_iff.mp h
    split at heq
    · obtain ⟨rfl, rfl⟩ := Prod.mk.inj heq
      exact Or.inr ⟨rfl, pageTable, e, htable, Or.inl rfl⟩
    · rename_i hlarge
      obtain ⟨rfl, rfl⟩ := Prod.mk.inj heq
      exact Or.inr ⟨rfl, pageTable, e, htable, Or.inr ⟨hlarge, rfl⟩⟩

/-- It ends at once, without a table, after a table that it gives back, or with a leaf. -/
theorem prepareHook_ends {os : Os} {m m' : Machine Caller} {targetFunc : Pvoid}
    {permissions : BitVec 8} {preparation : HookPreparation}
    (h : m.prepareHook os targetFunc permissions = some (preparation, m')) :
    (m' = m ∧ ∃ status, preparation = .done status ∧
      (status = true → m.isHookExists (pageAlign targetFunc) = true)) ∨
    (m.allocate os .split2mbPagingTo4kbPage = (none, m') ∧ preparation = .done false) ∨
    ∃ a m0 m1 status, m.allocate os .split2mbPagingTo4kbPage = (some a, m0) ∧
      m0.splitLargePage os a (hookAddress os targetFunc) = some (status, m1) ∧
      ((m' = m1.free os a .split2mbPagingTo4kbPage ∧ preparation = .done false) ∨
        (status = true ∧ m' = m1 ∧ ∃ entry,
          m1.getPml1Entry os (hookAddress os targetFunc) = some (some entry) ∧
            preparation = .ready a entry (changeAccess (m1.pml1 entry) permissions))) := by
  unfold prepareHook at h
  split at h
  · obtain ⟨rfl, rfl⟩ := Prod.mk.inj (Option.some.inj h)
    exact Or.inl ⟨rfl, false, rfl, by simp⟩
  split at h
  · obtain ⟨rfl, rfl⟩ := Prod.mk.inj (Option.some.inj h)
    exact Or.inl ⟨rfl, false, rfl, by simp⟩
  simp only at h
  split at h
  · rename_i hexists
    obtain ⟨rfl, rfl⟩ := Prod.mk.inj (Option.some.inj h)
    exact Or.inl ⟨rfl, true, rfl, fun _ => hexists⟩
  split at h
  · obtain ⟨rfl, rfl⟩ := Prod.mk.inj (Option.some.inj h)
    exact Or.inl ⟨rfl, false, rfl, by simp⟩
  refine Or.inr ?_
  split at h
  · rename_i m0 halloc
    obtain ⟨rfl, rfl⟩ := Prod.mk.inj (Option.some.inj h)
    exact Or.inl ⟨halloc, rfl⟩
  rename_i a m0 halloc
  refine Or.inr ?_
  split at h
  · simp at h
  · rename_i m1 hsplit
    obtain ⟨rfl, rfl⟩ := Prod.mk.inj (Option.some.inj h)
    exact ⟨a, m0, m1, false, halloc, hsplit, Or.inl ⟨rfl, rfl⟩⟩
  · rename_i m1 hsplit
    obtain ⟨entry, hleaf, heq⟩ := Option.map_eq_some_iff.mp h
    cases entry with
    | none =>
      obtain ⟨rfl, rfl⟩ := Prod.mk.inj heq
      exact ⟨a, m0, m1, true, halloc, hsplit, Or.inl ⟨rfl, rfl⟩⟩
    | some entry =>
      obtain ⟨rfl, rfl⟩ := Prod.mk.inj heq
      exact ⟨a, m0, m1, true, halloc, hsplit, Or.inr ⟨rfl, rfl, entry, hleaf, rfl⟩⟩

/-- It ends before the record, is denied one, or installs it. -/
theorem rootModePageHook_ends {os : Os} {m m' : Machine Caller} {targetFunc : Pvoid}
    {permissions : BitVec 8} {status : Bool}
    (h : m.rootModePageHook os targetFunc permissions = some (status, m')) :
    m.prepareHook os targetFunc permissions = some (.done status, m') ∨
    ∃ a entry changedEntry m1, m.prepareHook os targetFunc permissions =
        some (.ready a entry changedEntry, m1) ∧
      ((∃ m2, m1.allocate os .eptHookPage = (none, m2) ∧ status = false ∧
          m' = m2.free os a .split2mbPagingTo4kbPage) ∨
        ∃ r m2, m1.allocate os .eptHookPage = (some r, m2) ∧ status = true ∧
          m' = m2.installHook os targetFunc entry changedEntry r) := by
  obtain ⟨⟨preparation, m1⟩, hprep, heq⟩ := Option.map_eq_some_iff.mp h
  rcases preparation with status' | ⟨a, entry, changedEntry⟩
  · obtain ⟨rfl, rfl⟩ := Prod.mk.inj heq
    exact Or.inl hprep
  · refine Or.inr ⟨a, entry, changedEntry, m1, hprep, ?_⟩
    simp only at heq
    rcases halloc : m1.allocate os .eptHookPage with ⟨_ | r, m2⟩
    · rw [halloc] at heq
      obtain ⟨rfl, rfl⟩ := Prod.mk.inj heq
      exact Or.inl ⟨m2, rfl, rfl, rfl⟩
    · rw [halloc] at heq
      obtain ⟨rfl, rfl⟩ := Prod.mk.inj heq
      exact Or.inr ⟨r, m2, rfl, rfl, rfl⟩

theorem pageUnhookVmcall_ends (os : Os) (guestVirtualAddress : Word) (m : Machine Caller) :
    m.pageUnhookVmcall os guestVirtualAddress = (false, m) ∨
    ∃ r ∈ m.ept.hookedPages, m.getHookedPage guestVirtualAddress = some r ∧
      m.pageUnhookVmcall os guestVirtualAddress = (true, m.releaseHook os r) := by
  unfold pageUnhookVmcall
  split
  · exact Or.inl rfl
  rcases hfound : m.getHookedPage guestVirtualAddress with _ | r
  · exact Or.inl rfl
  · exact Or.inr ⟨r, List.mem_of_find?_eq_some hfound, rfl, rfl⟩

theorem unhookAllPagesVmcall_ends (os : Os) (m : Machine Caller) :
    m.unhookAllPagesVmcall os = (false, m) ∨ m.unhookAllPagesVmcall os =
      (true, m.ept.hookedPages.foldl (fun m r => m.releaseHook os r) m) := by
  unfold unhookAllPagesVmcall
  split
  · exact Or.inl rfl
  · exact Or.inr rfl

theorem prepareHook_cases {os : Os} {pageTable : VmmEptPageTable} {m : Machine Caller}
    (h : m.Coherent os pageTable) (targetFunc : Pvoid) (permissions : BitVec 8) :
    (∃ status m', m.prepareHook os targetFunc permissions = some (.done status, m') ∧
      Done os targetFunc pageTable m status m') ∨
    ∃ a pageTable' m', m.prepareHook os targetFunc permissions = some (.ready a
        (leafPointer os pageTable' (hookAddress os targetFunc))
        (changeAccess (m'.pml1 (leafPointer os pageTable' (hookAddress os targetFunc)))
          permissions), m') ∧
      Ready os targetFunc pageTable m a pageTable' m' := by
  have hrefl : Extends os pageTable m pageTable m :=
    h.extends_of_evolves rfl rfl (SharedPool.Evolves.refl h.safe)
  unfold prepareHook
  split
  · exact Or.inl ⟨false, m, rfl, hrefl, by simp, Or.inl rfl⟩
  split
  · exact Or.inl ⟨false, m, rfl, hrefl, by simp, Or.inl rfl⟩
  simp only
  split
  · rename_i hexists
    exact Or.inl ⟨true, m, rfl, hrefl, fun _ => hexists, Or.inl rfl⟩
  rename_i hnot
  split
  · exact Or.inl ⟨false, m, rfl, hrefl, by simp, Or.inl rfl⟩
  rcases halloc : m.allocate os .split2mbPagingTo4kbPage with ⟨_ | a, m1⟩
  · obtain ⟨hpool, hept, hguest, hhistory⟩ := allocate_none h.safe halloc
    exact Or.inl ⟨false, m1, rfl, h.extends_of_evolves hept hguest hpool, by simp,
      Or.inl hhistory⟩
  obtain ⟨hext, ha, hfresh, hnonnull, hhistory⟩ := h.allocated halloc
  have h1 := hext.coherent
  have hfree := h1.extends_free ha hfresh
  by_cases hlow : (hookAddress os targetFunc).toNat < 2 ^ 39
  · have htable := h1.pageTable_eq
    by_cases hsplit : IsSplit pageTable (pml2Key (hookAddress os targetFunc))
    · have hstep := splitLargePage_of_split os hnonnull hlow htable hsplit
      have hleaf := getPml1Entry_of_split hfree.coherent hlow hsplit
      simp only [hookAddress] at hstep hleaf
      refine Or.inr ⟨a, pageTable, m1.free os a .split2mbPagingTo4kbPage, ?_, hext.trans hfree,
        by simpa using hnot, hlow, hsplit, ?_, Or.inl ⟨hsplit, congrArg _ hhistory⟩⟩
      · simp only [hstep, hleaf, Option.map_some, hookAddress]
      · rw [leafBefore, if_pos hsplit]
        exact congrArg (fun b => b.split.pml1 (pml1Index (hookAddress os targetFunc)))
          ((hext.trans hfree).table _ hsplit)
    · have hwire := h1.extends_wireSplit ha hfresh hsplit
      have hwired := isSplit_wired os a pageTable (pml2Key (hookAddress os targetFunc))
      have hstep := splitLargePage_of_large os hnonnull hlow htable hsplit
      have htable' := tableOf_wired (Private.granted h1.safe ha) pageTable
        (pml2Key (hookAddress os targetFunc))
      have hept : m1.ept = m.ept := (allocate_some h.safe halloc).2.1
      have hleaf := getPml1Entry_of_split hwire.coherent hlow hwired
      simp only [hookAddress] at hstep hleaf
      refine Or.inr ⟨a, _, m1.wireSplit os a pageTable (pml2Key (hookAddress os targetFunc)),
        ?_, hext.trans hwire, by simpa using hnot, hlow, hwired, ?_,
        Or.inr ⟨hsplit, htable', hhistory⟩⟩
      · simp only [hstep, hleaf, Option.map_some, hookAddress]
      · rw [leafBefore, if_neg hsplit, leaf, leafPointer]
        simp only [tableOf] at htable'
        rw [htable', ← hept]
        exact congrArg (fun b => b.split.pml1 (pml1Index (hookAddress os targetFunc)))
          (buffer_setBuffer_self m1 a _)
  · have hstep : m1.splitLargePage os a (os.mmGetPhysicalAddress (pageAlign targetFunc)) =
        some (false, m1) :=
      splitLargePage_of_high (os.physical_lt _) (Nat.le_of_not_lt hlow)
    simp only [hstep]
    refine Or.inl ⟨false, _, rfl, hext.trans hfree, by simp, Or.inr ⟨a, ?_, congrArg _ hhistory⟩⟩
    intro hrefers
    rcases hrefers with hold | ⟨r, hr, heq⟩
    · exact hfresh (Or.inl hold)
    · simp at heq

/-- A page and another one have different entries or different indices. -/
def SamePage (x y : Word) : Prop := pml2Key x = pml2Key y ∧ pml1Index x = pml1Index y

instance (x y : Word) : Decidable (SamePage x y) := inferInstanceAs (Decidable (_ ∧ _))

omit [DecidableEq Caller] in
theorem pml1_setPml1_self (m : Machine Caller) (entry : PeptPml1Entry) (value : Word) :
    (m.setPml1 entry value).pml1 entry = value := by
  simp [pml1, setPml1]

omit [DecidableEq Caller] in
theorem pml1_setPml1_of_ne (m : Machine Caller) {entry other : PeptPml1Entry}
    (h : other ≠ entry) (value : Word) : (m.setPml1 entry value).pml1 other = m.pml1 other := by
  by_cases htable : other.table = entry.table
  · have hindex : other.index ≠ entry.index := by
      intro hindex
      obtain ⟨t, i⟩ := other
      obtain ⟨u, j⟩ := entry
      simp only at htable hindex
      exact h (by rw [htable, hindex])
    simp [pml1, setPml1, htable, hindex]
  · simp [pml1, setPml1, buffer_setBuffer_of_ne m htable]

theorem Coherent.leafPointer_ne {os : Os} {pageTable : VmmEptPageTable} {m : Machine Caller}
    (h : m.Coherent os pageTable) {x y : Word} (hx : IsSplit pageTable (pml2Key x))
    (hy : IsSplit pageTable (pml2Key y)) (hne : ¬ SamePage x y) :
    leafPointer os pageTable x ≠ leafPointer os pageTable y := by
  intro heq
  simp only [leafPointer, PeptPml1Entry.mk.injEq] at heq
  exact hne ⟨h.distinct _ _ hx hy heq.1, heq.2⟩

/-- Only the leaf of one page has changed. -/
structure LeafSet (os : Os) (pageTable : VmmEptPageTable) (x value : Word)
    (m m' : Machine Caller) : Prop where
  leaf : m'.leaf os pageTable x = value
  other : ∀ y, IsSplit pageTable (pml2Key y) → ¬ SamePage y x →
    m'.leaf os pageTable y = m.leaf os pageTable y

omit [DecidableEq Caller] in
theorem LeafSet.translate_other {os : Os} {pageTable : VmmEptPageTable} {x value : Word}
    {m m' : Machine Caller} (h : LeafSet os pageTable x value m m') {y : Word}
    (hy : ¬ SamePage y x) : m'.translate os pageTable y = m.translate os pageTable y :=
  walk_congr rfl fun hsplit => h.other y hsplit hy

/-- A leaf is set where nothing but a record that is no table is written besides. -/
theorem Coherent.leafSet {os : Os} {pageTable : VmmEptPageTable} {m : Machine Caller}
    (h : m.Coherent os pageTable) {x : Word} (hx : IsSplit pageTable (pml2Key x)) (value : Word) :
    LeafSet os pageTable x value m (m.setPml1 (leafPointer os pageTable x) value) := by
  refine ⟨pml1_setPml1_self m _ value, ?_⟩
  intro y hy hne
  exact pml1_setPml1_of_ne m (h.leafPointer_ne hy hx hne) value

/-- A record has been put at the head of the list, and its leaf changed. -/
structure Installed (os : Os) (targetFunc : Pvoid) (pageTable : VmmEptPageTable)
    (changedEntry : Word) (m : Machine Caller) (r : Pvoid) (m' : Machine Caller) : Prop where
  coherent : m'.Coherent os pageTable
  guest : m'.guest = m.guest
  history : m'.history = m.history
  hookedPages : m'.ept.hookedPages = r :: m.ept.hookedPages
  record : m'.detail r = hookRecord os targetFunc
    (leafPointer os pageTable (hookAddress os targetFunc))
    (m.leaf os pageTable (hookAddress os targetFunc)) changedEntry
  detail : ∀ q ∈ m.ept.hookedPages, m'.detail q = m.detail q
  leafSet : LeafSet os pageTable (hookAddress os targetFunc) changedEntry m m'

theorem Coherent.leaf_frame {os : Os} {pageTable : VmmEptPageTable} {m : Machine Caller}
    (h : m.Coherent os pageTable) {x : Word} (hx : x.toNat < 2 ^ 39)
    (hsplit : IsSplit pageTable (pml2Key x)) :
    (Epte.pageFrameNumber.get (m.leaf os pageTable x)).toNat = x.toNat / 4096 := by
  rw [← frame_eq hx]
  exact h.leaf _ hsplit _

/-- Listing a private record that is not in use keeps the law. -/
theorem Coherent.addRecord {os : Os} {pageTable : VmmEptPageTable} {m : Machine Caller}
    (h : m.Coherent os pageTable) {r : Pvoid} (hr : m.Private (.eptHookPage, r))
    (hfresh : ¬ m.InUse os pageTable (.eptHookPage, r)) {d : EptHookedPageDetail}
    (hd : RecordOf os pageTable d) : (m.addRecord r d).Coherent os pageTable := by
  have hnotmem : r ∉ m.ept.hookedPages := fun hmem => hfresh (Or.inr ⟨r, hmem, rfl⟩)
  refine ⟨safe_setBuffer h.safe _ _, fun type => tracked_setBuffer (h.tracked type) _ _,
    h.pageTable_eq, ?_, h.pointer, h.distinct, h.large, ?_, List.nodup_cons.mpr ⟨hnotmem, h.nodup⟩,
    ?_⟩
  · intro b hrefers
    rcases hrefers with ⟨e, he, rfl⟩ | ⟨q, hq, rfl⟩
    · exact private_setBuffer (h.owned_table he) _ _
    · rcases List.mem_cons.mp hq with rfl | hq
      · exact private_setBuffer hr _ _
      · exact private_setBuffer (h.owned_record hq) _ _
  · intro e he i
    rw [buffer_addRecord_of_ne m (h.table_ne_record he hr).symm]
    exact h.leaf e he i
  · intro q hq
    rcases List.mem_cons.mp hq with rfl | hmem
    · rw [detail_addRecord_self]
      exact hd
    · have hne : q ≠ r := by
        intro heq
        subst heq
        exact hnotmem hmem
      rw [detail_addRecord_of_ne m hne]
      exact h.record q hmem

theorem Coherent.installHook {os : Os} {pageTable : VmmEptPageTable} {m : Machine Caller}
    (h : m.Coherent os pageTable) {r : Pvoid} (hr : m.Private (.eptHookPage, r))
    (hfresh : ¬ m.InUse os pageTable (.eptHookPage, r)) {targetFunc : Pvoid}
    (hlow : (hookAddress os targetFunc).toNat < 2 ^ 39)
    (hsplit : IsSplit pageTable (pml2Key (hookAddress os targetFunc))) {changedEntry : Word}
    (hchanged : Epte.pageFrameNumber.get changedEntry =
      Epte.pageFrameNumber.get (m.leaf os pageTable (hookAddress os targetFunc))) :
    Installed os targetFunc pageTable changedEntry m r (m.installHook os targetFunc
      (leafPointer os pageTable (hookAddress os targetFunc)) changedEntry r) := by
  have hframe := h.leaf_frame hlow hsplit
  have hchanged' : (Epte.pageFrameNumber.get changedEntry).toNat =
      (hookAddress os targetFunc).toNat / 4096 := by rw [hchanged, hframe]
  have hd : RecordOf os pageTable (hookRecord os targetFunc
      (leafPointer os pageTable (hookAddress os targetFunc))
      (m.leaf os pageTable (hookAddress os targetFunc)) changedEntry) :=
    ⟨pageAlign_pageAlign _, rfl, rfl, hlow, hsplit, rfl, hframe, hchanged'⟩
  have hadd := h.addRecord hr hfresh hd
  have hset := hadd.leafSet hsplit changedEntry
  refine ⟨?_, rfl, rfl, rfl, ?_, ?_, hset.leaf, ?_⟩
  · refine hadd.setPml1 hsplit _ ?_
    rw [hchanged', frame_eq hlow]
  · exact detail_installHook os m targetFunc _ changedEntry r
  · intro q hq
    have hqr : q ≠ r := by
      intro heq
      subst heq
      exact hfresh (Or.inr ⟨q, hq, rfl⟩)
    exact detail_installHook_of_ne os m targetFunc _ changedEntry hqr
  · intro y hy hother
    refine (hset.other y hy hother).trans ?_
    exact congrArg (fun b => b.split.pml1 (pml1Index y))
      (buffer_addRecord_of_ne m (h.table_ne_record hy hr).symm _)

/-- The call has its leaf and its buffer, and `Allocate` returns no record. -/
def recordDenied (os : Os) (targetFunc : Pvoid) (permissions : BitVec 8) (m : Machine Caller) :
    Bool :=
  match m.prepareHook os targetFunc permissions with
  | some (.ready _ _ _, m') => (m'.allocate os .eptHookPage).1.isNone
  | _ => false

/-- A hook that has added its record: the table before the leaf is changed is a
table that translates as the one before the call. -/
structure Hooked (os : Os) (targetFunc : Pvoid) (permissions : BitVec 8)
    (pageTable : VmmEptPageTable) (m : Machine Caller) (a : Pvoid)
    (pageTable' : VmmEptPageTable) (m1 : Machine Caller) (r : Pvoid) (m' : Machine Caller) :
    Prop extends Extends os pageTable m pageTable' m1 where
  notHooked : m.isHookExists (pageAlign targetFunc) = false
  low : (hookAddress os targetFunc).toNat < 2 ^ 39
  wired : IsSplit pageTable' (pml2Key (hookAddress os targetFunc))
  leaf : m1.leaf os pageTable' (hookAddress os targetFunc) =
    m.leafBefore os pageTable (hookAddress os targetFunc)
  fresh : r ∉ m.ept.hookedPages
  installed : Installed os targetFunc pageTable'
    (changeAccess (m1.leaf os pageTable' (hookAddress os targetFunc)) permissions) m1 r m'

/-- The ways out of `RootModePageHook`. -/
theorem rootModePageHook_cases {os : Os} {pageTable : VmmEptPageTable} {m : Machine Caller}
    (h : m.Coherent os pageTable) (targetFunc : Pvoid) (permissions : BitVec 8) :
    (m.recordDenied os targetFunc permissions = false ∧ ∃ status m',
      m.rootModePageHook os targetFunc permissions = some (status, m') ∧
        Done os targetFunc pageTable m status m') ∨
    (m.recordDenied os targetFunc permissions = true ∧ ∃ a pageTable' m1 m2,
      Ready os targetFunc pageTable m a pageTable' m1 ∧
        m1.allocate os .eptHookPage = (none, m2) ∧
        m.rootModePageHook os targetFunc permissions =
          some (false, m2.free os a .split2mbPagingTo4kbPage)) ∨
    (m.recordDenied os targetFunc permissions = false ∧ ∃ a pageTable' m1 r m',
      m.rootModePageHook os targetFunc permissions = some (true, m') ∧
        Hooked os targetFunc permissions pageTable m a pageTable' m1 r m') := by
  unfold recordDenied rootModePageHook
  rcases prepareHook_cases h targetFunc permissions with
    ⟨status, m', hprep, hdone⟩ | ⟨a, pageTable', m1, hprep, hready⟩
  · exact Or.inl ⟨by simp [hprep], status, m', by simp [hprep], hdone⟩
  · rcases halloc : m1.allocate os .eptHookPage with ⟨_ | r, m2⟩
    · exact Or.inr (Or.inl ⟨by simp [hprep, halloc], a, pageTable', m1, m2, hready, halloc,
        by simp [hprep, halloc]⟩)
    · obtain ⟨hext, hr, hfresh, _, hhistory⟩ := hready.coherent.allocated halloc
      have hleaf : m2.leaf os pageTable' (hookAddress os targetFunc) =
          m1.leaf os pageTable' (hookAddress os targetFunc) :=
        congrArg (fun b => b.split.pml1 (pml1Index (hookAddress os targetFunc)))
          (hext.table _ hready.wired)
      have hinstalled := hext.coherent.installHook hr hfresh hready.low hready.wired
        (changeAccess_frame (m2.leaf os pageTable' (hookAddress os targetFunc)) permissions)
      refine Or.inr (Or.inr ⟨by simp [hprep, halloc], a, pageTable', m2, r, _, ?_,
        hready.toExtends.trans hext, hready.notHooked, hready.low, hready.wired,
        hleaf.trans hready.leaf, ?_, hinstalled⟩)
      · simp only [hprep, Option.map_some, halloc, hleaf]
        rfl
      · intro hmem
        refine hfresh (Or.inr ⟨r, ?_, rfl⟩)
        rw [hext.hookedPages, hready.hookedPages]
        exact hmem

/-- What a hook has done, from what it returns. -/
theorem rootModePageHook_returned {os : Os} {pageTable : VmmEptPageTable} {m m' : Machine Caller}
    {targetFunc : Pvoid} {permissions : BitVec 8} {status : Bool} (h : m.Coherent os pageTable)
    (hcall : m.rootModePageHook os targetFunc permissions = some (status, m')) :
    Done os targetFunc pageTable m status m' ∨
    (m.recordDenied os targetFunc permissions = true ∧ status = false) ∨
    (status = true ∧ ∃ a pageTable' m1 r,
      Hooked os targetFunc permissions pageTable m a pageTable' m1 r m') := by
  rcases rootModePageHook_cases h targetFunc permissions with
    ⟨_, status', m2, heq, hdone⟩ | ⟨hdenied, a, _, m2, m3, _, _, heq⟩ |
    ⟨_, a, pageTable', m1, r, m2, heq, hhooked⟩
  · obtain ⟨rfl, rfl⟩ := Prod.mk.inj (Option.some.inj (hcall.symm.trans heq))
    exact Or.inl hdone
  · exact Or.inr (Or.inl ⟨hdenied, (Prod.mk.inj (Option.some.inj (hcall.symm.trans heq))).1⟩)
  · obtain ⟨rfl, rfl⟩ := Prod.mk.inj (Option.some.inj (hcall.symm.trans heq))
    exact Or.inr (Or.inr ⟨rfl, a, pageTable', m1, r, hhooked⟩)

/-- A record has been taken out of the list and freed, and its leaf restored. -/
structure Unhooked (os : Os) (pageTable : VmmEptPageTable) (r : Pvoid)
    (m m' : Machine Caller) : Prop where
  coherent : m'.Coherent os pageTable
  guest : m'.guest = m.guest
  history : m'.history = .freed (.eptHookPage, r) :: m.history
  hookedPages : m'.ept.hookedPages = m.ept.hookedPages.erase r
  detail : ∀ q ∈ m.ept.hookedPages, q ≠ r → m'.detail q = m.detail q
  leafSet : LeafSet os pageTable (m.detail r).physicalAddress (m.detail r).originalEntry m m'

theorem Coherent.eraseHook {os : Os} {pageTable : VmmEptPageTable} {m : Machine Caller}
    (h : m.Coherent os pageTable) (r : Pvoid) :
    ({ m with ept := { m.ept with hookedPages := m.ept.hookedPages.erase r } } :
      Machine Caller).Coherent os pageTable := by
  refine ⟨h.safe, h.tracked, h.pageTable_eq, ?_, h.pointer, h.distinct, h.large, h.leaf,
    h.nodup.erase r, fun q hq => h.record q (List.mem_of_mem_erase hq)⟩
  intro b hrefers
  rcases hrefers with ⟨e, he, rfl⟩ | ⟨q, hq, rfl⟩
  · exact h.owned_table he
  · exact h.owned_record (List.mem_of_mem_erase hq)

theorem Coherent.releaseHook {os : Os} {pageTable : VmmEptPageTable} {m : Machine Caller}
    (h : m.Coherent os pageTable) {r : Pvoid} (hr : r ∈ m.ept.hookedPages) :
    Unhooked os pageTable r m (m.releaseHook os r) := by
  have hrecord := h.record r hr
  have hset := h.leafSet hrecord.split (m.detail r).originalEntry
  have hpml1 : (m.setPml1 (leafPointer os pageTable (m.detail r).physicalAddress)
      (m.detail r).originalEntry).Coherent os pageTable := by
    refine h.setPml1 hrecord.split _ ?_
    rw [hrecord.original, frame_eq hrecord.low]
  have herase := hpml1.eraseHook r
  have hext := herase.extends_free (private_setBuffer (h.owned_record hr) _ _) (by
    intro hrefers
    rcases hrefers with ⟨e, he, heq⟩ | ⟨q, hq, heq⟩
    · simp at heq
    · obtain rfl : r = q := congrArg Prod.snd heq
      exact h.nodup.not_mem_erase hq)
  have hrelease : m.releaseHook os r = free os r .eptHookPage
      { m.setPml1 (leafPointer os pageTable (m.detail r).physicalAddress)
          (m.detail r).originalEntry with
        ept := { m.ept with hookedPages := m.ept.hookedPages.erase r } } := by
    simp only [Machine.releaseHook, hrecord.entry]
    rfl
  rw [hrelease]
  have hleaf : ∀ y, IsSplit pageTable (pml2Key y) → (free os r .eptHookPage
      { m.setPml1 (leafPointer os pageTable (m.detail r).physicalAddress)
          (m.detail r).originalEntry with
        ept := { m.ept with hookedPages := m.ept.hookedPages.erase r } }).leaf os pageTable y =
      (m.setPml1 (leafPointer os pageTable (m.detail r).physicalAddress)
        (m.detail r).originalEntry).leaf os pageTable y := by
    intro y hy
    exact congrArg (fun b => b.split.pml1 (pml1Index y)) (hext.table _ hy)
  refine ⟨hext.coherent, rfl, rfl, rfl, ?_, (hleaf _ hrecord.split).trans hset.leaf, ?_⟩
  · intro q hq hne
    refine (hext.detail q ((List.mem_erase_of_ne hne).mpr hq)).trans ?_
    exact detail_setPml1 m _ q _
  · intro y hy hother
    exact (hleaf y hy).trans (hset.other y hy hother)

end Machine

end NovaHypervisor

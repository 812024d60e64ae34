import NovaHypervisor.Translation

/-!
The law that ties the page table to the pool. Every split entry points to a
table of its own, every record of the hook list is a buffer of its own, and no
other party of the pool knows any of them. Large entries and leaves carry their
own frames. Each part of the hook operations keeps the law.
-/
namespace NovaHypervisor

open General

/-- A record whose leaf is that of its physical page. -/
structure RecordOf (os : Os) (pageTable : VmmEptPageTable) (d : EptHookedPageDetail) : Prop where
  aligned : pageAlign d.virtualAddress = d.virtualAddress
  physical : d.physicalAddress = os.mmGetPhysicalAddress d.virtualAddress
  base : d.physicalBaseAddress = pageAlign d.physicalAddress
  low : d.physicalAddress.toNat < 2 ^ 39
  split : IsSplit pageTable (pml2Key d.physicalAddress)
  entry : d.entryAddress = leafPointer os pageTable d.physicalAddress
  original : (Epte.pageFrameNumber.get d.originalEntry).toNat = d.physicalAddress.toNat / 4096
  changed : (Epte.pageFrameNumber.get d.changedEntry).toNat = d.physicalAddress.toNat / 4096

structure LargeIdentity (e : PeptPml2Entry) (pml2 : Word) : Prop extends LargeAccess pml2 where
  frame : (Epde2mb.pageFrameNumber.get pml2).toNat = pml2Number e

/-- The identity table of write-back RWX entries. -/
def flatTable : VmmEptPageTable where
  pml4 _ := 0x7#64
  pml3 _ := 0x7#64
  pml2 e := Epde2mb.pageFrameNumber.set 0xB7#64 (BitVec.ofNat 64 (pml2Number e))

theorem flatTable_large (e : PeptPml2Entry) :
    ¬ IsSplit flatTable e ∧ LargeIdentity e (flatTable.pml2 e) := by
  have hnumber : (BitVec.ofNat 64 (pml2Number e)).toNat = pml2Number e := by
    simp only [BitVec.toNat_ofNat, pml2Number]
    omega
  refine ⟨?_, ⟨?_, ?_, ?_⟩, ?_⟩
  · simp (disch := decide) only [IsSplit, flatTable, BitField.get_set_of_disjoint]
    decide
  · simp (disch := decide) only [flatTable, BitField.get_set_of_disjoint]
    decide
  · simp (disch := decide) only [flatTable, BitField.get_set_of_disjoint]
    decide
  · simp (disch := decide) only [flatTable, BitField.get_set_of_disjoint]
    decide
  · simp only [flatTable]
    rw [BitField.toNat_get_set_self, hnumber]
    simp only [pml2Number, Epde2mb.pageFrameNumber]
    omega

namespace Machine

variable {Caller : Type*}

@[simp] theorem buffer_setBuffer_self (m : Machine Caller) (a : Pvoid) (content : PoolBuffer) :
    (m.setBuffer a content).buffer a = content := Function.update_self _ _ _

theorem buffer_setBuffer_of_ne (m : Machine Caller) {a b : Pvoid} (h : b ≠ a)
    (content : PoolBuffer) : (m.setBuffer a content).buffer b = m.buffer b :=
  Function.update_of_ne h _ _

/-- Writing to the table half of a buffer changes no record. -/
theorem detail_setBuffer_split (m : Machine Caller) (a r : Pvoid) (split : VmmEptDynamicSplit) :
    (m.setBuffer a { m.buffer a with split := split }).detail r = m.detail r := by
  by_cases hr : r = a
  · subst hr
    rw [detail, buffer_setBuffer_self, detail]
  · rw [detail, buffer_setBuffer_of_ne m hr, detail]

theorem detail_setPml1 (m : Machine Caller) (entry : PeptPml1Entry) (r : Pvoid) (value : Word) :
    (m.setPml1 entry value).detail r = m.detail r :=
  detail_setBuffer_split m entry.table r _

@[simp] theorem detail_addRecord_self (m : Machine Caller) (r : Pvoid)
    (d : EptHookedPageDetail) : (m.addRecord r d).detail r = d :=
  congrArg PoolBuffer.detail (buffer_setBuffer_self m r _)

theorem buffer_addRecord_of_ne (m : Machine Caller) {r a : Pvoid} (h : a ≠ r)
    (d : EptHookedPageDetail) : (m.addRecord r d).buffer a = m.buffer a :=
  buffer_setBuffer_of_ne m h _

theorem detail_addRecord_of_ne (m : Machine Caller) {r q : Pvoid} (h : q ≠ r)
    (d : EptHookedPageDetail) : (m.addRecord r d).detail q = m.detail q :=
  congrArg PoolBuffer.detail (buffer_addRecord_of_ne m h d)

/-- Installing a hook writes its own record and no other. -/
theorem detail_installHook (os : Os) (m : Machine Caller) (targetFunc : Pvoid)
    (entry : PeptPml1Entry) (changedEntry : Word) (r : Pvoid) :
    (m.installHook os targetFunc entry changedEntry r).detail r =
      hookRecord os targetFunc entry (m.pml1 entry) changedEntry :=
  (detail_setPml1 _ _ _ _).trans (detail_addRecord_self m r _)

theorem detail_installHook_of_ne (os : Os) (m : Machine Caller) (targetFunc : Pvoid)
    (entry : PeptPml1Entry) (changedEntry : Word) {r q : Pvoid} (h : q ≠ r) :
    (m.installHook os targetFunc entry changedEntry r).detail q = m.detail q :=
  (detail_setPml1 _ _ _ _).trans (detail_addRecord_of_ne m h _)

theorem safe_setBuffer {os : Os} {m : Machine Caller} (h : m.pool.state.Safe os.toAllocator)
    (a : Pvoid) (content : PoolBuffer) :
    (m.setBuffer a content).pool.state.Safe os.toAllocator :=
  ⟨h.wellFormed, h.sound.used_slot, h.sound.held_slot, h.sound.disjoint⟩

variable [DecidableEq Caller]

/-- A buffer that the processor took and that no other party knows. -/
def Private (m : Machine Caller) (b : Buffer) : Prop := m.pool.state.ledger.Owned b .outside

/-- The tables behind the split entries and the records of the hook list. -/
def InUse (os : Os) (pageTable : VmmEptPageTable) (m : Machine Caller) (b : Buffer) : Prop :=
  (∃ e, IsSplit pageTable e ∧ b = (.split2mbPagingTo4kbPage, tableOf os pageTable e)) ∨
    ∃ r ∈ m.ept.hookedPages, b = (.eptHookPage, r)

structure Coherent (os : Os) (pageTable : VmmEptPageTable) (m : Machine Caller) : Prop where
  safe : m.pool.state.Safe os.toAllocator
  tracked : ∀ type, m.pool.state.ledger.Tracked type
  pageTable_eq : m.ept.eptPageTable = some pageTable
  owned : ∀ b, m.InUse os pageTable b → m.Private b
  pointer : ∀ e, IsSplit pageTable e →
    pageTable.pml2 e = Ept.newSplitPtr os (tableOf os pageTable e)
  distinct : ∀ e f, IsSplit pageTable e → IsSplit pageTable f →
    tableOf os pageTable e = tableOf os pageTable f → e = f
  large : ∀ e, ¬ IsSplit pageTable e → LargeIdentity e (pageTable.pml2 e)
  leaf : ∀ e, IsSplit pageTable e → ∀ i, (Epte.pageFrameNumber.get
    ((m.buffer (tableOf os pageTable e)).split.pml1 i)).toNat = pml2Number e * 512 + i
  nodup : m.ept.hookedPages.Nodup
  record : ∀ r ∈ m.ept.hookedPages, RecordOf os pageTable (m.detail r)

theorem private_setBuffer {m : Machine Caller} {b : Buffer} (h : m.Private b) (a : Pvoid)
    (content : PoolBuffer) : (m.setBuffer a content).Private b :=
  Ledger.store_owned h

theorem tracked_setBuffer {m : Machine Caller} {type : AllocationType}
    (h : m.pool.state.ledger.Tracked type) (a : Pvoid) (content : PoolBuffer) :
    (m.setBuffer a content).pool.state.ledger.Tracked type := by
  intro b
  obtain ⟨owner, howned⟩ := h b
  exact ⟨owner, Ledger.store_owned howned⟩

/-- Two private buffers at one address are the same buffer. -/
theorem Private.eq_of_address {os : Os} {m : Machine Caller}
    (hm : m.pool.state.Safe os.toAllocator) {b c : Buffer} (hb : m.Private b) (hc : m.Private c)
    (h : b.2 = c.2) : b = c :=
  hm.sound.eq_of_address (hm.sound.used_slot b (hb.used.mpr (by simp)))
    (hm.sound.used_slot c (hc.used.mpr (by simp))) h

theorem Private.granted {os : Os} {m : Machine Caller} (hm : m.pool.state.Safe os.toAllocator)
    {b : Buffer} (hb : m.Private b) : os.grants b.1 b.2 = true :=
  hm.wellFormed.granted b.1 b.2 (hm.sound.used_slot b (hb.used.mpr (by simp)))

namespace Coherent

variable {os : Os} {pageTable : VmmEptPageTable} {m : Machine Caller}

theorem owned_table (h : m.Coherent os pageTable) {e : PeptPml2Entry}
    (he : IsSplit pageTable e) :
    m.Private (.split2mbPagingTo4kbPage, tableOf os pageTable e) :=
  h.owned _ (Or.inl ⟨e, he, rfl⟩)

theorem owned_record (h : m.Coherent os pageTable) {r : Pvoid} (hr : r ∈ m.ept.hookedPages) :
    m.Private (.eptHookPage, r) :=
  h.owned _ (Or.inr ⟨r, hr, rfl⟩)

theorem table_ne_record (h : m.Coherent os pageTable) {e : PeptPml2Entry}
    (he : IsSplit pageTable e) {r : Pvoid} (hr : m.Private (.eptHookPage, r)) :
    r ≠ tableOf os pageTable e := by
  intro heq
  have := Private.eq_of_address h.safe hr (h.owned_table he) heq
  simp at this

/-- Moves of the pool that keep the buffers in use keep the law. -/
theorem keep (h : m.Coherent os pageTable) {m' : Machine Caller} (hept : m'.ept = m.ept)
    (hsafe : m'.pool.state.Safe os.toAllocator)
    (htracked : ∀ type, m'.pool.state.ledger.Tracked type)
    (hkept : ∀ b, m.InUse os pageTable b → m'.Private b ∧ m'.buffer b.2 = m.buffer b.2) :
    m'.Coherent os pageTable := by
  refine ⟨hsafe, htracked, hept ▸ h.pageTable_eq, ?_, h.pointer, h.distinct, h.large, ?_,
    hept ▸ h.nodup, ?_⟩
  · intro b hb
    refine (hkept b ?_).1
    rcases hb with ⟨e, he, rfl⟩ | ⟨r, hr, rfl⟩
    · exact Or.inl ⟨e, he, rfl⟩
    · exact Or.inr ⟨r, hept ▸ hr, rfl⟩
  · intro e he i
    have hbuffer := (hkept _ (Or.inl ⟨e, he, rfl⟩)).2
    simp only at hbuffer
    rw [hbuffer]
    exact h.leaf e he i
  · intro r hr
    rw [hept] at hr
    have hbuffer := (hkept _ (Or.inr ⟨r, hr, rfl⟩)).2
    simp only at hbuffer
    rw [detail, hbuffer]
    exact h.record r hr

/-- Writing a leaf's own frame into a table keeps the law. -/
theorem setPml1 (h : m.Coherent os pageTable) {e : PeptPml2Entry} (he : IsSplit pageTable e)
    (i : Fin 512) {value : Word}
    (hvalue : (Epte.pageFrameNumber.get value).toNat = pml2Number e * 512 + i) :
    (m.setPml1 ⟨tableOf os pageTable e, i⟩ value).Coherent os pageTable := by
  refine ⟨safe_setBuffer h.safe _ _, fun type => tracked_setBuffer (h.tracked type) _ _,
    h.pageTable_eq, ?_, h.pointer, h.distinct, h.large, ?_, h.nodup, ?_⟩
  · intro b hb
    exact private_setBuffer (h.owned b hb) _ _
  · intro f hf j
    by_cases hfe : f = e
    · subst hfe
      by_cases hj : j = i
      · subst hj
        simpa [Machine.setPml1] using hvalue
      · simpa [Machine.setPml1, hj] using h.leaf f hf j
    · have hne : tableOf os pageTable f ≠ tableOf os pageTable e := by
        intro heq
        exact hfe (h.distinct f e hf he heq)
      rw [Machine.setPml1, buffer_setBuffer_of_ne m hne]
      exact h.leaf f hf j
  · intro r hr
    have hne := h.table_ne_record he (h.owned_record hr)
    rw [detail, Machine.setPml1, buffer_setBuffer_of_ne m hne]
    exact h.record r hr

/-- In a state that keeps the law every page below 512GB translates to itself. -/
theorem walk_frame (h : m.Coherent os pageTable) {x : Word} (hx : x.toNat < 2 ^ 39) :
    (walk os pageTable m.pool.state.memory x).frame = x.toNat / 4096 := by
  rw [← frame_eq hx]
  by_cases hsplit : IsSplit pageTable (pml2Key x)
  · rw [walk_of_split hsplit]
    exact h.leaf _ hsplit _
  · rw [walk_of_large hsplit]
    simp only [(h.large _ hsplit).frame]

/-- Wiring a private buffer that is not in use into a large entry keeps the law. -/
theorem wireSplit (h : m.Coherent os pageTable) {a : Pvoid} {e : PeptPml2Entry}
    (ha : m.Private (.split2mbPagingTo4kbPage, a))
    (hfresh : ¬ m.InUse os pageTable (.split2mbPagingTo4kbPage, a))
    (he : ¬ IsSplit pageTable e) :
    (m.wireSplit os a pageTable e).Coherent os
      (pageTable.setPml2 e (Ept.newSplitPtr os a)) := by
  have hgrant := Private.granted h.safe ha
  have hne : ∀ f, IsSplit pageTable f → tableOf os pageTable f ≠ a := by
    intro f hf heq
    exact hfresh (Or.inl ⟨f, hf, by rw [heq]⟩)
  refine ⟨safe_setBuffer h.safe _ _, fun type => tracked_setBuffer (h.tracked type) _ _, rfl,
    ?_, ?_, ?_, ?_, ?_, h.nodup, ?_⟩
  · intro b hrefers
    rcases hrefers with ⟨f, hf, rfl⟩ | ⟨r, hr, rfl⟩
    · rcases isSplit_wired_cases hgrant hf with ⟨_, htable⟩ | ⟨_, hold, htable⟩
      · rw [htable]
        exact private_setBuffer ha _ _
      · rw [htable]
        exact private_setBuffer (h.owned_table hold) _ _
    · exact private_setBuffer (h.owned_record hr) _ _
  · intro f hf
    rcases isSplit_wired_cases hgrant hf with ⟨rfl, htable⟩ | ⟨hfe, hold, htable⟩
    · rw [htable, setPml2_self]
    · rw [htable, setPml2_of_ne pageTable hfe]
      exact h.pointer f hold
  · intro f g hf hg heq
    rcases isSplit_wired_cases hgrant hf with ⟨hfe, hftable⟩ | ⟨_, hfold, hftable⟩ <;>
      rcases isSplit_wired_cases hgrant hg with ⟨hge, hgtable⟩ | ⟨_, hgold, hgtable⟩ <;>
      rw [hftable, hgtable] at heq
    · rw [hfe, hge]
    · exact absurd heq.symm (hne g hgold)
    · exact absurd heq (hne f hfold)
    · exact h.distinct f g hfold hgold heq
  · intro f hf
    have hfe : f ≠ e := by
      intro heq
      subst heq
      exact hf (isSplit_wired os a pageTable f)
    rw [setPml2_of_ne pageTable hfe]
    refine h.large f ?_
    intro hold
    exact hf ((isSplit_setPml2_newSplitPtr os a pageTable e f).mpr (Or.inr hold))
  · intro f hf i
    rcases isSplit_wired_cases hgrant hf with ⟨rfl, htable⟩ | ⟨_, hold, htable⟩
    · rw [htable]
      have hframe := splitPml1Entry_frame m.ept (pageTable.pml2 f) i
      rw [(h.large f he).frame] at hframe
      simpa [Machine.wireSplit, buffer, Machine.setBuffer] using hframe
    · rw [htable]
      have hbuffer := buffer_setBuffer_of_ne m (hne f hold)
        { m.buffer a with split := ⟨m.ept.splitPml1Entry (pageTable.pml2 e), some e⟩ }
      have hleaf := h.leaf f hold i
      rw [← hbuffer] at hleaf
      exact hleaf
  · intro r hr
    have hra : r ≠ a := by
      intro heq
      subst heq
      have := Private.eq_of_address h.safe ha (h.owned_record hr) rfl
      simp at this
    have hdetail : (m.wireSplit os a pageTable e).detail r = m.detail r :=
      congrArg PoolBuffer.detail (buffer_setBuffer_of_ne m hra
        { m.buffer a with split := ⟨m.ept.splitPml1Entry (pageTable.pml2 e), some e⟩ })
    have hrecord := h.record r hr
    have hkey : pml2Key (m.detail r).physicalAddress ≠ e := by
      intro heq
      exact he (heq ▸ hrecord.split)
    rw [hdetail]
    refine ⟨hrecord.aligned, hrecord.physical, hrecord.base, hrecord.low, ?_, ?_,
      hrecord.original, hrecord.changed⟩
    · exact (isSplit_setPml2_newSplitPtr os a pageTable e _).mpr (Or.inr hrecord.split)
    · rw [hrecord.entry, leafPointer, leafPointer, setPml2_of_ne pageTable hkey]

end Coherent

end Machine

end NovaHypervisor

import NovaHypervisor.HookRuns

/-!
Splitting a large page is invisible. The 512 leaves of the new table carry the frames,
the rights and the flags that the large entry had, and the memory type of their own
frames. Every other entry and table stays as it was, and a region that is split
already gives the buffer of a further split back to the pool.
-/
namespace NovaHypervisor

open General

def SameRegion (x y : Word) : Prop := x.toNat / 2 ^ 21 = y.toNat / 2 ^ 21

instance (x y : Word) : Decidable (SameRegion x y) := inferInstanceAs (Decidable (_ = _))

theorem pml2Number_pml2Key {x : Word} (hx : x.toNat < 2 ^ 39) :
    pml2Number (pml2Key x) = x.toNat / 2 ^ 21 := by
  have hframe := frame_eq hx
  have hindex := (pml1Index x).isLt
  omega

theorem pml2Key_eq_iff {x y : Word} (hx : x.toNat < 2 ^ 39) (hy : y.toNat < 2 ^ 39) :
    pml2Key x = pml2Key y ↔ SameRegion x y := by
  rw [SameRegion, ← pml2Number_pml2Key hx, ← pml2Number_pml2Key hy]
  constructor
  · intro hkey
    rw [hkey]
  · exact pml2Number_injective

/-- A buffer of the pool that no split entry points to. -/
structure FreshTable (os : Os) (pageTable : VmmEptPageTable) (buffer : Pvoid) : Prop where
  granted : os.grants .split2mbPagingTo4kbPage buffer = true
  unused : ∀ e, IsSplit pageTable e → tableOf os pageTable e ≠ buffer

theorem toNat_pageFrame (y : Word) : (y / pageSize).toNat = y.toNat / 4096 := by
  rw [BitVec.toNat_udiv]
  rfl

/-- The leaf of an address in a region with its own frame number has the address's frame. -/
theorem splitPml1Entry_pageFrame (ept : Ept) {pml2 y : Word} (hy : y.toNat < 2 ^ 39)
    (hpml2 : (Epde2mb.pageFrameNumber.get pml2).toNat = pml2Number (pml2Key y)) :
    Epte.pageFrameNumber.get (ept.splitPml1Entry pml2 (pml1Index y)) = y / pageSize := by
  apply BitVec.eq_of_toNat_eq
  rw [splitPml1Entry_frame, hpml2, frame_eq hy, toNat_pageFrame]

theorem splitPml1Entry_flags (ept : Ept) (pml2 : Word) (i : Fin 512) :
    Epte.ignorePat.get (ept.splitPml1Entry pml2 i) = Epde2mb.ignorePat.get pml2 ∧
      Epte.suppressVe.get (ept.splitPml1Entry pml2 i) = Epde2mb.suppressVe.get pml2 := by
  constructor
  · simp (disch := decide) only [Ept.splitPml1Entry, BitField.get_set_of_disjoint]
    exact BitField.get_set_of_lt _ _ _ (Epde2mb.ignorePat.toNat_get_lt pml2)
  · simp (disch := decide) only [Ept.splitPml1Entry, BitField.get_set_of_disjoint]
    exact BitField.get_set_of_lt _ _ _ (Epde2mb.suppressVe.toNat_get_lt pml2)

/-- The loop reads the frame back from the leaf, and stores the three bits of its type. -/
theorem splitPml1Entry_memoryType (ept : Ept) (pml2 : Word) (i : Fin 512) :
    (Epte.memoryType.get (ept.splitPml1Entry pml2 i)).toNat =
      (getMemoryType ept.memoryRanges ept.defaultMemoryType
        (Epte.pageFrameNumber.get (ept.splitPml1Entry pml2 i)) false).toNat % 8 := by
  simp (disch := decide) only [Ept.splitPml1Entry, BitField.get_set_of_disjoint,
    BitField.toNat_get_set_self, BitVec.toNat_setWidth]
  generalize getMemoryType _ _ _ _ = type
  have htype := type.isLt
  simp only [show Epte.memoryType.width = 3 from rfl]
  omega

/-- In a map that the processor's registers give, the type fits the field. -/
theorem getMemoryType_lt_of_map {ept : Ept} {msrs : MtrrMsrs}
    (hmap : buildMtrrMap msrs.readmsr = (ept.memoryRanges, ept.defaultMemoryType)) (pfn : Word) :
    (getMemoryType ept.memoryRanges ept.defaultMemoryType pfn false).toNat < 8 := by
  obtain ⟨htypes, hdefault⟩ := msrs.buildMtrrMap_types
  rw [hmap] at htypes hdefault
  exact getMemoryType_lt htypes hdefault pfn false

/-- A leaf with all rights, the flags of the large entry and the frame of the address. -/
structure SmallLeaf (ept : Ept) (pml2 y leaf : Word) : Prop where
  frame : Epte.pageFrameNumber.get leaf = y / pageSize
  read : Epte.readAccess.get leaf = 1
  write : Epte.writeAccess.get leaf = 1
  execute : Epte.executeAccess.get leaf = 1
  ignorePat : Epte.ignorePat.get leaf = Epde2mb.ignorePat.get pml2
  suppressVe : Epte.suppressVe.get leaf = Epde2mb.suppressVe.get pml2
  memoryType : (Epte.memoryType.get leaf).toNat =
    (getMemoryType ept.memoryRanges ept.defaultMemoryType (y / pageSize) false).toNat % 8
  mapped : ∀ msrs : MtrrMsrs,
    buildMtrrMap msrs.readmsr = (ept.memoryRanges, ept.defaultMemoryType) →
      Epte.memoryType.get leaf =
        (getMemoryType ept.memoryRanges ept.defaultMemoryType (y / pageSize) false).setWidth 64

theorem splitPml1Entry_smallLeaf (ept : Ept) {pml2 y : Word} (hy : y.toNat < 2 ^ 39)
    (hpml2 : (Epde2mb.pageFrameNumber.get pml2).toNat = pml2Number (pml2Key y)) :
    SmallLeaf ept pml2 y (ept.splitPml1Entry pml2 (pml1Index y)) := by
  have hframe := splitPml1Entry_pageFrame ept hy hpml2
  have htype := splitPml1Entry_memoryType ept pml2 (pml1Index y)
  rw [hframe] at htype
  obtain ⟨hread, hwrite, hexecute⟩ := splitPml1Entry_access ept pml2 (pml1Index y)
  obtain ⟨hignore, hsuppress⟩ := splitPml1Entry_flags ept pml2 (pml1Index y)
  refine ⟨hframe, hread, hwrite, hexecute, hignore, hsuppress, htype, ?_⟩
  intro msrs hmap
  have hlt := getMemoryType_lt_of_map hmap (y / pageSize)
  apply BitVec.eq_of_toNat_eq
  rw [htype, BitVec.toNat_setWidth]
  omega

namespace Machine

variable {Caller : Type*} [DecidableEq Caller]

/-- What an address of a region translates to once `buffer` is the region's table. -/
structure SmallPage (os : Os) (buffer : Pvoid) (pml2 : Word) (pageTable : VmmEptPageTable)
    (m : Machine Caller) (y : Word) : Prop where
  found : m.getPml1Entry os y = some (some ⟨buffer, pml1Index y⟩)
  leaf : SmallLeaf m.ept pml2 y (m.pml1 ⟨buffer, pml1Index y⟩)
  translate : m.translate os pageTable y =
    ⟨y.toNat / 4096, 1, 1, 1, Epte.memoryType.get (m.pml1 ⟨buffer, pml1Index y⟩)⟩

/-- Nothing that the translation of an address reads has changed. -/
structure SameTranslation (os : Os) (pageTable : VmmEptPageTable) (m : Machine Caller)
    (pageTable' : VmmEptPageTable) (m' : Machine Caller) (y : Word) : Prop where
  pml2 : pageTable'.pml2 (pml2Key y) = pageTable.pml2 (pml2Key y)
  found : m'.getPml1Entry os y = m.getPml1Entry os y
  leaf : IsSplit pageTable (pml2Key y) → m'.leaf os pageTable' y = m.leaf os pageTable y
  translate : m'.translate os pageTable' y = m.translate os pageTable y

/-- A split that takes nothing: the entries stay and the buffer goes to `Free`. -/
structure SplitAgain (os : Os) (buffer : Pvoid) (x : Word) (m m' : Machine Caller) : Prop where
  result : m.splitLargePage os buffer x = some (true, m')
  freed : m' = m.free os buffer .split2mbPagingTo4kbPage
  history : m'.history = .freed (.split2mbPagingTo4kbPage, buffer) :: m.history
  ept : m'.ept = m.ept
  /-- The other parties of the pool run during the call and write to no private table. -/
  table : m.pool.state.Safe os.toAllocator → ∀ table,
    m.Private (.split2mbPagingTo4kbPage, table) → table ≠ buffer →
      m'.buffer table = m.buffer table

/-- The large page at `x` has become small pages, and nothing else has changed. -/
structure SplitInvisibly (os : Os) (buffer : Pvoid) (x : Word) (pageTable : VmmEptPageTable)
    (m : Machine Caller) (pageTable' : VmmEptPageTable) (m' : Machine Caller) : Prop where
  pageTable_eq : m'.ept.eptPageTable = some pageTable'
  /-- Addresses from 512GB on go through other entries of the first level. -/
  upper : pageTable'.pml4 = pageTable.pml4 ∧ pageTable'.pml3 = pageTable.pml3
  inside : ∀ y, y.toNat < 2 ^ 39 → SameRegion y x →
    SmallPage os buffer (pageTable.pml2 (pml2Key x)) pageTable' m' y
  access : ∀ y, y.toNat < 2 ^ 39 →
    (m'.translate os pageTable' y).SameAccess (m.translate os pageTable y)
  outside : ∀ y, y.toNat < 2 ^ 39 → ¬ SameRegion y x →
    SameTranslation os pageTable m pageTable' m' y
  /-- However the processor goes on, as long as the region's entry stays. -/
  again : ∀ (later : Machine Caller) (laterTable : VmmEptPageTable),
    later.ept.eptPageTable = some laterTable →
    laterTable.pml2 (pml2Key x) = pageTable'.pml2 (pml2Key x) →
    ∀ y, y.toNat < 2 ^ 39 → SameRegion y x → ∀ other, other ≠ null →
      ∃ m'', SplitAgain os other y later m''

section

variable {os : Os} {pageTable : VmmEptPageTable} {m : Machine Caller} {buffer : Pvoid}
  {x : Word}

omit [DecidableEq Caller] in
theorem wireSplit_pml1 (e : PeptPml2Entry) (i : Fin 512) :
    (m.wireSplit os buffer pageTable e).pml1 ⟨buffer, i⟩ =
      m.ept.splitPml1Entry (pageTable.pml2 e) i :=
  congrArg (fun b => b.split.pml1 i) (buffer_setBuffer_self m buffer _)

omit [DecidableEq Caller] in
theorem getPml1Entry_wireSplit (h : FreshTable os pageTable buffer) {y : Word}
    (hy : y.toNat < 2 ^ 39) (hkey : pml2Key y = pml2Key x) :
    (m.wireSplit os buffer pageTable (pml2Key x)).getPml1Entry os y =
      some (some ⟨buffer, pml1Index y⟩) := by
  have htable := tableOf_wired h.granted pageTable (pml2Key x)
  have hpointer : leafPointer os (pageTable.setPml2 (pml2Key x) (Ept.newSplitPtr os buffer)) y =
      ⟨buffer, pml1Index y⟩ := by
    rw [tableOf] at htable
    rw [leafPointer, hkey, htable]
  rw [← hpointer]
  refine getPml1Entry_of_table hy rfl ?_ ?_
  · exact (isSplit_setPml2_newSplitPtr os buffer pageTable _ _).mpr (Or.inl hkey)
  · rw [hkey, htable]
    exact os.grants_nonnull _ _ h.granted

omit [DecidableEq Caller] in
theorem smallPage_wireSplit (h : FreshTable os pageTable buffer)
    (hlarge : LargeIdentity (pml2Key x) (pageTable.pml2 (pml2Key x))) {y : Word}
    (hy : y.toNat < 2 ^ 39) (hkey : pml2Key y = pml2Key x) :
    SmallPage os buffer (pageTable.pml2 (pml2Key x))
      (pageTable.setPml2 (pml2Key x) (Ept.newSplitPtr os buffer))
      (m.wireSplit os buffer pageTable (pml2Key x)) y := by
  have hnumber : (Epde2mb.pageFrameNumber.get (pageTable.pml2 (pml2Key x))).toNat =
      pml2Number (pml2Key y) := by
    rw [hkey]
    exact hlarge.frame
  have hsmall : SmallLeaf (m.wireSplit os buffer pageTable (pml2Key x)).ept
      (pageTable.pml2 (pml2Key x)) y
      (m.ept.splitPml1Entry (pageTable.pml2 (pml2Key x)) (pml1Index y)) :=
    { splitPml1Entry_smallLeaf m.ept hy hnumber with }
  have hleaf : (m.wireSplit os buffer pageTable (pml2Key x)).pml1 ⟨buffer, pml1Index y⟩ =
      m.ept.splitPml1Entry (pageTable.pml2 (pml2Key x)) (pml1Index y) :=
    wireSplit_pml1 (pml2Key x) (pml1Index y)
  refine ⟨getPml1Entry_wireSplit h hy hkey, ?_, ?_⟩
  · rw [hleaf]
    exact hsmall
  · have hsplit : IsSplit (pageTable.setPml2 (pml2Key x) (Ept.newSplitPtr os buffer))
        (pml2Key y) := (isSplit_setPml2_newSplitPtr os buffer pageTable _ _).mpr (Or.inl hkey)
    have htable := tableOf_wired h.granted pageTable (pml2Key x)
    have hwalked : ((m.wireSplit os buffer pageTable (pml2Key x)).pool.state.memory
        buffer).split.pml1 (pml1Index y) =
        m.ept.splitPml1Entry (pageTable.pml2 (pml2Key x)) (pml1Index y) := hleaf
    obtain ⟨hread, hwrite, hexecute⟩ := newSplitPtr_access os buffer
    rw [Machine.translate, walk_of_split hsplit, hleaf]
    simp only [hkey, htable, setPml2_self, hwalked, hsmall.frame, toNat_pageFrame, hsmall.read,
      hsmall.write, hsmall.execute, hread, hwrite, hexecute]
    rfl

omit [DecidableEq Caller] in
theorem sameTranslation_wireSplit (h : FreshTable os pageTable buffer)
    (htable : m.ept.eptPageTable = some pageTable) {y : Word} (hkey : pml2Key y ≠ pml2Key x) :
    SameTranslation os pageTable m
      (pageTable.setPml2 (pml2Key x) (Ept.newSplitPtr os buffer))
      (m.wireSplit os buffer pageTable (pml2Key x)) y := by
  have hpml2 := setPml2_of_ne pageTable hkey (Ept.newSplitPtr os buffer)
  have hleaf : IsSplit pageTable (pml2Key y) →
      (m.wireSplit os buffer pageTable (pml2Key x)).buffer (tableOf os pageTable (pml2Key y)) =
        m.buffer (tableOf os pageTable (pml2Key y)) := by
    intro hsplit
    exact buffer_setBuffer_of_ne m (h.unused _ hsplit) _
  refine ⟨hpml2, ?_, ?_, ?_⟩
  · have hentry := hpml2
    simp only [pml2Key] at hentry
    simp only [getPml1Entry, htable, wireSplit, Option.map_some]
    simp only [pml2Key, hentry]
  · intro hsplit
    rw [Machine.leaf, Machine.leaf, leafPointer, hpml2]
    exact congrArg (fun b => b.split.pml1 (pml1Index y)) (hleaf hsplit)
  · refine walk_congr hpml2 fun hsplit => ?_
    exact congrArg (fun b => b.split.pml1 (pml1Index y)) (hleaf hsplit)

omit [DecidableEq Caller] in
theorem access_wireSplit (h : FreshTable os pageTable buffer)
    (hlarge : ¬ IsSplit pageTable (pml2Key x))
    (haccess : LargeAccess (pageTable.pml2 (pml2Key x))) (y : Word) :
    ((m.wireSplit os buffer pageTable (pml2Key x)).translate os
      (pageTable.setPml2 (pml2Key x) (Ept.newSplitPtr os buffer)) y).SameAccess
      (m.translate os pageTable y) := by
  refine walk_split m.ept h.granted h.unused hlarge haccess ?_ ?_ y
  · exact congrArg (fun b => b.split.pml1) (buffer_setBuffer_self m buffer _)
  · exact fun b hb => buffer_setBuffer_of_ne m hb _

theorem splitAgain_of_split (os : Os) {pageTable : VmmEptPageTable} {m : Machine Caller}
    {x : Word} (hx : x.toNat < 2 ^ 39) (htable : m.ept.eptPageTable = some pageTable)
    (hsplit : IsSplit pageTable (pml2Key x)) {buffer : Pvoid} (hbuffer : buffer ≠ null) :
    SplitAgain os buffer x m (m.free os buffer .split2mbPagingTo4kbPage) := by
  refine ⟨splitLargePage_of_split os hbuffer hx htable hsplit, rfl, rfl, rfl, ?_⟩
  intro hsafe table hprivate hne
  have hfreed := SharedPool.free_spec os.toAllocator .split2mbPagingTo4kbPage buffer hsafe
  refine (hfreed.outside (.split2mbPagingTo4kbPage, table) ?_ hprivate).2
  intro heq
  exact hne (Prod.mk.inj heq).2

end

theorem splitLargePage_invisible {os : Os} {pageTable : VmmEptPageTable} {m : Machine Caller}
    {buffer : Pvoid} {x : Word} (htable : m.ept.eptPageTable = some pageTable)
    (hx : x.toNat < 2 ^ 39) (hlarge : ¬ IsSplit pageTable (pml2Key x))
    (hidentity : LargeIdentity (pml2Key x) (pageTable.pml2 (pml2Key x)))
    (hfresh : FreshTable os pageTable buffer) :
    ∃ pageTable' m', m.splitLargePage os buffer x = some (true, m') ∧
      SplitInvisibly os buffer x pageTable m pageTable' m' := by
  have hnonnull := os.grants_nonnull _ _ hfresh.granted
  refine ⟨_, _, splitLargePage_of_large os hnonnull hx htable hlarge, rfl, ⟨rfl, rfl⟩, ?_, ?_, ?_,
    ?_⟩
  · intro y hy hregion
    exact smallPage_wireSplit hfresh hidentity hy ((pml2Key_eq_iff hy hx).mpr hregion)
  · intro y _
    exact access_wireSplit hfresh hlarge hidentity.toLargeAccess y
  · intro y hy hregion
    exact sameTranslation_wireSplit hfresh htable (mt (pml2Key_eq_iff hy hx).mp hregion)
  · intro later laterTable hlater hentry y hy hregion other hother
    have hsplit : IsSplit laterTable (pml2Key y) := by
      rw [(pml2Key_eq_iff hy hx).mpr hregion, IsSplit, hentry, setPml2_self]
      exact newSplitPtr_largePage os buffer
    exact ⟨_, splitAgain_of_split os hy hlater hsplit hother⟩

theorem splitLargePage_invisible_flat :
    ∃ pageTable' m', (flatMachine 0 0).splitLargePage flatOs 0x1000000#64 0x345678#64 =
        some (true, m') ∧
      SplitInvisibly flatOs 0x1000000#64 0x345678#64 flatTable (flatMachine 0 0) pageTable' m' :=
  splitLargePage_invisible rfl (by decide) (flatTable_large _).1 (flatTable_large _).2
    ⟨by decide, fun e he => absurd he (flatTable_large e).1⟩

end Machine

end NovaHypervisor

import NovaHypervisor.Ept

/-!
The meaning of the page table: the frame and the rights that a guest-physical
address translates to, with the facts about the entries that the operations
build. A page below 512GB is a PML2 entry and an index in its table.
-/
namespace NovaHypervisor

open General

/-- The PML2 entry that covers an address. -/
def pml2Key (address : Word) : PeptPml2Entry := (pml3Index address, pml2Index address)

/-- The number of the 2MB page that a PML2 entry covers. -/
def pml2Number (e : PeptPml2Entry) : ℕ := e.1 * 512 + e.2

def tableAddress (os : Os) (pml2 : Word) : Pvoid :=
  os.mmGetVirtualForPhysical (Epde.pageFrameNumber.get pml2 * pageSize)

def leafPointer (os : Os) (pageTable : VmmEptPageTable) (address : Word) : PeptPml1Entry :=
  ⟨tableAddress os (pageTable.pml2 (pml2Key address)), pml1Index address⟩

structure Translation where
  frame : ℕ
  read : Word
  write : Word
  execute : Word
  memoryType : Word
  deriving DecidableEq

def Translation.Present (t : Translation) : Prop := t.read ≠ 0 ∨ t.write ≠ 0 ∨ t.execute ≠ 0

/-- The same frame and the same rights. -/
def Translation.SameAccess (t u : Translation) : Prop :=
  t.frame = u.frame ∧ t.read = u.read ∧ t.write = u.write ∧ t.execute = u.execute

theorem Translation.SameAccess.refl (t : Translation) : t.SameAccess t := ⟨rfl, rfl, rfl, rfl⟩

theorem Translation.SameAccess.trans {t u v : Translation} (h : t.SameAccess u)
    (h' : u.SameAccess v) : t.SameAccess v :=
  ⟨h.1.trans h'.1, h.2.1.trans h'.2.1, h.2.2.1.trans h'.2.2.1, h.2.2.2.trans h'.2.2.2⟩

/-- A large page is its own leaf; a split one leads to the table behind its pointer. -/
def walk (os : Os) (pageTable : VmmEptPageTable) (memory : Pvoid → PoolBuffer)
    (address : Word) : Translation :=
  let pml2 := pageTable.pml2 (pml2Key address)
  if Epde2mb.largePage.get pml2 ≠ 0 then
    { frame := (Epde2mb.pageFrameNumber.get pml2).toNat * 512 + pml1Index address
      read := Epde2mb.readAccess.get pml2
      write := Epde2mb.writeAccess.get pml2
      execute := Epde2mb.executeAccess.get pml2
      memoryType := Epde2mb.memoryType.get pml2 }
  else
    let leaf := (memory (tableAddress os pml2)).split.pml1 (pml1Index address)
    { frame := (Epte.pageFrameNumber.get leaf).toNat
      read := Epde.readAccess.get pml2 &&& Epte.readAccess.get leaf
      write := Epde.writeAccess.get pml2 &&& Epte.writeAccess.get leaf
      execute := Epde.executeAccess.get pml2 &&& Epte.executeAccess.get leaf
      memoryType := Epte.memoryType.get leaf }

theorem frame_eq {address : Word} (h : address.toNat < 2 ^ 39) :
    pml2Number (pml2Key address) * 512 + pml1Index address = address.toNat / 4096 := by
  simp only [pml2Number, pml2Key, pml3Index, pml2Index, pml1Index, toNat_pml3Index,
    toNat_pml2Index, toNat_pml1Index]
  omega

theorem pml2Number_lt (e : PeptPml2Entry) : pml2Number e < 2 ^ 18 := by
  have hi := e.1.isLt
  have hj := e.2.isLt
  simp only [pml2Number]
  omega

theorem pml2Number_injective {e f : PeptPml2Entry} (h : pml2Number e = pml2Number f) : e = f := by
  obtain ⟨i, j⟩ := e
  obtain ⟨k, l⟩ := f
  simp only [pml2Number] at h
  have hi : i = k := by omega
  have hj : j = l := by omega
  rw [hi, hj]

/-- An entry and an index name one 4KB page. -/
theorem frame_injective {a b : Word} (ha : a.toNat < 2 ^ 39) (hb : b.toNat < 2 ^ 39)
    (hkey : pml2Key a = pml2Key b) (hindex : pml1Index a = pml1Index b) :
    a.toNat / 4096 = b.toNat / 4096 := by
  rw [← frame_eq ha, ← frame_eq hb, hkey, hindex]

/-- The check reads bits 39 to 47. -/
theorem pml4Index_pos_iff_div (a : Word) :
    addrmaskEptPml4Index a > 0 ↔ a.toNat / 2 ^ 39 % 512 ≠ 0 := by
  rw [gt_iff_lt, BitVec.lt_def, toNat_pml4Index]
  exact Nat.pos_iff_ne_zero

theorem pml4Index_pos_iff {address : Word} (h : address.toNat < 2 ^ 48) :
    addrmaskEptPml4Index address > 0 ↔ 2 ^ 39 ≤ address.toNat := by
  rw [pml4Index_pos_iff_div]
  omega

theorem not_pml4Index_pos {address : Word} (h : address.toNat < 2 ^ 39) :
    ¬ addrmaskEptPml4Index address > 0 := by
  rw [pml4Index_pos_iff_div]
  omega

theorem getPml2Entry_of_lt {address : Word} (h : address.toNat < 2 ^ 39) :
    Ept.getPml2Entry address = some (pml2Key address) := by
  rw [Ept.getPml2Entry, if_neg (not_pml4Index_pos h), pml2Key]

theorem newSplitPtr_largePage (os : Os) (a : Pvoid) :
    Epde2mb.largePage.get (Ept.newSplitPtr os a) = 0 := by
  simp (disch := decide) only [Ept.newSplitPtr, BitField.get_set_of_disjoint, BitField.get_zero]

theorem newSplitPtr_access (os : Os) (a : Pvoid) :
    Epde.readAccess.get (Ept.newSplitPtr os a) = 1 ∧
      Epde.writeAccess.get (Ept.newSplitPtr os a) = 1 ∧
      Epde.executeAccess.get (Ept.newSplitPtr os a) = 1 := by
  refine ⟨?_, ?_, ?_⟩ <;>
    simp (disch := decide) only [Ept.newSplitPtr, BitField.get_set_of_disjoint,
      BitField.get_set_self] <;> decide

/-- The page number of an aligned address fits an entry and leads back to the address. -/
theorem div_pageSize {p : Word} (hlt : p.toNat < 2 ^ 48) (haligned : p.toNat % 4096 = 0) :
    (p / pageSize).toNat < 2 ^ 36 ∧ p / pageSize * pageSize = p := by
  have hdiv : (p / pageSize).toNat = p.toNat / 4096 := by
    rw [BitVec.toNat_udiv]
    rfl
  refine ⟨by omega, BitVec.eq_of_toNat_eq ?_⟩
  rw [BitVec.toNat_mul, hdiv, show pageSize.toNat = 4096 from rfl]
  omega

/-- The pointer to a pool table leads back to the table. -/
theorem tableAddress_newSplitPtr {os : Os} {a : Pvoid}
    (h : os.grants .split2mbPagingTo4kbPage a = true) :
    tableAddress os (Ept.newSplitPtr os a) = a := by
  obtain ⟨hfits, hback⟩ := div_pageSize (os.physical_lt a)
    (os.physical_aligned a (os.grants_aligned a h))
  have hpfn : Epde.pageFrameNumber.get (Ept.newSplitPtr os a) =
      os.mmGetPhysicalAddress a / pageSize := by
    rw [Ept.newSplitPtr]
    exact BitField.get_set_of_lt _ _ _ hfits
  rw [tableAddress, hpfn, hback, os.virtual_physical a h]

/-- A split entry gives every 4KB page the rights RWX and its own frame. -/
theorem splitPml1Entry_access (ept : Ept) (pml2 : Word) (i : Fin 512) :
    Epte.readAccess.get (ept.splitPml1Entry pml2 i) = 1 ∧
      Epte.writeAccess.get (ept.splitPml1Entry pml2 i) = 1 ∧
      Epte.executeAccess.get (ept.splitPml1Entry pml2 i) = 1 := by
  refine ⟨?_, ?_, ?_⟩ <;>
    simp (disch := decide) only [Ept.splitPml1Entry, BitField.get_set_of_disjoint,
      BitField.get_set_self] <;> decide

theorem splitPml1Entry_frame (ept : Ept) (pml2 : Word) (i : Fin 512) :
    (Epte.pageFrameNumber.get (ept.splitPml1Entry pml2 i)).toNat =
      (Epde2mb.pageFrameNumber.get pml2).toNat * 512 + i := by
  have hlt := Epde2mb.pageFrameNumber.toNat_get_lt pml2
  simp only [show Epde2mb.pageFrameNumber.width = 27 from rfl] at hlt
  have hi := i.isLt
  simp (disch := decide) only [Ept.splitPml1Entry, BitField.get_set_of_disjoint,
    BitField.toNat_get_set_self]
  rw [BitVec.toNat_add, BitVec.toNat_udiv, BitVec.toNat_mul, BitVec.toNat_ofNat,
    show size2mb.toNat = 2097152 from rfl, show pageSize.toNat = 4096 from rfl,
    show Epte.pageFrameNumber.width = 36 from rfl]
  omega

/-- Only a stored read permission survives in its one-bit field. -/
theorem changeAccess_access (flags : Word) (permissions : BitVec 8) :
    Epte.readAccess.get (changeAccess flags permissions) =
        (permissions &&& eptPageRead).setWidth 64 ∧
      Epte.writeAccess.get (changeAccess flags permissions) = 0 ∧
      Epte.executeAccess.get (changeAccess flags permissions) = 0 := by
  refine ⟨?_, ?_, ?_⟩ <;>
    simp (disch := decide) only [changeAccess, BitField.get_set_of_disjoint,
      BitField.get_set_self] <;>
    revert permissions <;> decide +kernel

theorem changeAccess_other (flags : Word) (permissions : BitVec 8) {i : ℕ} (hi : 3 ≤ i) :
    (changeAccess flags permissions).getLsbD i = flags.getLsbD i := by
  simp only [changeAccess, BitField.getLsbD_set, Epte.readAccess, Epte.writeAccess,
    Epte.executeAccess]
  rw [if_neg (by omega), if_neg (by omega), if_neg (by omega)]

theorem changeAccess_frame (flags : Word) (permissions : BitVec 8) :
    Epte.pageFrameNumber.get (changeAccess flags permissions) = Epte.pageFrameNumber.get flags := by
  simp (disch := decide) only [changeAccess, BitField.get_set_of_disjoint]

def IsSplit (pageTable : VmmEptPageTable) (e : PeptPml2Entry) : Prop :=
  Epde2mb.largePage.get (pageTable.pml2 e) = 0

instance (pageTable : VmmEptPageTable) (e : PeptPml2Entry) : Decidable (IsSplit pageTable e) :=
  inferInstanceAs (Decidable (_ = _))

def tableOf (os : Os) (pageTable : VmmEptPageTable) (e : PeptPml2Entry) : Pvoid :=
  tableAddress os (pageTable.pml2 e)

/-- The rights of a large entry. -/
structure LargeAccess (pml2 : Word) : Prop where
  read : Epde2mb.readAccess.get pml2 = 1
  write : Epde2mb.writeAccess.get pml2 = 1
  execute : Epde2mb.executeAccess.get pml2 = 1

@[simp] theorem setPml2_self (pageTable : VmmEptPageTable) (e : PeptPml2Entry) (value : Word) :
    (pageTable.setPml2 e value).pml2 e = value := Function.update_self _ _ _

theorem setPml2_of_ne (pageTable : VmmEptPageTable) {e f : PeptPml2Entry} (h : f ≠ e)
    (value : Word) : (pageTable.setPml2 e value).pml2 f = pageTable.pml2 f :=
  Function.update_of_ne h _ _

theorem isSplit_setPml2_newSplitPtr (os : Os) (a : Pvoid) (pageTable : VmmEptPageTable)
    (e f : PeptPml2Entry) :
    IsSplit (pageTable.setPml2 e (Ept.newSplitPtr os a)) f ↔ f = e ∨ IsSplit pageTable f := by
  by_cases hf : f = e
  · subst hf
    simp [IsSplit, newSplitPtr_largePage]
  · simp [IsSplit, setPml2_of_ne pageTable hf, hf]

/-- The entry that a table is wired into is split, and leads to the table. -/
theorem isSplit_wired (os : Os) (a : Pvoid) (pageTable : VmmEptPageTable) (e : PeptPml2Entry) :
    IsSplit (pageTable.setPml2 e (Ept.newSplitPtr os a)) e :=
  (isSplit_setPml2_newSplitPtr os a pageTable e e).mpr (Or.inl rfl)

theorem tableOf_wired {os : Os} {a : Pvoid} (h : os.grants .split2mbPagingTo4kbPage a = true)
    (pageTable : VmmEptPageTable) (e : PeptPml2Entry) :
    tableOf os (pageTable.setPml2 e (Ept.newSplitPtr os a)) e = a := by
  rw [tableOf, setPml2_self, tableAddress_newSplitPtr h]

theorem tableOf_setPml2_of_ne (os : Os) (pageTable : VmmEptPageTable) {e f : PeptPml2Entry}
    (h : f ≠ e) (value : Word) :
    tableOf os (pageTable.setPml2 e value) f = tableOf os pageTable f := by
  rw [tableOf, setPml2_of_ne pageTable h, tableOf]

/-- A split entry is the one that was wired, or it was split before and keeps its table. -/
theorem isSplit_wired_cases {os : Os} {a : Pvoid} {pageTable : VmmEptPageTable}
    {e f : PeptPml2Entry} (h : os.grants .split2mbPagingTo4kbPage a = true)
    (hf : IsSplit (pageTable.setPml2 e (Ept.newSplitPtr os a)) f) :
    (f = e ∧ tableOf os (pageTable.setPml2 e (Ept.newSplitPtr os a)) f = a) ∨
      (f ≠ e ∧ IsSplit pageTable f ∧
        tableOf os (pageTable.setPml2 e (Ept.newSplitPtr os a)) f = tableOf os pageTable f) := by
  by_cases hfe : f = e
  · subst hfe
    exact Or.inl ⟨rfl, tableOf_wired h pageTable f⟩
  · rcases (isSplit_setPml2_newSplitPtr os a pageTable e f).mp hf with heq | hold
    · exact absurd heq hfe
    · exact Or.inr ⟨hfe, hold, tableOf_setPml2_of_ne os pageTable hfe _⟩

theorem walk_of_split {os : Os} {pageTable : VmmEptPageTable} {memory : Pvoid → PoolBuffer}
    {x : Word} (h : IsSplit pageTable (pml2Key x)) :
    walk os pageTable memory x =
      let pml2 := pageTable.pml2 (pml2Key x)
      let leaf := (memory (tableOf os pageTable (pml2Key x))).split.pml1 (pml1Index x)
      { frame := (Epte.pageFrameNumber.get leaf).toNat
        read := Epde.readAccess.get pml2 &&& Epte.readAccess.get leaf
        write := Epde.writeAccess.get pml2 &&& Epte.writeAccess.get leaf
        execute := Epde.executeAccess.get pml2 &&& Epte.executeAccess.get leaf
        memoryType := Epte.memoryType.get leaf } := by
  have hzero : ¬ Epde2mb.largePage.get (pageTable.pml2 (pml2Key x)) ≠ 0 := not_not_intro h
  simp only [walk]
  rw [if_neg hzero]
  rfl

theorem walk_of_large {os : Os} {pageTable : VmmEptPageTable} {memory : Pvoid → PoolBuffer}
    {x : Word} (h : ¬ IsSplit pageTable (pml2Key x)) :
    walk os pageTable memory x =
      let pml2 := pageTable.pml2 (pml2Key x)
      { frame := (Epde2mb.pageFrameNumber.get pml2).toNat * 512 + pml1Index x
        read := Epde2mb.readAccess.get pml2
        write := Epde2mb.writeAccess.get pml2
        execute := Epde2mb.executeAccess.get pml2
        memoryType := Epde2mb.memoryType.get pml2 } := by
  have hone : Epde2mb.largePage.get (pageTable.pml2 (pml2Key x)) ≠ 0 := h
  simp only [walk]
  rw [if_pos hone]

/-- The walk reads the entry of the address and, if it is split, one leaf. -/
theorem walk_congr {os : Os} {pageTable pageTable' : VmmEptPageTable}
    {memory memory' : Pvoid → PoolBuffer} {x : Word}
    (hentry : pageTable'.pml2 (pml2Key x) = pageTable.pml2 (pml2Key x))
    (hleaf : IsSplit pageTable (pml2Key x) →
      (memory' (tableOf os pageTable (pml2Key x))).split.pml1 (pml1Index x) =
        (memory (tableOf os pageTable (pml2Key x))).split.pml1 (pml1Index x)) :
    walk os pageTable' memory' x = walk os pageTable memory x := by
  have hsplit : IsSplit pageTable' (pml2Key x) ↔ IsSplit pageTable (pml2Key x) := by
    rw [IsSplit, IsSplit, hentry]
  by_cases h : IsSplit pageTable (pml2Key x)
  · have hleaf' := hleaf h
    rw [walk_of_split h, walk_of_split (hsplit.mpr h)]
    simp only [tableOf, hentry] at hleaf' ⊢
    rw [hleaf']
  · rw [walk_of_large h, walk_of_large fun h' => h (hsplit.mp h')]
    simp only [hentry]

/-- The 512 leaves of a split entry translate as the large page did, and a table that
no entry pointed to disturbs no other page. -/
theorem walk_split {os : Os} {pageTable : VmmEptPageTable} {memory memory' : Pvoid → PoolBuffer}
    (ept : Ept) {a : Pvoid} {e : PeptPml2Entry}
    (ha : os.grants .split2mbPagingTo4kbPage a = true)
    (hfresh : ∀ f, IsSplit pageTable f → tableOf os pageTable f ≠ a)
    (hlarge : ¬ IsSplit pageTable e) (haccess : LargeAccess (pageTable.pml2 e))
    (htable : (memory' a).split.pml1 = ept.splitPml1Entry (pageTable.pml2 e))
    (hmemory : ∀ b, b ≠ a → memory' b = memory b) (x : Word) :
    (walk os (pageTable.setPml2 e (Ept.newSplitPtr os a)) memory' x).SameAccess
      (walk os pageTable memory x) := by
  by_cases hkey : pml2Key x = e
  · subst hkey
    have hsplit := isSplit_wired os a pageTable (pml2Key x)
    obtain ⟨hread, hwrite, hexecute⟩ := newSplitPtr_access os a
    obtain ⟨hread', hwrite', hexecute'⟩ :=
      splitPml1Entry_access ept (pageTable.pml2 (pml2Key x)) (pml1Index x)
    rw [walk_of_split hsplit, walk_of_large hlarge]
    simp only [tableOf_wired ha, setPml2_self, htable, Translation.SameAccess,
      splitPml1Entry_frame, hread, hwrite, hexecute, hread', hwrite', hexecute', haccess.read,
      haccess.write, haccess.execute]
    decide
  · rw [walk_congr (setPml2_of_ne pageTable hkey _) fun hsplit => by
      rw [hmemory _ (hfresh _ hsplit)]]
    exact Translation.SameAccess.refl _

end NovaHypervisor

import NovaHypervisor.HookRuns
import NovaHypervisor.PoolSupply
import Mathlib.Data.List.ProdSigma

/-!
The construction of one processor's table. The constructor reads the memory type
ranges and then builds the table, and until it is complete the processor has none:
a large page that must be split on the way is looked up through a null table. So
the construction succeeds exactly when no page but the first must be split, and
then each page has its own frame, all rights and the type of its own address.
-/
namespace NovaHypervisor

open General

/-- A block of physically contiguous memory, which starts at a page. -/
structure ContiguousMemory where
  address : Pvoid
  aligned : address.toNat % 4096 = 0

namespace ContiguousMemory

/-- The addresses of the arrays of a table in the block. -/
def pml3 (pageTable : ContiguousMemory) : Pvoid := pageTable.address + 0x1000#64

def pml2 (pageTable : ContiguousMemory) (entryIndex : Fin 512) : Pvoid :=
  pageTable.address + 0x2000#64 + BitVec.ofNat 64 entryIndex * 0x1000#64

end ContiguousMemory

def pml4Index (address : Word) : Fin 512 :=
  ⟨(addrmaskEptPml4Index address).toNat, by rw [toNat_pml4Index]; omega⟩

/-- The state in which the constructor starts to build the table. -/
def Ept.withMtrrMap (readmsr : BitVec 32 → Word) : Ept where
  memoryRanges := (buildMtrrMap readmsr).1
  defaultMemoryType := (buildMtrrMap readmsr).2
  eptPageTable := none
  hookedPages := []

/-- The table before its PML2 entries are set up. -/
def VmmEptPageTable.template (os : Os) (pageTable : ContiguousMemory) : VmmEptPageTable where
  pml4 entryIndex :=
    let entry := EptPml4.pageFrameNumber.set 0
      (os.mmGetPhysicalAddress pageTable.pml3 / pageSize)
    let entry := EptPml4.readAccess.set entry 1
    let entry := EptPml4.writeAccess.set entry 1
    let entry := EptPml4.executeAccess.set entry 1
    if entryIndex.val = 0 then entry else 0
  pml3 entryIndex :=
    let pml3Template := Epdpte.readAccess.set 0 1
    let pml3Template := Epdpte.writeAccess.set pml3Template 1
    let pml3Template := Epdpte.executeAccess.set pml3Template 1
    Epdpte.pageFrameNumber.set pml3Template
      (os.mmGetPhysicalAddress (pageTable.pml2 entryIndex) / pageSize)
  pml2 _ :=
    let pml2Template := Epde2mb.writeAccess.set 0 1
    let pml2Template := Epde2mb.readAccess.set pml2Template 1
    let pml2Template := Epde2mb.executeAccess.set pml2Template 1
    Epde2mb.largePage.set pml2Template 1

namespace Machine

variable {Caller : Type*} [DecidableEq Caller]

/-- Set up one entry of the table that is being built. -/
def setupPml2Entry (os : Os) (newEntry : PeptPml2Entry) (pageFrameNumber : Word)
    (pageTable : VmmEptPageTable) (m : Machine Caller) :
    Option (Bool × VmmEptPageTable × Machine Caller) :=
  let entry := Epde2mb.pageFrameNumber.set (pageTable.pml2 newEntry) pageFrameNumber
  if isValidForLargePage m.ept.memoryRanges pageFrameNumber then
    some (true, pageTable.setPml2 newEntry (Epde2mb.memoryType.set entry
      ((getMemoryType m.ept.memoryRanges m.ept.defaultMemoryType pageFrameNumber
        true).setWidth 64)), m)
  else if pageFrameNumber = 0 then
    some (true, pageTable.setPml2 newEntry
      (Epde2mb.memoryType.set entry (memoryTypeUncacheable.setWidth 64)), m)
  else
    match m.allocate os .split2mbPagingTo4kbPage with
    | (none, m) => some (false, pageTable.setPml2 newEntry entry, m)
    | (some buffer, m) =>
      -- the split goes through the processor's own table, not the one being built
      (m.splitLargePage os buffer (pageFrameNumber * size2mb)).map fun (status, m) =>
        (status, pageTable.setPml2 newEntry entry, m)

/-- The two nested loops over the entries. -/
def setupPml2Entries (os : Os) : List PeptPml2Entry → VmmEptPageTable → Machine Caller →
    Option (Bool × VmmEptPageTable × Machine Caller)
  | [], pageTable, m => some (true, pageTable, m)
  | entry :: entries, pageTable, m =>
    (m.setupPml2Entry os entry (BitVec.ofNat 64 (pml2Number entry)) pageTable).bind
      fun (status, pageTable, m) =>
        if status then setupPml2Entries os entries pageTable m else some (false, pageTable, m)

def pml2Entries : List PeptPml2Entry := List.finRange 512 ×ˢ List.finRange 512

/-- `pageTable` is the kernel's answer to the request for the table's memory. -/
def allocateAndCreateIdentityPageTable (os : Os) (pageTable : Option ContiguousMemory)
    (m : Machine Caller) : Option (Option VmmEptPageTable × Machine Caller) :=
  match pageTable with
  | none => some (none, m)
  | some pageTable =>
    (setupPml2Entries os pml2Entries (.template os pageTable) m).map fun (status, pageTable, m) =>
      (if status then some pageTable else none, m)

def logicalProcessorInitialize (os : Os) (pageTable : Option ContiguousMemory)
    (m : Machine Caller) : Option (Bool × Machine Caller) :=
  (m.allocateAndCreateIdentityPageTable os pageTable).map fun
    | (none, m) => (false, m)
    | (some pageTable, m) => (true, { m with ept := { m.ept with eptPageTable := some pageTable } })

end Machine

/-- The walk of all four levels. It leaves the table where an upper entry does not
point to the array below it. -/
def walkTable (os : Os) (memory : ContiguousMemory) (pageTable : VmmEptPageTable)
    (buffers : Pvoid → PoolBuffer) (address : Word) : Option Translation :=
  let pml4 := pageTable.pml4 (pml4Index address)
  let pml3 := pageTable.pml3 (pml3Index address)
  if EptPml4.pageFrameNumber.get pml4 * pageSize ≠ os.mmGetPhysicalAddress memory.pml3 then none
  else if Epdpte.pageFrameNumber.get pml3 * pageSize ≠
      os.mmGetPhysicalAddress (memory.pml2 (pml3Index address)) then none
  else
    let leaf := walk os pageTable buffers address
    some { leaf with
      read := EptPml4.readAccess.get pml4 &&& Epdpte.readAccess.get pml3 &&& leaf.read
      write := EptPml4.writeAccess.get pml4 &&& Epdpte.writeAccess.get pml3 &&& leaf.write
      execute :=
        EptPml4.executeAccess.get pml4 &&& Epdpte.executeAccess.get pml3 &&& leaf.execute }

/-- What the table should translate an address to. -/
def identityTranslation (ept : Ept) (address : Word) : Translation where
  frame := address.toNat / 4096
  read := 1
  write := 1
  execute := 1
  memoryType :=
    if address.toNat < 2097152 ∧ ¬ isValidForLargePage ept.memoryRanges 0 then
      memoryTypeUncacheable.setWidth 64
    else
      (getMemoryType ept.memoryRanges ept.defaultMemoryType (address >>> 12) false).setWidth 64

theorem toNat_pml2Number (e : PeptPml2Entry) :
    (BitVec.ofNat 64 (pml2Number e)).toNat = pml2Number e := by
  have hlt := pml2Number_lt e
  rw [BitVec.toNat_ofNat]
  omega

/-- The page of an entry need not be split. -/
def Ept.Whole (ept : Ept) (pageFrameNumber : Word) : Prop :=
  isValidForLargePage ept.memoryRanges pageFrameNumber = true ∨ pageFrameNumber = 0

/-- The entry of such a page. -/
def Ept.wholeEntry (ept : Ept) (entry pageFrameNumber : Word) : Word :=
  Epde2mb.memoryType.set (Epde2mb.pageFrameNumber.set entry pageFrameNumber)
    (if isValidForLargePage ept.memoryRanges pageFrameNumber then
      (getMemoryType ept.memoryRanges ept.defaultMemoryType pageFrameNumber true).setWidth 64
    else memoryTypeUncacheable.setWidth 64)

namespace Machine

variable {Caller : Type*} [DecidableEq Caller]

theorem setupPml2Entry_of_whole (os : Os) (e : PeptPml2Entry) {pageFrameNumber : Word}
    (pageTable : VmmEptPageTable) {m : Machine Caller} (h : m.ept.Whole pageFrameNumber) :
    m.setupPml2Entry os e pageFrameNumber pageTable =
      some (true,
        pageTable.setPml2 e (m.ept.wholeEntry (pageTable.pml2 e) pageFrameNumber), m) := by
  by_cases hvalid : isValidForLargePage m.ept.memoryRanges pageFrameNumber = true
  · simp only [setupPml2Entry, Ept.wholeEntry, hvalid, if_true]
  · have hzero := h.resolve_left hvalid
    simp only [setupPml2Entry, Ept.wholeEntry, hvalid, if_pos hzero, Bool.false_eq_true, if_false]

/-- Without a table no page is split: the lookup faults. -/
theorem splitLargePage_of_none (os : Os) {m : Machine Caller} (h : m.ept.eptPageTable = none)
    (buffer : Pvoid) (physicalAddress : Word) (m' : Machine Caller) :
    m.splitLargePage os buffer physicalAddress ≠ some (true, m') := by
  intro hsplit
  rcases splitLargePage_ends hsplit with ⟨hfalse, _⟩ | ⟨_, pageTable, _, htable, _⟩
  · simp at hfalse
  · exact absurd (h.symm.trans htable) (by simp)

/-- An entry whose page must be split is not set up, whatever the pool supplies. -/
theorem setupPml2Entry_whole {os : Os} {e : PeptPml2Entry} {pageFrameNumber : Word}
    {pageTable pageTable' : VmmEptPageTable} {m m' : Machine Caller}
    (hnone : m.ept.eptPageTable = none)
    (h : m.setupPml2Entry os e pageFrameNumber pageTable = some (true, pageTable', m')) :
    m.ept.Whole pageFrameNumber := by
  unfold setupPml2Entry at h
  simp only at h
  split at h
  · rename_i hvalid
    exact Or.inl hvalid
  split at h
  · rename_i hzero
    exact Or.inr hzero
  split at h
  · simp at h
  · rename_i buffer m1 halloc
    obtain ⟨⟨status, m2⟩, hsplit, heq⟩ := Option.map_eq_some_iff.mp h
    have hept : m1.ept = m.ept := (congrArg (fun p => p.2.ept) halloc).symm
    obtain ⟨rfl, _⟩ := Prod.mk.inj heq
    exact absurd hsplit (splitLargePage_of_none os (hept ▸ hnone) _ _ _)

theorem setupPml2Entries_of_whole (os : Os) {entries : List PeptPml2Entry}
    (hnd : entries.Nodup) (pageTable : VmmEptPageTable) {m : Machine Caller}
    (h : ∀ e ∈ entries, m.ept.Whole (BitVec.ofNat 64 (pml2Number e))) :
    ∃ pageTable', setupPml2Entries os entries pageTable m = some (true, pageTable', m) ∧
      pageTable'.pml4 = pageTable.pml4 ∧ pageTable'.pml3 = pageTable.pml3 ∧
      (∀ e ∈ entries, pageTable'.pml2 e =
        m.ept.wholeEntry (pageTable.pml2 e) (BitVec.ofNat 64 (pml2Number e))) ∧
      ∀ e, e ∉ entries → pageTable'.pml2 e = pageTable.pml2 e := by
  induction entries generalizing pageTable with
  | nil => exact ⟨pageTable, rfl, rfl, rfl, by simp, fun _ _ => rfl⟩
  | cons e entries ih =>
    obtain ⟨he, hnd⟩ := List.nodup_cons.mp hnd
    have hentry := setupPml2Entry_of_whole os e pageTable (h e List.mem_cons_self)
    obtain ⟨pageTable', hrest, hpml4, hpml3, hset, hkept⟩ := ih hnd (pageTable.setPml2 e
      (m.ept.wholeEntry (pageTable.pml2 e) (BitVec.ofNat 64 (pml2Number e))))
      fun f hf => h f (List.mem_cons_of_mem e hf)
    refine ⟨pageTable', ?_, hpml4, hpml3, ?_, ?_⟩
    · simp only [setupPml2Entries, hentry, Option.bind_some, if_true, hrest]
    · intro f hf
      rcases List.mem_cons.mp hf with rfl | hf
      · rw [hkept f he, setPml2_self]
      · have hfe : f ≠ e := ne_of_mem_of_not_mem hf he
        rw [hset f hf, setPml2_of_ne pageTable hfe]
    · intro f hf
      rw [List.mem_cons, not_or] at hf
      rw [hkept f hf.2, setPml2_of_ne pageTable hf.1]

theorem setupPml2Entries_whole {os : Os} {entries : List PeptPml2Entry}
    {pageTable pageTable' : VmmEptPageTable} {m m' : Machine Caller}
    (hnone : m.ept.eptPageTable = none)
    (h : setupPml2Entries os entries pageTable m = some (true, pageTable', m')) :
    ∀ e ∈ entries, m.ept.Whole (BitVec.ofNat 64 (pml2Number e)) := by
  induction entries generalizing pageTable with
  | nil => simp
  | cons e entries ih =>
    simp only [setupPml2Entries] at h
    obtain ⟨⟨status, pageTable1, m1⟩, hentry, hrest⟩ := Option.bind_eq_some_iff.mp h
    cases status with
    | false => simp at hrest
    | true =>
      have hwhole := setupPml2Entry_whole hnone hentry
      rw [setupPml2Entry_of_whole os e pageTable hwhole] at hentry
      obtain ⟨_, hsame⟩ := Prod.mk.inj (Option.some.inj hentry)
      obtain ⟨rfl, rfl⟩ := Prod.mk.inj hsame
      simp only [if_true] at hrest
      intro f hf
      rcases List.mem_cons.mp hf with rfl | hf
      · exact hwhole
      · exact ih hrest f hf

theorem nodup_pml2Entries : pml2Entries.Nodup :=
  (List.nodup_finRange 512).product (List.nodup_finRange 512)

theorem mem_pml2Entries (e : PeptPml2Entry) : e ∈ pml2Entries :=
  List.mem_product.mpr ⟨List.mem_finRange e.1, List.mem_finRange e.2⟩

end Machine

/-- The two upper levels lead to the arrays of the block, with all rights. -/
theorem template_upper (os : Os) (block : ContiguousMemory) {x : Word} (hx : x.toNat < 2 ^ 39) :
    let pml4 := (VmmEptPageTable.template os block).pml4 (pml4Index x)
    let pml3 := (VmmEptPageTable.template os block).pml3 (pml3Index x)
    (EptPml4.pageFrameNumber.get pml4 * pageSize = os.mmGetPhysicalAddress block.pml3 ∧
      EptPml4.readAccess.get pml4 = 1 ∧ EptPml4.writeAccess.get pml4 = 1 ∧
      EptPml4.executeAccess.get pml4 = 1) ∧
    Epdpte.pageFrameNumber.get pml3 * pageSize =
        os.mmGetPhysicalAddress (block.pml2 (pml3Index x)) ∧
      Epdpte.readAccess.get pml3 = 1 ∧ Epdpte.writeAccess.get pml3 = 1 ∧
      Epdpte.executeAccess.get pml3 = 1 := by
  have hindex : (pml4Index x).val = 0 := by
    change (addrmaskEptPml4Index x).toNat = 0
    rw [toNat_pml4Index]
    omega
  have haligned := block.aligned
  obtain ⟨hfits4, hback4⟩ := div_pageSize (os.physical_lt block.pml3)
    (os.physical_aligned block.pml3 (by
      rw [ContiguousMemory.pml3, BitVec.toNat_add, show (0x1000#64).toNat = 4096 from rfl]
      omega))
  obtain ⟨hfits3, hback3⟩ := div_pageSize (os.physical_lt (block.pml2 (pml3Index x)))
    (os.physical_aligned (block.pml2 (pml3Index x)) (by
      rw [ContiguousMemory.pml2, BitVec.toNat_add, BitVec.toNat_add, BitVec.toNat_mul,
        show (0x1000#64).toNat = 4096 from rfl, show (0x2000#64).toNat = 8192 from rfl]
      omega))
  simp only [VmmEptPageTable.template, hindex, if_true]
  refine ⟨⟨?_, ?_, ?_, ?_⟩, ?_, ?_, ?_, ?_⟩
  · simp (disch := decide) only [BitField.get_set_of_disjoint]
    rw [BitField.get_set_of_lt _ _ _ hfits4, hback4]
  · simp (disch := decide) only [BitField.get_set_of_disjoint, BitField.get_set_self]
    decide
  · simp (disch := decide) only [BitField.get_set_of_disjoint, BitField.get_set_self]
    decide
  · rw [BitField.get_set_self]
    decide
  · rw [BitField.get_set_of_lt _ _ _ hfits3, hback3]
  · simp (disch := decide) only [BitField.get_set_of_disjoint, BitField.get_set_self]
    decide
  · simp (disch := decide) only [BitField.get_set_of_disjoint, BitField.get_set_self]
    decide
  · simp (disch := decide) only [BitField.get_set_of_disjoint, BitField.get_set_self]
    decide

/-- A finished entry is large, has all rights and leads to its own page. -/
theorem wholeEntry_template (os : Os) (block : ContiguousMemory) (ept : Ept) (e : PeptPml2Entry) :
    let entry := ept.wholeEntry ((VmmEptPageTable.template os block).pml2 e)
      (BitVec.ofNat 64 (pml2Number e))
    Epde2mb.largePage.get entry = 1 ∧ LargeAccess entry ∧
      (Epde2mb.pageFrameNumber.get entry).toNat = pml2Number e := by
  have hlt := pml2Number_lt e
  refine ⟨?_, ⟨?_, ?_, ?_⟩, ?_⟩
  · simp (disch := decide) only [Ept.wholeEntry, VmmEptPageTable.template,
      BitField.get_set_of_disjoint, BitField.get_set_self]
    decide
  · simp (disch := decide) only [Ept.wholeEntry, VmmEptPageTable.template,
      BitField.get_set_of_disjoint, BitField.get_set_self]
    decide
  · simp (disch := decide) only [Ept.wholeEntry, VmmEptPageTable.template,
      BitField.get_set_of_disjoint, BitField.get_set_self]
    decide
  · simp (disch := decide) only [Ept.wholeEntry, VmmEptPageTable.template,
      BitField.get_set_of_disjoint, BitField.get_set_self]
    decide
  · simp (disch := decide) only [Ept.wholeEntry, BitField.get_set_of_disjoint]
    rw [BitField.toNat_get_set_self, toNat_pml2Number]
    simp only [Epde2mb.pageFrameNumber]
    omega

/-- The type of a finished entry is the type of each of its 4KB pages, or the first page
is uncacheable. -/
theorem wholeEntry_memoryType {ept : Ept} (htypes : ∀ r ∈ ept.memoryRanges, r.memoryType.toNat < 8)
    (hdefault : ept.defaultMemoryType.toNat < 8) {x : Word} (hx : x.toNat < 2 ^ 39)
    (hwhole : ept.Whole (BitVec.ofNat 64 (pml2Number (pml2Key x)))) (entry : Word) :
    Epde2mb.memoryType.get
        (ept.wholeEntry entry (BitVec.ofNat 64 (pml2Number (pml2Key x)))) =
      (identityTranslation ept x).memoryType := by
  have hnumber := toNat_pml2Number (pml2Key x)
  have hframe := frame_eq hx
  have hindex := (pml1Index x).isLt
  have hshift : (x >>> 12).toNat = x.toNat / 4096 := by
    rw [BitVec.toNat_ushiftRight, Nat.shiftRight_eq_div_pow]
  have hfield : ∀ type : MemoryType, type.toNat < 8 → ∀ old : Word,
      Epde2mb.memoryType.get (Epde2mb.memoryType.set old (type.setWidth 64)) =
        type.setWidth 64 := by
    intro type htype old
    apply BitField.get_set_of_lt
    rw [BitVec.toNat_setWidth]
    simp only [Epde2mb.memoryType]
    omega
  unfold Ept.wholeEntry identityTranslation
  simp only
  by_cases hvalid :
      isValidForLargePage ept.memoryRanges (BitVec.ofNat 64 (pml2Number (pml2Key x))) = true
  · have hnot : ¬ (x.toNat < 2097152 ∧ ¬ isValidForLargePage ept.memoryRanges 0 = true) := by
      intro hfirst
      obtain ⟨hlow, hinvalid⟩ := hfirst
      have hzero : pml2Number (pml2Key x) = 0 := by omega
      rw [hzero] at hvalid
      exact hinvalid hvalid
    have hlarge : (BitVec.ofNat 64 (pml2Number (pml2Key x))).toNat < 2 ^ 18 := by
      rw [hnumber]
      exact pml2Number_lt _
    rw [if_pos hvalid, if_neg hnot,
      getMemoryType_of_isValid hlarge hvalid (by rw [hshift, hnumber]; omega)]
    exact hfield _ (getMemoryType_lt htypes hdefault _ _) _
  · have hzero := hwhole.resolve_left hvalid
    have hlow : x.toNat < 2097152 ∧ ¬ isValidForLargePage ept.memoryRanges 0 = true := by
      refine ⟨?_, hzero ▸ hvalid⟩
      rw [hzero] at hnumber
      have : pml2Number (pml2Key x) = 0 := hnumber.symm
      omega
    rw [if_neg hvalid, if_pos hlow]
    exact hfield _ (by decide) _

namespace Machine

variable {Caller : Type*} [DecidableEq Caller]

/-- The construction succeeds, and the table translates every page below 512GB as it should. -/
def Constructs (os : Os) (block : ContiguousMemory) (m : Machine Caller) : Prop :=
  ∃ pageTable m', m.logicalProcessorInitialize os (some block) = some (true, m') ∧
    m'.ept.eptPageTable = some pageTable ∧ ∀ x : Word, x.toNat < 2 ^ 39 →
      walkTable os block pageTable m'.pool.state.memory x = some (identityTranslation m.ept x)

theorem constructs_of_whole (os : Os) (block : ContiguousMemory) {m : Machine Caller}
    (htypes : ∀ r ∈ m.ept.memoryRanges, r.memoryType.toNat < 8)
    (hdefault : m.ept.defaultMemoryType.toNat < 8)
    (hwhole : ∀ e, m.ept.Whole (BitVec.ofNat 64 (pml2Number e))) : m.Constructs os block := by
  obtain ⟨pageTable, hsetup, hpml4, hpml3, hpml2, _⟩ := setupPml2Entries_of_whole os
    nodup_pml2Entries (.template os block) fun e _ => hwhole e
  refine ⟨pageTable, { m with ept := { m.ept with eptPageTable := some pageTable } }, ?_, rfl, ?_⟩
  · simp only [logicalProcessorInitialize, allocateAndCreateIdentityPageTable, hsetup,
      Option.map_some, if_true]
  intro x hx
  obtain ⟨⟨hnext4, hread4, hwrite4, hexecute4⟩, hnext3, hread3, hwrite3, hexecute3⟩ :=
    template_upper os block hx
  obtain ⟨hlarge, haccess, hnumber⟩ := wholeEntry_template os block m.ept (pml2Key x)
  have hentry := hpml2 (pml2Key x) (mem_pml2Entries _)
  have htype := wholeEntry_memoryType htypes hdefault hx (hwhole (pml2Key x))
    ((VmmEptPageTable.template os block).pml2 (pml2Key x))
  rw [← hentry] at hlarge haccess hnumber htype
  have hsplit : ¬ IsSplit pageTable (pml2Key x) := by
    rw [IsSplit, hlarge]
    decide
  rw [← hpml4] at hnext4 hread4 hwrite4 hexecute4
  rw [← hpml3] at hnext3 hread3 hwrite3 hexecute3
  rw [walkTable, if_neg (not_not_intro hnext4), if_neg (not_not_intro hnext3),
    walk_of_large hsplit]
  simp only [hread4, hwrite4, hexecute4, hread3, hwrite3, hexecute3, haccess.read, haccess.write,
    haccess.execute, htype, hnumber, frame_eq hx, identityTranslation]
  rfl

theorem Constructs.whole {os : Os} {block : ContiguousMemory} {m : Machine Caller}
    (h : m.Constructs os block) (hnone : m.ept.eptPageTable = none) (e : PeptPml2Entry) :
    m.ept.Whole (BitVec.ofNat 64 (pml2Number e)) := by
  obtain ⟨_, m', hcall, _, _⟩ := h
  simp only [logicalProcessorInitialize, allocateAndCreateIdentityPageTable, Option.map_map,
    Option.map_eq_some_iff] at hcall
  obtain ⟨⟨status, pageTable', m2⟩, hsetup, heq⟩ := hcall
  cases status with
  | false => simp at heq
  | true => exact setupPml2Entries_whole hnone hsetup e (mem_pml2Entries e)

/-- With the map that the constructor has built, and whatever pool, the construction
succeeds exactly when every large page but the first is one that need not be split. -/
theorem constructs_iff (os : Os) (msrs : MtrrMsrs) (block : ContiguousMemory)
    (pool : SharedPool Caller PoolBuffer) (guest : VmState) (history : List PoolEvent) :
    (⟨pool, .withMtrrMap msrs.readmsr, guest, history⟩ : Machine Caller).Constructs os block ↔
      ∀ pageFrameNumber : ℕ, 0 < pageFrameNumber → pageFrameNumber < 2 ^ 18 →
        isValidForLargePage (buildMtrrMap msrs.readmsr).1
          (BitVec.ofNat 64 pageFrameNumber) = true := by
  obtain ⟨htypes, hdefault⟩ := msrs.buildMtrrMap_types
  constructor
  · intro h pageFrameNumber hpos hlt
    have hwhole := h.whole rfl
      (⟨pageFrameNumber / 512, by omega⟩, ⟨pageFrameNumber % 512, by omega⟩)
    have hnumber : pml2Number
        (⟨pageFrameNumber / 512, by omega⟩, ⟨pageFrameNumber % 512, by omega⟩) =
          pageFrameNumber := by
      simp only [pml2Number]
      omega
    rw [hnumber] at hwhole
    refine hwhole.resolve_right fun hzero => ?_
    have hvalue := congrArg BitVec.toNat hzero
    rw [BitVec.toNat_ofNat, show (0 : Word).toNat = 0 from rfl] at hvalue
    omega
  · intro h
    refine constructs_of_whole os block htypes hdefault fun e => ?_
    rcases Nat.eq_zero_or_pos (pml2Number e) with hzero | hpos
    · exact Or.inr (congrArg (BitVec.ofNat 64) hzero)
    · exact Or.inl (h _ hpos (pml2Number_lt e))

/-- How many buffers the construction asks the pool for. -/
def pagesToSplit (memoryRanges : List MtrrRangeDescriptor) : ℕ :=
  (List.range (2 ^ 18)).countP fun pageFrameNumber =>
    0 < pageFrameNumber && !isValidForLargePage memoryRanges (BitVec.ofNat 64 pageFrameNumber)

/-- One variable range: the uncacheable megabyte that starts at 3MB. -/
def uncacheableMegabyte : MtrrMsrs where
  readmsr register :=
    if register = msrIa32MtrrDefType then 0x806#64
    else if register = msrIa32MtrrCapabilities then 1#64
    else if register = msrIa32MtrrPhysbase 0 then 0x300000#64
    else if register = msrIa32MtrrPhysmask 0 then 0xFFFFFFF00800#64
    else 0#64
  fixed64k := by decide
  fixed16k := by decide
  fixed4k := by decide
  physbase := by decide +kernel

theorem buildMtrrMap_uncacheableMegabyte : (buildMtrrMap uncacheableMegabyte.readmsr).1 =
    [⟨0x300000#64, 0x3FFFFF#64, memoryTypeUncacheable, false⟩] := by
  decide +kernel

/-- Only the page from 2MB to 4MB is to be split. -/
theorem pagesToSplit_uncacheableMegabyte :
    pagesToSplit (buildMtrrMap uncacheableMegabyte.readmsr).1 ≤ 1 := by
  refine le_trans (List.countP_mono_left (q := (· == 1)) fun pageFrameNumber hmem hsplit => ?_)
    (List.nodup_iff_count_le_one.mp List.nodup_range 1)
  have hlt := List.mem_range.mp hmem
  have hnumber : (BitVec.ofNat 64 pageFrameNumber).toNat = pageFrameNumber := by
    rw [BitVec.toNat_ofNat]
    omega
  simp only [Bool.and_eq_true, decide_eq_true_eq, Bool.not_eq_true'] at hsplit
  by_contra hne
  have hvalid : isValidForLargePage (buildMtrrMap uncacheableMegabyte.readmsr).1
      (BitVec.ofNat 64 pageFrameNumber) = true := by
    rw [isValidForLargePage_iff _ (by omega), buildMtrrMap_uncacheableMegabyte, hnumber]
    intro r hr
    obtain rfl := List.mem_singleton.mp hr
    simp only [BitVec.toNat_ofNat, beq_iff_eq] at hne ⊢
    omega
  simp [hvalid] at hsplit

/-- The pool has the buffer that the split needs, but there is no table to find the entry in. -/
theorem not_constructs_of_split :
    ¬ ∀ (os : Os) (msrs : MtrrMsrs) (block : ContiguousMemory)
      (pool : SharedPool Unit PoolBuffer) (guest : VmState) (history : List PoolEvent),
      pool.upcoming = [] → pool.state.manager.WellFormed os.toAllocator →
        pagesToSplit (buildMtrrMap msrs.readmsr).1 ≤
          pool.state.manager.freeSlots .split2mbPagingTo4kbPage →
        Constructs os block ⟨pool, .withMtrrMap msrs.readmsr, guest, history⟩ := by
  intro h
  have hfree : (flatMachine 1 0).pool.state.manager.freeSlots .split2mbPagingTo4kbPage = 1 := by
    decide +kernel
  have hconstructs := h flatOs uncacheableMegabyte ⟨0x1000000#64, by decide⟩ (flatMachine 1 0).pool
    (flatMachine 1 0).guest [] rfl (PoolManager.construct_spec _ _).1
    (hfree ▸ pagesToSplit_uncacheableMegabyte)
  have hvalid := (constructs_iff ..).mp hconstructs 1 (by decide) (by decide)
  rw [buildMtrrMap_uncacheableMegabyte] at hvalid
  exact absurd hvalid (by decide)

end Machine

end NovaHypervisor

import NovaHypervisor.Definitions

/-!
The memory type ranges, as they are read from the processor's registers, and the
lookups over them. A large page that no range begins or ends in has one memory
type throughout.
-/
namespace NovaHypervisor

open General

abbrev MemoryType := BitVec 8

def memoryTypeUncacheable : MemoryType := 0
def memoryTypeWriteCombining : MemoryType := 1
def memoryTypeWriteThrough : MemoryType := 4
def memoryTypeWriteProtected : MemoryType := 5
def memoryTypeWriteBack : MemoryType := 6
def memoryTypeInvalid : MemoryType := 0xFF

structure MtrrRangeDescriptor where
  physicalBaseAddress : Word
  physicalEndAddress : Word
  memoryType : MemoryType
  fixedRange : Bool
  deriving DecidableEq

def msrIa32MtrrDefType : BitVec 32 := 0x2FF#32
def msrIa32MtrrCapabilities : BitVec 32 := 0xFE#32
def ia32MtrrFix64k00000 : BitVec 32 := 0x250#32
def ia32MtrrFix16k80000 : BitVec 32 := 0x258#32
def ia32MtrrFix4kC0000 : BitVec 32 := 0x268#32

def msrIa32MtrrPhysbase (currentRegister : ℕ) : BitVec 32 :=
  0x200#32 + BitVec.ofNat 32 (currentRegister * 2)

def msrIa32MtrrPhysmask (currentRegister : ℕ) : BitVec 32 :=
  0x201#32 + BitVec.ofNat 32 (currentRegister * 2)

/-- One of the eight types of a fixed range register. -/
def fixedRangeType (all : Word) (j : ℕ) : MemoryType := (all >>> (8 * j)).setWidth 8

def physbaseType (physbase : Word) : MemoryType := (MtrrPhysbase.type.get physbase).setWidth 8

/-- The memory types that a register can hold: writing another one faults. -/
def IsMemoryType (type : MemoryType) : Prop :=
  type = memoryTypeUncacheable ∨ type = memoryTypeWriteCombining ∨
    type = memoryTypeWriteThrough ∨ type = memoryTypeWriteProtected ∨ type = memoryTypeWriteBack

instance (type : MemoryType) : Decidable (IsMemoryType type) :=
  inferInstanceAs (Decidable (_ ∨ _))

structure MtrrMsrs where
  readmsr : BitVec 32 → Word
  fixed64k : ∀ j < 8, IsMemoryType (fixedRangeType (readmsr ia32MtrrFix64k00000) j)
  fixed16k : ∀ i < 2, ∀ j < 8,
    IsMemoryType (fixedRangeType (readmsr (ia32MtrrFix16k80000 + BitVec.ofNat 32 i)) j)
  fixed4k : ∀ i < 8, ∀ j < 8,
    IsMemoryType (fixedRangeType (readmsr (ia32MtrrFix4kC0000 + BitVec.ofNat 32 i)) j)
  physbase : ∀ i < 256, IsMemoryType (physbaseType (readmsr (msrIa32MtrrPhysbase i)))

/-- Range `j` of a fixed range register whose ranges start at `base`. -/
def fixedRange (base size all : Word) (j : ℕ) : MtrrRangeDescriptor where
  physicalBaseAddress := base + size * BitVec.ofNat 64 j
  physicalEndAddress := base + size * BitVec.ofNat 64 j + (size - 1)
  memoryType := fixedRangeType all j
  fixedRange := true

def fixedRanges (readmsr : BitVec 32 → Word) : List MtrrRangeDescriptor :=
  (List.range 8).map (fun j => fixedRange 0#64 0x10000#64 (readmsr ia32MtrrFix64k00000) j) ++
    (List.range 2).flatMap (fun i => (List.range 8).map fun j =>
      fixedRange (0x80000#64 + BitVec.ofNat 64 i * 0x4000#64 * 8#64) 0x4000#64
        (readmsr (ia32MtrrFix16k80000 + BitVec.ofNat 32 i)) j) ++
    (List.range 8).flatMap fun i => (List.range 8).map fun j =>
      fixedRange (0xC0000#64 + BitVec.ofNat 64 i * 0x1000#64 * 8#64) 0x1000#64
        (readmsr (ia32MtrrFix4kC0000 + BitVec.ofNat 32 i)) j

/-- The index of the lowest set bit. A zero mask leaves the index as it was. -/
def bitScanForward64 (index : ℕ) (mask : Word) : ℕ :=
  ((List.range 64).find? fun i => mask.getLsbD i).getD index

/-- The loop over the variable ranges. A write-back range gives its descriptor back. -/
def variableRanges (readmsr : BitVec 32 → Word) :
    List ℕ → ℕ → List MtrrRangeDescriptor
  | [], _ => []
  | currentRegister :: registers, numberOfBitsInMask =>
    let currentPhysicalBase := readmsr (msrIa32MtrrPhysbase currentRegister)
    let currentPhysicalMask := readmsr (msrIa32MtrrPhysmask currentRegister)
    if MtrrPhysmask.valid.get currentPhysicalMask = 0 then
      variableRanges readmsr registers numberOfBitsInMask
    else
      let physicalBaseAddress := MtrrPhysbase.pageFrameNumber.get currentPhysicalBase * pageSize
      let numberOfBitsInMask := bitScanForward64 numberOfBitsInMask
        (MtrrPhysmask.pageFrameNumber.get currentPhysicalMask * pageSize)
      let descriptor : MtrrRangeDescriptor :=
        { physicalBaseAddress := physicalBaseAddress
          physicalEndAddress := physicalBaseAddress + 1#64 <<< numberOfBitsInMask - 1
          memoryType := physbaseType currentPhysicalBase
          fixedRange := false }
      let ranges := variableRanges readmsr registers numberOfBitsInMask
      if descriptor.memoryType = memoryTypeWriteBack then ranges else descriptor :: ranges

/-- The enabled ranges and the default memory type. -/
def buildMtrrMap (readmsr : BitVec 32 → Word) : List MtrrRangeDescriptor × MemoryType :=
  let mtrrDefType := readmsr msrIa32MtrrDefType
  if MtrrDefType.mtrrEnable.get mtrrDefType = 0 then ([], memoryTypeUncacheable)
  else
    let mtrrCapabilities := readmsr msrIa32MtrrCapabilities
    let fixed :=
      if MtrrCapabilities.fixedRangeSupported.get mtrrCapabilities ≠ 0 ∧
          MtrrDefType.fixedRangeMtrrEnable.get mtrrDefType ≠ 0 then fixedRanges readmsr
      else []
    (fixed ++ variableRanges readmsr
        (List.range (MtrrCapabilities.variableRangeCount.get mtrrCapabilities).toNat) 0,
      (MtrrDefType.defaultMemoryType.get mtrrDefType).setWidth 8)

/-- The loop of `GetMemoryType`: a fixed range and a second range over an
uncacheable one end it. -/
def memoryTypeFrom (addressOfPage : Word) :
    MemoryType → List MtrrRangeDescriptor → MemoryType
  | targetMemoryType, [] => targetMemoryType
  | targetMemoryType, currentMemoryRange :: ranges =>
    if currentMemoryRange.physicalBaseAddress ≤ addressOfPage ∧
        addressOfPage < currentMemoryRange.physicalEndAddress then
      if currentMemoryRange.fixedRange then currentMemoryRange.memoryType
      else if targetMemoryType = memoryTypeUncacheable then currentMemoryRange.memoryType
      else if (targetMemoryType = memoryTypeWriteThrough ∨
          currentMemoryRange.memoryType = memoryTypeWriteThrough) ∧
          targetMemoryType = memoryTypeWriteBack then
        memoryTypeFrom addressOfPage memoryTypeWriteThrough ranges
      else memoryTypeFrom addressOfPage currentMemoryRange.memoryType ranges
    else memoryTypeFrom addressOfPage targetMemoryType ranges

def getMemoryType (memoryRanges : List MtrrRangeDescriptor) (defaultMemoryType : MemoryType)
    (pfn : Word) (isLargePage : Bool) : MemoryType :=
  let addressOfPage := if isLargePage then pfn * size2mb else pfn * pageSize
  let targetMemoryType := memoryTypeFrom addressOfPage memoryTypeInvalid memoryRanges
  if targetMemoryType = memoryTypeInvalid then defaultMemoryType else targetMemoryType

/-- No range begins or ends inside the page. -/
def isValidForLargePage (memoryRanges : List MtrrRangeDescriptor) (pfn : Word) : Bool :=
  let startPageAddress := pfn * size2mb
  let endPageAddress := startPageAddress + size2mb - 1
  memoryRanges.all fun currentMemoryRange =>
    !((startPageAddress ≤ currentMemoryRange.physicalEndAddress &&
        endPageAddress > currentMemoryRange.physicalEndAddress) ||
      (startPageAddress < currentMemoryRange.physicalBaseAddress &&
        endPageAddress ≥ currentMemoryRange.physicalBaseAddress))

/-- A lookup depends on the address only through the ranges that it is in. -/
theorem memoryTypeFrom_congr {a b : Word} {ranges : List MtrrRangeDescriptor}
    (h : ∀ r ∈ ranges, (r.physicalBaseAddress ≤ a ∧ a < r.physicalEndAddress) ↔
      (r.physicalBaseAddress ≤ b ∧ b < r.physicalEndAddress)) (type : MemoryType) :
    memoryTypeFrom a type ranges = memoryTypeFrom b type ranges := by
  induction ranges generalizing type with
  | nil => rfl
  | cons r ranges ih =>
    have hrest := ih fun q hq => h q (List.mem_cons_of_mem r hq)
    simp only [memoryTypeFrom, h r List.mem_cons_self, hrest]

theorem toNat_mul_size2mb {pfn : Word} (h : pfn.toNat < 2 ^ 18) :
    (pfn * size2mb).toNat = pfn.toNat * 2097152 := by
  rw [BitVec.toNat_mul, show size2mb.toNat = 2097152 from rfl]
  omega

theorem toNat_mul_pageSize {pfn : Word} (h : pfn.toNat < 2 ^ 27) :
    (pfn * pageSize).toNat = pfn.toNat * 4096 := by
  rw [BitVec.toNat_mul, show pageSize.toNat = 4096 from rfl]
  omega

/-- Where a range begins and ends relative to a large page that is valid. -/
theorem isValidForLargePage_iff (ranges : List MtrrRangeDescriptor) {pfn : Word}
    (h : pfn.toNat < 2 ^ 18) : isValidForLargePage ranges pfn = true ↔
      ∀ r ∈ ranges, (r.physicalEndAddress.toNat < pfn.toNat * 2097152 ∨
          pfn.toNat * 2097152 + 2097151 ≤ r.physicalEndAddress.toNat) ∧
        (r.physicalBaseAddress.toNat ≤ pfn.toNat * 2097152 ∨
          pfn.toNat * 2097152 + 2097151 < r.physicalBaseAddress.toNat) := by
  have hstart := toNat_mul_size2mb h
  have hend : (pfn * size2mb + size2mb - 1).toNat = pfn.toNat * 2097152 + 2097151 := by
    rw [BitVec.toNat_sub, BitVec.toNat_add, hstart, show size2mb.toNat = 2097152 from rfl,
      show (1 : Word).toNat = 1 from rfl]
    omega
  simp only [isValidForLargePage, List.all_eq_true]
  refine forall₂_congr fun r _ => ?_
  simp only [Bool.not_eq_true', Bool.or_eq_false_iff, Bool.and_eq_false_iff,
    decide_eq_false_iff_not, gt_iff_lt, ge_iff_le, BitVec.le_def, BitVec.lt_def, hstart, hend]
  omega

/-- In a large page that is valid, every 4KB page has the memory type of the whole. -/
theorem getMemoryType_of_isValid {ranges : List MtrrRangeDescriptor} {pfn frame : Word}
    (hpfn : pfn.toNat < 2 ^ 18) (hvalid : isValidForLargePage ranges pfn = true)
    (hframe : frame.toNat / 512 = pfn.toNat) (defaultMemoryType : MemoryType) :
    getMemoryType ranges defaultMemoryType frame false =
      getMemoryType ranges defaultMemoryType pfn true := by
  have hlarge := toNat_mul_size2mb hpfn
  have hsmall : (frame * pageSize).toNat = frame.toNat * 4096 :=
    toNat_mul_pageSize (by omega)
  have hsame : memoryTypeFrom (frame * pageSize) memoryTypeInvalid ranges =
      memoryTypeFrom (pfn * size2mb) memoryTypeInvalid ranges := by
    refine memoryTypeFrom_congr (fun r hr => ?_) _
    obtain ⟨hend, hbase⟩ := (isValidForLargePage_iff ranges hpfn).mp hvalid r hr
    simp only [BitVec.le_def, BitVec.lt_def, hlarge, hsmall]
    omega
  simp only [getMemoryType, Bool.false_eq_true, if_false, if_true, hsame]

/-- A large page that passes the check has the memory type of each of the 512 pages that it
is split into. -/
theorem getMemoryType_split {ranges : List MtrrRangeDescriptor} {pfn : Word}
    (hpfn : pfn.toNat < 2 ^ 18) (hvalid : isValidForLargePage ranges pfn = true)
    (defaultMemoryType : MemoryType) (entryIndex : Fin 512) :
    getMemoryType ranges defaultMemoryType
        (pfn * size2mb / pageSize + BitVec.ofNat 64 entryIndex) false =
      getMemoryType ranges defaultMemoryType pfn true := by
  refine getMemoryType_of_isValid hpfn hvalid ?_ defaultMemoryType
  have hindex := entryIndex.isLt
  rw [BitVec.toNat_add, BitVec.toNat_udiv, toNat_mul_size2mb hpfn, BitVec.toNat_ofNat,
    show pageSize.toNat = 4096 from rfl]
  omega

/-- A range that begins and ends with the page, and one that ends before it. -/
theorem getMemoryType_split_edges :
    getMemoryType [⟨0x200000#64, 0x3FFFFF#64, 0, false⟩, ⟨0#64, 0x1FFFFF#64, 4, true⟩] 6
        (1#64 * size2mb / pageSize + BitVec.ofNat 64 (511 : Fin 512)) false =
      getMemoryType [⟨0x200000#64, 0x3FFFFF#64, 0, false⟩, ⟨0#64, 0x1FFFFF#64, 4, true⟩] 6
        1#64 true :=
  getMemoryType_split (by decide) (by decide) 6 511

theorem IsMemoryType.toNat_lt {type : MemoryType} (h : IsMemoryType type) : type.toNat < 8 := by
  rcases h with rfl | rfl | rfl | rfl | rfl <;> decide

theorem MtrrMsrs.fixedRanges_types (msrs : MtrrMsrs) {r : MtrrRangeDescriptor}
    (hr : r ∈ fixedRanges msrs.readmsr) : IsMemoryType r.memoryType := by
  simp only [fixedRanges, List.mem_append, List.mem_map, List.mem_flatMap, List.mem_range] at hr
  rcases hr with (⟨j, hj, rfl⟩ | ⟨i, hi, j, hj, rfl⟩) | ⟨i, hi, j, hj, rfl⟩
  · exact msrs.fixed64k j hj
  · exact msrs.fixed16k i hi j hj
  · exact msrs.fixed4k i hi j hj

theorem MtrrMsrs.variableRanges_types (msrs : MtrrMsrs) {registers : List ℕ}
    (hregisters : ∀ i ∈ registers, i < 256) (numberOfBitsInMask : ℕ) {r : MtrrRangeDescriptor}
    (hr : r ∈ variableRanges msrs.readmsr registers numberOfBitsInMask) :
    IsMemoryType r.memoryType := by
  induction registers generalizing numberOfBitsInMask with
  | nil => simp [variableRanges] at hr
  | cons i registers ih =>
    have hrest : ∀ j ∈ registers, j < 256 := fun j hj => hregisters j (List.mem_cons_of_mem i hj)
    simp only [variableRanges] at hr
    split at hr
    · exact ih hrest _ hr
    split at hr
    · exact ih hrest _ hr
    · rcases List.mem_cons.mp hr with rfl | hr
      · exact msrs.physbase i (hregisters i List.mem_cons_self)
      · exact ih hrest _ hr

/-- Every range of the map, and its default, has a type of three bits. -/
theorem MtrrMsrs.buildMtrrMap_types (msrs : MtrrMsrs) :
    (∀ r ∈ (buildMtrrMap msrs.readmsr).1, r.memoryType.toNat < 8) ∧
      (buildMtrrMap msrs.readmsr).2.toNat < 8 := by
  unfold buildMtrrMap
  simp only
  split
  · exact ⟨by simp, by decide⟩
  · refine ⟨fun r hr => ?_, ?_⟩
    · rcases List.mem_append.mp hr with hr | hr
      · split at hr
        · exact (msrs.fixedRanges_types hr).toNat_lt
        · simp at hr
      · refine (msrs.variableRanges_types (fun i hi => ?_) 0 hr).toNat_lt
        have hcount := MtrrCapabilities.variableRangeCount.toNat_get_lt
          (msrs.readmsr msrIa32MtrrCapabilities)
        have hi := List.mem_range.mp hi
        simp only [show MtrrCapabilities.variableRangeCount.width = 8 from rfl] at hcount
        omega
    · have hlt := MtrrDefType.defaultMemoryType.toNat_get_lt (msrs.readmsr msrIa32MtrrDefType)
      simp only [show MtrrDefType.defaultMemoryType.width = 3 from rfl] at hlt
      rw [BitVec.toNat_setWidth]
      omega

theorem memoryTypeFrom_lt (address : Word) {ranges : List MtrrRangeDescriptor}
    (h : ∀ r ∈ ranges, r.memoryType.toNat < 8) (type : MemoryType) :
    memoryTypeFrom address type ranges = type ∨
      (memoryTypeFrom address type ranges).toNat < 8 := by
  induction ranges generalizing type with
  | nil => exact Or.inl rfl
  | cons r ranges ih =>
    have hr := h r List.mem_cons_self
    have hrest : ∀ type, type.toNat < 8 → (memoryTypeFrom address type ranges).toNat < 8 := by
      intro type htype
      rcases ih (fun q hq => h q (List.mem_cons_of_mem r hq)) type with heq | hlt
      · rw [heq]
        exact htype
      · exact hlt
    simp only [memoryTypeFrom]
    split
    · refine Or.inr ?_
      split
      · exact hr
      split
      · exact hr
      split
      · exact hrest _ (by decide)
      · exact hrest _ hr
    · exact ih (fun q hq => h q (List.mem_cons_of_mem r hq)) type

theorem getMemoryType_lt {ranges : List MtrrRangeDescriptor} {defaultMemoryType : MemoryType}
    (h : ∀ r ∈ ranges, r.memoryType.toNat < 8) (hdefault : defaultMemoryType.toNat < 8)
    (pfn : Word) (isLargePage : Bool) :
    (getMemoryType ranges defaultMemoryType pfn isLargePage).toNat < 8 := by
  unfold getMemoryType
  simp only
  generalize (if isLargePage then pfn * size2mb else pfn * pageSize) = addressOfPage
  rcases memoryTypeFrom_lt addressOfPage h memoryTypeInvalid with heq | hlt
  · rw [if_pos heq]
    exact hdefault
  · split
    · exact hdefault
    · exact hlt

end NovaHypervisor

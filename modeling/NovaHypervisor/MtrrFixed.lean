import Mathlib.Data.List.Find
import NovaHypervisor.General.BoundedTable
import NovaHypervisor.General.Tiling
import NovaHypervisor.MtrrPrecedence

/-!
The map as the array that the loops fill. Every write stays within the array, and the
slots in use are the list of ranges that the lookups read. The fixed ranges come first
and tile the first megabyte, so a page below it has the type that its byte of the fixed
range registers gives, whatever follows.
-/
namespace NovaHypervisor

open General

def maxVariableRangeMtrrs : ℕ := 255
def fixedRangeMtrrsSize : ℕ := (1 + 2 + 8) * 8
def mtrrEntriesSize : ℕ := maxVariableRangeMtrrs + fixedRangeMtrrsSize

abbrev MemoryRanges := BoundedTable MtrrRangeDescriptor mtrrEntriesSize

namespace MemoryRanges

/-- The eight ranges of one fixed range register. -/
def pushFixed (base size all : Word) (memoryRanges : MemoryRanges) : Option MemoryRanges :=
  (List.range 8).foldlM (fun memoryRanges j => memoryRanges.push (fixedRange base size all j))
    memoryRanges

def pushFixedRanges (readmsr : BitVec 32 → Word) (memoryRanges : MemoryRanges) :
    Option MemoryRanges :=
  ((pushFixed 0#64 0x10000#64 (readmsr ia32MtrrFix64k00000) memoryRanges).bind
    fun memoryRanges => (List.range 2).foldlM (fun memoryRanges i =>
      pushFixed (0x80000#64 + BitVec.ofNat 64 i * 0x4000#64 * 8#64) 0x4000#64
        (readmsr (ia32MtrrFix16k80000 + BitVec.ofNat 32 i)) memoryRanges) memoryRanges).bind
    fun memoryRanges => (List.range 8).foldlM (fun memoryRanges i =>
      pushFixed (0xC0000#64 + BitVec.ofNat 64 i * 0x1000#64 * 8#64) 0x1000#64
        (readmsr (ia32MtrrFix4kC0000 + BitVec.ofNat 32 i)) memoryRanges) memoryRanges

/-- The loop over the variable ranges. A write-back range is written and given back. -/
def pushVariableRanges (readmsr : BitVec 32 → Word) :
    List ℕ → ℕ → MemoryRanges → Option MemoryRanges
  | [], _, memoryRanges => some memoryRanges
  | currentRegister :: registers, numberOfBitsInMask, memoryRanges =>
    let currentPhysicalBase := readmsr (msrIa32MtrrPhysbase currentRegister)
    let currentPhysicalMask := readmsr (msrIa32MtrrPhysmask currentRegister)
    if MtrrPhysmask.valid.get currentPhysicalMask = 0 then
      pushVariableRanges readmsr registers numberOfBitsInMask memoryRanges
    else
      let physicalBaseAddress := MtrrPhysbase.pageFrameNumber.get currentPhysicalBase * pageSize
      let numberOfBitsInMask := bitScanForward64 numberOfBitsInMask
        (MtrrPhysmask.pageFrameNumber.get currentPhysicalMask * pageSize)
      let descriptor : MtrrRangeDescriptor :=
        { physicalBaseAddress := physicalBaseAddress
          physicalEndAddress := physicalBaseAddress + 1#64 <<< numberOfBitsInMask - 1
          memoryType := physbaseType currentPhysicalBase
          fixedRange := false }
      if descriptor.memoryType = memoryTypeWriteBack then
        (memoryRanges.push descriptor).bind fun memoryRanges =>
          pushVariableRanges readmsr registers numberOfBitsInMask memoryRanges.stepBack
      else
        (memoryRanges.push descriptor).bind fun memoryRanges =>
          pushVariableRanges readmsr registers numberOfBitsInMask memoryRanges

/-- The ranges in the array and the default memory type. -/
def buildMtrrMap (readmsr : BitVec 32 → Word) (memoryRanges : MemoryRanges) :
    Option (MemoryRanges × MemoryType) :=
  let mtrrDefType := readmsr msrIa32MtrrDefType
  if MtrrDefType.mtrrEnable.get mtrrDefType = 0 then some (memoryRanges, memoryTypeUncacheable)
  else
    let mtrrCapabilities := readmsr msrIa32MtrrCapabilities
    let fixed :=
      if MtrrCapabilities.fixedRangeSupported.get mtrrCapabilities ≠ 0 ∧
          MtrrDefType.fixedRangeMtrrEnable.get mtrrDefType ≠ 0 then
        pushFixedRanges readmsr memoryRanges
      else some memoryRanges
    (fixed.bind fun memoryRanges => pushVariableRanges readmsr
      (List.range (MtrrCapabilities.variableRangeCount.get mtrrCapabilities).toNat) 0
        memoryRanges).map fun memoryRanges =>
      (memoryRanges, (MtrrDefType.defaultMemoryType.get mtrrDefType).setWidth 8)

open BoundedTable

theorem appends_pushFixed (base size all : Word) :
    Appends (pushFixed base size all) ((List.range 8).map fun j => fixedRange base size all j)
      8 := by
  rw [List.map_eq_flatMap]
  exact Appends.foldlM (fun j => Appends.push (fixedRange base size all j)) (fun _ => le_rfl)
    (List.range 8)

theorem length_fixedRanges (readmsr : BitVec 32 → Word) :
    (fixedRanges readmsr).length = fixedRangeMtrrsSize := by
  simp [fixedRanges, fixedRangeMtrrsSize]

theorem appends_pushFixedRanges (readmsr : BitVec 32 → Word) :
    Appends (pushFixedRanges readmsr) (fixedRanges readmsr) fixedRangeMtrrsSize := by
  have h16 := Appends.foldlM (fun i => appends_pushFixed
    (0x80000#64 + BitVec.ofNat 64 i * 0x4000#64 * 8#64) 0x4000#64
    (readmsr (ia32MtrrFix16k80000 + BitVec.ofNat 32 i))) (fun _ => le_rfl) (List.range 2)
  have h4 := Appends.foldlM (fun i => appends_pushFixed
    (0xC0000#64 + BitVec.ofNat 64 i * 0x1000#64 * 8#64) 0x1000#64
    (readmsr (ia32MtrrFix4kC0000 + BitVec.ofNat 32 i))) (fun _ => le_rfl) (List.range 8)
  have hlow := (appends_pushFixed 0#64 0x10000#64 (readmsr ia32MtrrFix64k00000)).bind h16
    (show 8 ≤ 24 by decide) (by simp)
  exact hlow.bind h4 (by decide) (by simp [fixedRangeMtrrsSize])

/-- One slot for each register is enough, whichever are valid or write-back. -/
theorem appends_pushVariableRanges (readmsr : BitVec 32 → Word) (registers : List ℕ)
    (numberOfBitsInMask : ℕ) :
    Appends (pushVariableRanges readmsr registers numberOfBitsInMask)
      (variableRanges readmsr registers numberOfBitsInMask) registers.length := by
  induction registers generalizing numberOfBitsInMask with
  | nil => exact Appends.some
  | cons currentRegister registers ih =>
    intro memoryRanges hroom
    rw [List.length_cons] at hroom
    simp only [pushVariableRanges, variableRanges]
    by_cases hvalid : MtrrPhysmask.valid.get (readmsr (msrIa32MtrrPhysmask currentRegister)) = 0
    · rw [if_pos hvalid, if_pos hvalid]
      exact (ih _).mono (Nat.le_succ _) memoryRanges hroom
    rw [if_neg hvalid, if_neg hvalid]
    by_cases hback : physbaseType (readmsr (msrIa32MtrrPhysbase currentRegister)) =
        memoryTypeWriteBack
    · rw [if_pos hback, if_pos hback]
      exact (ih _).push_stepBack _ memoryRanges hroom
    · rw [if_neg hback, if_neg hback]
      exact (Appends.push _).bind (ih _) (Nat.le_add_left _ _) (Nat.add_comm _ _).le memoryRanges
        hroom

/-- No write leaves the array, and the array holds the map. -/
theorem buildMtrrMap_eq (readmsr : BitVec 32 → Word) {memoryRanges : MemoryRanges}
    (hempty : memoryRanges.count = 0) :
    ∃ memoryRanges', buildMtrrMap readmsr memoryRanges =
        some (memoryRanges', (NovaHypervisor.buildMtrrMap readmsr).2) ∧
      memoryRanges'.enabled = (NovaHypervisor.buildMtrrMap readmsr).1 := by
  have hnone : memoryRanges.enabled = [] := by
    rw [← List.length_eq_zero_iff, length_enabled, hempty]
  have hcount := MtrrCapabilities.variableRangeCount.toNat_get_lt
    (readmsr msrIa32MtrrCapabilities)
  simp only [show MtrrCapabilities.variableRangeCount.width = 8 from rfl] at hcount
  have hvariable := appends_pushVariableRanges readmsr
    (List.range (MtrrCapabilities.variableRangeCount.get (readmsr msrIa32MtrrCapabilities)).toNat) 0
  rw [List.length_range] at hvariable
  have hfits : (fixedRanges readmsr).length + (MtrrCapabilities.variableRangeCount.get
      (readmsr msrIa32MtrrCapabilities)).toNat ≤ mtrrEntriesSize := by
    rw [length_fixedRanges, mtrrEntriesSize, maxVariableRangeMtrrs]
    omega
  simp only [buildMtrrMap, NovaHypervisor.buildMtrrMap]
  split
  · exact ⟨memoryRanges, rfl, hnone⟩
  split
  · obtain ⟨t, ht, henabled⟩ := (appends_pushFixedRanges readmsr).bind hvariable
      (show fixedRangeMtrrsSize ≤ mtrrEntriesSize by decide) hfits memoryRanges (by omega)
    rw [hnone] at henabled
    simp only at ht
    exact ⟨t, by rw [ht, Option.map_some], henabled⟩
  · obtain ⟨t, ht, henabled⟩ := hvariable memoryRanges (by omega)
    rw [hnone] at henabled
    exact ⟨t, by rw [Option.bind_some, ht, Option.map_some], henabled⟩

end MemoryRanges

/-- A register whose eight bytes are the types of eight ranges of one size in a row. -/
structure FixedRegister where
  msr : BitVec 32
  base : ℕ
  size : ℕ
  deriving DecidableEq

/-- The eleven registers: ranges of 64KB, then of 16KB, then of 4KB. -/
def fixedRegisters : List FixedRegister :=
  [⟨0x250#32, 0x00000, 0x10000⟩, ⟨0x258#32, 0x80000, 0x4000⟩, ⟨0x259#32, 0xA0000, 0x4000⟩,
    ⟨0x268#32, 0xC0000, 0x1000⟩, ⟨0x269#32, 0xC8000, 0x1000⟩, ⟨0x26A#32, 0xD0000, 0x1000⟩,
    ⟨0x26B#32, 0xD8000, 0x1000⟩, ⟨0x26C#32, 0xE0000, 0x1000⟩, ⟨0x26D#32, 0xE8000, 0x1000⟩,
    ⟨0x26E#32, 0xF0000, 0x1000⟩, ⟨0x26F#32, 0xF8000, 0x1000⟩]

namespace FixedRegister

def stop (q : FixedRegister) : ℕ := q.base + q.size * 8

/-- Byte `j` of the register gives the type of the address. -/
def ByteCovers (q : FixedRegister) (j a : ℕ) : Prop :=
  q.base + q.size * j ≤ a ∧ a < q.base + q.size * (j + 1)

def descriptor (readmsr : BitVec 32 → Word) (q : FixedRegister) (j : ℕ) : MtrrRangeDescriptor :=
  fixedRange (BitVec.ofNat 64 q.base) (BitVec.ofNat 64 q.size) (readmsr q.msr) j

end FixedRegister

theorem contiguous_fixedRegisters :
    Contiguous FixedRegister.base FixedRegister.stop 0 fixedRegisters 0x100000 := by decide

/-- The loops write the registers' ranges in the order of the addresses. -/
theorem fixedRanges_eq (readmsr : BitVec 32 → Word) :
    fixedRanges readmsr =
      fixedRegisters.flatMap fun q => (List.range 8).map (q.descriptor readmsr) := by
  rfl

def MtrrRangeDescriptor.coversByte (range : MtrrRangeDescriptor) (a : ℕ) : Bool :=
  decide (range.physicalBaseAddress.toNat ≤ a ∧ a ≤ range.physicalEndAddress.toNat)

namespace FixedRegister

theorem size_of_mem {q : FixedRegister} (hq : q ∈ fixedRegisters) :
    0 < q.size ∧ q.base + q.size * 8 ≤ 0x100000 := by
  revert q
  decide

theorem dvd_of_mem {q : FixedRegister} (hq : q ∈ fixedRegisters) :
    4096 ∣ q.base ∧ 4096 ∣ q.size := by
  revert q
  decide

/-- The bounds of a range, computed in words as the loops do. -/
theorem toNat_descriptor (readmsr : BitVec 32 → Word) {q : FixedRegister}
    (hq : q ∈ fixedRegisters) {j : ℕ} (hj : j < 8) :
    (q.descriptor readmsr j).physicalBaseAddress.toNat = q.base + q.size * j ∧
      (q.descriptor readmsr j).physicalEndAddress.toNat + 1 = q.base + q.size * (j + 1) := by
  obtain ⟨hpos, hle⟩ := size_of_mem hq
  have hmul : q.size * j ≤ q.size * 7 := Nat.mul_le_mul_left q.size (by omega)
  have hsucc : q.size * (j + 1) = q.size * j + q.size := Nat.mul_succ _ _
  have hstart : (BitVec.ofNat 64 q.base + BitVec.ofNat 64 q.size * BitVec.ofNat 64 j).toNat =
      q.base + q.size * j := by
    rw [← BitVec.ofNat_mul, ← BitVec.ofNat_add, BitVec.toNat_ofNat]
    omega
  refine ⟨hstart, ?_⟩
  simp only [descriptor, fixedRange]
  rw [BitVec.toNat_add, hstart, BitVec.toNat_sub, BitVec.toNat_ofNat,
    show (1 : Word).toNat = 1 from rfl]
  omega

theorem coversByte_descriptor (readmsr : BitVec 32 → Word) {q : FixedRegister}
    (hq : q ∈ fixedRegisters) {j : ℕ} (hj : j < 8) (a : ℕ) :
    (q.descriptor readmsr j).coversByte a = true ↔ q.ByteCovers j a := by
  obtain ⟨hbase, hend⟩ := toNat_descriptor readmsr hq hj
  simp only [MtrrRangeDescriptor.coversByte, decide_eq_true_eq, ByteCovers]
  omega

/-- The eight ranges of a register tile its part of the megabyte. -/
theorem tiles_descriptor (readmsr : BitVec 32 → Word) {q : FixedRegister}
    (hq : q ∈ fixedRegisters) :
    Tiles MtrrRangeDescriptor.coversByte ((List.range 8).map (q.descriptor readmsr))
      q.base q.stop := by
  refine Tiles.map ((contiguous_range q.base q.size 8).tiles.congr fun j hj a => ?_)
  rw [Bool.eq_iff_iff, coversByte_descriptor readmsr hq (List.mem_range.mp hj)]
  simp only [ByteCovers, between, decide_eq_true_eq]

end FixedRegister

/-- The fixed ranges tile the first megabyte. -/
theorem tiles_fixedRanges (readmsr : BitVec 32 → Word) :
    Tiles MtrrRangeDescriptor.coversByte (fixedRanges readmsr) 0 0x100000 := by
  rw [fixedRanges_eq]
  exact contiguous_fixedRegisters.tiles.flatMap fun q hq =>
    FixedRegister.tiles_descriptor readmsr hq

theorem fixedRange_of_mem {readmsr : BitVec 32 → Word} {r : MtrrRangeDescriptor}
    (hr : r ∈ fixedRanges readmsr) : r.fixedRange = true := by
  rw [fixedRanges_eq, List.mem_flatMap] at hr
  obtain ⟨q, _, hr⟩ := hr
  obtain ⟨j, _, rfl⟩ := List.mem_map.mp hr
  rfl

/-- The fixed ranges are page aligned and end below 1MB. -/
theorem mem_fixedRanges {readmsr : BitVec 32 → Word} {r : MtrrRangeDescriptor}
    (hr : r ∈ fixedRanges readmsr) :
    r.PageAligned ∧ r.physicalEndAddress.toNat < 0x100000 := by
  rw [fixedRanges_eq, List.mem_flatMap] at hr
  obtain ⟨q, hq, hr⟩ := hr
  obtain ⟨j, hj, rfl⟩ := List.mem_map.mp hr
  have hj := List.mem_range.mp hj
  obtain ⟨hstart, hend⟩ := FixedRegister.toNat_descriptor readmsr hq hj
  obtain ⟨_, hle⟩ := FixedRegister.size_of_mem hq
  obtain ⟨hbase, hsize⟩ := FixedRegister.dvd_of_mem hq
  have hmul : q.size * (j + 1) ≤ q.size * 8 := Nat.mul_le_mul_left q.size (by omega)
  have hfirst : 4096 ∣ q.base + q.size * j := Nat.dvd_add hbase (hsize.mul_right j)
  have hnext : 4096 ∣ q.base + q.size * (j + 1) := Nat.dvd_add hbase (hsize.mul_right (j + 1))
  refine ⟨⟨?_, ?_⟩, ?_⟩
  · rw [hstart]
    exact Nat.mod_eq_zero_of_dvd hfirst
  · omega
  · omega

/-- Only the loop over the fixed registers marks a range as fixed. -/
theorem fixedRange_variableRanges (readmsr : BitVec 32 → Word) {registers : List ℕ}
    {numberOfBitsInMask : ℕ} {r : MtrrRangeDescriptor}
    (hr : r ∈ variableRanges readmsr registers numberOfBitsInMask) : r.fixedRange = false := by
  induction registers generalizing numberOfBitsInMask with
  | nil => simp [variableRanges] at hr
  | cons currentRegister registers ih =>
    simp only [variableRanges] at hr
    split at hr
    · exact ih hr
    split at hr
    · exact ih hr
    · rcases List.mem_cons.mp hr with rfl | hr
      · rfl
      · exact ih hr

/-- The first fixed range that covers the page ends the lookup. -/
theorem memoryTypeFrom_of_find? {addressOfPage : Word} {ranges : List MtrrRangeDescriptor}
    (hfixed : ∀ r ∈ ranges, r.fixedRange = true) {r : MtrrRangeDescriptor}
    (hfind : ranges.find? (fun range => decide (range.physicalBaseAddress ≤ addressOfPage ∧
      addressOfPage < range.physicalEndAddress)) = some r)
    (type : MemoryType) (rest : List MtrrRangeDescriptor) :
    memoryTypeFrom addressOfPage type (ranges ++ rest) = r.memoryType := by
  induction ranges with
  | nil => simp at hfind
  | cons range ranges ih =>
    rw [List.cons_append, memoryTypeFrom, hfixed range List.mem_cons_self, if_pos rfl]
    by_cases hcovers : range.physicalBaseAddress ≤ addressOfPage ∧
        addressOfPage < range.physicalEndAddress
    · rw [List.find?_cons_of_pos (by simpa using hcovers)] at hfind
      rw [if_pos hcovers, Option.some.inj hfind]
    · rw [List.find?_cons_of_neg (by simpa using hcovers)] at hfind
      rw [if_neg hcovers]
      exact ih (fun q hq => hfixed q (List.mem_cons_of_mem range hq)) hfind

/-- A page below 1MB has the type of its byte, whatever ranges follow the fixed ones. -/
theorem getMemoryType_fixed {readmsr : BitVec 32 → Word} {q : FixedRegister}
    (hq : q ∈ fixedRegisters) {j : ℕ} (hj : j < 8)
    (htype : IsMemoryType (fixedRangeType (readmsr q.msr) j)) {pfn : Word}
    (hcovers : q.ByteCovers j (pfn * pageSize).toNat) (rest : List MtrrRangeDescriptor)
    (defaultMemoryType : MemoryType) :
    getMemoryType (fixedRanges readmsr ++ rest) defaultMemoryType pfn false =
      fixedRangeType (readmsr q.msr) j := by
  have hmem : q.descriptor readmsr j ∈ fixedRanges readmsr := by
    rw [fixedRanges_eq, List.mem_flatMap]
    exact ⟨q, hq, List.mem_map_of_mem (List.mem_range.mpr hj)⟩
  have hfind := (tiles_fixedRanges readmsr).find?_eq hmem
    ((FixedRegister.coversByte_descriptor readmsr hq hj _).mpr hcovers)
  have hlookup : (fixedRanges readmsr).find? (fun range => decide
      (range.physicalBaseAddress ≤ pfn * pageSize ∧ pfn * pageSize < range.physicalEndAddress)) =
      some (q.descriptor readmsr j) := by
    rw [← hfind]
    refine List.find?_congr fun r hr => ?_
    have hcovers := (mem_fixedRanges hr).1.covers_iff pfn
    rw [MtrrRangeDescriptor.Holds] at hcovers
    rw [Bool.eq_iff_iff, decide_eq_true_eq, ← hcovers]
    simp only [MtrrRangeDescriptor.coversByte, decide_eq_true_eq, MtrrRangeDescriptor.Covers,
      BitVec.le_def]
  have hfrom := memoryTypeFrom_of_find? (fun r hr => fixedRange_of_mem hr) hlookup
    memoryTypeInvalid rest
  have hvalid : ¬ fixedRangeType (readmsr q.msr) j = memoryTypeInvalid := by
    intro heq
    rw [heq] at htype
    exact absurd htype (by decide)
  simp only [getMemoryType, Bool.false_eq_true, if_false, hfrom]
  exact if_neg hvalid

/-- What the map in the array says of the first megabyte. -/
structure FixedDecoded (readmsr : BitVec 32 → Word) (memoryRanges : MemoryRanges)
    (defaultMemoryType : MemoryType) : Prop where
  tiles : Tiles MtrrRangeDescriptor.coversByte
    (memoryRanges.enabled.filter MtrrRangeDescriptor.fixedRange) 0 0x100000
  covered : ∀ pfn : Word, pfn.toNat < 0x100 →
    ∃ q ∈ fixedRegisters, ∃ j < 8, q.ByteCovers j (pfn * pageSize).toNat
  type : ∀ pfn : Word, pfn.toNat < 0x100 → ∀ q ∈ fixedRegisters, ∀ j < 8,
    q.ByteCovers j (pfn * pageSize).toNat →
      getMemoryType memoryRanges.enabled defaultMemoryType pfn false =
        fixedRangeType (readmsr q.msr) j

theorem filter_fixedRange {readmsr : BitVec 32 → Word} (registers : List ℕ)
    (numberOfBitsInMask : ℕ) :
    (fixedRanges readmsr ++ variableRanges readmsr registers numberOfBitsInMask).filter
      MtrrRangeDescriptor.fixedRange = fixedRanges readmsr := by
  have hfixed : (fixedRanges readmsr).filter MtrrRangeDescriptor.fixedRange =
      fixedRanges readmsr := List.filter_eq_self.mpr fun r hr => fixedRange_of_mem hr
  have hvariable : (variableRanges readmsr registers numberOfBitsInMask).filter
      MtrrRangeDescriptor.fixedRange = [] := by
    rw [List.filter_eq_nil_iff]
    intro r hr htrue
    rw [fixedRange_variableRanges readmsr hr] at htrue
    exact absurd htrue (by decide)
  rw [List.filter_append, hfixed, hvariable, List.append_nil]

/-- Every page below 1MB is in a range of some byte. -/
theorem exists_byteCovers {pfn : Word} (hpfn : pfn.toNat < 0x100) :
    ∃ q ∈ fixedRegisters, ∃ j < 8, q.ByteCovers j (pfn * pageSize).toNat := by
  have hpage : (pfn * pageSize).toNat = pfn.toNat * 4096 := toNat_mul_pageSize (by omega)
  have hbelow : 0 ≤ (pfn * pageSize).toNat ∧ (pfn * pageSize).toNat < 0x100000 := by omega
  obtain ⟨r, hr, hcovers⟩ := (tiles_fixedRanges fun _ => 0).exists_mem hbelow
  rw [fixedRanges_eq, List.mem_flatMap] at hr
  obtain ⟨q, hq, hr⟩ := hr
  obtain ⟨j, hj, rfl⟩ := List.mem_map.mp hr
  have hj := List.mem_range.mp hj
  exact ⟨q, hq, j, hj, (FixedRegister.coversByte_descriptor _ hq hj _).mp hcovers⟩

/-- For every content of the registers with legal types in the fixed ones: the array takes every
write, and the first megabyte is decoded as the architecture says. -/
theorem fixedDecoded_buildMtrrMap {readmsr : BitVec 32 → Word} {memoryRanges : MemoryRanges}
    (hempty : memoryRanges.count = 0)
    (henabled : MtrrDefType.mtrrEnable.get (readmsr msrIa32MtrrDefType) ≠ 0)
    (hfixed : MtrrCapabilities.fixedRangeSupported.get (readmsr msrIa32MtrrCapabilities) ≠ 0 ∧
      MtrrDefType.fixedRangeMtrrEnable.get (readmsr msrIa32MtrrDefType) ≠ 0)
    (htypes : ∀ q ∈ fixedRegisters, ∀ j < 8, IsMemoryType (fixedRangeType (readmsr q.msr) j)) :
    ∃ memoryRanges' defaultMemoryType,
      MemoryRanges.buildMtrrMap readmsr memoryRanges = some (memoryRanges', defaultMemoryType) ∧
        FixedDecoded readmsr memoryRanges' defaultMemoryType := by
  obtain ⟨memoryRanges', hbuild, hranges⟩ := MemoryRanges.buildMtrrMap_eq readmsr hempty
  have hmap : memoryRanges'.enabled = fixedRanges readmsr ++ variableRanges readmsr
      (List.range (MtrrCapabilities.variableRangeCount.get
        (readmsr msrIa32MtrrCapabilities)).toNat) 0 := by
    rw [hranges]
    simp only [buildMtrrMap, if_neg henabled, if_pos hfixed]
  refine ⟨memoryRanges', _, hbuild, ?_, fun pfn hpfn => exists_byteCovers hpfn, ?_⟩
  · rw [hmap, filter_fixedRange]
    exact tiles_fixedRanges readmsr
  · intro pfn _ q hq j hj hcovers
    rw [hmap]
    exact getMemoryType_fixed hq hj (htypes q hq j hj) hcovers _ _

/-- Write-back below 640KB, an uncacheable video window and write-protected ROMs, under ten
variable registers. -/
def legacyMsrs (address : BitVec 32) : Word :=
  if address = msrIa32MtrrDefType then 0xC06#64
  else if address = msrIa32MtrrCapabilities then 0x10A#64
  else if address = 0x259#32 then 0#64
  else if 0x268#32 ≤ address ∧ address ≤ 0x26F#32 then 0x0505050505050505#64
  else if address = 0x201#32 then 0xFFFF00000800#64
  else 0x0606060606060606#64

theorem fixedDecoded_buildMtrrMap_legacy : ∃ memoryRanges' defaultMemoryType,
    MemoryRanges.buildMtrrMap legacyMsrs ⟨Vector.replicate _ ⟨0, 0, 0, false⟩, 0, Nat.zero_le _⟩ =
        some (memoryRanges', defaultMemoryType) ∧
      FixedDecoded legacyMsrs memoryRanges' defaultMemoryType :=
  fixedDecoded_buildMtrrMap rfl (by decide) (by decide) (by decide)

end NovaHypervisor

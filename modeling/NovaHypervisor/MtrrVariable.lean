import NovaHypervisor.General.ContiguousMask
import NovaHypervisor.MtrrFixed

/-!
The variable ranges as the processor reads them: a register covers the pages whose
address agrees with its base in the bits of its mask. A mask is contiguous up to the
processor's address width, so the pages are a block whose size is the lowest bit of
the mask. The map stores these blocks, except for the write-back ones, from bits 47:12
of the base and the mask: a block from 2^48 on is stored at another place.
-/
namespace NovaHypervisor

open General

/-- Bits 51:12 of a range register, where the base and the mask stand. -/
def mtrrAddressField : BitField 64 := ⟨12, 40, by decide⟩

def mtrrAddress (register : Word) : Word := mtrrAddressField.get register * pageSize

/-- A contiguous mask that is not zero and a base aligned to the size, on a processor with
`width` address bits. -/
structure VariableFormat (width : ℕ) (physbase physmask : Word) (k : ℕ) : Prop where
  size : 12 ≤ k ∧ k < width
  mask : (mtrrAddress physmask).toNat = contiguousMask width k
  aligned : (mtrrAddress physbase).toNat % 2 ^ k = 0
  base_lt : (mtrrAddress physbase).toNat < 2 ^ width

/-- The address as the map stores it: the register's union has 36 bits of the frame. -/
def storedAddress (register : Word) : ℕ := (mtrrAddress register).toNat % 2 ^ 48

namespace MtrrMsrs

def physBase (msrs : MtrrMsrs) (i : ℕ) : Word := msrs.readmsr (msrIa32MtrrPhysbase i)

def physMask (msrs : MtrrMsrs) (i : ℕ) : Word := msrs.readmsr (msrIa32MtrrPhysmask i)

def variableCount (msrs : MtrrMsrs) : ℕ :=
  (MtrrCapabilities.variableRangeCount.get (msrs.readmsr msrIa32MtrrCapabilities)).toNat

def Enabled (msrs : MtrrMsrs) : Prop :=
  MtrrDefType.mtrrEnable.get (msrs.readmsr msrIa32MtrrDefType) ≠ 0

def Valid (msrs : MtrrMsrs) (i : ℕ) : Prop := MtrrPhysmask.valid.get (msrs.physMask i) ≠ 0

instance (msrs : MtrrMsrs) (i : ℕ) : Decidable (msrs.Valid i) :=
  inferInstanceAs (Decidable (¬ _))

/-- A valid register covers a page: the address and the base agree under the mask. -/
def Covers (msrs : MtrrMsrs) (addressOfPage : Word) (i : ℕ) : Prop :=
  msrs.Valid i ∧ addressOfPage &&& mtrrAddress (msrs.physMask i) =
    mtrrAddress (msrs.physBase i) &&& mtrrAddress (msrs.physMask i)

instance (msrs : MtrrMsrs) (addressOfPage : Word) (i : ℕ) :
    Decidable (msrs.Covers addressOfPage i) :=
  inferInstanceAs (Decidable (_ ∧ _))

def WellFormed (msrs : MtrrMsrs) (width : ℕ) : Prop :=
  ∀ i < msrs.variableCount, msrs.Valid i →
    ∃ k, VariableFormat width (msrs.physBase i) (msrs.physMask i) k

def variableType (msrs : MtrrMsrs) (i : ℕ) : MemoryType := physbaseType (msrs.physBase i)

/-- The size of the block stored for a valid register is that of the lowest bit in the 36 bits
of its mask; a mask without one has the size of the valid register before it. -/
def scannedBits (msrs : MtrrMsrs) : ℕ → ℕ
  | 0 => 0
  | i + 1 =>
    if msrs.Valid i then
      bitScanForward64 (msrs.scannedBits i)
        (MtrrPhysmask.pageFrameNumber.get (msrs.physMask i) * pageSize)
    else msrs.scannedBits i

/-- The map has a block for the register, and the page is in it. The lookup leaves out the
last byte, so that a block of one byte holds no page. -/
def Placed (msrs : MtrrMsrs) (addressOfPage : Word) (i : ℕ) : Prop :=
  msrs.Valid i ∧ msrs.variableType i ≠ memoryTypeWriteBack ∧
    storedAddress (msrs.physBase i) ≤ addressOfPage.toNat ∧
    addressOfPage.toNat + 1 < storedAddress (msrs.physBase i) + 2 ^ msrs.scannedBits (i + 1)

instance (msrs : MtrrMsrs) (addressOfPage : Word) (i : ℕ) :
    Decidable (msrs.Placed addressOfPage i) :=
  inferInstanceAs (Decidable (_ ∧ _))

def defaultType (msrs : MtrrMsrs) : MemoryType :=
  (MtrrDefType.defaultMemoryType.get (msrs.readmsr msrIa32MtrrDefType)).setWidth 8

theorem variableCount_lt (msrs : MtrrMsrs) : msrs.variableCount < 256 :=
  MtrrCapabilities.variableRangeCount.toNat_get_lt (msrs.readmsr msrIa32MtrrCapabilities)

end MtrrMsrs

theorem toNat_mtrrAddress (register : Word) :
    (mtrrAddress register).toNat = register.toNat / 4096 % 2 ^ 40 * 4096 := by
  rw [mtrrAddress, BitVec.toNat_mul, mtrrAddressField.toNat_get,
    show pageSize.toNat = 4096 from rfl]
  simp only [mtrrAddressField]
  omega

theorem toNat_pageFrameNumber (register : Word) :
    (MtrrPhysbase.pageFrameNumber.get register * pageSize).toNat = storedAddress register := by
  rw [storedAddress, toNat_mtrrAddress, BitVec.toNat_mul, MtrrPhysbase.pageFrameNumber.toNat_get,
    show pageSize.toNat = 4096 from rfl]
  simp only [MtrrPhysbase.pageFrameNumber]
  omega

theorem bitScanForward64_lt {index : ℕ} {mask : Word} (hindex : index < 48)
    (hmask : mask.toNat < 2 ^ 48) : bitScanForward64 index mask < 48 := by
  rw [bitScanForward64]
  cases hfound : (List.range 64).find? fun i => mask.getLsbD i with
  | none => exact hindex
  | some k =>
    have hbit := List.find?_some hfound
    by_contra hlarge
    have hpow : 2 ^ 48 ≤ 2 ^ k := Nat.pow_le_pow_right (by decide) (by simpa using hlarge)
    rw [BitVec.getLsbD, Nat.testBit_lt_two_pow (by omega)] at hbit
    exact absurd hbit (by decide)

namespace MtrrMsrs

variable (msrs : MtrrMsrs)

theorem scannedBits_lt (i : ℕ) : msrs.scannedBits i < 48 := by
  induction i with
  | zero => exact Nat.zero_lt_succ 47
  | succ i ih =>
    rw [scannedBits]
    split
    · refine bitScanForward64_lt ih ?_
      have hmask := toNat_pageFrameNumber (msrs.physMask i)
      have hlt : storedAddress (msrs.physMask i) < 2 ^ 48 := Nat.mod_lt _ (by decide)
      exact hmask.trans_lt hlt
    · exact ih

/-- What the map stores for a register. -/
def variableRange (i : ℕ) : MtrrRangeDescriptor where
  physicalBaseAddress := MtrrPhysbase.pageFrameNumber.get (msrs.physBase i) * pageSize
  physicalEndAddress := MtrrPhysbase.pageFrameNumber.get (msrs.physBase i) * pageSize +
    1#64 <<< msrs.scannedBits (i + 1) - 1
  memoryType := msrs.variableType i
  fixedRange := false

theorem holds_variableRange_iff (i : ℕ) (addressOfPage : Word) :
    (msrs.variableRange i).Holds addressOfPage ↔
      storedAddress (msrs.physBase i) ≤ addressOfPage.toNat ∧
        addressOfPage.toNat + 1 <
          storedAddress (msrs.physBase i) + 2 ^ msrs.scannedBits (i + 1) := by
  have hbase := toNat_pageFrameNumber (msrs.physBase i)
  have hlt : storedAddress (msrs.physBase i) < 2 ^ 48 := Nat.mod_lt _ (by decide)
  have hscanned := msrs.scannedBits_lt (i + 1)
  have hpow : 2 ^ msrs.scannedBits (i + 1) ≤ 2 ^ 47 :=
    Nat.pow_le_pow_right (by decide) (by omega)
  have hpos := Nat.two_pow_pos (msrs.scannedBits (i + 1))
  have hone : (1#64 <<< msrs.scannedBits (i + 1)).toNat = 2 ^ msrs.scannedBits (i + 1) := by
    rw [BitVec.toNat_shiftLeft, show (1#64).toNat = 1 from rfl, Nat.shiftLeft_eq, Nat.one_mul,
      Nat.mod_eq_of_lt (by omega)]
  have hend : (msrs.variableRange i).physicalEndAddress.toNat =
      storedAddress (msrs.physBase i) + 2 ^ msrs.scannedBits (i + 1) - 1 := by
    rw [variableRange, BitVec.toNat_sub, BitVec.toNat_add, hone, hbase,
      show (1 : Word).toNat = 1 from rfl]
    omega
  rw [MtrrRangeDescriptor.Holds, BitVec.le_def, BitVec.lt_def, hend, variableRange, hbase]
  omega

variable {msrs}

/-- A valid register adds its block, unless its type is write-back. -/
theorem variableRanges_cons {i : ℕ} (hvalid : msrs.Valid i) (registers : List ℕ) :
    variableRanges msrs.readmsr (i :: registers) (msrs.scannedBits i) =
      if msrs.variableType i = memoryTypeWriteBack then
        variableRanges msrs.readmsr registers (msrs.scannedBits (i + 1))
      else
        msrs.variableRange i ::
          variableRanges msrs.readmsr registers (msrs.scannedBits (i + 1)) := by
  have hscan : msrs.scannedBits (i + 1) = bitScanForward64 (msrs.scannedBits i)
      (MtrrPhysmask.pageFrameNumber.get (msrs.physMask i) * pageSize) := by
    rw [scannedBits, if_pos hvalid]
  rw [Valid, physMask] at hvalid
  simp only [variableRange, variableRanges, if_neg hvalid, hscan]
  rfl

theorem variableRanges_cons_of_invalid {i : ℕ} (hinvalid : ¬ msrs.Valid i)
    (registers : List ℕ) :
    variableRanges msrs.readmsr (i :: registers) (msrs.scannedBits i) =
      variableRanges msrs.readmsr registers (msrs.scannedBits (i + 1)) := by
  rw [scannedBits, if_neg hinvalid]
  rw [Valid, physMask, not_not] at hinvalid
  simp only [variableRanges, if_pos hinvalid]

/-- The types that the loop stores for a page, from register `i` on. -/
theorem heldTypes_variableRanges (addressOfPage : Word) (i n : ℕ) :
    heldTypes (variableRanges msrs.readmsr (List.range' i n) (msrs.scannedBits i))
        addressOfPage =
      ((List.range' i n).filter fun j => msrs.Placed addressOfPage j).map
        msrs.variableType := by
  induction n generalizing i with
  | zero => rfl
  | succ n ih =>
    have hrest := ih (i + 1)
    rw [heldTypes] at hrest
    rw [List.range'_succ, heldTypes]
    by_cases hvalid : msrs.Valid i
    · rw [variableRanges_cons hvalid]
      by_cases hback : msrs.variableType i = memoryTypeWriteBack
      · simp [hback, hrest, Placed]
      · have hheld := msrs.holds_variableRange_iff i addressOfPage
        by_cases hholds : (msrs.variableRange i).Holds addressOfPage
        · have hplaced : msrs.Placed addressOfPage i := ⟨hvalid, hback, hheld.mp hholds⟩
          simp [hback, hholds, hplaced, hrest]
          rfl
        · have hplaced : ¬ msrs.Placed addressOfPage i := fun h => hholds (hheld.mpr h.2.2)
          simp [hback, hholds, hplaced, hrest]
    · have hplaced : ¬ msrs.Placed addressOfPage i := fun h => hvalid h.1
      rw [variableRanges_cons_of_invalid hvalid]
      simp [hplaced, hrest]

/-- With the ranges enabled, the map is some fixed ranges and the variable ones. -/
theorem buildMtrrMap_eq (henabled : msrs.Enabled) :
    ∃ fixed, (∀ r ∈ fixed, r ∈ fixedRanges msrs.readmsr) ∧
      buildMtrrMap msrs.readmsr = (fixed ++
        variableRanges msrs.readmsr (List.range msrs.variableCount) 0, msrs.defaultType) := by
  rw [Enabled] at henabled
  unfold buildMtrrMap
  simp only [if_neg henabled]
  split
  · exact ⟨_, fun r hr => hr, rfl⟩
  · exact ⟨[], by simp, rfl⟩

/-- The registers whose blocks hold a page, in the order of the map. -/
def placedRegisters (msrs : MtrrMsrs) (addressOfPage : Word) : List ℕ :=
  (List.range msrs.variableCount).filter fun i => msrs.Placed addressOfPage i

/-- The type that the lookup gives a page at or above 1MB. -/
theorem getMemoryType_eq (henabled : msrs.Enabled) {pfn : Word}
    (hlow : 0x100000 ≤ (pfn * pageSize).toNat) :
    getMemoryType (buildMtrrMap msrs.readmsr).1 (buildMtrrMap msrs.readmsr).2 pfn false =
      let types := (msrs.placedRegisters (pfn * pageSize)).map msrs.variableType
      if types = [] then msrs.defaultType else lookupType memoryTypeInvalid types := by
  obtain ⟨fixed, hfixed, hmap⟩ := buildMtrrMap_eq henabled
  have hcount := msrs.variableCount_lt
  have houtside : ∀ r ∈ fixed, ¬ r.Holds (pfn * pageSize) := by
    intro r hr hholds
    have hend := (mem_fixedRanges (hfixed r hr)).2
    have hlt := hholds.2
    rw [BitVec.lt_def] at hlt
    omega
  have hheld : heldTypes (fixed ++ variableRanges msrs.readmsr
      (List.range msrs.variableCount) 0) (pfn * pageSize) =
      (msrs.placedRegisters (pfn * pageSize)).map msrs.variableType := by
    have hnone : fixed.filter (fun range => decide (range.Holds (pfn * pageSize))) = [] := by
      rw [List.filter_eq_nil_iff]
      intro r hr
      simpa using houtside r hr
    have hvariable := msrs.heldTypes_variableRanges (pfn * pageSize) 0 msrs.variableCount
    rw [← List.range_eq_range', heldTypes] at hvariable
    rw [heldTypes, List.filter_append, hnone, List.nil_append]
    exact hvariable
  rw [hmap]
  simp only
  rw [getMemoryType_eq_heldTypes, hheld]
  · intro r hr
    rcases List.mem_append.mp hr with hr | hr
    · exact msrs.fixedRanges_types (hfixed r hr)
    · refine msrs.variableRanges_types (fun i hi => ?_) 0 hr
      have hi := List.mem_range.mp hi
      omega
  · intro r hr htrue
    rcases List.mem_append.mp hr with hr | hr
    · exact houtside r hr
    · rw [fixedRange_variableRanges msrs.readmsr hr] at htrue
      exact absurd htrue (by decide)

/-- Register `i` is the only one that covers the page. -/
def OnlyCover (msrs : MtrrMsrs) (addressOfPage : Word) (i : ℕ) : Prop :=
  i < msrs.variableCount ∧ msrs.Covers addressOfPage i ∧
    ∀ j < msrs.variableCount, msrs.Covers addressOfPage j → j = i

/-- A page has the type of the one register that covers it, or the default type. -/
structure Honoured (msrs : MtrrMsrs) (pfn : Word) (type : MemoryType) : Prop where
  covered : ∀ i, msrs.OnlyCover (pfn * pageSize) i → type = msrs.variableType i
  uncovered : (∀ i < msrs.variableCount, ¬ msrs.Covers (pfn * pageSize) i) →
    type = msrs.defaultType

/-- The register whose block decides the lookup: the one right after the first uncacheable
block that holds the page, or else the last one. -/
structure Decides (msrs : MtrrMsrs) (addressOfPage : Word) (d : ℕ) : Prop where
  placed : d < msrs.variableCount ∧ msrs.Placed addressOfPage d
  adjacent : ∀ u < d, msrs.Placed addressOfPage u → msrs.variableType u = memoryTypeUncacheable →
    ∀ j, u < j → j < d → ¬ msrs.Placed addressOfPage j
  last : (∀ j < msrs.variableCount, d < j → ¬ msrs.Placed addressOfPage j) ∨
    ∃ u < d, msrs.Placed addressOfPage u ∧ msrs.variableType u = memoryTypeUncacheable

/-- No register's type is lost on a page: the block that decides has the type of the page's own
register, a register with no block there has the default type, and no block from elsewhere
changes the default type of a page without a register. -/
structure Served (msrs : MtrrMsrs) (addressOfPage : Word) : Prop where
  decided : ∀ i d, msrs.OnlyCover addressOfPage i → msrs.Decides addressOfPage d →
    msrs.variableType d = msrs.variableType i
  dropped : ∀ i, msrs.OnlyCover addressOfPage i →
    (∀ j < msrs.variableCount, ¬ msrs.Placed addressOfPage j) →
      msrs.defaultType = msrs.variableType i
  stray : (∀ i < msrs.variableCount, ¬ msrs.Covers addressOfPage i) →
    ∀ d, msrs.Decides addressOfPage d → msrs.variableType d = msrs.defaultType

section Decides

variable {addressOfPage : Word}

/-- The registers around one of the list are those around it in number. -/
theorem mem_of_placedRegisters {pre post : List ℕ} {d : ℕ}
    (hsplit : msrs.placedRegisters addressOfPage = pre ++ d :: post) :
    (d < msrs.variableCount ∧ msrs.Placed addressOfPage d) ∧
      (∀ j, j ∈ pre ↔ j < d ∧ msrs.Placed addressOfPage j) ∧
      ∀ j, j ∈ post ↔ j < msrs.variableCount ∧ d < j ∧ msrs.Placed addressOfPage j := by
  have hmem : ∀ j, j ∈ pre ++ d :: post ↔
      j < msrs.variableCount ∧ msrs.Placed addressOfPage j := by
    intro j
    rw [← hsplit, placedRegisters, List.mem_filter, List.mem_range, decide_eq_true_eq]
  have hsorted : (pre ++ d :: post).Pairwise (· < ·) := by
    rw [← hsplit]
    exact List.pairwise_lt_range.filter _
  obtain ⟨_, hpost, hpre⟩ := List.pairwise_append.mp hsorted
  have hafter := (List.pairwise_cons.mp hpost).1
  have hd := (hmem d).mp (by simp)
  refine ⟨hd, fun j => ⟨fun hj => ?_, fun hj => ?_⟩, fun j => ⟨fun hj => ?_, fun hj => ?_⟩⟩
  · exact ⟨hpre j hj d (by simp), ((hmem j).mp (by simp [hj])).2⟩
  · have hin := (hmem j).mpr ⟨hj.1.trans hd.1, hj.2⟩
    rcases List.mem_append.mp hin with hin | hin
    · exact hin
    · rcases List.mem_cons.mp hin with rfl | hin
      · omega
      · have := hafter j hin
        omega
  · have hin := (hmem j).mp (by simp [hj])
    exact ⟨hin.1, hafter j hj, hin.2⟩
  · have hin := (hmem j).mpr ⟨hj.1, hj.2.2⟩
    rcases List.mem_append.mp hin with hin | hin
    · have := hpre j hin d (by simp)
      omega
    · rcases List.mem_cons.mp hin with rfl | hin
      · omega
      · exact hin

/-- The lookup gives the type of the register that decides. -/
theorem Decides.lookupType_eq {d : ℕ} (h : msrs.Decides addressOfPage d) :
    lookupType memoryTypeInvalid
      ((msrs.placedRegisters addressOfPage).map msrs.variableType) = msrs.variableType d := by
  have hd : d ∈ msrs.placedRegisters addressOfPage := by
    rw [placedRegisters, List.mem_filter, List.mem_range, decide_eq_true_eq]
    exact h.placed
  obtain ⟨pre, post, hsplit⟩ := List.append_of_mem hd
  obtain ⟨_, hpre, hpost⟩ := mem_of_placedRegisters hsplit
  by_cases hmem : memoryTypeUncacheable ∈ pre.map msrs.variableType
  · -- The first uncacheable block stands right before the one that decides.
    obtain ⟨front, back, hfront, hnone⟩ := List.eq_append_cons_of_mem hmem
    obtain ⟨before, rest, rfl, rfl, hrest⟩ := List.map_eq_append_iff.mp hfront
    obtain ⟨u, after, rfl, htype, rfl⟩ := List.map_eq_cons_iff.mp hrest
    have hu := (hpre u).mp (by simp)
    have hall : msrs.placedRegisters addressOfPage = before ++ u :: (after ++ d :: post) := by
      rw [hsplit]
      simp
    obtain ⟨_, _, hbetween⟩ := mem_of_placedRegisters hall
    have hafter : after = [] := by
      refine List.eq_nil_iff_forall_not_mem.mpr fun j hj => ?_
      have hj' := (hbetween j).mp (by simp [hj])
      exact h.adjacent u hu.1 hu.2 htype j hj'.2.1 ((hpre j).mp (by simp [hj])).1 hj'.2.2
    rw [hall, hafter, List.nil_append, List.map_append, List.map_cons, List.map_cons, htype,
      lookupType_append (by decide) hnone, List.head?_cons, Option.getD_some]
  · have hpostNil : post = [] := by
      refine List.eq_nil_iff_forall_not_mem.mpr fun j hj => ?_
      have hj := (hpost j).mp hj
      rcases h.last with hlast | ⟨u, hu, hplaced, htype⟩
      · exact hlast j hj.1 hj.2.1 hj.2.2
      · exact hmem (List.mem_map.mpr ⟨u, (hpre u).mpr ⟨hu, hplaced⟩, htype⟩)
    rw [hsplit, hpostNil, List.map_append, List.map_cons, List.map_nil]
    by_cases htype : msrs.variableType d = memoryTypeUncacheable
    · rw [htype, lookupType_append (by decide) hmem]
      rfl
    · rw [lookupType_of_notMem (by decide), List.getLast?_concat, Option.getD_some]
      rw [List.mem_append, List.mem_singleton, not_or]
      exact ⟨hmem, Ne.symm htype⟩

/-- Some block decides for a page that a block holds. -/
theorem exists_decides (hne : msrs.placedRegisters addressOfPage ≠ []) :
    ∃ d, msrs.Decides addressOfPage d := by
  by_cases hmem : memoryTypeUncacheable ∈
      (msrs.placedRegisters addressOfPage).map msrs.variableType
  · obtain ⟨front, back, hfront, hnone⟩ := List.eq_append_cons_of_mem hmem
    obtain ⟨before, rest, hsplit, rfl, hrest⟩ := List.map_eq_append_iff.mp hfront
    obtain ⟨u, after, rfl, htype, rfl⟩ := List.map_eq_cons_iff.mp hrest
    obtain ⟨hu, hpre, hpost⟩ := mem_of_placedRegisters hsplit
    have hfirst : ∀ j < u, msrs.Placed addressOfPage j →
        msrs.variableType j ≠ memoryTypeUncacheable := by
      intro j hj hplaced hback
      exact hnone (List.mem_map.mpr ⟨j, (hpre j).mpr ⟨hj, hplaced⟩, hback⟩)
    cases after with
    | nil =>
      refine ⟨u, hu, fun j hj hplaced hback => absurd hback (hfirst j hj hplaced),
        Or.inl fun j hj hlt hplaced => ?_⟩
      simpa using (hpost j).mpr ⟨hj, hlt, hplaced⟩
    | cons d after =>
      have hnext : msrs.placedRegisters addressOfPage = (before ++ [u]) ++ d :: after := by
        rw [hsplit]
        simp
      obtain ⟨hd, hpre', _⟩ := mem_of_placedRegisters hnext
      have hud := ((hpre' u).mp (by simp)).1
      refine ⟨d, hd, fun j hj hplaced hback k hjk hkd hk => ?_, Or.inr ⟨u, hud, hu.2, htype⟩⟩
      have hjin := (hpre' j).mpr ⟨hj, hplaced⟩
      have hkin := (hpre' k).mpr ⟨hkd, hk⟩
      have hju : ¬ j < u := fun hlt => hfirst j hlt hplaced hback
      rcases List.mem_append.mp hkin with hkin | hkin
      · have hku := ((hpre k).mp hkin).1
        omega
      · rcases List.mem_append.mp hjin with hjin | hjin
        · exact hju ((hpre j).mp hjin).1
        · simp only [List.mem_singleton] at hkin hjin
          omega
  · obtain ⟨pre, d, hsplit⟩ : ∃ pre d, msrs.placedRegisters addressOfPage = pre ++ [d] :=
      ⟨_, _, (List.dropLast_append_getLast hne).symm⟩
    obtain ⟨hd, hpre, hpost⟩ := mem_of_placedRegisters hsplit
    refine ⟨d, hd, fun u hu hplaced htype => absurd ?_ hmem, Or.inl fun j hj hlt hplaced => ?_⟩
    · refine List.mem_map.mpr ⟨u, ?_, htype⟩
      rw [hsplit]
      exact List.mem_append_left _ ((hpre u).mpr ⟨hu, hplaced⟩)
    · simpa using (hpost j).mpr ⟨hj, hlt, hplaced⟩

end Decides

section Low

variable {width k i : ℕ} {addressOfPage : Word}

theorem scannedBits_eq (hvalid : msrs.Valid i)
    (hformat : VariableFormat width (msrs.physBase i) (msrs.physMask i) k) (hk : k < 48) :
    msrs.scannedBits (i + 1) = k := by
  obtain ⟨hmin, hwidth⟩ := hformat.size
  have hbit : ∀ j, (MtrrPhysmask.pageFrameNumber.get (msrs.physMask i) * pageSize).getLsbD j =
      decide (j < 48 ∧ k ≤ j ∧ j < width) := by
    intro j
    have hmask := toNat_pageFrameNumber (msrs.physMask i)
    rw [storedAddress, hformat.mask] at hmask
    rw [BitVec.getLsbD]
    refine (congrArg (fun x => Nat.testBit x j) hmask).trans ?_
    rw [Nat.testBit_mod_two_pow, testBit_contiguousMask hwidth.le]
    simp only [Bool.decide_and]
  have hfound : (List.range 64).find? (fun j =>
      (MtrrPhysmask.pageFrameNumber.get (msrs.physMask i) * pageSize).getLsbD j) = some k := by
    rw [List.find?_range_eq_some]
    refine ⟨?_, List.mem_range.mpr (by omega), fun j hj => ?_⟩
    · rw [hbit]
      simp [hk, hwidth]
    · rw [hbit]
      simp [show ¬ k ≤ j by omega]
  rw [scannedBits, if_pos hvalid, bitScanForward64, hfound, Option.getD_some]

/-- Such a register is placed on the pages that it covers. -/
theorem placed_iff_covers (hvalid : msrs.Valid i)
    (hformat : VariableFormat width (msrs.physBase i) (msrs.physMask i) k) (hk : k < 48)
    (hbase : (mtrrAddress (msrs.physBase i)).toNat < 2 ^ 48)
    (haligned : addressOfPage.toNat % 4096 = 0) (hpage : addressOfPage.toNat < 2 ^ width) :
    msrs.Placed addressOfPage i ↔
      msrs.variableType i ≠ memoryTypeWriteBack ∧ msrs.Covers addressOfPage i := by
  obtain ⟨hmin, hwidth⟩ := hformat.size
  have hpow : 2 ^ k = 4096 * 2 ^ (k - 12) := by
    rw [show (4096 : ℕ) = 2 ^ 12 from rfl, ← Nat.pow_add, Nat.add_sub_cancel' hmin]
  have hstart : (mtrrAddress (msrs.physBase i)).toNat % 4096 = 0 := by
    rw [toNat_mtrrAddress]
    omega
  have hcovers : msrs.Covers addressOfPage i ↔
      (mtrrAddress (msrs.physBase i)).toNat ≤ addressOfPage.toNat ∧
        addressOfPage.toNat < (mtrrAddress (msrs.physBase i)).toNat + 2 ^ k := by
    rw [Covers, and_iff_right hvalid, ← BitVec.toNat_inj, BitVec.toNat_and, BitVec.toNat_and,
      hformat.mask, and_contiguousMask_eq_iff hwidth.le hpage hformat.base_lt hformat.aligned]
  rw [Placed, scannedBits_eq hvalid hformat hk, storedAddress, Nat.mod_eq_of_lt hbase, hcovers,
    hpow, and_iff_right hvalid]
  refine and_congr_right fun _ => ?_
  -- A page of the block leaves room for the last byte of the block.
  omega

/-- There, only a single write-back register under another default is not served. -/
theorem served_iff_of_low (haligned : addressOfPage.toNat % 4096 = 0)
    (hpage : addressOfPage.toNat < 2 ^ width)
    (hlow : ∀ i < msrs.variableCount, msrs.Valid i → ∃ k < 48,
      VariableFormat width (msrs.physBase i) (msrs.physMask i) k ∧
        (mtrrAddress (msrs.physBase i)).toNat < 2 ^ 48) :
    msrs.Served addressOfPage ↔
      ∀ i, msrs.OnlyCover addressOfPage i → msrs.variableType i = memoryTypeWriteBack →
        msrs.defaultType = memoryTypeWriteBack := by
  have hplaced : ∀ j < msrs.variableCount, msrs.Placed addressOfPage j ↔
      msrs.variableType j ≠ memoryTypeWriteBack ∧ msrs.Covers addressOfPage j := by
    intro j hj
    by_cases hvalid : msrs.Valid j
    · obtain ⟨k, hk, hformat, hbase⟩ := hlow j hj hvalid
      exact placed_iff_covers hvalid hformat hk hbase haligned hpage
    · exact ⟨fun h => absurd h.1 hvalid, fun h => absurd h.2.1 hvalid⟩
  constructor
  · intro hserved i honly hback
    have hnone : ∀ j < msrs.variableCount, ¬ msrs.Placed addressOfPage j := by
      intro j hj hj'
      obtain ⟨hother, hcovers⟩ := (hplaced j hj).mp hj'
      rw [honly.2.2 j hj hcovers] at hother
      exact hother hback
    rw [hserved.dropped i honly hnone, hback]
  · intro hdefault
    refine ⟨fun i d honly hd => ?_, fun i honly hnone => ?_, fun huncovered d hd => ?_⟩
    · rw [honly.2.2 d hd.placed.1 ((hplaced d hd.placed.1).mp hd.placed.2).2]
    · by_cases hback : msrs.variableType i = memoryTypeWriteBack
      · rw [hdefault i honly hback, hback]
      · exact absurd ((hplaced i honly.1).mpr ⟨hback, honly.2.1⟩) (hnone i honly.1)
    · exact absurd ((hplaced d hd.placed.1).mp hd.placed.2).2 (huncovered d hd.placed.1)

end Low

end MtrrMsrs

/-- Write-back memory below 4GB, and uncacheable by default. -/
def writeBackLow : MtrrMsrs where
  readmsr register :=
    if register = msrIa32MtrrDefType then 0x800#64
    else if register = msrIa32MtrrCapabilities then 1#64
    else if register = msrIa32MtrrPhysbase 0 then 6#64
    else if register = msrIa32MtrrPhysmask 0 then 0xF00000800#64
    else 0#64
  fixed64k := by decide
  fixed16k := by decide
  fixed4k := by decide
  physbase := by decide +kernel

theorem writeBackLow_wellFormed : writeBackLow.WellFormed 36 := by
  intro i hi _
  have hcount : writeBackLow.variableCount = 1 := by decide
  obtain rfl : i = 0 := by omega
  exact ⟨32, ⟨by decide, by decide, by decide, by decide⟩⟩

/-- A write-combining page at 2^48 + 1GB, uncacheable memory from 2GB to 4GB, and write-back by
default. -/
def combiningHigh : MtrrMsrs where
  readmsr register :=
    if register = msrIa32MtrrDefType then 0x806#64
    else if register = msrIa32MtrrCapabilities then 2#64
    else if register = msrIa32MtrrPhysbase 0 then 0x1000040000001#64
    else if register = msrIa32MtrrPhysmask 0 then 0xFFFFFFFFFF800#64
    else if register = msrIa32MtrrPhysbase 1 then 0x80000000#64
    else if register = msrIa32MtrrPhysmask 1 then 0xFFFFF80000800#64
    else 0#64
  fixed64k := by decide
  fixed16k := by decide
  fixed4k := by decide
  physbase := by decide +kernel

theorem combiningHigh_wellFormed : combiningHigh.WellFormed 52 := by
  intro i hi _
  have hcount : combiningHigh.variableCount = 2 := by decide
  obtain rfl | rfl : i = 0 ∨ i = 1 := by omega
  · exact ⟨12, ⟨by decide, by decide, by decide, by decide⟩⟩
  · exact ⟨31, ⟨by decide, by decide, by decide, by decide⟩⟩

/-- The write-combining page loses its type to the page at 1GB. -/
theorem not_honoured_of_high :
    combiningHigh.WellFormed 52 ∧
      ¬ combiningHigh.Honoured 0x1000040000#64
        (getMemoryType (buildMtrrMap combiningHigh.readmsr).1
          (buildMtrrMap combiningHigh.readmsr).2 0x1000040000#64 false) ∧
      ¬ combiningHigh.Honoured 0x40000#64
        (getMemoryType (buildMtrrMap combiningHigh.readmsr).1
          (buildMtrrMap combiningHigh.readmsr).2 0x40000#64 false) := by
  have hcount : combiningHigh.variableCount = 2 := by decide
  refine ⟨combiningHigh_wellFormed, fun hhonoured => ?_, fun hhonoured => ?_⟩
  · have honly : combiningHigh.OnlyCover (0x1000040000#64 * pageSize) 0 := by
      refine ⟨by decide, by decide, fun j hj hcovers => ?_⟩
      obtain rfl | rfl : j = 0 ∨ j = 1 := by omega
      · rfl
      · exact absurd hcovers (by decide)
    exact absurd (hhonoured.covered 0 honly) (by decide +kernel)
  · have huncovered : ∀ j < combiningHigh.variableCount,
        ¬ combiningHigh.Covers (0x40000#64 * pageSize) j := by
      rw [hcount]
      decide
    exact absurd (hhonoured.uncovered huncovered) (by decide +kernel)

end NovaHypervisor

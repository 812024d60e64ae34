import NovaHypervisor.General.BitField

/-!
Machine words, addresses and the structures of the extended page table. Entries
and registers are 64-bit words read and written through the bit fields of the
header's unions, so a store to a one-bit field keeps only the low bit.
-/
namespace NovaHypervisor

open General

abbrev Word := BitVec 64

abbrev Pvoid := Word

def null : Pvoid := 0

def pageSize : Word := 0x1000#64

def size2mb : Word := 0x200000#64

/-- The PAGE_ALIGN macro. -/
def pageAlign (address : Word) : Word := address &&& ~~~(pageSize - 1#64)

def addrmaskEptPml1Index (address : Word) : Word := (address &&& 0x1FF000#64) >>> 12

def addrmaskEptPml2Index (address : Word) : Word := (address &&& 0x3FE00000#64) >>> 21

def addrmaskEptPml3Index (address : Word) : Word := (address &&& 0x7FC0000000#64) >>> 30

def addrmaskEptPml4Index (address : Word) : Word := (address &&& 0xFF8000000000#64) >>> 39

/-- Masking nine bits at position `k` and shifting them down selects one index. -/
private theorem toNat_mask_shift (address : Word) (k : ℕ) (hk : 2 ^ k * 511 < 2 ^ 64) :
    ((address &&& BitVec.ofNat 64 (2 ^ k * 511)) >>> k).toNat = address.toNat / 2 ^ k % 512 := by
  have hmask : (2 ^ k * 511) >>> k = 2 ^ 9 - 1 := by
    rw [Nat.shiftRight_eq_div_pow, Nat.mul_div_cancel_left _ (Nat.two_pow_pos k)]
    rfl
  rw [BitVec.toNat_ushiftRight, BitVec.toNat_and, BitVec.toNat_ofNat, Nat.mod_eq_of_lt hk,
    Nat.shiftRight_and_distrib, hmask, Nat.and_two_pow_sub_one_eq_mod,
    Nat.shiftRight_eq_div_pow]

theorem toNat_pml1Index (address : Word) :
    (addrmaskEptPml1Index address).toNat = address.toNat / 4096 % 512 :=
  toNat_mask_shift address 12 (by decide)

theorem toNat_pml2Index (address : Word) :
    (addrmaskEptPml2Index address).toNat = address.toNat / 2097152 % 512 :=
  toNat_mask_shift address 21 (by decide)

theorem toNat_pml3Index (address : Word) :
    (addrmaskEptPml3Index address).toNat = address.toNat / 1073741824 % 512 :=
  toNat_mask_shift address 30 (by decide)

theorem toNat_pml4Index (address : Word) :
    (addrmaskEptPml4Index address).toNat = address.toNat / 549755813888 % 512 :=
  toNat_mask_shift address 39 (by decide)

/-- Rounding down to a page keeps the page number and clears the offset. -/
theorem toNat_pageAlign (address : Word) :
    (pageAlign address).toNat = address.toNat / 4096 * 4096 := by
  have hsplit : pageAlign address = (address >>> 12) <<< 12 := by
    apply BitVec.eq_of_getLsbD_eq
    intro i hi
    simp only [pageAlign, pageSize, BitVec.getLsbD_and, BitVec.getLsbD_not,
      BitVec.getLsbD_shiftLeft, BitVec.getLsbD_ushiftRight]
    have hmask : (0x1000#64 - 1#64).getLsbD i = decide (i < 12) := by
      rw [show (0x1000#64 - 1#64) = BitVec.ofNat 64 (2 ^ 12 - 1) from rfl,
        BitVec.getLsbD_ofNat, Nat.testBit_two_pow_sub_one]
      simp [hi]
    rw [hmask]
    by_cases hlow : i < 12
    · simp [hlow]
    · simp [hlow, hi, show 12 + (i - 12) = i by omega]
  have hlt := address.isLt
  rw [hsplit, BitVec.toNat_shiftLeft, BitVec.toNat_ushiftRight, Nat.shiftRight_eq_div_pow,
    Nat.shiftLeft_eq, Nat.mod_eq_of_lt (by omega)]

theorem pageAlign_pageAlign (address : Word) :
    pageAlign (pageAlign address) = pageAlign address := by
  apply BitVec.eq_of_toNat_eq
  simp only [toNat_pageAlign]
  omega

def pml1Index (address : Word) : Fin 512 :=
  ⟨(addrmaskEptPml1Index address).toNat, by rw [toNat_pml1Index]; omega⟩

def pml2Index (address : Word) : Fin 512 :=
  ⟨(addrmaskEptPml2Index address).toNat, by rw [toNat_pml2Index]; omega⟩

def pml3Index (address : Word) : Fin 512 :=
  ⟨(addrmaskEptPml3Index address).toNat, by rw [toNat_pml3Index]; omega⟩

-- The bit fields of the entries: `EPT_PML4`, `EPDPTE`, `EPDE_2MB`, `EPDE` and `EPTE`.
namespace EptPml4

def readAccess : BitField 64 := ⟨0, 1, by decide⟩
def writeAccess : BitField 64 := ⟨1, 1, by decide⟩
def executeAccess : BitField 64 := ⟨2, 1, by decide⟩
def pageFrameNumber : BitField 64 := ⟨12, 36, by decide⟩

end EptPml4

namespace Epdpte

def readAccess : BitField 64 := ⟨0, 1, by decide⟩
def writeAccess : BitField 64 := ⟨1, 1, by decide⟩
def executeAccess : BitField 64 := ⟨2, 1, by decide⟩
def pageFrameNumber : BitField 64 := ⟨12, 36, by decide⟩

end Epdpte

namespace Epde2mb

def readAccess : BitField 64 := ⟨0, 1, by decide⟩
def writeAccess : BitField 64 := ⟨1, 1, by decide⟩
def executeAccess : BitField 64 := ⟨2, 1, by decide⟩
def memoryType : BitField 64 := ⟨3, 3, by decide⟩
def ignorePat : BitField 64 := ⟨6, 1, by decide⟩
def largePage : BitField 64 := ⟨7, 1, by decide⟩
def pageFrameNumber : BitField 64 := ⟨21, 27, by decide⟩
def suppressVe : BitField 64 := ⟨63, 1, by decide⟩

end Epde2mb

namespace Epde

def readAccess : BitField 64 := ⟨0, 1, by decide⟩
def writeAccess : BitField 64 := ⟨1, 1, by decide⟩
def executeAccess : BitField 64 := ⟨2, 1, by decide⟩
def pageFrameNumber : BitField 64 := ⟨12, 36, by decide⟩

end Epde

namespace Epte

def readAccess : BitField 64 := ⟨0, 1, by decide⟩
def writeAccess : BitField 64 := ⟨1, 1, by decide⟩
def executeAccess : BitField 64 := ⟨2, 1, by decide⟩
def memoryType : BitField 64 := ⟨3, 3, by decide⟩
def ignorePat : BitField 64 := ⟨6, 1, by decide⟩
def pageFrameNumber : BitField 64 := ⟨12, 36, by decide⟩
def suppressVe : BitField 64 := ⟨63, 1, by decide⟩

end Epte

-- The bit fields of the MTRR registers.
namespace MtrrDefType

def defaultMemoryType : BitField 64 := ⟨0, 3, by decide⟩
def fixedRangeMtrrEnable : BitField 64 := ⟨10, 1, by decide⟩
def mtrrEnable : BitField 64 := ⟨11, 1, by decide⟩

end MtrrDefType

namespace MtrrCapabilities

def variableRangeCount : BitField 64 := ⟨0, 8, by decide⟩
def fixedRangeSupported : BitField 64 := ⟨8, 1, by decide⟩

end MtrrCapabilities

namespace MtrrPhysbase

def type : BitField 64 := ⟨0, 8, by decide⟩
def pageFrameNumber : BitField 64 := ⟨12, 36, by decide⟩

end MtrrPhysbase

namespace MtrrPhysmask

def valid : BitField 64 := ⟨11, 1, by decide⟩
def pageFrameNumber : BitField 64 := ⟨12, 36, by decide⟩

end MtrrPhysmask

-- The bit fields of `VMX_EXIT_QUALIFICATION_EPT_VIOLATION`.
namespace EptViolation

def readAccess : BitField 64 := ⟨0, 1, by decide⟩
def writeAccess : BitField 64 := ⟨1, 1, by decide⟩
def executeAccess : BitField 64 := ⟨2, 1, by decide⟩
def eptReadable : BitField 64 := ⟨3, 1, by decide⟩
def eptWriteable : BitField 64 := ⟨4, 1, by decide⟩
def eptExecutable : BitField 64 := ⟨5, 1, by decide⟩
def userModeLinearAddress : BitField 64 := ⟨9, 1, by decide⟩

end EptViolation

-- The bit fields of `IA32_VMX_EPT_VPID_CAP_REGISTER` that are read.
namespace EptVpidCapabilities

def executeOnlyPages : BitField 64 := ⟨0, 1, by decide⟩
def pageWalkLength4 : BitField 64 := ⟨6, 1, by decide⟩
def memoryTypeUncacheable : BitField 64 := ⟨8, 1, by decide⟩
def memoryTypeWriteBack : BitField 64 := ⟨14, 1, by decide⟩
def pde2MbPages : BitField 64 := ⟨16, 1, by decide⟩
def eptAccessedAndDirtyFlags : BitField 64 := ⟨21, 1, by decide⟩
def invvpid : BitField 64 := ⟨32, 1, by decide⟩
def invvpidIndividualAddress : BitField 64 := ⟨40, 1, by decide⟩
def invvpidSingleContext : BitField 64 := ⟨41, 1, by decide⟩
def invvpidAllContexts : BitField 64 := ⟨42, 1, by decide⟩

end EptVpidCapabilities

/-- A pointer to an entry of the two-dimensional PML2 array. -/
abbrev PeptPml2Entry := Fin 512 × Fin 512

/-- A pointer to an entry of a 4KB-paging table: the table's virtual address
and the index in it. The null pointer has table 0. -/
structure PeptPml1Entry where
  table : Pvoid
  index : Fin 512
  deriving DecidableEq

structure VmmEptPageTable where
  pml4 : Fin 512 → Word
  pml3 : Fin 512 → Word
  pml2 : PeptPml2Entry → Word

structure VmmEptDynamicSplit where
  pml1 : Fin 512 → Word
  entry : Option PeptPml2Entry

/-- A hook record. The links of its list entry are the position in the hook list. -/
structure EptHookedPageDetail where
  virtualAddress : Word
  physicalAddress : Word
  physicalBaseAddress : Word
  entryAddress : PeptPml1Entry
  originalEntry : Word
  changedEntry : Word
  isExecutionHook : Bool
  deriving DecidableEq

/-- What a pool buffer holds: a 4KB-paging table or a hook record, by its type. -/
structure PoolBuffer where
  split : VmmEptDynamicSplit
  detail : EptHookedPageDetail

instance : Zero PoolBuffer where
  zero := ⟨⟨fun _ => 0, none⟩, ⟨0, 0, 0, ⟨null, 0⟩, 0, 0, false⟩⟩

inductive AllocationType where
  | split2mbPagingTo4kbPage
  | eptHookPage
  deriving DecidableEq, Inhabited

/-- The addresses the kernel's pool allocator may hand out for a buffer of a type. -/
structure Allocator where
  grants : AllocationType → Pvoid → Bool
  grants_nonnull : ∀ type a, grants type a = true → a ≠ null

/-- The kernel services behind the driver. A 4KB-paging buffer is page aligned and
its physical address leads back to it; physical addresses fit the 48 bits that
the four levels of the table translate. -/
structure Os extends Allocator where
  mmGetPhysicalAddress : Word → Word
  mmGetVirtualForPhysical : Word → Word
  physical_lt : ∀ v, (mmGetPhysicalAddress v).toNat < 2 ^ 48
  physical_aligned : ∀ v, v.toNat % 4096 = 0 → (mmGetPhysicalAddress v).toNat % 4096 = 0
  grants_aligned : ∀ a, grants .split2mbPagingTo4kbPage a = true → a.toNat % 4096 = 0
  virtual_physical : ∀ a, grants .split2mbPagingTo4kbPage a = true →
    mmGetVirtualForPhysical (mmGetPhysicalAddress a) = a

/-- A machine whose physical and virtual addresses coincide below 512GB. -/
def flatOs : Os where
  grants _ a := 0 < a.toNat && a.toNat % 4096 = 0 && a.toNat < 2 ^ 39
  grants_nonnull := by
    intro type a h heq
    subst heq
    simp [null] at h
  mmGetPhysicalAddress v := v &&& 0x7FFFFFFFFF#64
  mmGetVirtualForPhysical p := p
  physical_lt := by
    intro v
    have hle : (v &&& 0x7FFFFFFFFF#64).toNat ≤ 0x7FFFFFFFFF := by
      rw [BitVec.toNat_and]
      exact Nat.and_le_right
    omega
  physical_aligned := by
    intro v hv
    rw [BitVec.toNat_and, show (0x7FFFFFFFFF#64).toNat = 2 ^ 39 - 1 from rfl,
      Nat.and_two_pow_sub_one_eq_mod]
    omega
  grants_aligned := by
    intro a h
    simp only [Bool.and_eq_true, decide_eq_true_eq] at h
    exact h.1.2
  virtual_physical := by
    intro a h
    simp only [Bool.and_eq_true, decide_eq_true_eq] at h
    apply BitVec.eq_of_toNat_eq
    rw [BitVec.toNat_and, show (0x7FFFFFFFFF#64).toNat = 2 ^ 39 - 1 from rfl,
      Nat.and_two_pow_sub_one_eq_mod, Nat.mod_eq_of_lt h.2]

end NovaHypervisor

import NovaHypervisor.SegmentDescriptor
import NovaHypervisor.General.BitField

/-!
What the guest's segment registers hold against the architectural decoding of their
descriptors. The signed base of a code or data segment is extended with its top bit,
and of the four null selectors only the selector 0 is marked unusable.
-/
namespace NovaHypervisor

open General VmxHelper

def baseField (d : Word) : BitVec 32 := d.extractLsb' 56 8 ++ d.extractLsb' 16 24

def limitField (d : Word) : BitVec 20 := d.extractLsb' 48 4 ++ d.extractLsb' 0 16

/-- Bit 44 is set for code and data segments. -/
def isSystem (d : Word) : Bool := !d.getLsbD 44

/-- A system segment has the high part of its base in the next descriptor. -/
def documentedBase (d next : Word) : Word :=
  if isSystem d then next.extractLsb' 0 32 ++ baseField d else (baseField d).setWidth 64

def documentedLimit (d : Word) : ℕ :=
  if d.getLsbD 55 then (limitField d).toNat * 4096 + 4095 else (limitField d).toNat

/-- The index of a null selector is 0; its requested privilege level is free. -/
def isNull (selector : BitVec 16) : Bool := selector >>> 3 = 0

def documentedRight (d : Word) (selector : BitVec 16) (i : ℕ) : Bool :=
  if i < 8 ∨ 12 ≤ i ∧ i < 16 then d.getLsbD (40 + i)
  else if i = 16 then isNull selector
  else false

def segmentFields (segmentRegister : BitVec 32) : List (BitVec 32) :=
  [guestEsSelector + segmentRegister * 2, guestEsLimit + segmentRegister * 2,
    guestEsArBytes + segmentRegister * 2, guestEsBase + segmentRegister * 2]

/-- The VMCS `vmcs'` has the descriptor's decoding and is otherwise the VMCS `vmcs`. -/
structure DecodedSegment (memory : ByteMemory) (gdtBase : Word) (segmentRegister : BitVec 32)
    (selector : BitVec 16) (vmcs vmcs' : VmcsContent) : Prop where
  sel : vmcs' (guestEsSelector + segmentRegister * 2) = selector.setWidth 64
  limit : (vmcs' (guestEsLimit + segmentRegister * 2)).toNat =
    documentedLimit (memory.read (segDesc gdtBase selector) 8)
  accessRights : ∀ i, (vmcs' (guestEsArBytes + segmentRegister * 2)).getLsbD i =
    documentedRight (memory.read (segDesc gdtBase selector) 8) selector i
  base : vmcs' (guestEsBase + segmentRegister * 2) =
    documentedBase (memory.read (segDesc gdtBase selector) 8)
      (memory.read (segDesc gdtBase selector + 8) 8)
  others : ∀ encoding ∉ segmentFields segmentRegister, vmcs' encoding = vmcs encoding

/-- The fields of the descriptor are parts of its 64 bits. -/
theorem loadDescriptor_eq (memory : ByteMemory) (a d : Word) (hd : memory.read a 8 = d) :
    loadDescriptor memory a =
      { limit0 := d.extractLsb' 0 16, base0 := d.extractLsb' 16 16,
        base1 := d.extractLsb' 32 8, attr0 := d.extractLsb' 40 8,
        limit1Attr1 := d.extractLsb' 48 8, base2 := d.extractLsb' 56 8 } := by
  subst hd
  have hbyte : ∀ k, k + 1 ≤ 8 → memory (a + BitVec.ofNat 64 k) =
      (memory.read a 8).extractLsb' (8 * k) 8 := by
    intro k hk
    have hone := memory.read_one (a + BitVec.ofNat 64 k)
    exact hone.symm.trans (memory.read_part a hk)
  have hlimit : memory.read a 2 = (memory.read a 8).extractLsb' 0 16 := by
    have hpart := memory.read_part a (n := 2) (k := 0) (N := 8) (by decide)
    rwa [BitVec.add_zero] at hpart
  have hbase : memory.read (a + 2) 2 = (memory.read a 8).extractLsb' 16 16 :=
    memory.read_part a (n := 2) (k := 2) (N := 8) (by decide)
  rw [loadDescriptor, hlimit, hbase]
  congr 1
  · exact hbyte 4 (by decide)
  · exact hbyte 5 (by decide)
  · exact hbyte 6 (by decide)
  · exact hbyte 7 (by decide)

section Fields

variable (memory : ByteMemory) (a d : Word) (hd : memory.read a 8 = d)

include hd

theorem baseInt_load : baseInt (loadDescriptor memory a) = baseField d := by
  rw [loadDescriptor_eq memory a d hd]
  apply BitVec.eq_of_getLsbD_eq
  intro i hi
  simp only [baseInt, baseField, BitVec.getLsbD_or, BitVec.getLsbD_shiftLeft,
    BitVec.getLsbD_setWidth, BitVec.getLsbD_append, BitVec.getLsbD_extractLsb']
  have hwidth : ∀ k, i - k < 32 := by omega
  rcases (by omega : i < 16 ∨ (16 ≤ i ∧ i < 24) ∨ (24 ≤ i ∧ i < 32)) with h | ⟨h, h'⟩ | ⟨h, h'⟩
  · simp [h, hi, show i < 24 by omega]
  · simp [h', hi, hwidth, show ¬ i < 16 by omega, show i - 16 < 8 by omega,
      show 32 + (i - 16) = 16 + i by omega]
  · simp [hi, hwidth, show ¬ i < 16 by omega, show ¬ i < 24 by omega,
      show ¬ i - 16 < 8 by omega, show i - 24 < 8 by omega]

theorem limitInt_load : limitInt (loadDescriptor memory a) = (limitField d).setWidth 32 := by
  have hmask : ∀ i, (0xF#32).getLsbD i = decide (i < 4) :=
    (BitField.getLsbD_mask ⟨0, 4, by decide⟩)
  rw [loadDescriptor_eq memory a d hd]
  apply BitVec.eq_of_getLsbD_eq
  intro i hi
  simp only [limitInt, limitField, BitVec.getLsbD_or, BitVec.getLsbD_shiftLeft,
    BitVec.getLsbD_setWidth, BitVec.getLsbD_append, BitVec.getLsbD_extractLsb',
    BitVec.getLsbD_and, hmask]
  by_cases hlow : i < 16
  · simp [hlow, hi]
  by_cases hhigh : i - 16 < 4
  · simp [hlow, hhigh, hi, show i - 16 < 8 by omega, show i - 16 < 32 by omega]
  · simp [hlow, hhigh]

theorem attributesOf_load : attributesOf (loadDescriptor memory a) =
    (d.extractLsb' 52 4 ++ d.extractLsb' 40 8).setWidth 16 := by
  have hmask : ∀ i < 16, (0xF0#16).getLsbD i = decide (4 ≤ i ∧ i < 8) := by decide
  rw [loadDescriptor_eq memory a d hd]
  apply BitVec.eq_of_getLsbD_eq
  intro i hi
  simp only [attributesOf, BitVec.getLsbD_or, BitVec.getLsbD_shiftLeft,
    BitVec.getLsbD_setWidth, BitVec.getLsbD_append, BitVec.getLsbD_extractLsb',
    BitVec.getLsbD_and]
  by_cases hlow : i < 8
  · have hmid : i - 4 < 4 := by omega
    simp [hlow, hi, hmask (i - 4) (by omega), show ¬ 4 ≤ i - 4 by omega]
  by_cases hhigh : i - 8 < 4
  · simp [hlow, hhigh, hi, hmask (i - 4) (by omega), show 4 ≤ i - 4 by omega,
      show i - 4 < 8 by omega, show ¬ i < 4 by omega, show i - 4 < 16 by omega,
      show 48 + (i - 4) = 52 + (i - 8) by omega]
  · simp [hlow, hhigh, hmask (i - 4) (by omega), show ¬ i - 4 < 8 by omega]

theorem isSystem_load :
    (loadDescriptor memory a).attr0 &&& 0x10#8 = 0 ↔ isSystem d = true := by
  have hbit : (loadDescriptor memory a).attr0.getLsbD 4 = d.getLsbD 44 := by
    rw [loadDescriptor_eq memory a d hd, BitVec.getLsbD_extractLsb']
    rfl
  have hmask : 0x10#8 = BitVec.twoPow 8 4 := by decide
  rw [hmask, BitVec.and_twoPow, hbit, isSystem]
  cases d.getLsbD 44 <;> decide

end Fields

/-- The low half of the base, and the high half that the next descriptor adds. -/
theorem systemBase_eq (base : BitVec 32) (next : Word) :
    (base.signExtend 64 &&& 0xFFFFFFFF#64) ||| next <<< 32 = next.extractLsb' 0 32 ++ base := by
  have hmask : ∀ i < 64, (0xFFFFFFFF#64).getLsbD i = decide (i < 32) := by decide
  apply BitVec.eq_of_getLsbD_eq
  intro i hi
  have hwide : i < 64 := hi
  simp only [BitVec.getLsbD_or, BitVec.getLsbD_and, BitVec.getLsbD_signExtend,
    BitVec.getLsbD_shiftLeft, BitVec.getLsbD_append, BitVec.getLsbD_extractLsb', hmask i hwide]
  by_cases hlow : i < 32
  · simp [hlow, hwide]
  · simp [hlow, hwide, show i - 32 < 32 by omega]

theorem signExtend_eq_setWidth_iff (x : BitVec 32) :
    x.signExtend 64 = x.setWidth 64 ↔ x.msb = false := by
  constructor
  · intro h
    have htop := congrArg (fun y => BitVec.getLsbD y 63) h
    simp only [BitVec.getLsbD_signExtend, BitVec.getLsbD_setWidth] at htop
    rw [BitVec.getLsbD_of_ge x 63 (by decide)] at htop
    simpa using htop
  · exact BitVec.signExtend_eq_setWidth_of_msb_false

theorem baseField_msb (d : Word) : (baseField d).msb = d.msb := by
  rw [BitVec.msb_eq_getLsbD_last, BitVec.msb_eq_getLsbD_last, baseField, BitVec.getLsbD_append,
    if_neg (by decide), BitVec.getLsbD_extractLsb']
  rfl

theorem scaledLimit_toNat (x : BitVec 20) :
    ((x.setWidth 32 <<< 12) + 0xFFF#32).toNat = x.toNat * 4096 + 4095 := by
  have hx := x.isLt
  rw [BitVec.toNat_add, BitVec.toNat_shiftLeft, BitVec.toNat_setWidth, Nat.shiftLeft_eq,
    Nat.mod_eq_of_lt (a := x.toNat) (by omega), Nat.mod_eq_of_lt (a := x.toNat * 2 ^ 12) (by omega)]
  exact Nat.mod_eq_of_lt (by simp; omega)

/-- What is read from a descriptor of the global table. -/
theorem getSegmentDescriptor_spec (memory : ByteMemory) {selector : BitVec 16} (gdtBase : Word)
    {d next : Word} (htable : selector &&& 4#16 = 0)
    (hd : memory.read (segDesc gdtBase selector) 8 = d)
    (hnext : memory.read (segDesc gdtBase selector + 8) 8 = next) :
    ∃ s, getSegmentDescriptor memory selector gdtBase = some s ∧
      s.attributes = (d.extractLsb' 52 4 ++ d.extractLsb' 40 8).setWidth 16 ∧
      s.limit.toNat = documentedLimit d ∧
      s.base = if isSystem d then next.extractLsb' 0 32 ++ baseField d
        else (baseField d).signExtend 64 := by
  have hattributes := attributesOf_load memory _ d hd
  have hg : (attributesOf (loadDescriptor memory (segDesc gdtBase selector))).getLsbD 11 =
      d.getLsbD 55 := by
    rw [hattributes, BitVec.getLsbD_setWidth, BitVec.getLsbD_append, if_neg (by decide),
      BitVec.getLsbD_extractLsb']
    rfl
  have hlimit : ((limitField d).setWidth 32).toNat = (limitField d).toNat :=
    BitVec.toNat_setWidth_of_le (by decide)
  simp only [getSegmentDescriptor, htable, ne_eq, not_true_eq_false, if_false,
    isSystem_load memory _ d hd, hnext, baseInt_load memory _ d hd,
    limitInt_load memory _ d hd, systemBase_eq]
  refine ⟨_, rfl, ?_, ?_, ?_⟩
  · split_ifs <;> exact hattributes
  · cases isSystem d <;> cases hscaled : d.getLsbD 55 <;>
      simp only [SegmentSelector.g, hg, hscaled, documentedLimit, Bool.false_eq_true, if_false,
        if_true, hlimit, scaledLimit_toNat]
  · split_ifs <;> rfl

/-- The low byte of the attributes stays in place and the high byte is shifted by 12. -/
theorem getLsbD_accessRightsOf (attributes selector : BitVec 16) (i : ℕ) :
    (accessRightsOf attributes selector).getLsbD i =
      ((decide (i < 8) && attributes.getLsbD i) ||
        (decide (12 ≤ i ∧ i < 20) && attributes.getLsbD (i - 4)) ||
        decide (i = 16 ∧ selector = 0)) := by
  have hlow : ∀ j, ((attributes.extractLsb' 0 8).setWidth 32).getLsbD j =
      (decide (j < 8) && attributes.getLsbD j) := by
    intro j
    rw [BitVec.getLsbD_setWidth, BitVec.getLsbD_extractLsb', Nat.zero_add]
    by_cases hj : j < 8
    · simp [hj, show j < 32 by omega]
    · simp [hj]
  have hhigh : ∀ j, ((attributes.extractLsb' 8 8).setWidth 32 <<< 12).getLsbD j =
      (decide (12 ≤ j ∧ j < 20) && attributes.getLsbD (j - 4)) := by
    intro j
    rw [BitVec.getLsbD_shiftLeft, BitVec.getLsbD_setWidth, BitVec.getLsbD_extractLsb']
    by_cases hj : 12 ≤ j ∧ j < 20
    · simp [hj, show j < 32 by omega, show ¬ j < 12 by omega, show j - 12 < 32 by omega,
        show j - 12 < 8 by omega, show 8 + (j - 12) = j - 4 by omega]
    · by_cases hge : j < 12
      · simp [hge, show ¬ 12 ≤ j by omega]
      · simp [hj, show ¬ j - 12 < 8 by omega]
  -- The two bytes do not overlap, so that their sum is their union.
  have hsum := BitVec.add_eq_or_of_and_eq_zero ((attributes.extractLsb' 0 8).setWidth 32)
    ((attributes.extractLsb' 8 8).setWidth 32 <<< 12) ?_
  · have hnull : 0x10000#32 = BitVec.twoPow 32 16 := by decide
    rw [accessRightsOf, hsum]
    by_cases hsel : selector = 0
    · rw [if_pos hsel, BitVec.getLsbD_or, BitVec.getLsbD_or, hlow, hhigh, hnull]
      simp [hsel, eq_comm]
    · rw [if_neg hsel, BitVec.getLsbD_or, hlow, hhigh]
      simp only [hsel, and_false, decide_false, Bool.or_false]
  · apply BitVec.eq_of_getLsbD_eq
    intro j _
    rw [BitVec.getLsbD_and, hlow, hhigh]
    by_cases hj : j < 8
    · simp [show ¬ 12 ≤ j by omega]
    · simp [hj]

/-- The access rights that are written for the attributes of a descriptor. -/
theorem getLsbD_descriptorRights (d : Word) (selector : BitVec 16) (i : ℕ) :
    (accessRightsOf ((d.extractLsb' 52 4 ++ d.extractLsb' 40 8).setWidth 16) selector).getLsbD i =
      if i < 8 ∨ 12 ≤ i ∧ i < 16 then d.getLsbD (40 + i)
      else decide (i = 16 ∧ selector = 0) := by
  rw [getLsbD_accessRightsOf]
  simp only [BitVec.getLsbD_setWidth, BitVec.getLsbD_append, BitVec.getLsbD_extractLsb']
  by_cases hlow : i < 8
  · simp [hlow, show i < 16 by omega, show ¬ 12 ≤ i by omega, show i ≠ 16 by omega]
  by_cases hhigh : 12 ≤ i ∧ i < 16
  · simp [hlow, hhigh, show i < 20 by omega, show i - 4 < 16 by omega, show ¬ i - 4 < 8 by omega,
      show i - 4 - 8 < 4 by omega, show 52 + (i - 4 - 8) = 40 + i by omega,
      show i ≠ 16 by omega]
  · by_cases hrest : 12 ≤ i
    · simp [hlow, hhigh, show ¬ i - 4 < 8 by omega, show ¬ i - 4 - 8 < 4 by omega]
    · simp [hlow, hrest]

theorem segmentFields_nodup (segmentRegister : Segregs) :
    (segmentFields segmentRegister.value).Nodup := by
  cases segmentRegister <;> decide

theorem segmentFields_width (segmentRegister : Segregs) :
    (segmentFields segmentRegister.value).map VmcsContent.width = [16, 32, 32, 64] := by
  cases segmentRegister <;> decide

theorem fillGuestSelectorData_eq {memory : ByteMemory} {gdtBase : Word} {selector : BitVec 16}
    {s : SegmentSelector} (hget : getSegmentDescriptor memory selector gdtBase = some s)
    (segmentRegister : Segregs) (vmcs : VmcsContent) :
    ∃ vmcs', fillGuestSelectorData memory gdtBase segmentRegister.value selector vmcs =
        (true, vmcs') ∧
      vmcs' (guestEsSelector + segmentRegister.value * 2) = selector.setWidth 64 ∧
      vmcs' (guestEsLimit + segmentRegister.value * 2) = s.limit.setWidth 64 ∧
      vmcs' (guestEsArBytes + segmentRegister.value * 2) =
        (accessRightsOf s.attributes selector).setWidth 64 ∧
      vmcs' (guestEsBase + segmentRegister.value * 2) = s.base ∧
      ∀ encoding ∉ segmentFields segmentRegister.value, vmcs' encoding = vmcs encoding := by
  have hnodup := segmentFields_nodup segmentRegister
  have hwidth := segmentFields_width segmentRegister
  simp only [segmentFields, List.nodup_cons, List.mem_cons, List.not_mem_nil, or_false, not_or,
    List.map_cons, List.map_nil, List.cons.injEq, and_true] at hnodup hwidth
  obtain ⟨⟨hsl, hsa, hsb⟩, ⟨hla, hlb⟩, hab, -⟩ := hnodup
  obtain ⟨hw16, hwlimit, hwrights, hw64⟩ := hwidth
  have hbase := VmcsContent.vmwrite_self hw64 (by decide) s.base
  rw [BitVec.setWidth_eq] at hbase
  rw [fillGuestSelectorData, hget]
  refine ⟨_, rfl, ?_, ?_, ?_, hbase _, ?_⟩
  · rw [VmcsContent.vmwrite_of_ne hsb, VmcsContent.vmwrite_of_ne hsa,
      VmcsContent.vmwrite_of_ne hsl, VmcsContent.vmwrite_self hw16 (by decide)]
  · rw [VmcsContent.vmwrite_of_ne hlb, VmcsContent.vmwrite_of_ne hla,
      VmcsContent.vmwrite_self hwlimit (by decide)]
  · rw [VmcsContent.vmwrite_of_ne hab, VmcsContent.vmwrite_self hwrights (by decide)]
  · intro encoding hout
    simp only [segmentFields, List.mem_cons, List.not_mem_nil, or_false, not_or] at hout
    rw [VmcsContent.vmwrite_of_ne hout.2.2.2, VmcsContent.vmwrite_of_ne hout.2.2.1,
      VmcsContent.vmwrite_of_ne hout.2.1, VmcsContent.vmwrite_of_ne hout.1]

/-- The descriptor's base has no sign to extend, or the high part of a system base replaces
it; and a null selector is the selector 0. -/
def DecodesExactly (d : Word) (selector : BitVec 16) : Prop :=
  (isSystem d = true ∨ d.msb = false) ∧ (isNull selector = true → selector = 0)

/-- The base that is stored is the documented one exactly if no sign is extended. -/
theorem base_eq_documented_iff (d next : Word) :
    (if isSystem d then next.extractLsb' 0 32 ++ baseField d
      else (baseField d).signExtend 64) = documentedBase d next ↔
      isSystem d = true ∨ d.msb = false := by
  rw [documentedBase]
  cases isSystem d with
  | false =>
    simp only [Bool.false_eq_true, if_false, false_or]
    rw [signExtend_eq_setWidth_iff, baseField_msb]
  | true => simp

/-- The rights that are stored are the documented ones exactly if no null selector but 0
is left usable. -/
theorem rights_eq_documented_iff (d : Word) (selector : BitVec 16) :
    (∀ i, (accessRightsOf ((d.extractLsb' 52 4 ++ d.extractLsb' 40 8).setWidth 16)
      selector).getLsbD i = documentedRight d selector i) ↔
      (isNull selector = true → selector = 0) := by
  have hnull : selector = 0 → isNull selector = true := by
    rintro rfl
    decide
  simp only [getLsbD_descriptorRights, documentedRight]
  constructor
  · intro h hzero
    simpa [hzero] using h 16
  · intro h i
    have hiff : decide (selector = 0) = isNull selector := by
      rw [Bool.eq_iff_iff, decide_eq_true_iff]
      exact ⟨hnull, h⟩
    by_cases hunusable : i = 16
    · simp [hunusable, ← hiff]
    · simp [hunusable]

/-- A table with one descriptor, at index 2. -/
def oneDescriptor (d : Word) : ByteMemory := ByteMemory.write (n := 8) (fun _ => 0) 0x10#64 d

/-- A data segment at 2GB gets a base with ones above. -/
theorem not_decodedSegment_highBase :
    ¬ ∃ vmcs', fillGuestSelectorData (oneDescriptor 0x80CF93000000FFFF#64) 0 Segregs.ds.value
        0x10#16 (fun _ => 0) = (true, vmcs') ∧
      DecodedSegment (oneDescriptor 0x80CF93000000FFFF#64) 0 Segregs.ds.value 0x10#16
        (fun _ => 0) vmcs' := by
  rintro ⟨vmcs', heq, hdecoded⟩
  have hstored : (fillGuestSelectorData (oneDescriptor 0x80CF93000000FFFF#64) 0
      Segregs.ds.value 0x10#16 (fun _ => 0)).2 (guestEsBase + Segregs.ds.value * 2) =
        0xFFFFFFFF80000000#64 := by decide
  have hdocumented : documentedBase
      ((oneDescriptor 0x80CF93000000FFFF#64).read (segDesc 0 0x10#16) 8)
      ((oneDescriptor 0x80CF93000000FFFF#64).read (segDesc 0 0x10#16 + 8) 8) =
        0x80000000#64 := by decide
  have hbase := hdecoded.base
  rw [heq] at hstored
  rw [hdocumented] at hbase
  exact absurd (hstored.symm.trans hbase) (by decide)

/-- A segment register has its descriptor's decoding exactly if the base is not
sign-extended and the selector is no null selector with a privilege level. -/
theorem decodedSegment_iff (memory : ByteMemory) (gdtBase : Word) (segmentRegister : Segregs)
    (selector : BitVec 16) (vmcs : VmcsContent) (htable : selector &&& 4#16 = 0) :
    (∃ vmcs', fillGuestSelectorData memory gdtBase segmentRegister.value selector vmcs =
        (true, vmcs') ∧
      DecodedSegment memory gdtBase segmentRegister.value selector vmcs vmcs') ↔
      DecodesExactly (memory.read (segDesc gdtBase selector) 8) selector := by
  obtain ⟨s, hget, hattributes, hlimit, hbase⟩ :=
    getSegmentDescriptor_spec memory gdtBase htable rfl rfl
  obtain ⟨vmcs', hfill, hsel, hlim, hrights, hstored, hothers⟩ :=
    fillGuestSelectorData_eq hget segmentRegister vmcs
  have hbases := base_eq_documented_iff (memory.read (segDesc gdtBase selector) 8)
    (memory.read (segDesc gdtBase selector + 8) 8)
  rw [← hbase, ← hstored] at hbases
  have hbits := rights_eq_documented_iff (memory.read (segDesc gdtBase selector) 8) selector
  rw [← hattributes] at hbits
  have hwide : ∀ i, (vmcs' (guestEsArBytes + segmentRegister.value * 2)).getLsbD i =
      (accessRightsOf s.attributes selector).getLsbD i := by
    intro i
    rw [hrights, BitVec.getLsbD_setWidth]
    by_cases hi : i < 64
    · simp [hi]
    · simp [hi, BitVec.getLsbD_of_ge (accessRightsOf s.attributes selector) i (by omega)]
  rw [hfill]
  constructor
  · rintro ⟨_, heq, hdecoded⟩
    obtain rfl := (Prod.mk.inj heq).2
    refine ⟨hbases.mp hdecoded.base, hbits.mp ?_⟩
    intro i
    rw [← hwide, hdecoded.accessRights]
  · rintro ⟨hsign, hnull⟩
    refine ⟨vmcs', rfl, hsel, ?_, ?_, hbases.mpr hsign, hothers⟩
    · rw [hlim, BitVec.toNat_setWidth_of_le (by decide), hlimit]
    · intro i
      rw [hwide, hbits.mpr hnull]

theorem decodedSegment_iff_flat :
    ∃ vmcs', fillGuestSelectorData (oneDescriptor 0x00CF93000000FFFF#64) 0 Segregs.ds.value
        0x10#16 (fun _ => 0) = (true, vmcs') ∧
      DecodedSegment (oneDescriptor 0x00CF93000000FFFF#64) 0 Segregs.ds.value 0x10#16
        (fun _ => 0) vmcs' := by
  apply (decodedSegment_iff _ 0 Segregs.ds 0x10#16 _ (by decide)).mpr
  exact ⟨Or.inr (by decide), by decide⟩

end NovaHypervisor

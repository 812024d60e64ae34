import NovaHypervisor.Mtrr
import NovaHypervisor.VmcsSetup

/-!
The checks that a VM entry makes on the control fields and on the selectors of the host.
Each set of controls must have the bits that its capability MSR requires and no bits that
the MSR does not allow, the controls must suit each other, and the structures that they
turn on must be well formed.
-/
namespace NovaHypervisor

open General VmxHelper

/-- A capability MSR as documented: the processor requires no bit that it does not allow, and
none outside those that are reserved to one by default. -/
def DocumentedCapability (msrValue : Word) (defaults : List ℕ) : Prop :=
  ∀ i < 32, msrValue.getLsbD i = true → msrValue.getLsbD (32 + i) = true ∧ i ∈ defaults

def defaultPinBased : List ℕ := [1, 2, 4]

def defaultProcBased : List ℕ := [1, 4, 5, 6, 8, 13, 14, 15, 16, 26]

def defaultExit : List ℕ := [0, 1, 2, 3, 4, 5, 6, 7, 8, 10, 11, 13, 14, 16, 17]

def defaultEntry : List ℕ := [0, 1, 2, 3, 4, 5, 6, 7, 8, 12]

/-- The capability MSRs, each with the controls that it may require. -/
def capabilityMsrs : List (BitVec 32 × List ℕ) :=
  [(msrIa32VmxPinbasedCtls, defaultPinBased), (msrIa32VmxTruePinbasedCtls, defaultPinBased),
    (msrIa32VmxProcbasedCtls, defaultProcBased), (msrIa32VmxTrueProcbasedCtls, defaultProcBased),
    (msrIa32VmxProcbasedCtls2, []), (msrIa32VmxExitCtls, defaultExit),
    (msrIa32VmxTrueExitCtls, defaultExit), (msrIa32VmxEntryCtls, defaultEntry),
    (msrIa32VmxTrueEntryCtls, defaultEntry)]

/-- The settings that a capability MSR reports, for a field of 32 bits. -/
def AllowedSettings (msrValue value : Word) : Prop :=
  ∀ i < 32, (msrValue.getLsbD i = true → value.getLsbD i = true) ∧
    (value.getLsbD i = true → msrValue.getLsbD (32 + i) = true)

/-- What one control asks of others. -/
structure Compatible (pinBased cpuBased secondary exit entry : Word) : Prop where
  virtualNmis : pinBased.getLsbD 5 = true → pinBased.getLsbD 3 = true
  nmiWindow : cpuBased.getLsbD 22 = true → pinBased.getLsbD 5 = true
  tprShadow : ∀ i ∈ [4, 8, 9], secondary.getLsbD i = true → cpuBased.getLsbD 21 = true
  x2apicMode : secondary.getLsbD 4 = true → secondary.getLsbD 0 = false
  interruptDelivery : secondary.getLsbD 9 = true → pinBased.getLsbD 0 = true
  postedInterrupts : pinBased.getLsbD 7 = true →
    secondary.getLsbD 9 = true ∧ exit.getLsbD 15 = true
  ept : ∀ i ∈ [7, 17, 22, 23, 24], secondary.getLsbD i = true → secondary.getLsbD 1 = true
  preemptionTimer : exit.getLsbD 22 = true → pinBased.getLsbD 6 = true
  systemManagement : entry.getLsbD 10 = false ∧ entry.getLsbD 11 = false

/-- The controls are off whose structures have no field here: posted interrupts; tertiary
controls, the TPR shadow and I/O bitmaps; the APIC-access page, VM functions, VMCS shadowing,
the page-modification log, virtualization exceptions, PASID translation, sub-page rights,
processor traces and TSC scaling. -/
structure Plain (pinBased cpuBased secondary : Word) : Prop where
  pinBased : pinBased.getLsbD 7 = false
  cpuBased : ∀ i ∈ [17, 21, 25], cpuBased.getLsbD i = false
  secondary : ∀ i ∈ [0, 13, 14, 17, 18, 21, 23, 24, 25], secondary.getLsbD i = false

def msrIa32VmxEptVpidCap : BitVec 32 := 0x48C

/-- Whether the critical features are there, and the value of `executeOnlySupport` behind the
call. -/
def LogicalProcessor.checkFeatures (p : LogicalProcessor) (executeOnlySupport : Bool) :
    Bool × Bool :=
  let vpidRegister := p.readmsr msrIa32VmxEptVpidCap
  let mtrrDefType := p.readmsr msrIa32MtrrDefType
  if EptVpidCapabilities.pageWalkLength4.get vpidRegister = 0 ∨
      EptVpidCapabilities.memoryTypeWriteBack.get vpidRegister = 0 ∨
      EptVpidCapabilities.pde2MbPages.get vpidRegister = 0 ∨
      MtrrDefType.mtrrEnable.get mtrrDefType = 0 then (false, executeOnlySupport)
  else if EptVpidCapabilities.executeOnlyPages.get vpidRegister = 0 then (true, false)
  else (true, executeOnlySupport)

/-- A supported type of the paging structures, a supported walk of four levels, accessed and
dirty flags only where there are any, and no reserved bit. -/
structure ValidEptp (capabilities : Word) (physicalWidth : ℕ) (eptp : Word) : Prop where
  memoryType :
    eptp.toNat % 8 = 0 ∧ EptVpidCapabilities.memoryTypeUncacheable.get capabilities ≠ 0 ∨
    eptp.toNat % 8 = 6 ∧ EptVpidCapabilities.memoryTypeWriteBack.get capabilities ≠ 0
  pageWalk : eptp.toNat / 8 % 8 = 3 ∧ EptVpidCapabilities.pageWalkLength4.get capabilities ≠ 0
  flags : eptp.toNat / 64 % 2 = 1 →
    EptVpidCapabilities.eptAccessedAndDirtyFlags.get capabilities ≠ 0
  reserved : eptp.toNat / 128 % 32 = 0 ∧ eptp.toNat < 2 ^ physicalWidth

/-- The fields that `LogicalProcessorInitialize` sets: the memory type in the bits from 0, the
length of the walk in those from 3 and 36 bits of the page frame number in those from 12. -/
def eptPointerOf (pml4Physical : Word) : Word :=
  BitVec.ofNat 64 (6 + 3 * 8 + pml4Physical.toNat / 4096 % 2 ^ 36 * 4096)

/-- The checks of a processor whose physical addresses have `physicalWidth` bits. -/
structure ValidControls (p : LogicalProcessor) (physicalWidth : ℕ) (vmcs : VmcsContent) :
    Prop where
  pinBased : AllowedSettings (p.capability msrIa32VmxTruePinbasedCtls msrIa32VmxPinbasedCtls)
    (vmcs 0x4000)
  cpuBased : AllowedSettings (p.capability msrIa32VmxTrueProcbasedCtls msrIa32VmxProcbasedCtls)
    (vmcs 0x4002)
  secondary : AllowedSettings (p.readmsr msrIa32VmxProcbasedCtls2) (vmcs 0x401E)
  exit : AllowedSettings (p.capability msrIa32VmxTrueExitCtls msrIa32VmxExitCtls) (vmcs 0x400C)
  entry : AllowedSettings (p.capability msrIa32VmxTrueEntryCtls msrIa32VmxEntryCtls) (vmcs 0x4012)
  compatible :
    Compatible (vmcs 0x4000) (vmcs 0x4002) (vmcs 0x401E) (vmcs 0x400C) (vmcs 0x4012)
  plain : Plain (vmcs 0x4000) (vmcs 0x4002) (vmcs 0x401E)
  cr3TargetCount : (vmcs 0x400A).toNat ≤ 4
  msrBitmap : (vmcs 0x4002).getLsbD 28 = true →
    (vmcs 0x2004).toNat % 4096 = 0 ∧ (vmcs 0x2004).toNat < 2 ^ physicalWidth
  ept : (vmcs 0x401E).getLsbD 1 = true →
    ValidEptp (p.readmsr msrIa32VmxEptVpidCap) physicalWidth (vmcs 0x201A)
  vpid : (vmcs 0x401E).getLsbD 5 = true → vmcs 0x0 ≠ 0
  msrLists : vmcs 0x400E = 0 ∧ vmcs 0x4010 = 0 ∧ vmcs 0x4014 = 0
  noEvent : (vmcs 0x4016).getLsbD 31 = false
  linkPointer : vmcs 0x2800 = 0xFFFFFFFFFFFFFFFF
  hostSelectors : ∀ encoding ∈ [0xC00#32, 0xC02#32, 0xC04#32, 0xC06#32, 0xC08#32, 0xC0A#32,
    0xC0C#32], (vmcs encoding).toNat % 8 = 0
  hostCode : vmcs 0xC02 ≠ 0
  hostTask : vmcs 0xC0C ≠ 0

namespace LogicalProcessor

variable {p : LogicalProcessor} {s : LaunchParameters} {vmcs : VmcsContent}

/-- Whatever is requested, the adjusted controls are allowed. -/
theorem adjustControls_allowed (ctl : BitVec 32) {msrValue : Word} {defaults : List ℕ}
    (h : DocumentedCapability msrValue defaults) :
    AllowedSettings msrValue ((adjustControls ctl msrValue).setWidth 64) := by
  intro i hi
  have hwide : i < 64 := by omega
  rw [BitVec.getLsbD_setWidth, decide_eq_true hwide, Bool.true_and, adjustControls_getLsbD _ _ hi]
  refine ⟨fun hrequired => by simp [hrequired], fun hset => ?_⟩
  rcases Bool.or_eq_true _ _ ▸ hset with hrequested | hrequired
  · exact (Bool.and_eq_true _ _ ▸ hrequested).2
  · exact (h i hi hrequired).1

/-- A control that is neither requested nor required is off. -/
theorem adjustControls_off {ctl : BitVec 32} {msrValue : Word} {defaults : List ℕ}
    (h : DocumentedCapability msrValue defaults) {i : ℕ}
    (hi : i < 32 ∧ ctl.getLsbD i = false ∧ i ∉ defaults) :
    ((adjustControls ctl msrValue).setWidth 64).getLsbD i = false := by
  obtain ⟨hlt, hctl, hnot⟩ := hi
  have hwide : i < 64 := by omega
  have hfree : msrValue.getLsbD i = false :=
    Bool.eq_false_iff.mpr fun hrequired => hnot (h i hlt hrequired).2
  rw [BitVec.getLsbD_setWidth, decide_eq_true hwide, Bool.true_and,
    adjustControls_getLsbD _ _ hlt, hctl, hfree]
  rfl

theorem setupVmcs_control {encoding : BitVec 32} {value : BitVec 32}
    (h : (encoding, value.setWidth 64) ∈ p.controlWrites s)
    (hwidth : VmcsContent.width encoding = 32) :
    setupVmcs p s vmcs encoding = value.setWidth 64 := by
  refine setupVmcs_later (mem_laterWrites_of_control h) ?_
  rw [hwidth, BitVec.toNat_setWidth_of_le (by decide)]
  exact value.isLt

theorem mem_filled_segmentFields {encoding : BitVec 32}
    (h : (filled.all fun segment => !(segmentFields segment.value).contains encoding) = true) :
    ∀ segment ∈ filled, encoding ∉ segmentFields segment.value := by
  intro segment hmem
  simpa using List.all_eq_true.mp h segment hmem

/-- A field in front of the selectors that no later call stores to. -/
theorem setupVmcs_first {encoding : BitVec 32}
    (hlater : encoding ∉ laterFields s.vpidSupported)
    (hsegments : (filled.all fun segment =>
      !(segmentFields segment.value).contains encoding) = true) :
    setupVmcs p s vmcs encoding = setupFirst p vmcs encoding := by
  rw [setupVmcs_earlier hlater, fillSegments,
    fillSegments_others p filled _ (mem_filled_segmentFields hsegments)]

theorem setupFirst_zero {encoding : BitVec 32} (h : (encoding, 0) ∈ zeroWrites) :
    setupFirst p vmcs encoding = 0 := by
  have hnodup : (zeroWrites.map Prod.fst).Nodup := by decide
  rw [setupFirst, VmcsContent.vmwriteAll_of_mem hnodup h]
  simp

theorem setupFirst_first {encoding : BitVec 32} {value : Word}
    (h : (encoding, value) ∈ p.firstWrites) (hzero : encoding ∉ zeroWrites.map Prod.fst)
    (hdebugctl : encoding ≠ debugctlField) :
    setupFirst p vmcs encoding = (value.setWidth (VmcsContent.width encoding)).setWidth 64 := by
  have hnodup : (p.firstWrites.map Prod.fst).Nodup := by
    have hfields : p.firstWrites.map Prod.fst =
      [0xC00, 0xC02, 0xC04, 0xC06, 0xC08, 0xC0A, 0xC0C, 0x2800] := rfl
    rw [hfields]
    decide
  rw [setupFirst, VmcsContent.vmwriteAll_of_notMem hzero, VmcsContent.vmwriteHigh,
    Function.update_of_ne hdebugctl, VmcsContent.vmwrite_of_ne hdebugctl,
    VmcsContent.vmwriteAll_of_mem hnodup h]

theorem setWidth_hostSelector (p : LogicalProcessor) (segment : Segregs) :
    (p.hostSelector segment).setWidth 16 = p.selector segment &&& 0xF8#16 := by
  rw [hostSelector, BitVec.setWidth_setWidth_of_le _ (by decide), BitVec.setWidth_eq]

theorem hostSelector_mod (p : LogicalProcessor) (segment : Segregs) :
    ((p.selector segment &&& 0xF8#16).setWidth 64).toNat % 8 = 0 := by
  have hmask : 0xF8#16 &&& 7#16 = 0#16 := by decide
  have hlow : (p.selector segment &&& 0xF8#16) &&& 7#16 = 0#16 := by
    rw [BitVec.and_assoc, hmask, BitVec.and_zero]
  have hnat := congrArg BitVec.toNat hlow
  have hseven : (7#16).toNat = 2 ^ 3 - 1 := by decide
  rw [BitVec.toNat_and, hseven, Nat.and_two_pow_sub_one_eq_mod] at hnat
  rw [BitVec.toNat_setWidth_of_le (by decide)]
  exact hnat

theorem eptPointerOf_valid {capabilities pml4Physical : Word} {physicalWidth : ℕ}
    (hbelow : pml4Physical.toNat < 2 ^ physicalWidth) (hwidth : 12 ≤ physicalWidth)
    (hwalk : EptVpidCapabilities.pageWalkLength4.get capabilities ≠ 0)
    (hback : EptVpidCapabilities.memoryTypeWriteBack.get capabilities ≠ 0) :
    ValidEptp capabilities physicalWidth (eptPointerOf pml4Physical) := by
  have hframe : pml4Physical.toNat / 4096 % 2 ^ 36 < 2 ^ 36 := Nat.mod_lt _ (by decide)
  have hle := Nat.mod_le (pml4Physical.toNat / 4096) (2 ^ 36)
  have hpages : 2 ^ physicalWidth = 4096 * 2 ^ (physicalWidth - 12) := by
    rw [show (4096 : ℕ) = 2 ^ 12 from rfl, ← Nat.pow_add, Nat.add_sub_cancel' hwidth]
  rw [hpages] at hbelow
  have hlast : pml4Physical.toNat / 4096 < 2 ^ (physicalWidth - 12) := by omega
  generalize hsum : pml4Physical.toNat / 4096 % 2 ^ 36 = frame at hframe hle
  have hnat : (eptPointerOf pml4Physical).toNat = 6 + 3 * 8 + frame * 4096 := by
    rw [eptPointerOf, hsum, BitVec.toNat_ofNat]
    omega
  constructor
  · rw [hnat]
    exact Or.inr ⟨by omega, hback⟩
  · rw [hnat]
    exact ⟨by omega, hwalk⟩
  · rw [hnat]
    omega
  · rw [hnat, hpages]
    omega

/-- A page table is only built on a processor that has what the pointer says. -/
theorem checkFeatures_capabilities {executeOnlySupport : Bool}
    (h : (p.checkFeatures executeOnlySupport).1 = true) :
    EptVpidCapabilities.pageWalkLength4.get (p.readmsr msrIa32VmxEptVpidCap) ≠ 0 ∧
      EptVpidCapabilities.memoryTypeWriteBack.get (p.readmsr msrIa32VmxEptVpidCap) ≠ 0 := by
  simp only [checkFeatures] at h
  split at h
  · simp at h
  · rename_i hfeatures
    simp only [not_or] at hfeatures
    exact ⟨hfeatures.1, hfeatures.2.1⟩

theorem vpidTag_ne_zero {processorIndex : BitVec 32} (h : processorIndex.toNat < 65535) :
    (getVpidTagForProcessor processorIndex).setWidth 64 ≠ 0#64 := by
  intro hzero
  have hnat := congrArg BitVec.toNat hzero
  have hbase : vpidTagBase.toNat = 1 := rfl
  rw [getVpidTagForProcessor, BitVec.toNat_setWidth, BitVec.toNat_setWidth, BitVec.toNat_add,
    BitVec.toNat_setWidth, hbase, BitVec.toNat_ofNat] at hnat
  omega

theorem documentedCapability_capability {trueMsr msr : BitVec 32} {defaults : List ℕ}
    (h : ∀ capability ∈ capabilityMsrs, DocumentedCapability (p.readmsr capability.1) capability.2)
    (htrue : (trueMsr, defaults) ∈ capabilityMsrs) (hmsr : (msr, defaults) ∈ capabilityMsrs) :
    DocumentedCapability (p.capability trueMsr msr) defaults := by
  rw [capability]
  split
  · exact h _ htrue
  · exact h _ hmsr

/-- A field that only the first half of `SetupVmcs` stores. -/
def OnlyFirst (encoding : BitVec 32) : Prop :=
  encoding ∉ laterFields true ∧ encoding ∉ laterFields false ∧
    (filled.all fun segment => !(segmentFields segment.value).contains encoding) = true

instance (encoding : BitVec 32) : Decidable (OnlyFirst encoding) :=
  inferInstanceAs (Decidable (_ ∧ _ ∧ _))

theorem OnlyFirst.not_later {encoding : BitVec 32} (h : OnlyFirst encoding)
    (vpidSupported : Bool) : encoding ∉ laterFields vpidSupported := by
  obtain ⟨hwith, hwithout, _⟩ := h
  cases vpidSupported
  · exact hwithout
  · exact hwith

theorem setupVmcs_zero {encoding : BitVec 32} (h : OnlyFirst encoding)
    (hmem : (encoding, 0) ∈ zeroWrites) : setupVmcs p s vmcs encoding = 0 := by
  rw [setupVmcs_first (h.not_later _) h.2.2, setupFirst_zero hmem]

theorem setupVmcs_once {encoding : BitVec 32} (h : OnlyFirst encoding) {value : Word}
    (hmem : (encoding, value) ∈ p.firstWrites) (hnotZero : encoding ∉ zeroWrites.map Prod.fst)
    (hdebugctl : encoding ≠ debugctlField) :
    setupVmcs p s vmcs encoding =
      (value.setWidth (VmcsContent.width encoding)).setWidth 64 := by
  rw [setupVmcs_first (h.not_later _) h.2.2, setupFirst_first hmem hnotZero hdebugctl]

theorem setupVmcs_pinBased :
    setupVmcs p s vmcs 0x4000 = p.pinBasedVmExecControls.setWidth 64 :=
  setupVmcs_control (by simp [controlWrites]) rfl

theorem setupVmcs_cpuBased :
    setupVmcs p s vmcs 0x4002 = p.cpuBasedVmExecControls.setWidth 64 :=
  setupVmcs_control (by simp [controlWrites]) rfl

theorem setupVmcs_secondary : setupVmcs p s vmcs 0x401E =
    (p.secondaryProcBasedVmExecControls s.vpidSupported).setWidth 64 :=
  setupVmcs_control (by simp [controlWrites]) rfl

theorem setupVmcs_exit : setupVmcs p s vmcs 0x400C = p.vmExitControls.setWidth 64 :=
  setupVmcs_control (by simp [controlWrites]) rfl

theorem setupVmcs_entry : setupVmcs p s vmcs 0x4012 = p.vmEntryControls.setWidth 64 :=
  setupVmcs_control (by simp [controlWrites]) rfl

theorem setupVmcs_hostSelector {encoding : BitVec 32} {segment : Segregs}
    (hmem : (encoding, p.hostSelector segment) ∈ p.firstWrites)
    (hfield : VmcsContent.width encoding = 16 ∧ OnlyFirst encoding ∧
      encoding ∉ zeroWrites.map Prod.fst ∧ encoding ≠ debugctlField) :
    setupVmcs p s vmcs encoding = (p.selector segment &&& 0xF8#16).setWidth 64 := by
  obtain ⟨hwidth, hfirst, hnotZero, hdebugctl⟩ := hfield
  rw [setupVmcs_once hfirst hmem hnotZero hdebugctl, hwidth, setWidth_hostSelector]

theorem setupVmcs_hostSelectors :
    ∀ encoding ∈ [0xC00#32, 0xC02#32, 0xC04#32, 0xC06#32, 0xC08#32, 0xC0A#32, 0xC0C#32],
      (setupVmcs p s vmcs encoding).toNat % 8 = 0 := by
  have hhost : ∀ encoding segment, (encoding, p.hostSelector segment) ∈ p.firstWrites →
      VmcsContent.width encoding = 16 ∧ OnlyFirst encoding ∧
        encoding ∉ zeroWrites.map Prod.fst ∧ encoding ≠ debugctlField →
      (setupVmcs p s vmcs encoding).toNat % 8 = 0 := by
    intro encoding segment hmem hfield
    rw [setupVmcs_hostSelector hmem hfield]
    exact hostSelector_mod p segment
  simp only [List.mem_cons, List.not_mem_nil, or_false, forall_eq_or_imp, forall_eq]
  exact ⟨hhost _ .es (by simp [firstWrites]) (by decide),
    hhost _ .cs (by simp [firstWrites]) (by decide),
    hhost _ .ss (by simp [firstWrites]) (by decide),
    hhost _ .ds (by simp [firstWrites]) (by decide),
    hhost _ .fs (by simp [firstWrites]) (by decide),
    hhost _ .gs (by simp [firstWrites]) (by decide),
    hhost _ .tr (by simp [firstWrites]) (by decide)⟩

/-- A selector keeps its low byte, so that a selector from 0x100 on can become null. -/
theorem hostSelector_ne_zero_iff {segment : Segregs} :
    (p.selector segment &&& 0xF8#16).setWidth 64 ≠ (0 : Word) ↔
      p.selector segment &&& 0xF8#16 ≠ 0 := by
  refine not_congr ⟨fun h => ?_, fun h => by rw [h]; rfl⟩
  have hnat := congrArg BitVec.toNat h
  rw [BitVec.toNat_setWidth_of_le (by decide)] at hnat
  exact BitVec.eq_of_toNat_eq hnat

section Documented

variable (h : ∀ capability ∈ capabilityMsrs,
  DocumentedCapability (p.readmsr capability.1) capability.2)
include h

theorem documented_pinBased : DocumentedCapability
    (p.capability msrIa32VmxTruePinbasedCtls msrIa32VmxPinbasedCtls) defaultPinBased :=
  documentedCapability_capability h (by decide) (by decide)

theorem documented_cpuBased : DocumentedCapability
    (p.capability msrIa32VmxTrueProcbasedCtls msrIa32VmxProcbasedCtls) defaultProcBased :=
  documentedCapability_capability h (by decide) (by decide)

theorem documented_secondary :
    DocumentedCapability (p.readmsr msrIa32VmxProcbasedCtls2) [] :=
  h (msrIa32VmxProcbasedCtls2, []) (by decide)

theorem documented_exit : DocumentedCapability
    (p.capability msrIa32VmxTrueExitCtls msrIa32VmxExitCtls) defaultExit :=
  documentedCapability_capability h (by decide) (by decide)

theorem documented_entry : DocumentedCapability
    (p.capability msrIa32VmxTrueEntryCtls msrIa32VmxEntryCtls) defaultEntry :=
  documentedCapability_capability h (by decide) (by decide)

/-- The controls that are on are requested, or on by default. -/
theorem setupVmcs_off :
    (∀ i ∈ [5, 7], (setupVmcs p s vmcs 0x4000).getLsbD i = false) ∧
      (∀ i ∈ [17, 21, 22, 25], (setupVmcs p s vmcs 0x4002).getLsbD i = false) ∧
      (∀ i ∈ [0, 4, 7, 8, 9, 13, 14, 17, 18, 21, 22, 23, 24, 25],
        (setupVmcs p s vmcs 0x401E).getLsbD i = false) ∧
      (setupVmcs p s vmcs 0x400C).getLsbD 22 = false ∧
      ∀ i ∈ [10, 11], (setupVmcs p s vmcs 0x4012).getLsbD i = false := by
  refine ⟨fun i hi => ?_, fun i hi => ?_, fun i hi => ?_, ?_, fun i hi => ?_⟩
  · rw [setupVmcs_pinBased]
    refine adjustControls_off (documented_pinBased h) ?_
    revert i
    decide
  · rw [setupVmcs_cpuBased]
    refine adjustControls_off (documented_cpuBased h) ?_
    revert i
    decide
  · rw [setupVmcs_secondary]
    refine adjustControls_off (documented_secondary h) ?_
    revert i
    cases s.vpidSupported <;> decide
  · rw [setupVmcs_exit]
    exact adjustControls_off (documented_exit h) (by decide)
  · rw [setupVmcs_entry]
    refine adjustControls_off (documented_entry h) ?_
    revert i
    decide

theorem setupVmcs_compatible :
    Compatible (setupVmcs p s vmcs 0x4000) (setupVmcs p s vmcs 0x4002)
      (setupVmcs p s vmcs 0x401E) (setupVmcs p s vmcs 0x400C) (setupVmcs p s vmcs 0x4012) := by
  obtain ⟨hpin, hcpu, hsecondary, hexit, hentry⟩ := @setupVmcs_off p s vmcs h
  refine ⟨fun hon => ?_, fun hon => ?_, fun i hi hon => ?_, fun hon => ?_, fun hon => ?_,
    fun hon => ?_, fun i hi hon => ?_, fun hon => ?_, hentry 10 (by simp), hentry 11 (by simp)⟩
  · exact absurd hon (Bool.eq_false_iff.mp (hpin 5 (by simp)))
  · exact absurd hon (Bool.eq_false_iff.mp (hcpu 22 (by simp)))
  · refine absurd hon (Bool.eq_false_iff.mp (hsecondary i ?_))
    simp only [List.mem_cons, List.not_mem_nil, or_false] at hi ⊢
    omega
  · exact absurd hon (Bool.eq_false_iff.mp (hsecondary 4 (by simp)))
  · exact absurd hon (Bool.eq_false_iff.mp (hsecondary 9 (by simp)))
  · exact absurd hon (Bool.eq_false_iff.mp (hpin 7 (by simp)))
  · refine absurd hon (Bool.eq_false_iff.mp (hsecondary i ?_))
    simp only [List.mem_cons, List.not_mem_nil, or_false] at hi ⊢
    omega
  · exact absurd hon (Bool.eq_false_iff.mp hexit)

theorem setupVmcs_plain :
    Plain (setupVmcs p s vmcs 0x4000) (setupVmcs p s vmcs 0x4002)
      (setupVmcs p s vmcs 0x401E) := by
  obtain ⟨hpin, hcpu, hsecondary, _, _⟩ := @setupVmcs_off p s vmcs h
  refine ⟨hpin 7 (by simp), fun i hi => hcpu i ?_, fun i hi => hsecondary i ?_⟩
  · revert i
    decide
  · revert i
    decide

/-- The tag is written wherever the control is on. -/
theorem setupVmcs_vpid (hprocessor : s.processorIndex.toNat < 65535)
    (hset : (setupVmcs p s vmcs 0x401E).getLsbD 5 = true) : setupVmcs p s vmcs 0x0 ≠ 0 := by
  cases hsupported : s.vpidSupported with
  | false =>
    rw [setupVmcs_secondary, hsupported] at hset
    exact absurd hset
      (Bool.eq_false_iff.mp (adjustControls_off (documented_secondary h) (by decide)))
  | true =>
    have htag : setupVmcs p s vmcs 0x0 =
        (getVpidTagForProcessor s.processorIndex).setWidth 64 := by
      refine setupVmcs_later ?_ ?_
      · simp [laterWrites, vpidWrites, hsupported]
      · rw [BitVec.toNat_setWidth_of_le (by decide)]
        exact BitVec.isLt _
    rw [htag]
    exact vpidTag_ne_zero hprocessor

end Documented

/-- A processor with the critical features. -/
def featuredProcessor : LogicalProcessor :=
  { flatProcessor with
    readmsr := fun msr => if msr = msrIa32VmxEptVpidCap then 0x14040 else
      if msr = msrIa32MtrrDefType then 0xC06 else flatProcessor.readmsr msr }

end LogicalProcessor

end NovaHypervisor

import NovaHypervisor.SegmentDecoding

/-!
The VMCS that `SetupVmcs` fills from the running processor, and what a VM entry loads
from it. The processor's segment registers hold what their descriptors say, and the fields
are stored in the order of the source.
-/
namespace NovaHypervisor

open General VmxHelper

namespace VmcsContent

/-- A store through the encoding of the high half of a 64-bit field. -/
def vmwriteHigh (encoding : BitVec 32) (value : Word) (vmcs : VmcsContent) : VmcsContent :=
  Function.update vmcs encoding (value.setWidth 32 ++ (vmcs encoding).setWidth 32)

def vmwriteAll (writes : List (BitVec 32 × Word)) (vmcs : VmcsContent) : VmcsContent :=
  writes.foldl (fun vmcs write => vmcs.vmwrite write.1 write.2) vmcs

theorem vmwriteAll_of_notMem {writes : List (BitVec 32 × Word)} {encoding : BitVec 32}
    (h : encoding ∉ writes.map Prod.fst) (vmcs : VmcsContent) :
    vmwriteAll writes vmcs encoding = vmcs encoding := by
  induction writes generalizing vmcs with
  | nil => rfl
  | cons write writes ih =>
    rw [List.map_cons, List.mem_cons, not_or] at h
    have hrest : vmwriteAll (write :: writes) vmcs =
        vmwriteAll writes (vmcs.vmwrite write.1 write.2) := rfl
    rw [hrest, ih h.2, vmwrite_of_ne h.1]

/-- Fields that are stored once hold what was stored. -/
theorem vmwriteAll_of_mem {writes : List (BitVec 32 × Word)} {encoding : BitVec 32} {value : Word}
    (hnodup : (writes.map Prod.fst).Nodup) (h : (encoding, value) ∈ writes)
    (vmcs : VmcsContent) :
    vmwriteAll writes vmcs encoding = (value.setWidth (width encoding)).setWidth 64 := by
  induction writes generalizing vmcs with
  | nil => simp at h
  | cons write writes ih =>
    rw [List.map_cons, List.nodup_cons] at hnodup
    have hrest : vmwriteAll (write :: writes) vmcs =
        vmwriteAll writes (vmcs.vmwrite write.1 write.2) := rfl
    rcases List.mem_cons.mp h with rfl | hlater
    · rw [hrest, vmwriteAll_of_notMem hnodup.1, vmwrite, Function.update_self]
    · rw [hrest, ih hnodup.2 hlater]

end VmcsContent

/-- What `SetupVmcs` reads of the processor. -/
structure LogicalProcessor where
  selector : Segregs → BitVec 16
  gdtBase : Word
  gdtLimit : BitVec 16
  idtBase : Word
  idtLimit : BitVec 16
  cr0 : Word
  cr3 : Word
  cr4 : Word
  dr7 : Word
  rflags : Word
  readmsr : BitVec 32 → Word
  memory : ByteMemory

/-- The other inputs of `SetupVmcs`, with the addresses of the two assembly entries. -/
structure LaunchParameters where
  guestStack : Word
  vmmStack : Word
  msrBitmapPhysical : Word
  eptPointerFlags : Word
  hostDirectoryTableBase : Word
  vpidSupported : Bool
  processorIndex : BitVec 32
  asmVmxRestoreState : Word
  asmVmexitHandler : Word

namespace VmxHelper

/-- The low half of a capability MSR has the bits that must be set, and the high half those
that may be. -/
def adjustControls (ctl : BitVec 32) (msrValue : Word) : BitVec 32 :=
  (ctl &&& msrValue.extractLsb' 32 32) ||| msrValue.extractLsb' 0 32

def vpidTagBase : Word := 1

def getVpidTagForProcessor (processorIndex : BitVec 32) : BitVec 16 :=
  (vpidTagBase + processorIndex.setWidth 64).setWidth 16

end VmxHelper

def msrIa32VmxBasic : BitVec 32 := 0x480
def msrIa32VmxPinbasedCtls : BitVec 32 := 0x481
def msrIa32VmxProcbasedCtls : BitVec 32 := 0x482
def msrIa32VmxExitCtls : BitVec 32 := 0x483
def msrIa32VmxEntryCtls : BitVec 32 := 0x484
def msrIa32VmxProcbasedCtls2 : BitVec 32 := 0x48B
def msrIa32VmxTruePinbasedCtls : BitVec 32 := 0x48D
def msrIa32VmxTrueProcbasedCtls : BitVec 32 := 0x48E
def msrIa32VmxTrueExitCtls : BitVec 32 := 0x48F
def msrIa32VmxTrueEntryCtls : BitVec 32 := 0x490
def msrIa32SysenterCs : BitVec 32 := 0x174
def msrIa32SysenterEsp : BitVec 32 := 0x175
def msrIa32SysenterEip : BitVec 32 := 0x176
def msrIa32Debugctl : BitVec 32 := 0x1D9
def msrIa32Pat : BitVec 32 := 0x277
def msrIa32Efer : BitVec 32 := 0xC0000080
def msrFsBase : BitVec 32 := 0xC0000100
def msrGsBase : BitVec 32 := 0xC0000101

def vmmStackSize : Word := 0x8000

namespace LogicalProcessor

variable (p : LogicalProcessor)

/-- The capability MSR of a set of controls, by the hint of the basic MSR. -/
def capability (trueMsr msr : BitVec 32) : Word :=
  p.readmsr (if (p.readmsr msrIa32VmxBasic).getLsbD 55 then trueMsr else msr)

/-- The MSR bitmap and the secondary controls. -/
def cpuBasedVmExecControls : BitVec 32 :=
  adjustControls (0x10000000#32 ||| 0x80000000#32)
    (p.capability msrIa32VmxTrueProcbasedCtls msrIa32VmxProcbasedCtls)

/-- RDTSCP, EPT, INVPCID, XSAVES, user wait, and the VPID where it is supported. -/
def requestedSecondaryControls (vpidSupported : Bool) : BitVec 32 :=
  let requested := 0x8#32 ||| 0x2#32 ||| 0x1000#32 ||| 0x100000#32 ||| 0x4000000#32
  if vpidSupported then requested ||| 0x20#32 else requested

def secondaryProcBasedVmExecControls (vpidSupported : Bool) : BitVec 32 :=
  adjustControls (requestedSecondaryControls vpidSupported) (p.readmsr msrIa32VmxProcbasedCtls2)

def pinBasedVmExecControls : BitVec 32 :=
  adjustControls 0 (p.capability msrIa32VmxTruePinbasedCtls msrIa32VmxPinbasedCtls)

/-- A 64-bit host, and the PAT and EFER of both sides. -/
def vmExitControls : BitVec 32 :=
  adjustControls (0x200#32 ||| 0x40000#32 ||| 0x80000#32 ||| 0x100000#32 ||| 0x200000#32)
    (p.capability msrIa32VmxTrueExitCtls msrIa32VmxExitCtls)

def vmEntryControls : BitVec 32 :=
  adjustControls (0x200#32 ||| 0x4000#32 ||| 0x8000#32)
    (p.capability msrIa32VmxTrueEntryCtls msrIa32VmxEntryCtls)

def hostSelector (segment : Segregs) : Word := (p.selector segment &&& 0xF8#16).setWidth 64

/-- The base of the task register's descriptor, or zero where there is none. -/
def hostTrBase : Word :=
  match getSegmentDescriptor p.memory (p.selector .tr) p.gdtBase with
  | none => 0
  | some segmentSelector => segmentSelector.base

/-- `AsmGetRflags` returns 16 bits. -/
def rflagsWord : Word := (p.rflags.setWidth 16).setWidth 64

def firstWrites : List (BitVec 32 × Word) :=
  [(0xC00, p.hostSelector .es), (0xC02, p.hostSelector .cs), (0xC04, p.hostSelector .ss),
    (0xC06, p.hostSelector .ds), (0xC08, p.hostSelector .fs), (0xC0A, p.hostSelector .gs),
    (0xC0C, p.hostSelector .tr), (0x2800, 0xFFFFFFFFFFFFFFFF)]

/-- TSC_OFFSET to VM_ENTRY_INTR_INFO_FIELD. -/
def zeroWrites : List (BitVec 32 × Word) :=
  [(0x2010, 0), (0x4006, 0), (0x4008, 0), (0x4004, 0), (0x400A, 0), (0x400E, 0), (0x4010, 0),
    (0x4014, 0), (0x4016, 0)]

def controlWrites (s : LaunchParameters) : List (BitVec 32 × Word) :=
  [(0x680E, p.readmsr msrFsBase), (0x6810, p.readmsr msrGsBase),
    (0x4002, p.cpuBasedVmExecControls.setWidth 64),
    (0x401E, (p.secondaryProcBasedVmExecControls s.vpidSupported).setWidth 64),
    (0x4000, p.pinBasedVmExecControls.setWidth 64),
    (0x2804, p.readmsr msrIa32Pat), (0x2806, p.readmsr msrIa32Efer),
    (0x2C00, p.readmsr msrIa32Pat), (0x2C02, p.readmsr msrIa32Efer),
    (0x400C, p.vmExitControls.setWidth 64), (0x4012, p.vmEntryControls.setWidth 64),
    (0x6000, 0), (0x6002, 0), (0x6004, 0), (0x6006, 0)]

def stateWrites (s : LaunchParameters) : List (BitVec 32 × Word) :=
  [(0x6800, p.cr0), (0x6802, p.cr3), (0x6804, p.cr4), (0x681A, 0x400),
    (0x6C00, p.cr0), (0x6C04, p.cr4), (0x6C02, s.hostDirectoryTableBase),
    (0x6816, p.gdtBase), (0x6818, p.idtBase), (0x4810, p.gdtLimit.setWidth 64),
    (0x4812, p.idtLimit.setWidth 64), (0x6820, p.rflagsWord), (0x4824, 0), (0x4826, 0),
    (0x6822, 0), (0x4828, 0), (0x482A, p.readmsr msrIa32SysenterCs),
    (0x6826, p.readmsr msrIa32SysenterEip), (0x6824, p.readmsr msrIa32SysenterEsp)]

def hostWrites (s : LaunchParameters) : List (BitVec 32 × Word) :=
  [(0x6C0A, p.hostTrBase), (0x6C06, p.readmsr msrFsBase), (0x6C08, p.readmsr msrGsBase),
    (0x6C0C, p.gdtBase), (0x6C0E, p.idtBase), (0x4C00, p.readmsr msrIa32SysenterCs),
    (0x6C12, p.readmsr msrIa32SysenterEip), (0x6C10, p.readmsr msrIa32SysenterEsp),
    (0x2004, s.msrBitmapPhysical), (0x201A, s.eptPointerFlags)]

def vpidWrites (s : LaunchParameters) : List (BitVec 32 × Word) :=
  if s.vpidSupported then
    [(0x0, (getVpidTagForProcessor s.processorIndex).setWidth 64)]
  else []

def hostRsp (s : LaunchParameters) : Word := (s.vmmStack + vmmStackSize - 1) &&& ~~~0xF#64

def entryWrites (s : LaunchParameters) : List (BitVec 32 × Word) :=
  [(0x681C, s.guestStack), (0x681E, s.asmVmxRestoreState), (0x6C14, hostRsp s),
    (0x6C16, s.asmVmexitHandler)]

def debugctlField : BitVec 32 := 0x2802

/-- The order in which the selectors are filled. -/
def filled : List Segregs := [.es, .cs, .ss, .ds, .fs, .gs, .ldtr, .tr]

def fillSegments (vmcs : VmcsContent) : VmcsContent :=
  filled.foldl (fun vmcs segment =>
    (fillGuestSelectorData p.memory p.gdtBase segment.value (p.selector segment) vmcs).2) vmcs

/-- The writes behind the selectors. -/
def laterWrites (s : LaunchParameters) : List (BitVec 32 × Word) :=
  p.controlWrites s ++ p.stateWrites s ++ p.hostWrites s ++ vpidWrites s ++ entryWrites s

end LogicalProcessor

/-- The stores in front of the selectors. -/
def setupFirst (p : LogicalProcessor) (vmcs : VmcsContent) : VmcsContent :=
  let vmcs := vmcs.vmwriteAll p.firstWrites
  let debugctl := p.readmsr msrIa32Debugctl
  let vmcs := vmcs.vmwrite LogicalProcessor.debugctlField (debugctl &&& 0xFFFFFFFF#64)
  let vmcs := vmcs.vmwriteHigh LogicalProcessor.debugctlField (debugctl >>> 32)
  vmcs.vmwriteAll LogicalProcessor.zeroWrites

def setupVmcs (p : LogicalProcessor) (s : LaunchParameters) (vmcs : VmcsContent) : VmcsContent :=
  (p.fillSegments (setupFirst p vmcs)).vmwriteAll (p.laterWrites s)

/-- A segment register with its hidden part. -/
structure SegmentRegister where
  selector : BitVec 16
  base : Word
  limit : ℕ
  right : ℕ → Bool

structure SystemState where
  segment : Segregs → SegmentRegister
  gdtrBase : Word
  gdtrLimit : Word
  idtrBase : Word
  idtrLimit : Word
  cr0 : Word
  cr3 : Word
  cr4 : Word
  dr7 : Word
  rsp : Word
  rip : Word
  rflags : Word
  debugctl : Word
  sysenterCs : Word
  sysenterEsp : Word
  sysenterEip : Word
  pat : Word
  efer : Word

namespace LogicalProcessor

/-- The descriptor of a segment register, and the 8 bytes behind it. -/
def descriptor (p : LogicalProcessor) (segment : Segregs) : Word :=
  p.memory.read (segDesc p.gdtBase (p.selector segment)) 8

def nextDescriptor (p : LogicalProcessor) (segment : Segregs) : Word :=
  p.memory.read (segDesc p.gdtBase (p.selector segment) + 8) 8

/-- The bases of FS and GS are in their MSRs. -/
def segmentBase (p : LogicalProcessor) : Segregs → Word
  | .fs => p.readmsr msrFsBase
  | .gs => p.readmsr msrGsBase
  | segment => documentedBase (p.descriptor segment) (p.nextDescriptor segment)

def segmentRegister (p : LogicalProcessor) (segment : Segregs) : SegmentRegister where
  selector := p.selector segment
  base := p.segmentBase segment
  limit := documentedLimit (p.descriptor segment)
  right := documentedRight (p.descriptor segment) (p.selector segment)

/-- The processor itself, at some place of its code. -/
def systemState (p : LogicalProcessor) (rsp rip : Word) : SystemState where
  segment := p.segmentRegister
  gdtrBase := p.gdtBase
  gdtrLimit := p.gdtLimit.setWidth 64
  idtrBase := p.idtBase
  idtrLimit := p.idtLimit.setWidth 64
  cr0 := p.cr0
  cr3 := p.cr3
  cr4 := p.cr4
  dr7 := p.dr7
  rsp := rsp
  rip := rip
  rflags := p.rflags
  debugctl := p.readmsr msrIa32Debugctl
  sysenterCs := p.readmsr msrIa32SysenterCs
  sysenterEsp := p.readmsr msrIa32SysenterEsp
  sysenterEip := p.readmsr msrIa32SysenterEip
  pat := p.readmsr msrIa32Pat
  efer := p.readmsr msrIa32Efer

end LogicalProcessor

namespace VmcsContent

def guestSegment (vmcs : VmcsContent) (segment : Segregs) : SegmentRegister where
  selector := (vmcs (guestEsSelector + segment.value * 2)).setWidth 16
  base := vmcs (guestEsBase + segment.value * 2)
  limit := (vmcs (guestEsLimit + segment.value * 2)).toNat
  right i := (vmcs (guestEsArBytes + segment.value * 2)).getLsbD i

/-- LMA and LME of a processor that enters a guest without loading EFER are the control for
64-bit guests. -/
def enteredEfer (efer : Word) (longMode : Bool) : Word :=
  (efer &&& ~~~0x500#64) ||| (if longMode then 0x500#64 else 0)

/-- The guest state after a VM entry on a processor. The entry controls say which of the
debug registers, the PAT and EFER are loaded. -/
def vmEntry (vmcs : VmcsContent) (p : LogicalProcessor) : SystemState where
  segment := vmcs.guestSegment
  gdtrBase := vmcs 0x6816
  gdtrLimit := vmcs 0x4810
  idtrBase := vmcs 0x6818
  idtrLimit := vmcs 0x4812
  cr0 := vmcs 0x6800
  cr3 := vmcs 0x6802
  cr4 := vmcs 0x6804
  dr7 := if (vmcs 0x4012).getLsbD 2 then vmcs 0x681A else p.dr7
  rsp := vmcs 0x681C
  rip := vmcs 0x681E
  rflags := vmcs 0x6820
  debugctl := if (vmcs 0x4012).getLsbD 2 then vmcs 0x2802 else p.readmsr msrIa32Debugctl
  sysenterCs := vmcs 0x482A
  sysenterEsp := vmcs 0x6824
  sysenterEip := vmcs 0x6826
  pat := if (vmcs 0x4012).getLsbD 14 then vmcs 0x2804 else p.readmsr msrIa32Pat
  efer := if (vmcs 0x4012).getLsbD 15 then vmcs 0x2806
    else enteredEfer (p.readmsr msrIa32Efer) ((vmcs 0x4012).getLsbD 9)

end VmcsContent

namespace LogicalProcessor

variable {p : LogicalProcessor} {s : LaunchParameters} {vmcs : VmcsContent}

/-- The fields that are stored behind the selectors. -/
def laterFields (vpidSupported : Bool) : List (BitVec 32) :=
  [0x680E, 0x6810, 0x4002, 0x401E, 0x4000, 0x2804, 0x2806, 0x2C00, 0x2C02, 0x400C, 0x4012, 0x6000,
    0x6002, 0x6004, 0x6006, 0x6800, 0x6802, 0x6804, 0x681A, 0x6C00, 0x6C04, 0x6C02, 0x6816, 0x6818,
    0x4810, 0x4812, 0x6820, 0x4824, 0x4826, 0x6822, 0x4828, 0x482A, 0x6826, 0x6824, 0x6C0A, 0x6C06,
    0x6C08, 0x6C0C, 0x6C0E, 0x4C00, 0x6C12, 0x6C10, 0x2004, 0x201A] ++
  (if vpidSupported then [0x0] else []) ++ [0x681C, 0x681E, 0x6C14, 0x6C16]

theorem laterWrites_fields (p : LogicalProcessor) (s : LaunchParameters) :
    (p.laterWrites s).map Prod.fst = laterFields s.vpidSupported := by
  cases hvpid : s.vpidSupported <;>
    simp [laterWrites, laterFields, controlWrites, stateWrites, hostWrites, vpidWrites,
      entryWrites, hvpid]

theorem laterWrites_nodup (p : LogicalProcessor) (s : LaunchParameters) :
    ((p.laterWrites s).map Prod.fst).Nodup := by
  rw [laterWrites_fields]
  cases s.vpidSupported <;> decide

/-- A later field holds a value that fits into it. -/
theorem setupVmcs_later {encoding : BitVec 32} {value : Word}
    (h : (encoding, value) ∈ p.laterWrites s)
    (hfits : value.toNat < 2 ^ VmcsContent.width encoding) :
    setupVmcs p s vmcs encoding = value := by
  have hstored : setupVmcs p s vmcs encoding =
      (value.setWidth (VmcsContent.width encoding)).setWidth 64 :=
    VmcsContent.vmwriteAll_of_mem (laterWrites_nodup p s) h _
  rw [hstored]
  apply BitVec.eq_of_toNat_eq
  rw [BitVec.toNat_setWidth, BitVec.toNat_setWidth, Nat.mod_eq_of_lt hfits]
  exact Nat.mod_eq_of_lt value.isLt

theorem mem_laterWrites_of_control {write : BitVec 32 × Word} (h : write ∈ p.controlWrites s) :
    write ∈ p.laterWrites s := by
  simp [laterWrites, h]

theorem mem_laterWrites_of_state {write : BitVec 32 × Word} (h : write ∈ p.stateWrites s) :
    write ∈ p.laterWrites s := by
  simp [laterWrites, h]

theorem mem_laterWrites_of_host {write : BitVec 32 × Word} (h : write ∈ p.hostWrites s) :
    write ∈ p.laterWrites s := by
  simp [laterWrites, h]

theorem mem_laterWrites_of_entry {write : BitVec 32 × Word} (h : write ∈ entryWrites s) :
    write ∈ p.laterWrites s := by
  simp [laterWrites, h]

theorem setupVmcs_earlier {encoding : BitVec 32} (h : encoding ∉ laterFields s.vpidSupported) :
    setupVmcs p s vmcs encoding = p.fillSegments (setupFirst p vmcs) encoding := by
  rw [← laterWrites_fields p] at h
  exact VmcsContent.vmwriteAll_of_notMem h _

/-- The fields of a segment register, as they are behind its call. -/
def SegmentStored (p : LogicalProcessor) (vmcs : VmcsContent) (segment : Segregs) : Prop :=
  vmcs.guestSegment segment = { p.segmentRegister segment with
    base := documentedBase (p.descriptor segment) (p.nextDescriptor segment) }

theorem SegmentStored.congr {vmcs' : VmcsContent} {segment : Segregs}
    (h : p.SegmentStored vmcs segment)
    (heq : ∀ encoding ∈ segmentFields segment.value, vmcs' encoding = vmcs encoding) :
    p.SegmentStored vmcs' segment := by
  simp only [segmentFields, List.mem_cons, List.not_mem_nil, or_false, forall_eq_or_imp,
    forall_eq] at heq
  obtain ⟨hsel, hlimit, hrights, hbase⟩ := heq
  rw [SegmentStored, ← h]
  simp only [VmcsContent.guestSegment, hsel, hlimit, hrights, hbase]

/-- A descriptor in the global table that is decoded exactly. -/
def Decodable (p : LogicalProcessor) (segment : Segregs) : Prop :=
  p.selector segment &&& 4#16 = 0 ∧ DecodesExactly (p.descriptor segment) (p.selector segment)

theorem fillSegment_stored {segment : Segregs} (h : p.Decodable segment)
    (vmcs : VmcsContent) :
    p.SegmentStored
      (fillGuestSelectorData p.memory p.gdtBase segment.value (p.selector segment) vmcs).2
      segment := by
  obtain ⟨htable, hsign, hnull⟩ := h
  obtain ⟨d, hget, hattributes, hlimit, hbase⟩ :=
    getSegmentDescriptor_spec p.memory p.gdtBase htable rfl rfl
  obtain ⟨vmcs', hfill, hsel, hlim, hrights, hstored, _⟩ :=
    fillGuestSelectorData_eq hget segment vmcs
  rw [hfill]
  have hdocumented := (base_eq_documented_iff (p.descriptor segment)
    (p.nextDescriptor segment)).mpr hsign
  have hbits := (rights_eq_documented_iff (p.descriptor segment) (p.selector segment)).mpr hnull
  have hright : ∀ i, (vmcs' (guestEsArBytes + segment.value * 2)).getLsbD i =
      documentedRight (p.descriptor segment) (p.selector segment) i := by
    intro i
    rw [← hbits i, hrights, hattributes, BitVec.getLsbD_setWidth]
    by_cases hi : i < 64
    · simp [hi, descriptor]
    · rw [decide_eq_false hi, Bool.false_and]
      exact (BitVec.getLsbD_of_ge _ i (by omega)).symm
  have hwide : (d.limit.setWidth 64).toNat = d.limit.toNat :=
    BitVec.toNat_setWidth_of_le (by decide)
  have hselector : ((p.selector segment).setWidth 64).setWidth 16 = p.selector segment := by
    rw [BitVec.setWidth_setWidth_of_le _ (by decide), BitVec.setWidth_eq]
  rw [SegmentStored]
  simp only [VmcsContent.guestSegment, segmentRegister, hsel, hlim, hstored, hbase, hright, hwide,
    hlimit, hselector]
  exact congrArg (fun base => SegmentRegister.mk _ base _ _) hdocumented

/-- With any descriptor, the call stores to the fields of its segment register only. -/
theorem fillGuestSelectorData_others (p : LogicalProcessor) (segment : Segregs)
    (vmcs : VmcsContent) {encoding : BitVec 32} (h : encoding ∉ segmentFields segment.value) :
    (fillGuestSelectorData p.memory p.gdtBase segment.value (p.selector segment) vmcs).2 encoding =
      vmcs encoding := by
  rcases hget : getSegmentDescriptor p.memory (p.selector segment) p.gdtBase with _ | d
  · rw [fillGuestSelectorData, hget]
  · obtain ⟨vmcs', hfill, _, _, _, _, hothers⟩ := fillGuestSelectorData_eq hget segment vmcs
    rw [hfill]
    exact hothers encoding h

theorem fillSegments_others (p : LogicalProcessor) (segments : List Segregs) (vmcs : VmcsContent)
    {encoding : BitVec 32} (h : ∀ segment ∈ segments, encoding ∉ segmentFields segment.value) :
    segments.foldl (fun vmcs segment =>
      (fillGuestSelectorData p.memory p.gdtBase segment.value (p.selector segment) vmcs).2) vmcs
        encoding = vmcs encoding := by
  induction segments generalizing vmcs with
  | nil => rfl
  | cons segment segments ih =>
    rw [List.foldl_cons, ih _ fun other hmem => h other (.tail _ hmem)]
    exact fillGuestSelectorData_others p segment vmcs (h segment (.head _))

theorem segmentFields_apart {first second : Segregs} (h : first ≠ second) :
    ∀ encoding ∈ segmentFields first.value, encoding ∉ segmentFields second.value := by
  have hall : (segmentFields first.value).all (fun encoding =>
      !(segmentFields second.value).contains encoding) = true := by
    cases first <;> cases second <;> first | exact absurd rfl h | decide
  intro encoding hin
  simpa using List.all_eq_true.mp hall encoding hin

theorem fillSegments_stored (h : ∀ segment, p.Decodable segment) {segments : List Segregs}
    (hnodup : segments.Nodup) (vmcs : VmcsContent) :
    ∀ segment ∈ segments, p.SegmentStored (segments.foldl (fun vmcs segment =>
      (fillGuestSelectorData p.memory p.gdtBase segment.value (p.selector segment) vmcs).2) vmcs)
        segment := by
  induction segments generalizing vmcs with
  | nil => simp
  | cons segment segments ih =>
    rw [List.nodup_cons] at hnodup
    have hstored := fillSegment_stored (h segment) vmcs
    intro other hother
    rcases List.mem_cons.mp hother with rfl | hlater
    · refine hstored.congr fun encoding hin =>
        fillSegments_others p segments _ fun later hmem => ?_
      have hne : other ≠ later := fun heq => hnodup.1 (heq ▸ hmem)
      exact segmentFields_apart hne encoding hin
    · exact ih hnodup.2 _ other hlater

theorem debugctl_halves (value : Word) :
    (value >>> 32).setWidth 32 ++
      (((value &&& 0xFFFFFFFF#64).setWidth 64).setWidth 64).setWidth 32 = value := by
  have hmask : ∀ i < 64, (0xFFFFFFFF#64).getLsbD i = decide (i < 32) := by decide
  apply BitVec.eq_of_getLsbD_eq
  intro i hi
  rw [BitVec.getLsbD_append]
  by_cases hlow : i < 32
  · have hwide : i < 64 := hi
    simp only [BitVec.getLsbD_setWidth, BitVec.getLsbD_and, hmask i hwide, hlow, hwide]
    simp
  · have hsum : 32 + (i - 32) = i := by omega
    have hhigh : i - 32 < 32 := by omega
    simp only [BitVec.getLsbD_setWidth, BitVec.getLsbD_ushiftRight, hlow, hsum, hhigh]
    simp

/-- The controls keep a requested bit that is allowed. -/
theorem adjustControls_getLsbD (ctl : BitVec 32) (msrValue : Word) {i : ℕ} (hi : i < 32) :
    (adjustControls ctl msrValue).getLsbD i =
      (ctl.getLsbD i && msrValue.getLsbD (32 + i) || msrValue.getLsbD i) := by
  simp [adjustControls, hi]

/-- The bases of FS and GS are stored again. -/
theorem segmentFields_later (vpidSupported : Bool) (segment : Segregs) :
    guestEsSelector + segment.value * 2 ∉ laterFields vpidSupported ∧
      guestEsLimit + segment.value * 2 ∉ laterFields vpidSupported ∧
      guestEsArBytes + segment.value * 2 ∉ laterFields vpidSupported ∧
      (segment ∉ [.fs, .gs] → guestEsBase + segment.value * 2 ∉ laterFields vpidSupported) := by
  cases vpidSupported <;> cases segment <;> decide

theorem setupVmcs_segment (hdecodable : ∀ segment, p.Decodable segment) (segment : Segregs) :
    (setupVmcs p s vmcs).guestSegment segment = p.segmentRegister segment := by
  have hnodup : filled.Nodup := by decide
  have hfilled : segment ∈ filled := by cases segment <;> decide
  have hstored : p.SegmentStored (p.fillSegments (setupFirst p vmcs)) segment :=
    fillSegments_stored hdecodable hnodup _ segment hfilled
  obtain ⟨hsel, hlimit, hrights, hbase⟩ := segmentFields_later s.vpidSupported segment
  have hfs : setupVmcs p s vmcs 0x680E = p.readmsr msrFsBase :=
    setupVmcs_later (mem_laterWrites_of_control (by simp [controlWrites])) (BitVec.isLt _)
  have hgs : setupVmcs p s vmcs 0x6810 = p.readmsr msrGsBase :=
    setupVmcs_later (mem_laterWrites_of_control (by simp [controlWrites])) (BitVec.isLt _)
  rw [SegmentStored, SegmentRegister.mk.injEq] at hstored
  obtain ⟨hselector, hdocumented, hbound, hright⟩ := hstored
  have hbases : setupVmcs p s vmcs (guestEsBase + segment.value * 2) = p.segmentBase segment := by
    cases segment with
    | fs => exact hfs
    | gs => exact hgs
    | _ => exact (setupVmcs_earlier (hbase (by decide))).trans hdocumented
  rw [segmentRegister, ← hbases, VmcsContent.guestSegment, setupVmcs_earlier hsel,
    setupVmcs_earlier hlimit, setupVmcs_earlier hrights, SegmentRegister.mk.injEq]
  exact ⟨hselector, rfl, hbound, hright⟩

theorem setupVmcs_debugctl :
    setupVmcs p s vmcs debugctlField = p.readmsr msrIa32Debugctl := by
  have hlater : debugctlField ∉ laterFields s.vpidSupported := by
    cases s.vpidSupported <;> decide
  have hsegments : ∀ segment ∈ filled, debugctlField ∉ segmentFields segment.value := by
    intro segment _
    cases segment <;> decide
  have hzero : debugctlField ∉ zeroWrites.map Prod.fst := by decide
  rw [setupVmcs_earlier hlater, fillSegments, fillSegments_others p filled _ hsegments, setupFirst,
    VmcsContent.vmwriteAll_of_notMem hzero, VmcsContent.vmwriteHigh, Function.update_self,
    VmcsContent.vmwrite, Function.update_self]
  exact debugctl_halves _

theorem enteredEfer_longMode {efer : Word} (h : efer &&& 0x500#64 = 0x500#64) :
    VmcsContent.enteredEfer efer true = efer := by
  rw [VmcsContent.enteredEfer, if_pos rfl]
  nth_rewrite 2 [← h]
  apply BitVec.eq_of_getLsbD_eq
  intro i hi
  rw [BitVec.getLsbD_or, BitVec.getLsbD_and, BitVec.getLsbD_and, BitVec.getLsbD_not]
  cases efer.getLsbD i <;> simp [hi]

/-- The guest that starts is the processor, at the entry of the launch. The debug control
DR7 has its reset value where the debug controls are loaded, and RFLAGS has 16 bits. -/
theorem vmEntry_setupVmcs (p : LogicalProcessor) (s : LaunchParameters) (vmcs : VmcsContent)
    (hdecodable : ∀ segment, p.Decodable segment)
    (hsysenter : (p.readmsr msrIa32SysenterCs).toNat < 2 ^ 32)
    (hlongMode : p.readmsr msrIa32Efer &&& 0x500#64 = 0x500#64)
    (hallowed : (p.capability msrIa32VmxTrueEntryCtls msrIa32VmxEntryCtls).getLsbD 41 = true) :
    (setupVmcs p s vmcs).vmEntry p =
      { p.systemState s.guestStack s.asmVmxRestoreState with
        dr7 := if p.vmEntryControls.getLsbD 2 then 0x400 else p.dr7
        rflags := p.rflagsWord } := by
  have hword : ∀ value : Word, value.toNat < 2 ^ 64 := fun value => value.isLt
  have hcontrols : setupVmcs p s vmcs 0x4012 = p.vmEntryControls.setWidth 64 := by
    refine setupVmcs_later (mem_laterWrites_of_control (by simp [controlWrites])) ?_
    rw [BitVec.toNat_setWidth_of_le (by decide)]
    exact p.vmEntryControls.isLt
  have hlimit : ∀ limit : BitVec 16, (limit.setWidth 64).toNat < 2 ^ 32 := by
    intro limit
    rw [BitVec.toNat_setWidth_of_le (by decide)]
    have hlt := limit.isLt
    omega
  have hstate : ∀ encoding value, (encoding, value) ∈ p.stateWrites s →
      value.toNat < 2 ^ VmcsContent.width encoding → setupVmcs p s vmcs encoding = value :=
    fun encoding value hmem hfits => setupVmcs_later (mem_laterWrites_of_state hmem) hfits
  have hbit : ∀ i < 32,
      (p.vmEntryControls.setWidth 64).getLsbD i = p.vmEntryControls.getLsbD i := by
    intro i hi
    have hwide : i < 64 := by omega
    simp [hwide]
  have hcr0 := hstate 0x6800 p.cr0 (by simp [stateWrites]) (hword _)
  have hcr3 := hstate 0x6802 p.cr3 (by simp [stateWrites]) (hword _)
  have hcr4 := hstate 0x6804 p.cr4 (by simp [stateWrites]) (hword _)
  have hdr7 := hstate 0x681A 0x400 (by simp [stateWrites]) (hword _)
  have hgdtr := hstate 0x6816 p.gdtBase (by simp [stateWrites]) (hword _)
  have hidtr := hstate 0x6818 p.idtBase (by simp [stateWrites]) (hword _)
  have hgdtrLimit := hstate 0x4810 _ (by simp [stateWrites]) (hlimit p.gdtLimit)
  have hidtrLimit := hstate 0x4812 _ (by simp [stateWrites]) (hlimit p.idtLimit)
  have hrflags := hstate 0x6820 p.rflagsWord (by simp [stateWrites]) (hword _)
  have hsysenterCs := hstate 0x482A _ (by simp [stateWrites]) hsysenter
  have hsysenterEip := hstate 0x6826 (p.readmsr msrIa32SysenterEip) (by simp [stateWrites])
    (hword _)
  have hsysenterEsp := hstate 0x6824 (p.readmsr msrIa32SysenterEsp) (by simp [stateWrites])
    (hword _)
  have hpat : setupVmcs p s vmcs 0x2804 = p.readmsr msrIa32Pat :=
    setupVmcs_later (mem_laterWrites_of_control (by simp [controlWrites])) (hword _)
  have hefer : setupVmcs p s vmcs 0x2806 = p.readmsr msrIa32Efer :=
    setupVmcs_later (mem_laterWrites_of_control (by simp [controlWrites])) (hword _)
  have hrsp : setupVmcs p s vmcs 0x681C = s.guestStack :=
    setupVmcs_later (mem_laterWrites_of_entry (by simp [entryWrites])) (hword _)
  have hrip : setupVmcs p s vmcs 0x681E = s.asmVmxRestoreState :=
    setupVmcs_later (mem_laterWrites_of_entry (by simp [entryWrites])) (hword _)
  have hsegment : (setupVmcs p s vmcs).guestSegment = p.segmentRegister :=
    funext (setupVmcs_segment hdecodable)
  have hdebugctl : setupVmcs p s vmcs 0x2802 = p.readmsr msrIa32Debugctl :=
    setupVmcs_debugctl
  have hlong : p.vmEntryControls.getLsbD 9 = true := by
    rw [vmEntryControls, adjustControls_getLsbD _ _ (by decide), hallowed]
    simp
  simp only [VmcsContent.vmEntry, systemState, hsegment, hgdtr, hgdtrLimit, hidtr, hidtrLimit,
    hcr0, hcr3, hcr4, hdr7, hrsp, hrip, hrflags, hdebugctl, hsysenterCs, hsysenterEip,
    hsysenterEsp, hpat, hefer, hcontrols, hbit 2 (by decide), hbit 9 (by decide), hlong,
    enteredEfer_longMode hlongMode, ite_self]

/-- Descriptors of the kernel's code and stack, a task in two slots, the user's data and the
thread's block. -/
def flatDescriptors : ByteMemory :=
  [(0x1010#64, 0x00209B0000000000#64), (0x1018#64, 0x0040930000000000#64),
    (0x1028#64, 0x00CFF3000000FFFF#64), (0x1040#64, 0x00008B0710000067#64),
    (0x1048#64, 0x00000000FFFFF800#64), (0x1050#64, 0x0040F30000003C00#64)].foldl
    (fun memory (a, d) => ByteMemory.write (n := 8) memory a d) fun _ => 0

/-- A processor with flat segments and 64-bit guests. -/
def flatProcessor : LogicalProcessor where
  selector
    | .cs => 0x10
    | .ss => 0x18
    | .es => 0x2B
    | .ds => 0x2B
    | .gs => 0x2B
    | .fs => 0x53
    | .ldtr => 0
    | .tr => 0x40
  gdtBase := 0x1000
  gdtLimit := 0x57
  idtBase := 0x2000
  idtLimit := 0xFFF
  cr0 := 0x80050033
  cr3 := 0x1AD000
  cr4 := 0x352EF8
  dr7 := 0x401
  rflags := 0x246
  readmsr msr := if msr = msrIa32Efer then 0xD01 else if msr = msrIa32VmxEntryCtls then
    0x0000F3FF000011FF else 0
  memory := flatDescriptors

def flatParameters : LaunchParameters where
  guestStack := 0x50000
  vmmStack := 0x90000
  msrBitmapPhysical := 0xA000
  eptPointerFlags := 0xB01E
  hostDirectoryTableBase := 0x1AD000
  vpidSupported := true
  processorIndex := 3
  asmVmxRestoreState := 0x7000
  asmVmexitHandler := 0x8000

theorem flatProcessor_decodable (segment : Segregs) : flatProcessor.Decodable segment := by
  cases segment <;> exact ⟨by decide, by decide +kernel, by decide⟩

theorem vmEntry_setupVmcs_flat :
    let entered := (setupVmcs flatProcessor flatParameters fun _ => 0).vmEntry flatProcessor
    entered.cr3 = 0x1AD000 ∧ entered.dr7 = 0x400 ∧ (entered.segment .cs).selector = 0x10 ∧
      (entered.segment .tr).base = 0xFFFFF80000071000 := by
  have hentry := vmEntry_setupVmcs flatProcessor flatParameters (fun _ => 0)
    flatProcessor_decodable (by decide +kernel) (by decide +kernel) (by decide +kernel)
  simp only [hentry]
  exact ⟨rfl, by decide +kernel, rfl, by decide +kernel⟩

end LogicalProcessor

end NovaHypervisor

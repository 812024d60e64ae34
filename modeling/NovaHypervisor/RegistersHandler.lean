import NovaHypervisor.Vmcs

/-!
The accesses to registers that the exit handler emulates: control registers, MSRs and
CPUID. The host's answers are a parameter. A host access that raises #GP in VMX root
mode does not return, so the handler's result is `none` there. Invalidating a VPID has
no state here.
-/
namespace NovaHypervisor

open General

structure CpuInfo where
  eax : BitVec 32
  ebx : BitVec 32
  ecx : BitVec 32
  edx : BitVec 32
  deriving DecidableEq

/-- What the processor, and the hypervisor that may run under this one, answer. -/
structure Host where
  readmsr : BitVec 32 → Option Word
  /-- Whether the store is accepted. -/
  writemsr : BitVec 32 → Word → Bool
  cpuidex : BitVec 32 → BitVec 32 → CpuInfo
  /-- Whether XCR0 takes the value. -/
  xsetbv : Word → Bool
  /-- The registers after a hypercall with the given ones. -/
  hypervVmcall : GuestRegs → GuestRegs

-- The bit fields of `MOV_CR_QUALIFICATION` that are read.
namespace MovCrQualification

def controlRegister : BitField 64 := ⟨0, 4, by decide⟩
def accessType : BitField 64 := ⟨4, 2, by decide⟩
def register : BitField 64 := ⟨8, 4, by decide⟩

end MovCrQualification

namespace RegistersHandler

def isHyperVSyntheticMsr (msr : Word) : Bool :=
  msr ∈ [0x40000000#64, 0x40000001#64, 0x40000002#64, 0x40000003#64, 0x40000010#64,
    0x40000020#64, 0x40000021#64, 0x40000022#64, 0x40000023#64, 0x40000040#64, 0x400000F0#64,
    0x40000106#64, 0x40000107#64, 0x40000108#64, 0x40000114#64, 0x40000115#64, 0x40001002#64] ||
  (msr ≥ 0x40000070#64 && msr ≤ 0x40000072#64) ||
  (msr ≥ 0x40000080#64 && msr ≤ 0x40000084#64) ||
  (msr ≥ 0x40000090#64 && msr ≤ 0x4000009F#64) ||
  (msr ≥ 0x400000B0#64 && msr ≤ 0x400000B7#64) ||
  (msr ≥ 0x40000100#64 && msr ≤ 0x40000105#64) ||
  (msr ≥ 0x40001080#64 && msr ≤ 0x40001084#64) ||
  (msr ≥ 0x40001090#64 && msr ≤ 0x4000109F#64)

def isValidMsr (rcx : Word) : Bool :=
  rcx ≤ 0x1FFF#64 || (rcx ≥ 0xC0000000#64 && rcx ≤ 0xC0001FFF#64) || isHyperVSyntheticMsr rcx

def typeMovToCr : Word := 0
def typeMovFromCr : Word := 1

/-- Register 4 of the frame is not the guest's RSP, which is in the VMCS. -/
def rspIndex : Fin 16 := ⟨4, by decide⟩

def crRegister (exitQualification : Word) : Fin 16 :=
  ⟨(MovCrQualification.register.get exitQualification).toNat,
    MovCrQualification.register.toNat_get_lt exitQualification⟩

/-- Store to a control register, unless it is not one of CR0, CR3 and CR4. -/
def movToCr (controlRegister : ℕ) (registerValue : Word) (vmcs : Vmcs) : Option Vmcs :=
  match controlRegister with
  | 0 => some ((vmcs.vmwrite .guestCr0 registerValue).vmwrite .cr0ReadShadow registerValue)
  | 3 => some (vmcs.vmwrite .guestCr3 (registerValue &&& ~~~(1#64 <<< 63)))
  | 4 => some ((vmcs.vmwrite .guestCr4 registerValue).vmwrite .cr4ReadShadow registerValue)
  | _ => none

def movFromCr (controlRegister : ℕ) (vmcs : Vmcs) : Option Word :=
  match controlRegister with
  | 0 => some (vmcs.vmread .guestCr0)
  | 3 => some (vmcs.vmread .guestCr3)
  | 4 => some (vmcs.vmread .guestCr4)
  | _ => none

def handleCRAccess (guestRegisters : GuestRegs) (vmcs : Vmcs) : Bool × GuestRegs × Vmcs :=
  let exitQualification := vmcs.vmread .exitQualification
  let controlRegister := (MovCrQualification.controlRegister.get exitQualification).toNat
  let accessType := MovCrQualification.accessType.get exitQualification
  let register := crRegister exitQualification
  let registerValue :=
    if register = rspIndex then vmcs.vmread .guestRsp else guestRegisters.get register
  if accessType > typeMovFromCr then (false, guestRegisters, vmcs)
  else if accessType = typeMovToCr then
    match movToCr controlRegister registerValue vmcs with
    | none => (false, guestRegisters, vmcs)
    | some vmcs => (true, guestRegisters, vmcs)
  else
    match movFromCr controlRegister vmcs with
    | none => (false, guestRegisters, vmcs)
    | some registerValue =>
      if register = rspIndex then (true, guestRegisters, vmcs.vmwrite .guestRsp registerValue)
      else (true, guestRegisters.set register registerValue, vmcs)

def handleMSRRead (host : Host) (guestRegisters : GuestRegs) : Option (Bool × GuestRegs) :=
  if isHyperVSyntheticMsr guestRegisters.rcx || isValidMsr guestRegisters.rcx then
    (host.readmsr (guestRegisters.rcx.setWidth 32)).map fun content =>
      (true, { guestRegisters with
        rax := (content.setWidth 32).setWidth 64
        rdx := ((content >>> 32).setWidth 32).setWidth 64 })
  else some (false, guestRegisters)

/-- The MSR and the value that are stored, if the access is not refused. -/
def handleMSRWrite (host : Host) (guestRegisters : GuestRegs) :
    Option (Option (BitVec 32 × Word)) :=
  if isHyperVSyntheticMsr guestRegisters.rcx || isValidMsr guestRegisters.rcx then
    let msr := guestRegisters.rcx.setWidth 32
    let content := guestRegisters.rdx.setWidth 32 ++ guestRegisters.rax.setWidth 32
    if host.writemsr msr content then some (some (msr, content)) else none
  else some none

def cpuidProcessorAndProcessorFeatureIdentifiers : Word := 1
def hypervCpuidInterface : Word := 0x40000001
def hypervCpuidFeatures : Word := 0x40000003
def hypervHypervisorPresentBit : BitVec 32 := 0x80000000
def hypervCpuidFeaturesEdxXmmFastHypercallInput : BitVec 32 := 0x10
def hypervCpuidFeaturesEdxXmmFastHypercallOutput : BitVec 32 := 0x8000

/-- The results are signed numbers, so their sign fills the upper halves. -/
def handleCpuid (host : Host) (guestRegisters : GuestRegs) : Bool × GuestRegs :=
  let cpuInfo := host.cpuidex (guestRegisters.rax.setWidth 32) (guestRegisters.rcx.setWidth 32)
  let cpuInfo :=
    if guestRegisters.rax = cpuidProcessorAndProcessorFeatureIdentifiers then
      { cpuInfo with ecx := cpuInfo.ecx ||| hypervHypervisorPresentBit }
    else if guestRegisters.rax = hypervCpuidInterface then
      -- the bytes of Hv#0
      { cpuInfo with eax := 0x30237648 }
    else if guestRegisters.rax = hypervCpuidFeatures then
      { cpuInfo with edx := cpuInfo.edx &&& ~~~(hypervCpuidFeaturesEdxXmmFastHypercallInput |||
        hypervCpuidFeaturesEdxXmmFastHypercallOutput) }
    else cpuInfo
  (true, { guestRegisters with
    rax := cpuInfo.eax.signExtend 64
    rbx := cpuInfo.ebx.signExtend 64
    rcx := cpuInfo.ecx.signExtend 64
    rdx := cpuInfo.edx.signExtend 64 })

end RegistersHandler

end NovaHypervisor

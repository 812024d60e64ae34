import NovaHypervisor.VmexitHandler

/-!
RDMSR, WRMSR, CPUID and XSETBV read the low halves of RAX, RCX and RDX only. Their
emulation truncates the operands where it passes them to the host, but selects the MSR,
the masked CPUID leaf and the control register by the whole register, so an upper half
that is not zero changes the outcome.
-/
namespace NovaHypervisor

open RegistersHandler

def lowHalf (x : Word) : Word := (x.setWidth 32).setWidth 64

def upperClear (x : Word) : Bool := x >>> 32 = 0#64

theorem upperClear_iff (x : Word) : upperClear x = true ↔ x.toNat < 2 ^ 32 := by
  rw [upperClear, decide_eq_true_iff, BitVec.toNat_eq, BitVec.toNat_ushiftRight,
    Nat.shiftRight_eq_div_pow]
  exact Nat.div_eq_zero_iff_lt (Nat.two_pow_pos 32)

theorem lowHalf_of_upperClear {x : Word} (h : upperClear x = true) : lowHalf x = x := by
  apply BitVec.eq_of_toNat_eq
  have hlt := (upperClear_iff x).mp h
  simp only [lowHalf, BitVec.toNat_setWidth]
  omega

/-- Two frames that an instruction reading the low halves cannot tell apart. -/
structure GuestRegs.AgreeLow (r r' : GuestRegs) : Prop where
  rax : r.rax.setWidth 32 = r'.rax.setWidth 32
  rcx : r.rcx.setWidth 32 = r'.rcx.setWidth 32
  rdx : r.rdx.setWidth 32 = r'.rdx.setWidth 32
  others : { r with rax := 0, rcx := 0, rdx := 0 } = { r' with rax := 0, rcx := 0, rdx := 0 }

inductive HostAccess where
  | readmsr (msr : BitVec 32)
  | writemsr (msr : BitVec 32) (content : Word)
  | xsetbv (value : Word)
  deriving DecidableEq

/-- What an emulated instruction does: its answer, unless the host's access faults, the
host's access, and the registers of the frame that it stores to. -/
structure Emulation where
  returned : Option Bool
  access : Option HostAccess
  stored : List (Fin 16 × Word)
  deriving DecidableEq

def GuestRegs.store (r : GuestRegs) (stored : List (Fin 16 × Word)) : GuestRegs :=
  stored.foldl (fun r field => r.set field.1 field.2) r

def raxIndex : Fin 16 := ⟨0, by decide⟩
def rcxIndex : Fin 16 := ⟨1, by decide⟩
def rdxIndex : Fin 16 := ⟨2, by decide⟩
def rbxIndex : Fin 16 := ⟨3, by decide⟩

namespace Emulation

def refused : Emulation := ⟨some false, none, []⟩

def ofMsrRead (host : Host) (r : GuestRegs) : Emulation :=
  let access := HostAccess.readmsr (r.rcx.setWidth 32)
  match handleMSRRead host r with
  | none => ⟨none, some access, []⟩
  | some (true, q) => ⟨some true, some access, [(raxIndex, q.rax), (rdxIndex, q.rdx)]⟩
  | some (false, _) => refused

def ofMsrWrite (host : Host) (r : GuestRegs) : Emulation :=
  match handleMSRWrite host r with
  | none =>
    ⟨none, some (.writemsr (r.rcx.setWidth 32) (r.rdx.setWidth 32 ++ r.rax.setWidth 32)), []⟩
  | some (some (msr, content)) => ⟨some true, some (.writemsr msr content), []⟩
  | some none => refused

def ofCpuid (host : Host) (r : GuestRegs) : Emulation :=
  let (handled, q) := handleCpuid host r
  ⟨some handled, none,
    [(raxIndex, q.rax), (rbxIndex, q.rbx), (rcxIndex, q.rcx), (rdxIndex, q.rdx)]⟩

def ofXsetbv (host : Host) (r : GuestRegs) : Emulation :=
  match emulateXsetbv host r with
  | none => refused
  | some value => ⟨if host.xsetbv value then some true else none, some (.xsetbv value), []⟩

theorem toNat_lt_of_isValidMsr {x : Word} (h : isValidMsr x = true) : x.toNat < 2 ^ 32 := by
  simp only [isValidMsr, isHyperVSyntheticMsr, BitVec.le_def, ge_iff_le, Bool.or_eq_true,
    Bool.and_eq_true, decide_eq_true_eq, List.mem_cons, List.not_mem_nil, or_false,
    BitVec.toNat_eq, BitVec.toNat_ofNat] at h
  omega

/-- No MSR that the handlers accept has a number with an upper half. -/
theorem isValidMsr_eq (x : Word) : isValidMsr x = (upperClear x && isValidMsr (lowHalf x)) := by
  cases hclear : upperClear x with
  | true => rw [lowHalf_of_upperClear hclear, Bool.true_and]
  | false =>
    rw [Bool.false_and, ← Bool.not_eq_true]
    intro hvalid
    rw [(upperClear_iff x).mpr (toNat_lt_of_isValidMsr hvalid)] at hclear
    exact absurd hclear (by decide)

theorem isValidMsr_of_synthetic (x : Word) :
    (isHyperVSyntheticMsr x || isValidMsr x) = isValidMsr x := by
  rw [isValidMsr]
  cases isHyperVSyntheticMsr x <;> simp

def readAccess (host : Host) (msr : BitVec 32) : Emulation :=
  match host.readmsr msr with
  | none => ⟨none, some (.readmsr msr), []⟩
  | some content =>
    ⟨some true, some (.readmsr msr),
      [(raxIndex, (content.setWidth 32).setWidth 64),
        (rdxIndex, ((content >>> 32).setWidth 32).setWidth 64)]⟩

theorem ofMsrRead_eq (host : Host) (r : GuestRegs) :
    ofMsrRead host r =
      if isValidMsr r.rcx then readAccess host (r.rcx.setWidth 32) else refused := by
  unfold ofMsrRead handleMSRRead readAccess
  rw [isValidMsr_of_synthetic]
  cases isValidMsr r.rcx with
  | false => rfl
  | true => cases host.readmsr (r.rcx.setWidth 32) <;> rfl

/-- The stored registers are all that the handler changes. -/
theorem handleMSRRead_store {host : Host} {r q : GuestRegs} {handled : Bool}
    (h : handleMSRRead host r = some (handled, q)) : q = r.store (ofMsrRead host r).stored := by
  rw [handleMSRRead, isValidMsr_of_synthetic] at h
  rw [ofMsrRead_eq]
  split at h
  · rename_i hvalid
    obtain ⟨content, hcontent, heq⟩ := Option.map_eq_some_iff.mp h
    rw [if_pos hvalid, readAccess, hcontent]
    exact (Prod.mk.inj heq).2.symm
  · rename_i hvalid
    rw [if_neg hvalid]
    exact (Prod.mk.inj (Option.some.inj h)).2.symm

def writeAccess (host : Host) (msr : BitVec 32) (content : Word) : Emulation :=
  ⟨if host.writemsr msr content then some true else none, some (.writemsr msr content), []⟩

theorem ofMsrWrite_eq (host : Host) (r : GuestRegs) :
    ofMsrWrite host r =
      if isValidMsr r.rcx then
        writeAccess host (r.rcx.setWidth 32) (r.rdx.setWidth 32 ++ r.rax.setWidth 32)
      else refused := by
  unfold ofMsrWrite handleMSRWrite writeAccess
  rw [isValidMsr_of_synthetic]
  cases isValidMsr r.rcx with
  | false => rfl
  | true =>
    dsimp only
    rw [if_pos rfl, if_pos rfl]
    generalize host.writemsr (r.rcx.setWidth 32) (r.rdx.setWidth 32 ++ r.rax.setWidth 32) = accepted
    cases accepted <;> rfl

/-- The change that `HandleCpuid` makes to the host's answer for a leaf. -/
def maskCpuid (leaf : Word) (cpuInfo : CpuInfo) : CpuInfo :=
  if leaf = cpuidProcessorAndProcessorFeatureIdentifiers then
    { cpuInfo with ecx := cpuInfo.ecx ||| hypervHypervisorPresentBit }
  else if leaf = hypervCpuidInterface then { cpuInfo with eax := 0x30237648 }
  else if leaf = hypervCpuidFeatures then
    { cpuInfo with edx := cpuInfo.edx &&& ~~~(hypervCpuidFeaturesEdxXmmFastHypercallInput |||
      hypervCpuidFeaturesEdxXmmFastHypercallOutput) }
  else cpuInfo

/-- A leaf with an upper half is not masked. -/
theorem maskCpuid_eq (leaf : Word) (cpuInfo : CpuInfo) :
    maskCpuid leaf cpuInfo =
      if upperClear leaf then maskCpuid (lowHalf leaf) cpuInfo else cpuInfo := by
  cases hclear : upperClear leaf with
  | true => rw [lowHalf_of_upperClear hclear, if_pos rfl]
  | false =>
    have hne : ∀ c : Word, upperClear c = true → leaf ≠ c := by
      intro c hc heq
      rw [heq, hc] at hclear
      exact absurd hclear (by decide)
    rw [maskCpuid, if_neg (hne _ (by decide)), if_neg (hne _ (by decide)),
      if_neg (hne _ (by decide))]
    rfl

/-- The results as they are stored, with the sign of each in its upper half. -/
def storedCpuid (cpuInfo : CpuInfo) : Emulation :=
  ⟨some true, none,
    [(raxIndex, cpuInfo.eax.signExtend 64), (rbxIndex, cpuInfo.ebx.signExtend 64),
      (rcxIndex, cpuInfo.ecx.signExtend 64), (rdxIndex, cpuInfo.edx.signExtend 64)]⟩

theorem ofCpuid_eq (host : Host) (r : GuestRegs) :
    ofCpuid host r = storedCpuid
      (maskCpuid r.rax (host.cpuidex (r.rax.setWidth 32) (r.rcx.setWidth 32))) := rfl

theorem handleCpuid_store (host : Host) (r : GuestRegs) :
    (handleCpuid host r).2 = r.store (ofCpuid host r).stored := by
  rw [ofCpuid_eq]
  rfl

private theorem signExtend_injective {x y : BitVec 32}
    (h : x.signExtend 64 = y.signExtend 64) : x = y := by
  apply BitVec.eq_of_toInt_eq
  rw [← BitVec.toInt_signExtend_of_le (x := x) (v := 64) (by decide), h,
    BitVec.toInt_signExtend_of_le (by decide)]

theorem storedCpuid_injective {cpuInfo cpuInfo' : CpuInfo}
    (h : storedCpuid cpuInfo = storedCpuid cpuInfo') : cpuInfo = cpuInfo' := by
  obtain ⟨eax, ebx, ecx, edx⟩ := cpuInfo
  obtain ⟨eax', ebx', ecx', edx'⟩ := cpuInfo'
  simp only [storedCpuid, Emulation.mk.injEq, List.cons.injEq, Prod.mk.injEq, true_and,
    and_true] at h
  obtain ⟨hax, hbx, hcx, hdx⟩ := h
  rw [signExtend_injective hax, signExtend_injective hbx, signExtend_injective hcx,
    signExtend_injective hdx]

/-- The mask that XSETBV loads is made of the low halves. -/
theorem requestedMask_eq (r : GuestRegs) :
    (r.rdx <<< 32) ||| (r.rax &&& 0xFFFFFFFF#64) = r.rdx.setWidth 32 ++ r.rax.setWidth 32 := by
  apply BitVec.eq_of_getLsbD_eq
  intro i hi
  rw [BitVec.getLsbD_or, BitVec.getLsbD_shiftLeft, BitVec.getLsbD_and, BitVec.getLsbD_append]
  by_cases hlow : i < 32
  · have hbit : (0xFFFFFFFF#64).getLsbD i = true := by
      revert i
      decide
    rw [hbit, Bool.and_true]
    simp [hlow]
  · have hbit : (0xFFFFFFFF#64).getLsbD i = false := by
      revert i
      decide
    have hsub : i - 32 < 32 := by omega
    rw [hbit, Bool.and_false]
    simp [hlow, hi, hsub]

theorem ofXsetbv_congr {host : Host} {r r' : GuestRegs} (hlow : r.AgreeLow r')
    (hrcx : r.rcx = 0 ↔ r'.rcx = 0) : ofXsetbv host r = ofXsetbv host r' := by
  have hmask : (r.rdx <<< 32) ||| (r.rax &&& 0xFFFFFFFF#64) =
      (r'.rdx <<< 32) ||| (r'.rax &&& 0xFFFFFFFF#64) := by
    rw [requestedMask_eq, requestedMask_eq, hlow.rax, hlow.rdx]
  have hsame : emulateXsetbv host r = emulateXsetbv host r' := by
    rw [emulateXsetbv, emulateXsetbv, hmask]
    by_cases hzero : r.rcx = 0
    · rw [if_neg (not_not.mpr hzero), if_neg (not_not.mpr (hrcx.mp hzero))]
    · rw [if_pos hzero, if_pos fun h => hzero (hrcx.mpr h)]
  rw [ofXsetbv, ofXsetbv, hsame]

end Emulation

/-- The four emulations have the same outcome on two frames. -/
def SameEmulation (host : Host) (r r' : GuestRegs) : Prop :=
  Emulation.ofMsrRead host r = Emulation.ofMsrRead host r' ∧
    Emulation.ofMsrWrite host r = Emulation.ofMsrWrite host r' ∧
    Emulation.ofCpuid host r = Emulation.ofCpuid host r' ∧
    Emulation.ofXsetbv host r = Emulation.ofXsetbv host r'

/-- RCX and RAX have an upper half in both frames or in neither, unless the MSR is
refused anyway, or the leaf is not masked anyway. -/
def UpperHalvesMatch (host : Host) (r r' : GuestRegs) : Prop :=
  (upperClear r.rcx = upperClear r'.rcx ∨ isValidMsr (lowHalf r.rcx) = false) ∧
    (upperClear r.rax = upperClear r'.rax ∨
      Emulation.maskCpuid (lowHalf r.rax) (host.cpuidex (r.rax.setWidth 32) (r.rcx.setWidth 32)) =
        host.cpuidex (r.rax.setWidth 32) (r.rcx.setWidth 32))

section Frames

variable {host : Host} {r r' : GuestRegs}

theorem GuestRegs.AgreeLow.lowHalf_rax (h : r.AgreeLow r') : lowHalf r.rax = lowHalf r'.rax := by
  rw [lowHalf, h.rax, lowHalf]

theorem GuestRegs.AgreeLow.lowHalf_rcx (h : r.AgreeLow r') : lowHalf r.rcx = lowHalf r'.rcx := by
  rw [lowHalf, h.rcx, lowHalf]

namespace Emulation

theorem isValidMsr_eq_iff (h : r.AgreeLow r') :
    isValidMsr r.rcx = isValidMsr r'.rcx ↔
      upperClear r.rcx = upperClear r'.rcx ∨ isValidMsr (lowHalf r.rcx) = false := by
  rw [isValidMsr_eq r.rcx, isValidMsr_eq r'.rcx, ← h.lowHalf_rcx]
  cases upperClear r.rcx <;> cases upperClear r'.rcx <;> cases isValidMsr (lowHalf r.rcx) <;>
    decide

theorem ofMsrRead_eq_iff (h : r.AgreeLow r') :
    ofMsrRead host r = ofMsrRead host r' ↔ isValidMsr r.rcx = isValidMsr r'.rcx := by
  have haccess : ∀ msr, (readAccess host msr).access = some (.readmsr msr) := by
    intro msr
    rw [readAccess]
    split <;> rfl
  have hne : ∀ msr, readAccess host msr ≠ refused := by
    intro msr heq
    have hnone := haccess msr
    rw [heq] at hnone
    exact absurd hnone (by simp [refused])
  rw [ofMsrRead_eq, ofMsrRead_eq, h.rcx]
  cases isValidMsr r.rcx <;> cases isValidMsr r'.rcx <;> simp [hne, (hne _).symm]

theorem ofMsrWrite_congr (h : r.AgreeLow r') (hvalid : isValidMsr r.rcx = isValidMsr r'.rcx) :
    ofMsrWrite host r = ofMsrWrite host r' := by
  rw [ofMsrWrite_eq, ofMsrWrite_eq, hvalid, h.rax, h.rcx, h.rdx]

theorem ofCpuid_eq_iff (h : r.AgreeLow r') :
    ofCpuid host r = ofCpuid host r' ↔
      upperClear r.rax = upperClear r'.rax ∨
        maskCpuid (lowHalf r.rax) (host.cpuidex (r.rax.setWidth 32) (r.rcx.setWidth 32)) =
          host.cpuidex (r.rax.setWidth 32) (r.rcx.setWidth 32) := by
  have hinj : ∀ cpuInfo cpuInfo', storedCpuid cpuInfo = storedCpuid cpuInfo' ↔
      cpuInfo = cpuInfo' := fun _ _ => ⟨storedCpuid_injective, congrArg storedCpuid⟩
  rw [ofCpuid_eq, ofCpuid_eq, hinj, maskCpuid_eq r.rax, maskCpuid_eq r'.rax, ← h.lowHalf_rax,
    ← h.rax, ← h.rcx]
  cases upperClear r.rax <;> cases upperClear r'.rax <;> simp [eq_comm]

/-- Two frames that differ in the upper half of RCX differ at the XSETBV emulation only
if they already do at the read of the MSR. -/
theorem ofXsetbv_of_valid (h : r.AgreeLow r')
    (hvalid : upperClear r.rcx = upperClear r'.rcx ∨ isValidMsr (lowHalf r.rcx) = false) :
    ofXsetbv host r = ofXsetbv host r' := by
  have hzero : ∀ x : Word, x = 0 ↔ upperClear x = true ∧ lowHalf x = 0 := by
    intro x
    constructor
    · intro hx
      subst hx
      decide
    · intro hx
      rw [← lowHalf_of_upperClear hx.1, hx.2]
  apply ofXsetbv_congr h
  rw [hzero r.rcx, hzero r'.rcx, ← h.lowHalf_rcx]
  rcases hvalid with hclear | hrefused
  · rw [hclear]
  · have hne : lowHalf r.rcx ≠ 0 := by
      intro heq
      rw [heq] at hrefused
      exact absurd hrefused (by decide)
    simp only [hne, and_false]

end Emulation

/-- The upper halves stay without effect exactly when they match. -/
theorem sameEmulation_iff (host : Host) {r r' : GuestRegs} (h : r.AgreeLow r') :
    SameEmulation host r r' ↔ UpperHalvesMatch host r r' := by
  rw [SameEmulation, UpperHalvesMatch, ← Emulation.ofCpuid_eq_iff h,
    ← Emulation.isValidMsr_eq_iff h, Emulation.ofMsrRead_eq_iff h]
  constructor
  · intro hsame
    exact ⟨hsame.1, hsame.2.2.1⟩
  · intro hmatch
    exact ⟨hmatch.1, Emulation.ofMsrWrite_congr h hmatch.1, hmatch.2,
      Emulation.ofXsetbv_of_valid h ((Emulation.isValidMsr_eq_iff h).mp hmatch.1)⟩

end Frames

/-- A frame that is zero except for the operands. -/
def operandFrame (rax rcx rdx : Word) : GuestRegs :=
  ⟨rax, rcx, rdx, 0, 0, 0, 0, 0, 0, 0, 0, 0, 0, 0, 0, 0⟩

/-- A host without faults on which every CPUID leaf reports XMM fast hypercalls. -/
def fastHypercallHost : Host where
  readmsr msr := some (msr.setWidth 64)
  writemsr _ _ := true
  cpuidex _ _ := ⟨3, 0, 0, 0x8010⟩
  xsetbv _ := true
  hypervVmcall r := r

/-- The upper half of RDX, and one of RAX that two frames share, are without effect. -/
theorem sameEmulation_iff_rdx :
    SameEmulation fastHypercallHost (operandFrame 0x100000001 0x10 0x500000002)
      (operandFrame 0x200000001 0x10 2) :=
  (sameEmulation_iff fastHypercallHost ⟨by decide, by decide, by decide, by decide⟩).mpr
    ⟨Or.inl (by decide), Or.inl (by decide)⟩

/-- With an upper half in RAX the guest sees the features that are masked without one. -/
theorem cpuid_mask_evaded :
    (operandFrame 0x40000003 0 0).AgreeLow (operandFrame 0x140000003 0 0) ∧
      (handleCpuid fastHypercallHost (operandFrame 0x40000003 0 0)).2.rdx = 0 ∧
      (handleCpuid fastHypercallHost (operandFrame 0x140000003 0 0)).2.rdx = 0x8010 ∧
      ¬ SameEmulation fastHypercallHost (operandFrame 0x40000003 0 0)
        (operandFrame 0x140000003 0 0) := by
  refine ⟨⟨by decide, by decide, by decide, by decide⟩, by decide, by decide, ?_⟩
  intro hsame
  exact absurd hsame.2.2.1 (by decide)

end NovaHypervisor

import NovaHypervisor.EntryFields

/-!
What the emulation of XSETBV accepts, and what the processor accepts. A value that only
the first accepts raises #GP in root mode.
-/
namespace NovaHypervisor

open General

def Host.supportedMask (host : Host) : Word :=
  (host.cpuidex cpuidExtendedStateEnumeration 0).edx ++
    (host.cpuidex cpuidExtendedStateEnumeration 0).eax

def Host.componentInfo (host : Host) (stateComponent : ℕ) : CpuInfo :=
  host.cpuidex cpuidExtendedStateEnumeration (BitVec.ofNat 32 stateComponent)

/-- The end that the emulation computes for a component, if it counts it. -/
def Host.componentEnd (host : Host) (stateComponent : ℕ) : BitVec 32 :=
  let stateInfo := host.componentInfo stateComponent
  if stateInfo.eax = 0 ∨ stateInfo.ebx = 0 then 0 else stateInfo.ebx + stateInfo.eax

def GuestRegs.requestedMask (registers : GuestRegs) : Word :=
  (registers.rdx <<< 32) ||| (registers.rax &&& 0xFFFFFFFF#64)

structure AcceptedRequest (host : Host) (registers : GuestRegs) : Prop where
  xcr0 : registers.rcx = 0
  supported : registers.requestedMask &&& ~~~host.supportedMask = 0
  x87 : registers.requestedMask.getLsbD 0 = true
  avx : registers.requestedMask.getLsbD 2 = true → registers.requestedMask.getLsbD 1 = true
  fits : ∀ stateComponent ∈ List.range' 2 62,
    registers.requestedMask.getLsbD stateComponent = true →
      host.componentEnd stateComponent ≤ maxXsaveAreaSize

/-- The components that the processor enables together. -/
structure PairedComponents (value : Word) : Prop where
  mpx : value.getLsbD 3 = value.getLsbD 4
  avx512 : value.getLsbD 5 = value.getLsbD 6 ∧ value.getLsbD 6 = value.getLsbD 7
  avx512_avx : value.getLsbD 5 = true → value.getLsbD 2 = true
  amx : value.getLsbD 17 = value.getLsbD 18

/-- The processor's own rules for XCR0. -/
structure XsetbvRules (supportedMask value : Word) : Prop extends PairedComponents value where
  supported : value &&& ~~~supportedMask = 0
  x87 : value.getLsbD 0 = true
  avx : value.getLsbD 2 = true → value.getLsbD 1 = true

theorem xsaveAreaEnd_le_iff {host : Host} {requestedMask : Word} {requestedSize bound : BitVec 32}
    {stateComponent : ℕ} :
    xsaveAreaEnd host requestedMask requestedSize stateComponent ≤ bound ↔
      requestedSize ≤ bound ∧ (requestedMask.getLsbD stateComponent = true →
        host.componentEnd stateComponent ≤ bound) := by
  rw [xsaveAreaEnd, show host.cpuidex cpuidExtendedStateEnumeration
    (BitVec.ofNat 32 stateComponent) = host.componentInfo stateComponent from rfl,
    Host.componentEnd]
  cases hbit : requestedMask.getLsbD stateComponent with
  | false => simp
  | true =>
    rw [if_neg (by decide), forall_prop_of_true rfl]
    dsimp only
    generalize (host.componentInfo stateComponent).eax = componentSize
    generalize (host.componentInfo stateComponent).ebx = componentOffset
    by_cases hskip : componentSize = 0 ∨ componentOffset = 0
    · rw [if_pos hskip, if_pos hskip]
      bv_omega
    · rw [if_neg hskip, if_neg hskip]
      by_cases hlarger : componentOffset + componentSize > requestedSize
      · rw [if_pos hlarger]
        bv_omega
      · rw [if_neg hlarger]
        bv_omega

theorem foldl_xsaveAreaEnd_le_iff {host : Host} {requestedMask : Word} (components : List ℕ)
    {requestedSize bound : BitVec 32} :
    components.foldl (xsaveAreaEnd host requestedMask) requestedSize ≤ bound ↔
      requestedSize ≤ bound ∧ ∀ stateComponent ∈ components,
        requestedMask.getLsbD stateComponent = true →
          host.componentEnd stateComponent ≤ bound := by
  induction components generalizing requestedSize with
  | nil => simp
  | cons stateComponent components ih =>
    rw [List.foldl_cons, ih, xsaveAreaEnd_le_iff, List.forall_mem_cons, and_assoc]

theorem and_checks (value : Word) :
    (value &&& 1#64 = 0 ↔ value.getLsbD 0 = false) ∧
      (value &&& 4#64 ≠ 0 ∧ value &&& 6#64 ≠ 6#64 ↔
        value.getLsbD 2 = true ∧ value.getLsbD 1 = false) := by
  have hone : (1#64) = BitVec.twoPow 64 0 := by decide
  have hfour : (4#64) = BitVec.twoPow 64 2 := by decide
  have hsix : (6#64) = BitVec.twoPow 64 1 ||| BitVec.twoPow 64 2 := by decide
  rw [hone, hfour, hsix, BitVec.and_or_distrib_left, BitVec.and_twoPow, BitVec.and_twoPow,
    BitVec.and_twoPow]
  cases value.getLsbD 0 <;> cases value.getLsbD 1 <;> cases value.getLsbD 2 <;> decide

theorem emulateXsetbv_eq_some_iff {host : Host} {registers : GuestRegs} {value : Word} :
    emulateXsetbv host registers = some value ↔
      AcceptedRequest host registers ∧ value = registers.requestedMask := by
  obtain ⟨hx87, havx⟩ := and_checks registers.requestedMask
  have hunfold : emulateXsetbv host registers =
      if registers.rcx ≠ 0 then none
      else if registers.requestedMask &&& ~~~host.supportedMask ≠ 0 ∨
          registers.requestedMask &&& 1#64 = 0 ∨
          (registers.requestedMask &&& 4#64 ≠ 0 ∧ registers.requestedMask &&& 6#64 ≠ 6#64) then
        none
      else if (List.range' 2 62).foldl (xsaveAreaEnd host registers.requestedMask) 0x240 >
          maxXsaveAreaSize then none
      else some registers.requestedMask := rfl
  have hsize : (List.range' 2 62).foldl (xsaveAreaEnd host registers.requestedMask) 0x240 ≤
      maxXsaveAreaSize ↔ _ := foldl_xsaveAreaEnd_le_iff (List.range' 2 62)
  rw [hunfold]
  by_cases hrcx : registers.rcx ≠ 0
  · rw [if_pos hrcx]
    exact iff_of_false (Option.some_ne_none value).symm fun h => hrcx h.1.xcr0
  rw [if_neg hrcx]
  by_cases hinvalid : registers.requestedMask &&& ~~~host.supportedMask ≠ 0 ∨
      registers.requestedMask &&& 1#64 = 0 ∨
      (registers.requestedMask &&& 4#64 ≠ 0 ∧ registers.requestedMask &&& 6#64 ≠ 6#64)
  · rw [if_pos hinvalid]
    rw [hx87, havx] at hinvalid
    refine iff_of_false (Option.some_ne_none value).symm fun h => ?_
    rcases hinvalid with hunsupported | hclear | ⟨havx, hsse⟩
    · exact hunsupported h.1.supported
    · exact absurd h.1.x87 (Bool.eq_false_iff.mp hclear)
    · exact absurd (h.1.avx havx) (Bool.eq_false_iff.mp hsse)
  rw [if_neg hinvalid]
  rw [hx87, havx] at hinvalid
  obtain ⟨hsupported, hclear, hsse⟩ := by
    simpa only [not_or, not_not] using hinvalid
  by_cases hlarge : (List.range' 2 62).foldl (xsaveAreaEnd host registers.requestedMask) 0x240 >
      maxXsaveAreaSize
  · rw [if_pos hlarge]
    refine iff_of_false (Option.some_ne_none value).symm fun h => ?_
    exact absurd (hsize.mpr ⟨by decide, h.1.fits⟩) (BitVec.not_le.mpr hlarge)
  · rw [if_neg hlarge, Option.some.injEq]
    have haccepted : AcceptedRequest host registers :=
      { xcr0 := not_not.mp hrcx
        supported := hsupported
        x87 := eq_true_of_ne_false hclear
        avx := fun havx => eq_true_of_ne_false fun hfalse => hsse ⟨havx, hfalse⟩
        fits := (hsize.mp (BitVec.not_lt.mp hlarge)).2 }
    exact ⟨fun heq => ⟨haccepted, heq.symm⟩, fun h => h.2.symm⟩

/-- An accepted value obeys the rules that the emulation checks, and the others only if the
guest's request does. -/
theorem xsetbvRules_iff {host : Host} {registers : GuestRegs}
    (h : AcceptedRequest host registers) :
    XsetbvRules host.supportedMask registers.requestedMask ↔
      PairedComponents registers.requestedMask :=
  ⟨fun hrules => hrules.toPairedComponents, fun hpaired => ⟨hpaired, h.supported, h.x87, h.avx⟩⟩

namespace Vcpu

variable {Caller : Type*} [DecidableEq Caller]

/-- The processor accepts what the emulation loads, and what it refuses is a #GP of the
guest at its own instruction. -/
def XsetbvSafe (os : Os) (kernelBaseInfo : KernelBaseInfo) (host : Host) (v : Vcpu Caller) :
    Prop :=
  (∀ value ∈ emulateXsetbv host v.registers, XsetbvRules host.supportedMask value) ∧
    (emulateXsetbv host v.registers = none →
      ∃ off v', v.vmexitHandler os kernelBaseInfo host = some (off, v') ∧
        (off = false → v'.vmcs.Delivers (some generalProtection) ∧
          v'.vmcs.vmread .guestRip = v.vmcs.vmread .guestRip))

theorem vmexitHandler_refused {os : Os} {kernelBaseInfo : KernelBaseInfo} {host : Host}
    {v : Vcpu Caller} (hreason : v.exitReason = .xsetbv)
    (hrefused : emulateXsetbv host v.registers = none) :
    ∃ off v', v.vmexitHandler os kernelBaseInfo host = some (off, v') ∧
      (off = false → v'.vmcs.Delivers (some generalProtection) ∧
        v'.vmcs.vmread .guestRip = v.vmcs.vmread .guestRip) := by
  have hhandled : v.vmexitHandler os kernelBaseInfo host =
      some (v.entered.refuse.2.finishExit v.entered.refuse.1) := by
    have hentered : emulateXsetbv host v.entered.registers = none := hrefused
    rw [vmexitHandler, hreason, handleExit, hentered]
    rfl
  refine ⟨_, _, hhandled, ?_⟩
  intro hresumed
  have hown : v.ownEvent kernelBaseInfo host = some generalProtection := by
    rw [ownEvent, hreason, eventOf, hrefused]
    rfl
  have hexit : v.vmexitHandler os kernelBaseInfo host =
      some (false, (v.entered.refuse.2.finishExit v.entered.refuse.1).2) :=
    hhandled.trans (congrArg some (Prod.ext hresumed rfl))
  obtain ⟨hdelivers, hrip⟩ := delivers_vmexitHandler hexit
  rw [hown, Option.some_or] at hdelivers
  refine ⟨hdelivers, hrip.resolve_right fun hmoved => ?_⟩
  exact Option.some_ne_none _ (hown.symm.trans hmoved.1)

/-- Exactly for these requests the emulation is safe. -/
theorem xsetbvSafe_iff {os : Os} {kernelBaseInfo : KernelBaseInfo} {host : Host}
    {v : Vcpu Caller} (hreason : v.exitReason = .xsetbv) :
    v.XsetbvSafe os kernelBaseInfo host ↔
      (AcceptedRequest host v.registers → PairedComponents v.registers.requestedMask) := by
  refine ⟨?_, ?_⟩
  · intro hsafe haccepted
    have hloaded := emulateXsetbv_eq_some_iff.mpr ⟨haccepted, rfl⟩
    exact (xsetbvRules_iff haccepted).mp (hsafe.1 _ hloaded)
  · intro hpaired
    refine ⟨?_, vmexitHandler_refused hreason⟩
    intro value hloaded
    obtain ⟨haccepted, rfl⟩ := emulateXsetbv_eq_some_iff.mp hloaded
    exact (xsetbvRules_iff haccepted).mpr (hpaired haccepted)

/-- On a processor that follows the rules, the exit faults in root mode exactly for the
other requests. -/
theorem vmexitHandler_xsetbv_eq_none_iff {os : Os} {kernelBaseInfo : KernelBaseInfo}
    {host : Host} {v : Vcpu Caller} (hreason : v.exitReason = .xsetbv)
    (hprocessor : ∀ value, host.xsetbv value = true ↔ XsetbvRules host.supportedMask value) :
    v.vmexitHandler os kernelBaseInfo host = none ↔
      AcceptedRequest host v.registers ∧ ¬ PairedComponents v.registers.requestedMask := by
  rcases hloaded : emulateXsetbv host v.registers with _ | value
  · obtain ⟨off, v', hexit, _⟩ : ∃ off v', v.vmexitHandler os kernelBaseInfo host =
        some (off, v') ∧ _ := vmexitHandler_refused hreason hloaded
    rw [hexit]
    refine iff_of_false (Option.some_ne_none _) fun h => ?_
    exact Option.some_ne_none _ ((emulateXsetbv_eq_some_iff.mpr ⟨h.1, rfl⟩).symm.trans hloaded)
  · obtain ⟨haccepted, rfl⟩ := emulateXsetbv_eq_some_iff.mp hloaded
    have hentered : emulateXsetbv host v.entered.registers =
        some v.registers.requestedMask := hloaded
    rw [vmexitHandler, hreason, handleExit, hentered, Option.map_eq_none_iff]
    dsimp only
    rw [← xsetbvRules_iff haccepted, ← hprocessor]
    cases host.xsetbv v.registers.requestedMask with
    | true => exact iff_of_false (Option.some_ne_none _) fun h => h.2 rfl
    | false => exact iff_of_true rfl ⟨haccepted, Bool.false_ne_true⟩

/-- A guest at an XSETBV of XCR0. -/
def xsetbvVcpu (requestedMask : Word) : Vcpu Unit :=
  let v := flatVcpu (Machine.flatMachine 1 1) [(.vmExitReason, 55)]
  { v with registers := { v.registers with rax := requestedMask } }

def avx512Host : Host :=
  { flatHost with
    cpuidex := fun _ subleaf =>
      if subleaf = 0 then ⟨0xE7, 0xA80, 0xA80, 0⟩ else ⟨0x100, 0x240, 0, 0⟩ }

theorem xsetbvSafe_iff_avx512 :
    (xsetbvVcpu 0xE7).XsetbvSafe flatOs Machine.flatKernel avx512Host :=
  (xsetbvSafe_iff (by decide)).mpr fun _ => by constructor <;> decide

/-- The opmask registers are requested without the rest of AVX-512. -/
theorem not_xsetbvSafe_opmask :
    ¬ (xsetbvVcpu 0x27).XsetbvSafe flatOs Machine.flatKernel avx512Host := by
  intro hsafe
  have hloaded : emulateXsetbv avx512Host (xsetbvVcpu 0x27).registers = some 0x27 := by
    decide +kernel
  exact absurd (hsafe.1 _ hloaded).avx512.1 (by decide)

end Vcpu

end NovaHypervisor

import Mathlib.Order.Bounds.Basic
import NovaHypervisor.AsmVmexitHandler
import NovaHypervisor.Xstate
import NovaHypervisor.XsetbvRules

/-!
The size of the save area. The check at the start looks at what the processor reports for
the components then enabled, the emulation of XSETBV at each component of a request. Both
keep all that XSAVE writes inside the area that the exit stub reserves.
-/
namespace NovaHypervisor

open General

/-- The components of the extended state, as a processor places them. From the third
on, those that it supports lie where it says, and none wraps. -/
structure XstateLayout where
  supportedMask : Word
  size : ℕ → BitVec 32
  offset : ℕ → BitVec 32
  offset_ne_zero : ∀ n ∈ List.range' 2 62, supportedMask.getLsbD n = true → offset n ≠ 0
  end_lt : ∀ n ∈ List.range' 2 62, supportedMask.getLsbD n = true →
    (offset n).toNat + (size n).toNat < 2 ^ 32

structure Host.Reports (host : Host) (layout : XstateLayout) : Prop where
  supportedMask : host.supportedMask = layout.supportedMask
  size : ∀ n ∈ List.range' 2 62, (host.componentInfo n).eax = layout.size n
  offset : ∀ n ∈ List.range' 2 62, (host.componentInfo n).ebx = layout.offset n

namespace XstateLayout

def legacyEnd : ℕ := 0x240

def ends (layout : XstateLayout) (xcr0 : Word) : Set ℕ :=
  {m | m = legacyEnd ∨ ∃ n ∈ List.range' 2 62, xcr0.getLsbD n = true ∧
    m = (layout.offset n).toNat + (layout.size n).toNat}

/-- The bytes of a component. The first two share the legacy region. -/
def InComponent (layout : XstateLayout) (n b : ℕ) : Prop :=
  if n < 2 then b < legacyEnd
  else (layout.offset n).toNat ≤ b ∧ b < (layout.offset n).toNat + (layout.size n).toNat

/-- All enabled components lie in the area that the exit stub reserves. -/
def Fits (layout : XstateLayout) (xcr0 : Word) : Prop :=
  ∀ n < 64, xcr0.getLsbD n = true → ∀ b, layout.InComponent n b → b < xsaveAreaSize

end XstateLayout

def isXstateSaveAreaSupported (cr4 : Word) (host : Host) : Bool :=
  if cr4 &&& cr4OsxsaveMask = 0 then true
  else
    let cpuInfo := host.cpuidex cpuidExtendedStateEnumeration 0
    let currentRequiredSize := cpuInfo.ebx
    let maximumSupportedSize := cpuInfo.ecx
    !(currentRequiredSize = 0 || maxXsaveAreaSize < currentRequiredSize ||
      maxXsaveAreaSize < maximumSupportedSize)

namespace XstateLayout

variable {layout : XstateLayout} {xcr0 : Word} {host : Host}

theorem fits_of_ends (h : ∀ m ∈ layout.ends xcr0, m ≤ xsaveAreaSize) : layout.Fits xcr0 := by
  intro n hn hset b hb
  rw [InComponent] at hb
  split at hb
  · have hlegacy := h legacyEnd (Or.inl rfl)
    omega
  · rename_i hlow
    have hmem : n ∈ List.range' 2 62 := by
      rw [List.mem_range'_1]
      omega
    have hend := h _ (Or.inr ⟨n, hmem, hset, rfl⟩)
    omega

/-- The largest end that the processor reports bounds what is enabled. -/
theorem fits_of_isXstateSaveAreaSupported {cr4 : Word} (hcr4 : cr4 &&& cr4OsxsaveMask ≠ 0)
    (hcurrent : IsGreatest (layout.ends xcr0)
      (host.cpuidex cpuidExtendedStateEnumeration 0).ebx.toNat)
    (h : isXstateSaveAreaSupported cr4 host = true) : layout.Fits xcr0 := by
  rw [isXstateSaveAreaSupported, if_neg hcr4] at h
  simp only [Bool.not_eq_true', Bool.or_eq_false_iff, decide_eq_false_iff_not] at h
  obtain ⟨⟨_, hcurrentSize⟩, _⟩ := h
  have hsize : maxXsaveAreaSize.toNat = xsaveAreaSize := rfl
  refine fits_of_ends fun m hm => ?_
  have hle := hcurrent.2 hm
  rw [BitVec.lt_def, hsize] at hcurrentSize
  omega

theorem getLsbD_of_and_not {x y : Word} (h : x &&& ~~~y = 0) {n : ℕ} (hx : x.getLsbD n = true) :
    y.getLsbD n = true := by
  have hn : n < 64 := BitVec.lt_of_getLsbD hx
  have hbit := congrArg (BitVec.getLsbD · n) h
  simpa [hx, hn] using hbit

/-- What the emulation accepts fits, component by component. -/
theorem fits_of_acceptedRequest {registers : GuestRegs} (hreports : host.Reports layout)
    (h : AcceptedRequest host registers) : layout.Fits registers.requestedMask := by
  intro n hn hset b hb
  rw [InComponent] at hb
  split at hb
  · exact hb.trans (by decide)
  · rename_i hlow
    have hmem : n ∈ List.range' 2 62 := by
      rw [List.mem_range'_1]
      omega
    have hsupported : layout.supportedMask.getLsbD n = true := by
      rw [← hreports.supportedMask]
      exact getLsbD_of_and_not h.supported hset
    have hoffset := layout.offset_ne_zero n hmem hsupported
    have hlt := layout.end_lt n hmem hsupported
    have hsize : layout.size n ≠ 0 := by
      intro hzero
      rw [hzero] at hb
      exact absurd hb.2 (Nat.not_lt.mpr hb.1)
    have hend := h.fits n hmem hset
    rw [Host.componentEnd, hreports.size n hmem, hreports.offset n hmem,
      if_neg (not_or.mpr ⟨hsize, hoffset⟩), BitVec.le_def, BitVec.toNat_add,
      Nat.mod_eq_of_lt hlt] at hend
    exact hb.2.trans_le hend

end XstateLayout

namespace XstateVcpu

variable {Caller : Type*} [DecidableEq Caller] {layout : XstateLayout}

def Reports (layout : XstateLayout) : XstateAction Caller → Prop
  | .exit frame => frame.host.Reports layout
  | .others _ => True

/-- One step keeps XCR0, or loads a request that was accepted. -/
theorem fits_xstateStep {os : Os} {kernelBaseInfo : KernelBaseInfo} {s s' : XstateVcpu Caller}
    {action : XstateAction Caller} (h : layout.Fits s.vcpu.xcr0) (hreports : Reports layout action)
    (hstep : s.xstateStep os kernelBaseInfo action = some s') : layout.Fits s'.vcpu.xcr0 := by
  cases action with
  | others action =>
    obtain ⟨machine, _, rfl⟩ := Option.map_eq_some_iff.mp hstep
    exact h
  | exit frame =>
    rw [xstateStep] at hstep
    split at hstep
    · exact absurd hstep.symm (Option.some_ne_none _)
    · obtain ⟨⟨off, vcpu⟩, hhandled, rfl⟩ := Option.map_eq_some_iff.mp hstep
      have hxcr0 := Vcpu.xcr0_vmexitHandler hhandled
      dsimp only at hxcr0 ⊢
      rw [hxcr0]
      split
      · rcases hmask : emulateXsetbv frame.host (s.vcpu.atExit frame).registers with _ | value
        · exact h
        · obtain ⟨haccepted, rfl⟩ := emulateXsetbv_eq_some_iff.mp hmask
          exact XstateLayout.fits_of_acceptedRequest hreports haccepted
      · exact h

/-- Whatever XCR0 a run of exits reaches, XSAVE stays inside the area. -/
theorem fits_of_run {os : Os} {kernelBaseInfo : KernelBaseInfo} {s s' : XstateVcpu Caller}
    {actions : List (XstateAction Caller)} (cr4 : Word) (host : Host)
    (hcr4 : cr4 &&& cr4OsxsaveMask ≠ 0) (hsupported : isXstateSaveAreaSupported cr4 host = true)
    (hcurrent : IsGreatest (layout.ends s.vcpu.xcr0)
      (host.cpuidex cpuidExtendedStateEnumeration 0).ebx.toNat)
    (hrun : GuardedRun (xstateStep os kernelBaseInfo) (fun _ => Reports layout) s actions s') :
    layout.Fits s'.vcpu.xcr0 := by
  have hstart := XstateLayout.fits_of_isXstateSaveAreaSupported hcr4 hcurrent hsupported
  refine GuardedRun.invariant (I := fun s => layout.Fits s.vcpu.xcr0) ?_ hrun hstart
  intro s action s' hfits hreports hstep
  exact fits_xstateStep hfits hreports hstep

def flatLayout : XstateLayout where
  supportedMask := 7
  size n := if n = 2 then 0x100 else 0
  offset n := if n = 2 then 0x240 else 0
  offset_ne_zero := by decide
  end_lt := by decide

theorem reports_flatHost : Vcpu.flatHost.Reports flatLayout := by
  constructor
  · decide
  · decide
  · decide

theorem isGreatest_ends_flatLayout : IsGreatest (flatLayout.ends flatXstate.vcpu.xcr0)
    (Vcpu.flatHost.cpuidex cpuidExtendedStateEnumeration 0).ebx.toNat := by
  have hebx : (Vcpu.flatHost.cpuidex cpuidExtendedStateEnumeration 0).ebx.toNat = 0x340 := by
    decide
  have hxcr0 : flatXstate.vcpu.xcr0 = 7 := rfl
  rw [hebx, hxcr0]
  refine ⟨Or.inr ⟨2, by decide, by decide, rfl⟩, ?_⟩
  intro m hm
  rcases hm with rfl | ⟨n, hn, hset, rfl⟩
  · decide
  · revert hset
    revert n
    decide

/-- AVX is given up. -/
theorem fits_of_run_shrink :
    ∃ s', GuardedRun (xstateStep flatOs Machine.flatKernel) (fun _ => Reports flatLayout)
      flatXstate [.exit (xsetbvFrame 3 3)] s' ∧ flatLayout.Fits s'.vcpu.xcr0 := by
  have henabled : (xstateStep flatOs Machine.flatKernel flatXstate
      (.exit (xsetbvFrame 3 3))).isSome = true := by decide +kernel
  obtain ⟨s', hstep⟩ := Option.isSome_iff_exists.mp henabled
  have hrun : GuardedRun (xstateStep flatOs Machine.flatKernel) (fun _ => Reports flatLayout)
      flatXstate [.exit (xsetbvFrame 3 3)] s' :=
    GuardedRun.cons reports_flatHost hstep (GuardedRun.nil s')
  exact ⟨s', hrun, fits_of_run cr4OsxsaveMask Vcpu.flatHost (by decide) (by decide)
    isGreatest_ends_flatLayout hrun⟩

end XstateVcpu

end NovaHypervisor

import NovaHypervisor.VmexitHandler

/-!
The save area that the exit path keeps on its stack. XSAVE runs with the guest's XCR0 at
the exit and XRSTOR with the one that the handler leaves, and the header of the area
stays from one exit to the next. XRSTOR raises #GP in root mode when the header has a
component that XCR0 does not enable.
-/
namespace NovaHypervisor

open General

/-- The header after XSAVE with all the components of XCR0. -/
def xsave64 (xstateBv xcr0 inUse : Word) : Word := (xstateBv &&& ~~~xcr0) ||| (inUse &&& xcr0)

def xrstor64 (xstateBv xcr0 : Word) : Bool := xstateBv &&& ~~~xcr0 = 0

theorem xrstor64_iff {xstateBv xcr0 : Word} :
    xrstor64 xstateBv xcr0 = true ↔ xstateBv &&& ~~~xcr0 = 0 :=
  decide_eq_true_iff

/-- Nothing stale is left in a header that XCR0 covers. -/
theorem xsave64_of_xrstor64 {xstateBv xcr0 : Word} (h : xrstor64 xstateBv xcr0 = true)
    (inUse : Word) : xsave64 xstateBv xcr0 inUse = inUse &&& xcr0 := by
  rw [xsave64, xrstor64_iff.mp h]
  exact BitVec.zero_or

/-- What an exit brings: the VMCS, the registers, the components in use and the host. -/
structure ExitFrame where
  vmcs : Vmcs
  registers : GuestRegs
  inUse : Word
  host : Host

/-- A processor with the header of its save area. It stops when XRSTOR faults. -/
structure XstateVcpu (Caller : Type*) where
  vcpu : Vcpu Caller
  xstateBv : Word
  faulted : Bool

inductive XstateAction (Caller : Type*) where
  | exit (frame : ExitFrame)
  | others (action : PoolAction Caller PoolBuffer)

namespace Vcpu

variable {Caller : Type*}

def atExit (frame : ExitFrame) (v : Vcpu Caller) : Vcpu Caller :=
  { v with vmcs := frame.vmcs, registers := frame.registers }

variable [DecidableEq Caller]

theorem xcr0_vmexitHandler {os : Os} {kernelBaseInfo : KernelBaseInfo} {host : Host}
    {v : Vcpu Caller} {result : Bool × Vcpu Caller}
    (hexit : v.vmexitHandler os kernelBaseInfo host = some result) :
    result.2.xcr0 =
      if v.exitReason = .xsetbv then (emulateXsetbv host v.registers).getD v.xcr0
      else v.xcr0 := by
  obtain ⟨handled, hhandled, rfl⟩ := Option.map_eq_some_iff.mp hexit
  exact (handleExit_frame (v := v.entered) hhandled).2

end Vcpu

namespace XstateVcpu

variable {Caller : Type*}

/-- The header has no component outside XCR0. -/
def Restorable (s : XstateVcpu Caller) : Prop := xrstor64 s.xstateBv s.vcpu.xcr0 = true

/-- An XSETBV that the emulation accepts keeps every component in use. -/
def KeepsInUse (s : XstateVcpu Caller) : XstateAction Caller → Prop
  | .exit frame => (s.vcpu.atExit frame).exitReason = .xsetbv →
      ∀ requestedMask ∈ emulateXsetbv frame.host frame.registers,
        frame.inUse &&& s.vcpu.xcr0 &&& ~~~requestedMask = 0
  | .others _ => True

instance (s : XstateVcpu Caller) (frame : ExitFrame) :
    Decidable (∀ requestedMask ∈ emulateXsetbv frame.host frame.registers,
      frame.inUse &&& s.vcpu.xcr0 &&& ~~~requestedMask = 0) :=
  -- the other instance would go through all the masks
  Option.decidableForallMem _

instance (s : XstateVcpu Caller) : (action : XstateAction Caller) → Decidable (s.KeepsInUse action)
  | .exit frame => inferInstanceAs (Decidable (_ → ∀ requestedMask ∈ emulateXsetbv frame.host
      frame.registers, frame.inUse &&& s.vcpu.xcr0 &&& ~~~requestedMask = 0))
  | .others _ => inferInstanceAs (Decidable True)

variable [DecidableEq Caller]

/-- The exit path of the assembly. Both ways back to the guest restore. -/
def asmVmexitHandler (os : Os) (kernelBaseInfo : KernelBaseInfo) (frame : ExitFrame)
    (s : XstateVcpu Caller) : Option (XstateVcpu Caller) :=
  let xstateBv := xsave64 s.xstateBv s.vcpu.xcr0 frame.inUse
  ((s.vcpu.atExit frame).vmexitHandler os kernelBaseInfo frame.host).map fun (_, vcpu) =>
    ⟨vcpu, xstateBv, !xrstor64 xstateBv vcpu.xcr0⟩

def xstateStep (os : Os) (kernelBaseInfo : KernelBaseInfo) (s : XstateVcpu Caller) :
    XstateAction Caller → Option (XstateVcpu Caller)
  | .exit frame => if s.faulted then none else s.asmVmexitHandler os kernelBaseInfo frame
  | .others action =>
    (s.vcpu.machine.othersStep os action).map fun machine =>
      { s with vcpu := { s.vcpu with machine := machine } }

/-- One exit from a restorable header restores just when it keeps what is in use. -/
theorem asmVmexitHandler_restorable {os : Os} {kernelBaseInfo : KernelBaseInfo}
    {frame : ExitFrame} {s s' : XstateVcpu Caller} (h : s.Restorable)
    (hexit : s.asmVmexitHandler os kernelBaseInfo frame = some s') :
    (s'.Restorable ↔ s.KeepsInUse (.exit frame)) ∧ (s'.faulted = false ↔ s'.Restorable) := by
  obtain ⟨⟨off, vcpu⟩, hhandled, rfl⟩ := Option.map_eq_some_iff.mp hexit
  have hxcr0 := Vcpu.xcr0_vmexitHandler hhandled
  have hheader := xsave64_of_xrstor64 h frame.inUse
  have hsame : frame.inUse &&& s.vcpu.xcr0 &&& ~~~s.vcpu.xcr0 = 0 := by
    rw [BitVec.and_assoc, BitVec.and_not_self]
    exact BitVec.and_zero
  refine ⟨?_, ?_⟩
  · rw [Restorable, xrstor64_iff, hheader, hxcr0, KeepsInUse]
    by_cases hreason : (s.vcpu.atExit frame).exitReason = .xsetbv
    · rw [if_pos hreason, forall_prop_of_true hreason]
      rcases hmask : emulateXsetbv frame.host frame.registers with _ | requestedMask
      · have hnone : emulateXsetbv frame.host (s.vcpu.atExit frame).registers = none := hmask
        rw [hnone]
        exact iff_of_true hsame fun mask hmem => absurd hmem.symm (Option.some_ne_none mask)
      · have hsome : emulateXsetbv frame.host (s.vcpu.atExit frame).registers =
            some requestedMask := hmask
        rw [hsome]
        refine ⟨fun hzero mask hmem => ?_, fun hkept => hkept requestedMask rfl⟩
        obtain rfl := Option.some.inj hmem
        exact hzero
    · rw [if_neg hreason]
      exact iff_of_true hsame fun h => absurd h hreason
  · rw [Bool.not_eq_false']
    rfl

theorem xstateStep_restorable {os : Os} {kernelBaseInfo : KernelBaseInfo}
    {action : XstateAction Caller} {s s' : XstateVcpu Caller}
    (h : s.faulted = false ∧ s.Restorable)
    (hstep : s.xstateStep os kernelBaseInfo action = some s') :
    (s'.Restorable ↔ s.KeepsInUse action) ∧ (s'.faulted = false ↔ s'.Restorable) := by
  cases action with
  | exit frame =>
    rw [xstateStep, h.1, if_neg Bool.false_ne_true] at hstep
    exact asmVmexitHandler_restorable h.2 hstep
  | others action =>
    obtain ⟨machine, _, rfl⟩ := Option.map_eq_some_iff.mp hstep
    exact ⟨iff_of_true h.2 trivial, iff_of_true h.1 h.2⟩

/-- From a clear header, XRSTOR never faults as long as each XSETBV that is accepted keeps
the components in use, and it faults at the first one that does not. -/
theorem restorable_of_run {os : Os} {kernelBaseInfo : KernelBaseInfo}
    {s s' : XstateVcpu Caller} {actions : List (XstateAction Caller)}
    (hclear : s.xstateBv = 0) (hstart : s.faulted = false)
    (hrun : GuardedRun (xstateStep os kernelBaseInfo) KeepsInUse s actions s') :
    s'.faulted = false ∧ s'.Restorable ∧
      ∀ action s'', s'.xstateStep os kernelBaseInfo action = some s'' →
        (s''.Restorable ↔ s'.KeepsInUse action) ∧ (s''.faulted = false ↔ s''.Restorable) := by
  have hinitial : s.faulted = false ∧ s.Restorable := by
    refine ⟨hstart, ?_⟩
    rw [Restorable, xrstor64_iff, hclear]
    exact BitVec.zero_and
  have hreached : s'.faulted = false ∧ s'.Restorable := by
    refine GuardedRun.invariant (I := fun s => s.faulted = false ∧ s.Restorable) ?_ hrun hinitial
    intro s action s' hinv hguard hstep
    obtain ⟨hrestorable, hfaulted⟩ := xstateStep_restorable hinv hstep
    have hkept : s'.Restorable := hrestorable.mpr hguard
    exact ⟨hfaulted.mpr hkept, hkept⟩
  exact ⟨hreached.1, hreached.2, fun action s'' hstep => xstateStep_restorable hreached hstep⟩

def flatXstate : XstateVcpu Unit := ⟨Vcpu.flatVcpu (Machine.flatMachine 1 1) [], 0, false⟩

def xsetbvFrame (requestedMask inUse : Word) : ExitFrame where
  vmcs := (Vcpu.flatVcpu (Machine.flatMachine 1 1) [(.vmExitReason, 55)]).vmcs
  registers := { flatXstate.vcpu.registers with rax := requestedMask }
  inUse := inUse
  host := Vcpu.flatHost

/-- AVX is given up before it is used, taken back, and used. -/
theorem restorable_of_run_grow :
    (execute (xstateStep flatOs Machine.flatKernel) flatXstate
      [.exit (xsetbvFrame 3 3), .exit (xsetbvFrame 7 3), .others .processFree,
        .exit (xsetbvFrame 7 7)]).Restorable :=
  (restorable_of_run rfl rfl (guardedRun_of_allowed (by decide +kernel))).2.1

/-- AVX is given up while it is in use. -/
theorem not_restorable_of_shrink :
    ¬ ∀ (os : Os) (kernelBaseInfo : KernelBaseInfo) (s s' : XstateVcpu Unit)
      (actions : List (XstateAction Unit)), s.xstateBv = 0 → s.faulted = false →
        Run (xstateStep os kernelBaseInfo) s actions s' → s'.Restorable := by
  intro h
  obtain ⟨actions, hrun⟩ := exists_run_execute (xstateStep flatOs Machine.flatKernel) flatXstate
    [.exit (xsetbvFrame 3 7)]
  have hrestorable := h flatOs Machine.flatKernel _ _ actions rfl rfl hrun
  rw [Restorable] at hrestorable
  exact absurd hrestorable (by decide +kernel)

end XstateVcpu

end NovaHypervisor

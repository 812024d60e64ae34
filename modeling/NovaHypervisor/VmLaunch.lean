import NovaHypervisor.AsmMachine
import NovaHypervisor.VmcsSetup

/-!
The launch of a processor. `AsmVmxSaveState` saves the registers and calls
`VirtualizeProcessor`, which fills the VMCS and launches the guest at
`AsmVmxRestoreState` on the saved stack. The guest goes on as if the call had returned.
-/
namespace NovaHypervisor

open General

namespace Cpu

variable {X : Type*}

/-- The registers in the order in which they are popped. -/
def restoredRegs : List Reg :=
  [.r15, .r14, .r13, .r12, .r11, .r10, .r9, .r8, .rdi, .rsi, .rbp, .rbx, .rdx, .rcx, .rax]

def saveRegs : List Instruction :=
  [.pushfq, .push .rax, .push .rcx, .push .rdx, .push .rbx, .push .rbp, .push .rsi, .push .rdi,
    .push .r8, .push .r9, .push .r10, .push .r11, .push .r12, .push .r13, .push .r14, .push .r15]

/-- Up to the call of `VirtualizeProcessor`. -/
def asmVmxSaveState : List Instruction :=
  saveRegs ++ [.sub .rsp 0x100, .mov .rcx .rsp, .sub .rsp 0x28]

def asmVmxRestoreState : List Instruction :=
  .add .rsp 0x100 :: restoredRegs.map .pop ++ [.popfq, .ret]

/-- The processor with the registers that a VM entry loads. -/
def enterGuest (c : Cpu X) (entered : SystemState) : Cpu X :=
  { c.setReg .rsp entered.rsp with rip := entered.rip, rflags := entered.rflags }

/-- The VMCS at VMLAUNCH. The guest's stack is the parameter of `VirtualizeProcessor`. -/
def launchedVmcs (p : LogicalProcessor) (s : LaunchParameters) (vmcs : VmcsContent) (c : Cpu X) :
    VmcsContent :=
  setupVmcs p { s with guestStack := c.reg .rcx } vmcs

/-- The guest at its first instruction. `virtualizeProcessor` is the function up to the
VMLAUNCH. -/
def launch (env : AsmEnvironment X) (virtualizeProcessor : Cpu X → Cpu X) (p : LogicalProcessor)
    (s : LaunchParameters) (vmcs : VmcsContent) (c : Cpu X) : Cpu X :=
  let called := c.run env asmVmxSaveState
  (virtualizeProcessor called).enterGuest ((launchedVmcs p s vmcs called).vmEntry p)

/-- What the saved state takes on the stack, with the return address. -/
def savedStateSize : ℕ := 0x188

/-- A compiled function leaves the stack of its caller, from the parameter on. -/
def LaunchConvention (virtualizeProcessor : Cpu X → Cpu X) : Prop :=
  ∀ c x, InRange (c.reg .rcx) savedStateSize x → (virtualizeProcessor c).mem x = c.mem x

theorem run_asmVmxSaveState (env : AsmEnvironment X) (c : Cpu X) :
    let called := c.run env asmVmxSaveState
    called.mem.Holds (called.reg .rcx + 0x100)
        (restoredRegs.map c.reg ++ [c.rflags, c.read64 (c.reg .rsp)]) ∧
      called.reg .rcx = c.reg .rsp - 0x180 := by
  have hpush : ∀ i ∈ saveRegs, isPush i = true := by decide
  have hreturn : c.mem.Holds (c.reg .rsp) [c.read64 (c.reg .rsp)] := ⟨rfl, trivial⟩
  have hroom : 8 * ([c.read64 (c.reg .rsp)].length + saveRegs.length) ≤ 2 ^ 64 := by
    simp [saveRegs]
  obtain ⟨hholds, hrsp, -, -⟩ := run_pushes env saveRegs hpush c hreturn hroom
  have hlength : BitVec.ofNat 64 (8 * saveRegs.length) = 0x80#64 := by decide
  have hpushed : (saveRegs.map c.pushed).reverse = restoredRegs.map c.reg ++ [c.rflags] := rfl
  rw [hlength] at hrsp
  rw [hpushed, List.append_assoc] at hholds
  rw [asmVmxSaveState, run_append]
  generalize c.run env saveRegs = saved at *
  have hmem : (saved.run env [.sub .rsp 0x100, .mov .rcx .rsp, .sub .rsp 0x28]).mem = saved.mem :=
    rfl
  have hrcx : (saved.run env [.sub .rsp 0x100, .mov .rcx .rsp, .sub .rsp 0x28]).reg .rcx =
      saved.reg .rsp - 0x100 := by
    simp [exec]
  dsimp only
  rw [hrcx, hmem]
  refine ⟨?_, ?_⟩
  · rw [BitVec.sub_add_cancel]
    exact hholds
  · rw [hrsp]
    bv_omega

theorem run_popfq_ret_frame (env : AsmEnvironment X) (c : Cpu X) :
    let final := c.run env [.popfq, .ret]
    (∀ r, r ≠ .rsp → final.reg r = c.reg r) ∧ final.reg .rsp = c.reg .rsp + 16 ∧
      final.rip = c.read64 (c.reg .rsp + 8) ∧ final.rflags = c.read64 (c.reg .rsp) ∧
      final.mem = c.mem := by
  dsimp only
  rw [run_cons, run_cons, run_nil]
  refine ⟨fun r hr => ?_, ?_, ?_, rfl, rfl⟩
  · simp only [exec, setReg_reg, if_neg hr]
  · simp only [exec, setReg_reg, if_true]
    bv_omega
  · simp only [exec, setReg_reg, if_true]
    rfl

theorem enterGuest_spec (c : Cpu X) (entered : SystemState) :
    (c.enterGuest entered).reg .rsp = entered.rsp ∧ (c.enterGuest entered).rip = entered.rip ∧
      (c.enterGuest entered).mem = c.mem := by
  refine ⟨?_, rfl, rfl⟩
  simp [enterGuest]

theorem vmEntry_launched (vmcs : VmcsContent) (p : LogicalProcessor) :
    (vmcs.vmEntry p).rsp = vmcs 0x681C ∧ (vmcs.vmEntry p).rip = vmcs 0x681E :=
  ⟨rfl, rfl⟩

theorem launchedVmcs_spec (p : LogicalProcessor) (s : LaunchParameters) (vmcs : VmcsContent)
    (c : Cpu X) :
    launchedVmcs p s vmcs c 0x681C = c.reg .rcx ∧
      launchedVmcs p s vmcs c 0x681E = s.asmVmxRestoreState := by
  have hstack : ((0x681C, c.reg .rcx) : BitVec 32 × Word) ∈
      LogicalProcessor.entryWrites { s with guestStack := c.reg .rcx } := by
    simp [LogicalProcessor.entryWrites]
  have hentry : ((0x681E, s.asmVmxRestoreState) : BitVec 32 × Word) ∈
      LogicalProcessor.entryWrites { s with guestStack := c.reg .rcx } := by
    simp [LogicalProcessor.entryWrites]
  rw [launchedVmcs]
  refine ⟨?_, ?_⟩
  · exact LogicalProcessor.setupVmcs_later (LogicalProcessor.mem_laterWrites_of_entry hstack)
      (BitVec.isLt _)
  · exact LogicalProcessor.setupVmcs_later (LogicalProcessor.mem_laterWrites_of_entry hentry)
      (BitVec.isLt _)

theorem launch_spec (env : AsmEnvironment X) (virtualizeProcessor : Cpu X → Cpu X)
    (p : LogicalProcessor) (s : LaunchParameters) (vmcs : VmcsContent) (c : Cpu X) :
    let called := c.run env asmVmxSaveState
    let entered := launch env virtualizeProcessor p s vmcs c
    entered.reg .rsp = called.reg .rcx ∧ entered.rip = s.asmVmxRestoreState ∧
      entered.mem = (virtualizeProcessor called).mem := by
  dsimp only
  rw [launch]
  generalize c.run env asmVmxSaveState = called
  obtain ⟨hrsp, hrip, hmem⟩ := enterGuest_spec (virtualizeProcessor called)
    ((launchedVmcs p s vmcs called).vmEntry p)
  obtain ⟨hstack, hentry⟩ := vmEntry_launched (launchedVmcs p s vmcs called) p
  obtain ⟨hlaunchStack, hlaunchEntry⟩ := launchedVmcs_spec p s vmcs called
  exact ⟨(hrsp.trans hstack).trans hlaunchStack, (hrip.trans hentry).trans hlaunchEntry, hmem⟩

/-- The guest returns from `AsmVmxSaveState` to its caller with the registers and the flags
of the call, on the stack of the call, whatever `VirtualizeProcessor` left in them. -/
theorem launch_transparent (env : AsmEnvironment X) (virtualizeProcessor : Cpu X → Cpu X)
    (hconv : LaunchConvention virtualizeProcessor) (p : LogicalProcessor) (s : LaunchParameters)
    (vmcs : VmcsContent) (c : Cpu X) :
    let entered := launch env virtualizeProcessor p s vmcs c
    let final := entered.run env asmVmxRestoreState
    entered.rip = s.asmVmxRestoreState ∧
      (∀ r, r ≠ .rsp → final.reg r = c.reg r) ∧
      final.reg .rsp = c.reg .rsp + 8 ∧
      final.rip = c.read64 (c.reg .rsp) ∧
      final.rflags = c.rflags ∧
      final.mem = (virtualizeProcessor (c.run env asmVmxSaveState)).mem := by
  obtain ⟨hsaved, hrcx⟩ := run_asmVmxSaveState env c
  obtain ⟨hrsp, hrip, hmem⟩ := launch_spec env virtualizeProcessor p s vmcs c
  dsimp only at hsaved hrcx hrsp hrip hmem ⊢
  refine ⟨hrip, ?_⟩
  generalize launch env virtualizeProcessor p s vmcs c = entered at *
  generalize c.run env asmVmxSaveState = called at *
  have hadd : (entered.exec env (.add .rsp 0x100)).reg .rsp = called.reg .rcx + 0x100 := by
    simp [exec, hrsp]
  have hkept : (entered.exec env (.add .rsp 0x100)).mem.Holds
      ((entered.exec env (.add .rsp 0x100)).reg .rsp)
      (restoredRegs.map c.reg ++ [c.rflags, c.read64 (c.reg .rsp)]) := by
    rw [hadd]
    refine hsaved.congr (by simp [restoredRegs]) fun x hx => ?_
    have hframe : entered.mem x = called.mem x := by
      rw [hmem]
      refine hconv called x (hx.mono ?_)
      simp only [restoredRegs, List.length_append, List.length_map, List.length_cons,
        List.length_nil, savedStateSize]
      bv_omega
    exact hframe
  have hadded : (entered.exec env (.add .rsp 0x100)).mem = entered.mem := rfl
  rw [asmVmxRestoreState, List.cons_append, run_cons, run_append]
  generalize entered.exec env (.add .rsp 0x100) = added at *
  obtain ⟨hrest, hpopped, hreg, hunchanged⟩ := run_restore env restoredRegs (by decide) hkept
  have hpoppedMem : (added.run env (restoredRegs.map .pop)).mem = added.mem := by
    rw [hunchanged]
  generalize added.run env (restoredRegs.map .pop) = popped at *
  obtain ⟨hflags, hreturn, -⟩ := hrest
  have hlength : BitVec.ofNat 64 (8 * restoredRegs.length) = 0x78#64 := by decide
  rw [hadd, hrcx, hlength] at hpopped
  obtain ⟨hfinalReg, hfinalRsp, hfinalRip, hfinalFlags, hfinalMem⟩ := run_popfq_ret_frame env popped
  refine ⟨fun r hr => ?_, ?_, hfinalRip.trans hreturn, hfinalFlags.trans hflags, ?_⟩
  · have hsavedReg : r ∈ restoredRegs := by
      cases r <;> first | exact absurd rfl hr | decide
    rw [hfinalReg r hr, hreg r hr, if_pos hsavedReg]
  · rw [hfinalRsp, hpopped]
    bv_omega
  · rw [hfinalMem, hpoppedMem, hadded, hmem]

/-- A processor without extended state, and a `VirtualizeProcessor` that overwrites the
registers. -/
def bareEnvironment : AsmEnvironment (Fin 16 → BitVec 128) where
  unit :=
    { xmm := id
      setXmm := Function.update
      xmm_setXmm := update_xmm
      xsave64 := fun _ _ area => area
      xrstor64 := fun _ _ x => x
      fxsave64 := fun _ area => area
      fxrstor64 := fun _ x => x }
  callee _ c := c
  vmcall c := c

def callerCpu : Cpu (Fin 16 → BitVec 128) where
  reg r := if r = .rsp then 0x50000 else if r = .rbx then 9 else 7
  rflags := 0x246
  rip := 0
  cr4 := 0
  xcr0 := 1
  extended _ := 0
  mem := ByteMemory.write (n := 8) (fun _ => 0) 0x50000#64 0x1234#64

theorem launch_transparent_caller :
    let entered := launch bareEnvironment (fun c => { c with reg := fun _ => 0 })
      LogicalProcessor.flatProcessor LogicalProcessor.flatParameters (fun _ => 0) callerCpu
    let final := entered.run bareEnvironment asmVmxRestoreState
    final.reg .rbx = 9 ∧ final.reg .rsp = 0x50008 ∧ final.rip = 0x1234 := by
  obtain ⟨-, hreg, hrsp, hrip, -, -⟩ := launch_transparent bareEnvironment
    (fun c => { c with reg := fun _ => 0 }) (fun _ _ _ => rfl)
    LogicalProcessor.flatProcessor LogicalProcessor.flatParameters (fun _ => 0) callerCpu
  have hreturn : callerCpu.read64 (callerCpu.reg .rsp) = 0x1234 :=
    ByteMemory.read_write_self (by decide) _
  refine ⟨(hreg .rbx (by decide)).trans ?_, hrsp.trans ?_, hrip.trans hreturn⟩
  · rfl
  · rfl

end Cpu

end NovaHypervisor

import NovaHypervisor.AsmVmexitHandler
import NovaHypervisor.EntryFields

/-!
A VMCALL of the driver, from the call of `AsmVmxVmcall` in the guest through the exit
stub and `VmcallHandler` back to the caller. The compiled handler does what the model of
it does, on the frame that the stub pushed.
-/
namespace NovaHypervisor

open General

def hypervisorMagic : Word := 0x4856544D50
def vmcallMagic : Word := 0x564D43414C4C
def noHypervMagic : Word := 0x4E4F485950455256

namespace Vcpu

variable {Caller : Type*} [DecidableEq Caller] {os : Os} {kernelBaseInfo : KernelBaseInfo}
  {host : Host} {v v' : Vcpu Caller} {off : Bool}

/-- The exit of a VMCALL of the driver: the result is in RAX, and the guest goes on behind
the instruction, with VMX or without. -/
structure Served (os : Os) (v : Vcpu Caller) (off : Bool) (v' : Vcpu Caller) : Prop where
  registers : ∃ status machine, v.machine.enterRoot.vmcallHandler os v.registers.rcx
    v.registers.rdx v.registers.r8 = some (status, machine) ∧
    v'.registers = { v.registers with rax := status.signExtend 64 }
  shutdown : off = decide (v.registers.rcx.toNat = 2)
  resumed : off = false → v'.vmcs.vmread .guestRsp = v.vmcs.vmread .guestRsp ∧
    v'.vmcs.vmread .guestRip = v.vmcs.vmread .guestRip + v.vmcs.vmread .vmExitInstructionLen ∧
    v'.vmxoffState = v.vmxoffState
  left : off = true → v'.vmxoffState =
    ⟨true, v.vmcs.vmread .guestRip + v.vmcs.vmread .vmExitInstructionLen,
      v.vmcs.vmread .guestRsp⟩

theorem served_of_vmexitHandler (hreason : v.exitReason = .vmcall)
    (hself : isSelfVmcall v.registers = true) (hon : v.vmxoffState.isVmxoffExecuted = false)
    (hexit : v.vmexitHandler os kernelBaseInfo host = some (off, v')) : v.Served os off v' := by
  obtain ⟨⟨action, w⟩, hhandled, hfinish⟩ := Option.map_eq_some_iff.mp hexit
  have hoff : (w.finishExit action).1 = off := congrArg Prod.fst hfinish
  obtain rfl : (w.finishExit action).2 = v' := congrArg Prod.snd hfinish
  rw [hreason] at hhandled
  obtain ⟨w', hcall, heq⟩ := Option.map_eq_some_iff.mp hhandled
  obtain ⟨rfl, rfl⟩ := Prod.mk.inj heq
  have hread : ∀ f ∉ Vmcs.entryFields, v.entered.vmcs.vmread f = v.vmcs.vmread f :=
    EventHandler.agreeOutside_clearPendingInjection v.vmcs
  rw [handleVmcall, if_pos (show isSelfVmcall v.entered.registers = true from hself)] at hcall
  obtain ⟨⟨status, machine⟩, hserved, rfl⟩ := Option.map_eq_some_iff.mp hcall
  by_cases hshutdown : v.registers.rcx.toNat = 2
  · rw [if_pos (show v.entered.registers.rcx.toNat = 2 from hshutdown)] at hoff ⊢
    refine ⟨⟨status, machine, hserved, rfl⟩, ?_, ?_, ?_⟩
    · rw [decide_eq_true hshutdown, ← hoff]
      rfl
    · intro hresumed
      rw [← hoff] at hresumed
      exact absurd hresumed (by simp [finishExit, vmxVmxoff])
    · intro _
      rw [← hread .guestRip (by decide), ← hread .vmExitInstructionLen (by decide),
        ← hread .guestRsp (by decide)]
      rfl
  · rw [if_neg (show ¬ v.entered.registers.rcx.toNat = 2 from hshutdown)] at hoff ⊢
    have hresumed : v.entered.vmxoffState.isVmxoffExecuted = false := hon
    have hfalse : off = false := hoff.symm.trans hresumed
    refine ⟨⟨status, machine, hserved, rfl⟩, ?_, ?_, ?_⟩
    · rw [decide_eq_false hshutdown, hfalse]
    · intro _
      have hkept := EventHandler.agreeOutside_reinjectEventFromIdtVectoring
        (resumeToNextInstruction v.entered.vmcs)
      rw [finishExit_resumed (by exact hresumed) (by decide), if_pos rfl,
        hkept .guestRsp (by decide), hkept .guestRip (by decide), resumeToNextInstruction,
        Vmcs.vmread_vmwrite_of_ne (by decide), Vmcs.vmread_vmwrite_self,
        hread .guestRsp (by decide), hread .guestRip (by decide),
        hread .vmExitInstructionLen (by decide)]
      exact ⟨rfl, BitVec.and_allOnes, rfl⟩
    · intro hleft
      rw [hfalse] at hleft
      exact absurd hleft (by decide)

end Vcpu

namespace Cpu

variable {X : Type*} {env : AsmEnvironment X} {hostRsp : Word} {vmxoffState : VmxoffState}

/-- The entry of the stub writes the host's stack only. -/
theorem enterHandler_mem (env : AsmEnvironment X) {c : Cpu X} (hrsp : c.reg .rsp = hostRsp)
    {x : Word} (hx : ¬ OnHostStack hostRsp x) : (c.enterHandler env).mem x = c.mem x := by
  have hframe : ¬ InRange (xstateFrame hostRsp) 0x3020 x :=
    fun hin => hx (not_calleeStack_of_frame (Or.inl hin)).1
  have hgpr : ¬ InRange (gprFrame hostRsp) gprFrameSize x :=
    fun hin => hx (not_calleeStack_of_frame (Or.inr hin)).1
  have hpush : ∀ i ∈ pushFrame, isPush i = true := by decide
  have hlength : BitVec.ofNat 64 (8 * pushFrame.length) = 0x90#64 := by decide
  have hpushedMem : (c.run env pushFrame).mem x = c.mem x := by
    refine run_pushes_mem env pushFrame hpush c (by decide) ?_
    rw [hlength, hrsp]
    exact hgpr
  have hpushed : (c.run env pushFrame).reg .rsp = gprFrame hostRsp := by
    rw [(run_pushFrame env c).1, hrsp]
    rfl
  obtain ⟨hreserved, -⟩ := run_reserveFrame env hpushed
  rw [enterHandler, run_append]
  generalize c.run env pushFrame = pushed at *
  have hwrites : (pushed.run env reserveFrame).mem =
      (pushed.mem.write (n := 8) (xstateFrame hostRsp + xstateGprFrameOffset)
        (gprFrame hostRsp)).write (n := 8) (xstateFrame hostRsp + xstateSaveKindOffset) 0 := by
    simp [reserveFrame, exec, hpushed, xstateFrame]
  have hreservedMem : (pushed.run env reserveFrame).mem x = pushed.mem x := by
    rw [hwrites, ByteMemory.write_apply_of_not, ByteMemory.write_apply_of_not]
    · refine fun hin => hframe (hin.mono ?_)
      simp only [xstateGprFrameOffset]
      bv_omega
    · refine fun hin => hframe (hin.mono ?_)
      simp only [xstateSaveKindOffset]
      bv_omega
  obtain ⟨-, hsaved⟩ := saveXstate_spec env (pushed.run env reserveFrame)
  rw [hreserved.rsp] at hsaved
  have hpass : ∀ i ∈ passFrame, writesMemory i = false := by decide
  rw [run_mem_of_reads env hpass, hsaved x, hreservedMem, hpushedMem]
  · exact fun hin => hframe (hin.mono (by simp [xsaveAreaSize]))
  · refine fun hin => hframe (hin.mono ?_)
    simp only [xstateSaveKindOffset]
    bv_omega

/-- Both ways out of the stub load the frame that the handler leaves. -/
theorem asmVmexitHandler_spec (hconv : CallingConvention env hostRsp vmxoffState) {c : Cpu X}
    (hrsp : c.reg .rsp = hostRsp) {off : Bool}
    (hoff : ((c.afterHandler env).reg .rax).setWidth 8 = if off then 1#8 else 0#8)
    (hguest : off = true → ∀ x, InRange (vmxoffState.guestRsp - 8) 8 x → ¬ OnHostStack hostRsp x) :
    let after := c.afterHandler env
    let final := (c.asmVmexitHandler env).2
    (c.asmVmexitHandler env).1 = off ∧
      (∀ r, r ≠ .rsp → final.reg r = r.field (guestRegsAt after.mem (gprFrame hostRsp))) ∧
      (off = true → final.reg .rsp = vmxoffState.guestRsp ∧ final.rip = vmxoffState.guestRip) ∧
      ∀ x, ¬ OnHostStack hostRsp x → (off = true → ¬ InRange (vmxoffState.guestRsp - 8) 8 x) →
        final.mem x = after.mem x := by
  obtain ⟨hframe, hmem⟩ := returnFromHandler_spec hconv hrsp
  have hrax : (c.returnFromHandler env).reg .rax = (c.afterHandler env).reg .rax := by
    have hreturn : c.returnFromHandler env = (c.afterHandler env).exec env (.add .rsp 0x20) := rfl
    rw [hreturn]
    simp [exec]
  dsimp only
  rw [asmVmexitHandler, hrax, hoff]
  cases off with
  | true =>
    obtain ⟨hreg, hstack, hrip, hkept⟩ := asmVmxoffHandler_spec hconv hframe (hguest rfl)
    rw [hmem] at hreg
    rw [if_pos rfl, if_pos rfl]
    refine ⟨rfl, hreg, fun _ => ⟨hstack, hrip⟩, ?_⟩
    intro x hout hslot
    rw [hkept x hout (hslot rfl), hmem]
  | false =>
    rw [if_neg Bool.false_ne_true, if_neg (by decide)]
    refine ⟨rfl, ?_, fun hon => absurd hon Bool.false_ne_true, ?_⟩
    · intro r hr
      rw [resume_spec env hframe hr, hmem]
    · intro x _ _
      obtain ⟨hreg, hsame⟩ := restoreXstate_spec env (c.returnFromHandler env)
      have hrestored : ((c.returnFromHandler env).restoreXstate env).AtFrame hostRsp :=
        hframe.congr (hreg .rsp (by decide)) fun x _ => congrFun hsame x
      rw [resume, (run_popFrame env hrestored).2.2, hsame, hmem]

def asmVmxVmcallSave : List Instruction := [.pushfq, .push .r10, .push .r11, .push .r12]

def loadMagic (c : Cpu X) : Cpu X :=
  ((c.setReg .r10 hypervisorMagic).setReg .r11 vmcallMagic).setReg .r12 noHypervMagic

/-- Up to the VMCALL. -/
def enterVmcall (env : AsmEnvironment X) (c : Cpu X) : Cpu X :=
  (c.run env asmVmxVmcallSave).loadMagic

def asmVmxVmcallRestore : List Instruction :=
  [.r12, .r11, .r10].map .pop ++ [.popfq, .ret]

variable {Caller : Type*}

/-- The exit on the host's stack and the way back: a VM entry loads the guest's RSP, RIP and
RFLAGS from the VMCS, and without VMX the stub returns by itself. -/
def vmcallExit (env : AsmEnvironment X) (hostRsp : Word) (v' : Vcpu Caller) (c : Cpu X) : Cpu X :=
  let exit := (c.setReg .rsp hostRsp).asmVmexitHandler env
  if exit.1 then exit.2
  else
    { exit.2.setReg .rsp (v'.vmcs.vmread .guestRsp) with
      rip := v'.vmcs.vmread .guestRip
      rflags := v'.vmcs.vmread .guestRflags }

/-- The call in the guest, where the handler leaves the processor `v'`. -/
def asmVmxVmcall (env : AsmEnvironment X) (hostRsp : Word) (v' : Vcpu Caller) (c : Cpu X) : Cpu X :=
  (vmcallExit env hostRsp v' (c.enterVmcall env)).run env asmVmxVmcallRestore

/-- The processor as the handler finds it at the VMCALL. -/
structure ExitsAt (c : Cpu X) (v : Vcpu Caller) : Prop where
  reason : v.exitReason = .vmcall
  registers : v.registers = { c.guestRegs with rsp := c.reg .rbp }
  guestRsp : v.vmcs.vmread .guestRsp = c.reg .rsp
  on : v.vmxoffState.isVmxoffExecuted = false

/-- The compiled handler on the frame of `v`: it leaves the frame of `v'`, returns whether VMX
is off, and does not touch what the guest has on its stack. -/
structure Compiled (env : AsmEnvironment X) (hostRsp : Word) (v : Vcpu Caller) (off : Bool)
    (v' : Vcpu Caller) : Prop where
  registers : ∀ c : Cpu X, c.Entered hostRsp v.registers →
    guestRegsAt (env.callee .vmexitHandler c).mem (gprFrame hostRsp) = v'.registers
  result : ∀ c : Cpu X, c.Entered hostRsp v.registers →
    ((env.callee .vmexitHandler c).reg .rax).setWidth 8 = if off then 1#8 else 0#8
  guestStack : ∀ c : Cpu X, c.Entered hostRsp v.registers →
    ∀ x, InRange (v.vmcs.vmread .guestRsp) 0x28 x →
      (env.callee .vmexitHandler c).mem x = c.mem x

theorem enterVmcall_spec (env : AsmEnvironment X) (c : Cpu X) :
    let called := c.enterVmcall env
    called.reg .rsp = c.reg .rsp - 0x20 ∧
      called.mem.Holds (called.reg .rsp)
        ([Reg.r12, .r11, .r10].map c.reg ++ [c.rflags, c.read64 (c.reg .rsp)]) ∧
      isSelfVmcall { called.guestRegs with rsp := called.reg .rbp } = true ∧
      ∀ r, r ∉ [.rsp, .r10, .r11, .r12] → called.reg r = c.reg r := by
  have hpush : ∀ i ∈ asmVmxVmcallSave, isPush i = true := by decide
  have hreturn : c.mem.Holds (c.reg .rsp) [c.read64 (c.reg .rsp)] := ⟨rfl, trivial⟩
  have hroom : 8 * ([c.read64 (c.reg .rsp)].length + asmVmxVmcallSave.length) ≤ 2 ^ 64 := by
    simp [asmVmxVmcallSave]
  obtain ⟨hholds, hrsp, hother, -⟩ := run_pushes env asmVmxVmcallSave hpush c hreturn hroom
  have hlength : BitVec.ofNat 64 (8 * asmVmxVmcallSave.length) = 0x20#64 := by decide
  rw [hlength] at hrsp
  dsimp only
  rw [enterVmcall]
  generalize c.run env asmVmxVmcallSave = saved at *
  have hloaded : saved.loadMagic.reg .rsp = saved.reg .rsp := by simp [loadMagic]
  refine ⟨hloaded.trans hrsp, ?_, ?_, ?_⟩
  · rw [hloaded]
    exact hholds
  · simp [isSelfVmcall, guestRegs, loadMagic, hypervisorMagic, vmcallMagic, noHypervMagic]
  · intro r hr
    simp only [List.mem_cons, List.not_mem_nil, or_false, not_or] at hr
    simp [loadMagic, hr, hother r hr.1]

/-- The fields of a frame of which the handler changes RAX only. -/
theorem field_served {r : Reg} (hr : r ∉ [.rax, .rsp]) (c : Cpu X) (rax : Word) :
    r.field { ({ c.guestRegs with rsp := c.reg .rbp } : GuestRegs) with rax := rax } = c.reg r := by
  cases r <;> first | rfl | exact absurd (by decide) hr

variable [DecidableEq Caller] {os : Os} {kernelBaseInfo : KernelBaseInfo} {host : Host}
  {v v' : Vcpu Caller} {off : Bool}

/-- The guest behind the VMCALL: on its stack, which is as it was, with its registers and
the result. -/
theorem vmcallExit_spec (hconv : CallingConvention env hostRsp v'.vmxoffState) {c : Cpu X}
    (hat : c.ExitsAt v) (hself : isSelfVmcall v.registers = true)
    (hexit : v.vmexitHandler os kernelBaseInfo host = some (off, v'))
    (hcompiled : Compiled env hostRsp v off v')
    (hguest : ∀ x, InRange (c.reg .rsp - 8) 0x30 x → ¬ OnHostStack hostRsp x) :
    let final := vmcallExit env hostRsp v' c
    (∃ status machine, v.machine.enterRoot.vmcallHandler os (c.reg .rcx) (c.reg .rdx) (c.reg .r8) =
        some (status, machine) ∧ final.reg .rax = status.signExtend 64) ∧
      (∀ r, r ∉ [.rax, .rsp] → final.reg r = c.reg r) ∧
      final.reg .rsp = c.reg .rsp ∧
      final.rip = v.vmcs.vmread .guestRip + v.vmcs.vmread .vmExitInstructionLen ∧
      ∀ x, InRange (c.reg .rsp) 0x28 x → final.mem x = c.mem x := by
  obtain ⟨⟨status, machine, hserved, hregs⟩, -, hresumed, hleft⟩ :=
    Vcpu.served_of_vmexitHandler hat.reason hself hat.on hexit
  have hhost : (c.setReg .rsp hostRsp).reg .rsp = hostRsp := by simp
  have hentered : ((c.setReg .rsp hostRsp).enterHandler env).Entered hostRsp v.registers := by
    have hspec := enterHandler_spec env (c.setReg .rsp hostRsp)
    rw [hhost] at hspec
    rw [hat.registers]
    exact hspec
  have hleftRsp : off = true → v'.vmxoffState.guestRsp = c.reg .rsp := by
    intro hoff
    rw [hleft hoff, ← hat.guestRsp]
  have hreturn : off = true →
      ∀ x, InRange (v'.vmxoffState.guestRsp - 8) 8 x → ¬ OnHostStack hostRsp x := by
    intro hoff x hx
    rw [hleftRsp hoff] at hx
    exact hguest x (hx.mono (by simp))
  obtain ⟨hflag, hreg, hstack, hmem⟩ :=
    asmVmexitHandler_spec hconv hhost (hcompiled.result _ hentered) hreturn
  rw [afterHandler, hcompiled.registers _ hentered, hregs] at hreg
  have hstackMem : ∀ x, InRange (c.reg .rsp) 0x28 x →
      ((c.setReg .rsp hostRsp).asmVmexitHandler env).2.mem x = c.mem x := by
    intro x hx
    have houtside : ¬ OnHostStack hostRsp x := by
      refine hguest x (hx.mono ?_)
      bv_omega
    rw [hmem x houtside, afterHandler, hcompiled.guestStack _ hentered x (by rwa [hat.guestRsp]),
      enterHandler_mem env hhost houtside]
    · rfl
    · intro hoff hslot
      rw [hleftRsp hoff] at hslot
      simp only [InRange] at hx hslot
      bv_omega
  rw [hat.registers] at hserved hreg
  have hrax : ((c.setReg .rsp hostRsp).asmVmexitHandler env).2.reg .rax = status.signExtend 64 :=
    hreg .rax (by decide)
  have hothers : ∀ r, r ∉ [.rax, .rsp] →
      ((c.setReg .rsp hostRsp).asmVmexitHandler env).2.reg r = c.reg r := by
    intro r hr
    have hrsp : r ≠ .rsp := by
      rintro rfl
      exact hr (by decide)
    rw [hreg r hrsp]
    exact field_served hr c _
  dsimp only
  rw [vmcallExit]
  generalize (c.setReg .rsp hostRsp).asmVmexitHandler env = exit at *
  cases off with
  | true =>
    obtain ⟨hrsp, hrip⟩ := hstack rfl
    simp only [hflag, if_true]
    refine ⟨⟨status, machine, hserved, hrax⟩, hothers, ?_, ?_, hstackMem⟩
    · rw [hrsp, hleftRsp rfl]
    · rw [hrip, hleft rfl]
  | false =>
    obtain ⟨hrsp, hrip, -⟩ := hresumed rfl
    simp only [hflag, Bool.false_eq_true, if_false]
    refine ⟨⟨status, machine, hserved, ?_⟩, ?_, ?_, hrip, hstackMem⟩
    · simpa using hrax
    · intro r hr
      have hne : r ≠ .rsp := by
        rintro rfl
        exact hr (by decide)
      simpa [hne] using hothers r hr
    · simpa [hat.guestRsp] using hrsp

/-- The call returns to its caller with the status of `VmcallHandler` in RAX and every other
register, the flags and the stack as they were, whether the guest resumes or VMX is off. -/
theorem asmVmxVmcall_returns (hconv : CallingConvention env hostRsp v'.vmxoffState) (c : Cpu X)
    (hat : (c.enterVmcall env).ExitsAt v)
    (hexit : v.vmexitHandler os kernelBaseInfo host = some (off, v'))
    (hcompiled : Compiled env hostRsp v off v')
    (hguest : ∀ x, InRange (c.reg .rsp - 0x28) 0x30 x → ¬ OnHostStack hostRsp x) :
    let final := asmVmxVmcall env hostRsp v' c
    (vmcallExit env hostRsp v' (c.enterVmcall env)).rip =
        v.vmcs.vmread .guestRip + v.vmcs.vmread .vmExitInstructionLen ∧
      (∃ status machine, v.machine.enterRoot.vmcallHandler os (c.reg .rcx) (c.reg .rdx)
        (c.reg .r8) = some (status, machine) ∧ final.reg .rax = status.signExtend 64) ∧
      (∀ r, r ∉ [.rax, .rsp] → final.reg r = c.reg r) ∧
      final.reg .rsp = c.reg .rsp + 8 ∧
      final.rip = c.read64 (c.reg .rsp) ∧
      final.rflags = c.rflags := by
  obtain ⟨hrsp, hholds, hself, hkept⟩ := enterVmcall_spec env c
  have hself' : isSelfVmcall v.registers = true := by
    rw [hat.registers]
    exact hself
  have hguest' : ∀ x, InRange ((c.enterVmcall env).reg .rsp - 8) 0x30 x →
      ¬ OnHostStack hostRsp x := by
    intro x hx
    refine hguest x ?_
    rw [hrsp] at hx
    have hsub : c.reg .rsp - 0x20 - 8 = c.reg .rsp - 0x28 := by bv_omega
    rwa [hsub] at hx
  obtain ⟨⟨status, machine, hserved, hrax⟩, hothers, hstack, hrip, hmem⟩ :=
    vmcallExit_spec hconv hat hself' hexit hcompiled hguest'
  dsimp only
  rw [asmVmxVmcall, asmVmxVmcallRestore, run_append]
  generalize vmcallExit env hostRsp v' (c.enterVmcall env) = returned at *
  rw [hkept .rcx (by decide), hkept .rdx (by decide), hkept .r8 (by decide)] at hserved
  have hsaved : returned.mem.Holds (returned.reg .rsp)
      ([Reg.r12, .r11, .r10].map c.reg ++ [c.rflags, c.read64 (c.reg .rsp)]) := by
    rw [hstack]
    exact hholds.congr (by simp) fun x hx => hmem x (hx.mono (by simp))
  obtain ⟨hrest, hpopped, hreg, -⟩ := run_restore env [.r12, .r11, .r10] (by decide) hsaved
  generalize returned.run env ([.r12, .r11, .r10].map .pop) = popped at *
  obtain ⟨hflags, hreturn, -⟩ := hrest
  refine ⟨hrip, ⟨status, machine, hserved, ?_⟩, ?_, ?_, ?_, hflags⟩
  · have hpoppedRax := hreg .rax (by decide)
    rw [if_neg (by decide), hrax] at hpoppedRax
    simpa [exec] using hpoppedRax
  · intro r hr
    have hne : r ≠ .rsp := by
      rintro rfl
      exact hr (by decide)
    have hpoppedReg := hreg r hne
    by_cases hin : r ∈ [Reg.r12, .r11, .r10]
    · rw [if_pos hin] at hpoppedReg
      simpa [exec, hne] using hpoppedReg
    · have hcalled : r ∉ [Reg.rsp, .r10, .r11, .r12] := by
        simp only [List.mem_cons, List.not_mem_nil, or_false, not_or] at hin ⊢
        exact ⟨hne, hin.2.2, hin.2.1, hin.1⟩
      rw [if_neg hin, hothers r hr, hkept r hcalled] at hpoppedReg
      simpa [exec, hne] using hpoppedReg
  · have hlength : BitVec.ofNat 64 (8 * [Reg.r12, .r11, .r10].length) = 0x18#64 := by decide
    rw [hstack, hrsp, hlength] at hpopped
    simp only [run_cons, run_nil, exec, setReg_reg, if_true, hpopped]
    bv_omega
  · simpa [exec, read64] using hreturn

/-- Storing to the first field of a frame. -/
theorem guestRegsAt_writeRax (m : ByteMemory) (a w : Word) :
    guestRegsAt (m.write (n := 8) a w) a = { guestRegsAt m a with rax := w } := by
  have hwords : (m.write (n := 8) (a + BitVec.ofNat 64 (8 * 0)) w).words a 16 =
      (m.words a 16).set 0 w := ByteMemory.words_write (by decide) (by decide) w
  have hstart : a + BitVec.ofNat 64 (8 * 0) = a := by simp
  rw [hstart, words_guestRegs, words_guestRegs, List.set_cons_zero] at hwords
  simp only [List.cons.injEq, and_true] at hwords
  rw [GuestRegs.mk.injEq]
  exact hwords

/-- What the VMCALL of the driver's start leaves, or the one of its end, which turns VMX off. -/
def servedState : Bool → VmxoffState
  | false => ⟨false, 0, 0⟩
  | true => ⟨true, 0x7023, 0x4FFE0⟩

/-- A handler that serves either VMCALL. -/
def servedEnvironment (off : Bool) : AsmEnvironment (Fin 16 → BitVec 128) where
  unit := offEnvironment.unit
  callee
    | .vmexitHandler => fun c => (c.setReg .rax (if off then 1 else 0)).setMem
        (c.mem.write (n := 8) (c.reg .rcx) 0)
    | .getCurrentGuestRsp => fun c => c.setReg .rax (servedState off).guestRsp
    | .getCurrentGuestRip => fun c => c.setReg .rax (servedState off).guestRip
  vmcall c := c

theorem callingConvention_served (hostRsp : Word) (off : Bool) :
    CallingConvention (servedEnvironment off) hostRsp (servedState off) := by
  constructor
  · intro f c r hr
    have hne : r ≠ .rax := fun heq => absurd (heq ▸ hr) (by decide)
    cases f <;> simp [servedEnvironment, hne]
  · intro c x _ _ hframe _
    refine ByteMemory.write_apply_of_not _ _ fun hin => hframe ?_
    exact hin.mono (by simp [guestRegsSize])
  · intro f hf c x _
    cases f with
    | vmexitHandler => exact absurd rfl hf
    | getCurrentGuestRsp => rfl
    | getCurrentGuestRip => rfl
  · intro c
    simp [servedEnvironment]
  · intro c
    simp [servedEnvironment]

/-- The caller of `AsmVmxVmcall`, with the number of the test or of the end. -/
def servedCaller (off : Bool) : Cpu (Fin 16 → BitVec 128) where
  reg r := if r = .rsp then 0x50000 else if r = .rcx then (if off then 2 else 1) else 7
  rflags := 0x246
  rip := 0
  cr4 := 0
  xcr0 := 1
  extended _ := 0
  mem := ByteMemory.write (n := 8) (fun _ => 0) 0x50000#64 0x1234#64

def servedVcpu (off : Bool) : Vcpu Unit :=
  let called := (servedCaller off).enterVmcall (servedEnvironment off)
  { Vcpu.flatVcpu (Machine.flatMachine 1 1) [(.vmExitReason, 18), (.vmExitInstructionLen, 3),
      (.guestRip, 0x7020), (.guestRsp, 0x4FFE0)] with
    registers := { called.guestRegs with rsp := called.reg .rbp } }

theorem servedCaller_exitsAt (off : Bool) :
    ((servedCaller off).enterVmcall (servedEnvironment off)).ExitsAt (servedVcpu off) := by
  refine ⟨?_, rfl, ?_, rfl⟩
  · cases off <;> decide +kernel
  · cases off <;> decide +kernel

theorem servedCaller_guestStack (off : Bool) (x : Word)
    (hx : InRange ((servedCaller off).reg .rsp - 0x28) 0x30 x) : ¬ OnHostStack 0x17FF0 x := by
  simp only [servedCaller, if_true, OnHostStack, InRange, hostStackSize] at hx ⊢
  bv_omega

/-- Both VMCALLs succeed. -/
theorem servedVcpu_status (off : Bool) {status : Ntstatus} {machine : Machine Unit}
    {optionalParam1 optionalParam2 : Word}
    (hcall : (servedVcpu off).machine.enterRoot.vmcallHandler flatOs (if off then 2 else 1)
      optionalParam1 optionalParam2 = some (status, machine)) : status = 0 := by
  cases off with
  | false => exact (Prod.mk.inj (Option.some.inj hcall)).1.symm
  | true => exact (Prod.mk.inj (Option.some.inj hcall)).1.symm

/-- The handler of the environment does what the model's does. -/
theorem servedVcpu_compiled (off : Bool) : ∃ v' : Vcpu Unit,
    (servedVcpu off).vmexitHandler flatOs Machine.flatKernel Vcpu.flatHost = some (off, v') ∧
      v'.vmxoffState = servedState off ∧
      Compiled (servedEnvironment off) 0x17FF0 (servedVcpu off) off v' := by
  have hsome : ((servedVcpu off).vmexitHandler flatOs Machine.flatKernel
      Vcpu.flatHost).isSome = true := by
    cases off <;> decide +kernel
  obtain ⟨⟨off', v'⟩, hexit⟩ := Option.isSome_iff_exists.mp hsome
  have hself : isSelfVmcall (servedVcpu off).registers = true := by cases off <;> decide +kernel
  obtain ⟨⟨status, machine, hserved, hregisters⟩, hoff, hresumed, hleft⟩ :=
    Vcpu.served_of_vmexitHandler (servedCaller_exitsAt off).reason hself
      (servedCaller_exitsAt off).on hexit
  have hnumber : (servedVcpu off).registers.rcx = if off then 2 else 1 := by
    cases off <;> decide +kernel
  rw [hnumber] at hserved
  obtain rfl := servedVcpu_status off hserved
  obtain rfl : off' = off := by
    rw [hoff, hnumber]
    cases off <;> rfl
  refine ⟨v', hexit, ?_, ?_, ?_, ?_⟩
  · cases off' with
    | false => exact (hresumed rfl).2.2
    | true =>
      have hrip : (servedVcpu true).vmcs.vmread .guestRip +
          (servedVcpu true).vmcs.vmread .vmExitInstructionLen = 0x7023 := by decide +kernel
      have hrsp : (servedVcpu true).vmcs.vmread .guestRsp = 0x4FFE0 := by decide +kernel
      rw [hleft rfl, hrip, hrsp]
      rfl
  · intro c hentered
    have hwrite := guestRegsAt_writeRax c.mem (gprFrame 0x17FF0) 0
    rw [hregisters, ← hentered.registers]
    rw [← hentered.guestRegisters] at hwrite ⊢
    exact hwrite
  · intro c _
    cases off' <;> simp [servedEnvironment]
  · intro c hentered x hx
    refine ByteMemory.write_apply_of_not _ _ fun hin => ?_
    have hrsp : (servedVcpu off').vmcs.vmread .guestRsp = 0x4FFE0 := by
      cases off' <;> decide +kernel
    rw [hrsp] at hx
    rw [hentered.guestRegisters] at hin
    simp only [InRange, gprFrame] at hx hin
    bv_omega

/-- The driver's test returns 0 to its caller, and so does the call that turns VMX off. -/
theorem asmVmxVmcall_returns_test :
    (∃ v' : Vcpu Unit, v'.vmxoffState.isVmxoffExecuted = false ∧
      (asmVmxVmcall (servedEnvironment false) 0x17FF0 v' (servedCaller false)).reg .rax = 0 ∧
      (asmVmxVmcall (servedEnvironment false) 0x17FF0 v' (servedCaller false)).reg .r10 = 7 ∧
      (asmVmxVmcall (servedEnvironment false) 0x17FF0 v' (servedCaller false)).rip = 0x1234) ∧
    ∃ v' : Vcpu Unit, v'.vmxoffState.isVmxoffExecuted = true ∧
      (asmVmxVmcall (servedEnvironment true) 0x17FF0 v' (servedCaller true)).reg .rax = 0 ∧
      (asmVmxVmcall (servedEnvironment true) 0x17FF0 v' (servedCaller true)).reg .r10 = 7 ∧
      (asmVmxVmcall (servedEnvironment true) 0x17FF0 v' (servedCaller true)).rip = 0x1234 := by
  have hreturns : ∀ off, ∃ v' : Vcpu Unit, v'.vmxoffState.isVmxoffExecuted = off ∧
      (asmVmxVmcall (servedEnvironment off) 0x17FF0 v' (servedCaller off)).reg .rax = 0 ∧
      (asmVmxVmcall (servedEnvironment off) 0x17FF0 v' (servedCaller off)).reg .r10 = 7 ∧
      (asmVmxVmcall (servedEnvironment off) 0x17FF0 v' (servedCaller off)).rip = 0x1234 := by
    intro off
    obtain ⟨v', hexit, hstate, hcompiled⟩ := servedVcpu_compiled off
    have hconv : CallingConvention (servedEnvironment off) 0x17FF0 v'.vmxoffState := by
      rw [hstate]
      exact callingConvention_served _ off
    obtain ⟨-, ⟨status, machine, hserved, hrax⟩, hothers, -, hrip, -⟩ :=
      asmVmxVmcall_returns hconv (servedCaller off) (servedCaller_exitsAt off) hexit hcompiled
        (servedCaller_guestStack off)
    refine ⟨v', ?_, ?_, hothers .r10 (by decide), hrip.trans ?_⟩
    · rw [hstate]
      cases off <;> rfl
    · rw [hrax, servedVcpu_status off hserved]
      rfl
    · exact ByteMemory.read_write_self (by decide) _
  exact ⟨hreturns false, hreturns true⟩

end Cpu

end NovaHypervisor

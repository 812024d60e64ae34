import NovaHypervisor.AsmVmexitHandler

/-!
The forwarding of a hypercall: the guest's registers are loaded, the hypervisor below is
called, and its results are stored where the guest's registers were saved, with XMM0 to
XMM5 in their places of the extended state.
-/
namespace NovaHypervisor

open General

/-- The registers that carry a fast hypercall's data. -/
def fastXmm : List (Fin 16) := (List.finRange 16).take 6

/-- The place of a register in the saved state: 0A0h, 0B0h, .. -/
def xmmOffset (i : Fin 16) : Word := 0xA0 + 16 * BitVec.ofNat 64 i.val

namespace Cpu

variable {X : Type*}

def hypervPush : List Instruction :=
  [.pushfq, .push .r15, .push .r14, .push .r13, .push .r12, .push .r11, .push .r10, .push .r9,
    .push .r8, .push .rdi, .push .rsi, .push .rbp, .push .rbp, .push .rbx, .push .rdx, .push .rcx,
    .push .rax, .push .rdx]

def hypervInputs : List Instruction := fastXmm.map fun i => .movdquLoad i .rdx (xmmOffset i)

def hypervUnpack : List Instruction :=
  [.load .rax .rcx 0x0, .load .rdx .rcx 0x10, .load .rbx .rcx 0x18, .load .rbp .rcx 0x28,
    .load .rsi .rcx 0x30, .load .rdi .rcx 0x38, .load .r8 .rcx 0x40, .load .r9 .rcx 0x48,
    .load .r10 .rcx 0x50, .load .r11 .rcx 0x58, .load .r12 .rcx 0x60, .load .r13 .rcx 0x68,
    .load .r14 .rcx 0x70, .load .r15 .rcx 0x78, .push .rcx, .load .rcx .rcx 0x08]

def hypervRecover : List Instruction :=
  [.push .rax, .push .rcx, .load .rcx .rsp 0x10, .load .rax .rsp 0x18]

def hypervOutputs : List Instruction := fastXmm.map fun i => .movdquStore .rax (xmmOffset i) i

def hypervResults : List Instruction :=
  [.load .r10 .rsp 0x10, .load .rax .rsp 0x08, .store .r10 0x0 .rax, .load .rax .rsp 0x0,
    .store .r10 0x08 .rax, .store .r10 0x10 .rdx, .store .r10 0x40 .r8]

def hypervPop : List Instruction :=
  [.add .rsp 0x10, .pop .rcx, .add .rsp 0x08] ++ poppedRegs.map .pop ++ [.popfq, .ret]

/-- The processor when it executes the VMCALL. -/
def atHypervisor (env : AsmEnvironment X) (c : Cpu X) : Cpu X :=
  c.run env (hypervPush ++ hypervInputs ++ hypervUnpack)

def asmHypervVmcall (env : AsmEnvironment X) (c : Cpu X) : Cpu X :=
  (env.vmcall (c.atHypervisor env)).run env
    (hypervRecover ++ hypervOutputs ++ hypervResults ++ hypervPop)

/-- The registers that the hypervisor returns. -/
def returnedXmm (env : AsmEnvironment X) (c : Cpu X) : Fin 16 → BitVec 128 :=
  env.unit.xmm (env.vmcall (c.atHypervisor env)).extended

/-- Storing registers to their places changes these places only. -/
theorem run_movdquStores (env : AsmEnvironment X) (r : Reg) (is : List (Fin 16)) (c : Cpu X) :
    let c' := c.run env (is.map fun i => .movdquStore r (xmmOffset i) i)
    c' = { c with mem := c'.mem } ∧
      (∀ x, (∀ i ∈ is, ¬ InRange (c.reg r + xmmOffset i) 16 x) → c'.mem x = c.mem x) ∧
      ∀ i ∈ is, c'.mem.read (c.reg r + xmmOffset i) 16 = env.unit.xmm c.extended i := by
  induction is generalizing c with
  | nil => exact ⟨rfl, fun _ _ => rfl, fun i hi => absurd hi List.not_mem_nil⟩
  | cons i is ih =>
    obtain ⟨hrest, hmem, hread⟩ := ih (c.exec env (.movdquStore r (xmmOffset i) i))
    rw [List.map_cons, run_cons]
    dsimp only at hrest hmem hread ⊢
    refine ⟨?_, ?_, ?_⟩
    · rw [hrest]
      rfl
    · intro x hx
      rw [hmem x fun j hj => hx j (List.mem_cons_of_mem _ hj)]
      exact ByteMemory.write_apply_of_not _ _ (hx i List.mem_cons_self)
    · intro j hj
      by_cases hmore : j ∈ is
      · exact hread j hmore
      · obtain rfl : j = i := (List.mem_cons.mp hj).resolve_right hmore
        have hkept : ∀ x, InRange (c.reg r + xmmOffset j) 16 x →
            ∀ k ∈ is, ¬ InRange (c.reg r + xmmOffset k) 16 x := by
          intro x hx k hk hin
          have hne : k ≠ j := fun heq => hmore (heq ▸ hk)
          have hval : k.val ≠ j.val := fun heq => hne (Fin.ext heq)
          have hklt := k.isLt
          have hjlt := j.isLt
          simp only [InRange, xmmOffset] at hx hin
          bv_omega
        have hsame : (c.run env (.movdquStore r (xmmOffset j) j ::
            is.map fun i => .movdquStore r (xmmOffset i) i)).mem.read
              (c.reg r + xmmOffset j) 16 =
            (c.exec env (.movdquStore r (xmmOffset j) j)).mem.read (c.reg r + xmmOffset j) 16 :=
          ByteMemory.read_congr (by decide) fun x hx => hmem x (hkept x hx)
        exact hsame.trans (ByteMemory.read_write_self (by decide) _)

/-- Loading registers changes nothing but these registers. -/
theorem run_movdquLoads (env : AsmEnvironment X) (r : Reg) (is : List (Fin 16)) (c : Cpu X) :
    let c' := c.run env (is.map fun i => .movdquLoad i r (xmmOffset i))
    c' = { c with extended := c'.extended } ∧
      ∀ j, j ∉ is → env.unit.xmm c'.extended j = env.unit.xmm c.extended j := by
  induction is generalizing c with
  | nil => exact ⟨rfl, fun _ _ => rfl⟩
  | cons i is ih =>
    obtain ⟨hrest, hkept⟩ := ih (c.exec env (.movdquLoad i r (xmmOffset i)))
    rw [List.map_cons, run_cons]
    dsimp only at hrest hkept ⊢
    refine ⟨?_, ?_⟩
    · rw [hrest]
      rfl
    · intro j hj
      obtain ⟨hne, hmore⟩ := not_or.mp (List.mem_cons.not.mp hj)
      rw [hkept j hmore, exec, env.unit.xmm_setXmm, if_neg hne]

/-- A loaded register holds what lies at its place. -/
theorem run_movdquLoads_xmm (env : AsmEnvironment X) (r : Reg) (is : List (Fin 16)) (c : Cpu X)
    {j : Fin 16} (hj : j ∈ is) :
    env.unit.xmm (c.run env (is.map fun i => .movdquLoad i r (xmmOffset i))).extended j =
      c.mem.read (c.reg r + xmmOffset j) 16 := by
  induction is generalizing c with
  | nil => exact absurd hj List.not_mem_nil
  | cons i is ih =>
    rw [List.map_cons, run_cons]
    by_cases hmore : j ∈ is
    · exact ih _ hmore
    · obtain rfl : j = i := (List.mem_cons.mp hj).resolve_right hmore
      obtain ⟨_, hkept⟩ := run_movdquLoads env r is (c.exec env (.movdquLoad j r (xmmOffset j)))
      rw [hkept j hmore, exec, env.unit.xmm_setXmm, if_pos rfl]

/-- The caller's registers are pushed above its return address. -/
theorem run_hypervPush (env : AsmEnvironment X) (c : Cpu X) :
    let c' := c.run env hypervPush
    c'.reg .rsp = c.reg .rsp - 0x90 ∧ (∀ r, r ≠ .rsp → c'.reg r = c.reg r) ∧
      c'.mem.Holds (c'.reg .rsp)
        (c.reg .rdx :: (poppedRegs.map c.reg ++ [c.rflags, c.read64 (c.reg .rsp)])) ∧
      (∀ x, ¬ InRange (c.reg .rsp - 0x90) 0x90 x → c'.mem x = c.mem x) ∧
      c'.xcr0 = c.xcr0 ∧ c'.extended = c.extended := by
  have hpush : ∀ i ∈ hypervPush, isPush i = true := by decide
  have hreturn : c.mem.Holds (c.reg .rsp) [c.read64 (c.reg .rsp)] := ⟨rfl, trivial⟩
  have hroom : 8 * ([c.read64 (c.reg .rsp)].length + hypervPush.length) ≤ 2 ^ 64 := by
    rw [List.length_singleton]
    decide
  obtain ⟨hholds, hrsp, hother, hrest⟩ := run_pushes env hypervPush hpush c hreturn hroom
  have hlength : BitVec.ofNat 64 (8 * hypervPush.length) = 0x90#64 := by decide
  have hsize : 8 * hypervPush.length = 0x90 := by decide
  rw [hlength] at hrsp
  refine ⟨hrsp, hother, hholds, ?_, ?_, ?_⟩
  · intro x hx
    refine run_pushes_mem env hypervPush hpush c (by decide) ?_
    rwa [hlength, hsize]
  · rw [hrest]
  · rw [hrest]

/-- The guest's XMM0 to XMM5 are loaded, and nothing else changes. -/
theorem run_hypervInputs (env : AsmEnvironment X) (c : Cpu X) :
    let c' := c.run env hypervInputs
    c' = { c with extended := c'.extended } ∧
      (∀ i ∈ fastXmm, env.unit.xmm c'.extended i =
        c.mem.read (c.reg .rdx + xmmOffset i) 16) ∧
      ∀ i, i ∉ fastXmm → env.unit.xmm c'.extended i = env.unit.xmm c.extended i := by
  obtain ⟨hrest, hkept⟩ := run_movdquLoads env .rdx fastXmm c
  exact ⟨hrest, fun i hi => run_movdquLoads_xmm env .rdx fastXmm c hi, hkept⟩

/-- The loads of the guest's registers push the frame's pointer. -/
theorem run_hypervUnpack (env : AsmEnvironment X) (c : Cpu X) :
    let c' := c.run env hypervUnpack
    c'.reg .rsp = c.reg .rsp - 8 ∧
      c'.mem = c.mem.write (n := 8) (c.reg .rsp - 8) (c.reg .rcx) ∧
      c'.xcr0 = c.xcr0 ∧ c'.extended = c.extended := by
  refine ⟨?_, ?_, rfl, rfl⟩
  · simp [hypervUnpack, exec, pushWord]
  · simp [hypervUnpack, exec, pushWord]

/-- The caller's registers and the frame pointer are on the stack when the VMCALL is
executed, and the registers of the fast hypercall are the only ones that were loaded. -/
theorem atHypervisor_spec (env : AsmEnvironment X) (c : Cpu X) :
    let c' := c.atHypervisor env
    c'.reg .rsp = c.reg .rsp - 0x98 ∧
      c'.mem.Holds (c'.reg .rsp) [c.reg .rcx, c.reg .rdx] ∧
      (∀ x, ¬ InRange (c.reg .rsp - 0x98) 0x98 x → c'.mem x = c.mem x) ∧ c'.xcr0 = c.xcr0 ∧
      ∀ j, j ∉ fastXmm → env.unit.xmm c'.extended j = env.unit.xmm c.extended j := by
  obtain ⟨hrsp, hother, hholds, hpushed, hxcr0, hextended⟩ := run_hypervPush env c
  have hcx := hother .rcx (by decide)
  rw [atHypervisor, run_append, run_append]
  generalize c.run env hypervPush = saved at *
  obtain ⟨hloads, _, hkept⟩ := run_hypervInputs env saved
  generalize saved.run env hypervInputs = loaded at *
  have hreg : loaded.reg = saved.reg := by rw [hloads]
  have hbytes : loaded.mem = saved.mem := by rw [hloads]
  obtain ⟨hstack, hmem, hxcr0', hextended'⟩ := run_hypervUnpack env loaded
  have hword : saved.reg .rsp - 8 = c.reg .rsp - 0x98 := by
    rw [hrsp]
    bv_omega
  rw [hreg, hword] at hstack
  rw [hreg, hbytes, hcx, hword] at hmem
  refine ⟨hstack, ?_, ?_, ?_, ?_⟩
  · have hone : saved.mem.Holds (saved.reg .rsp) [c.reg .rdx] := ⟨hholds.1, trivial⟩
    have htwo := hone.push (by simp) (c.reg .rcx)
    rwa [hstack, hmem, ← hword]
  · intro x hx
    rw [hmem, ByteMemory.write_apply_of_not, hpushed x]
    · refine fun hin => hx (hin.mono ?_)
      bv_omega
    · refine fun hin => hx (hin.mono ?_)
      bv_omega
  · rw [hxcr0', ← hxcr0, hloads]
  · intro j hj
    rw [hextended', hkept j hj, hextended]

/-- The pointers come back from the stack, whatever registers the hypervisor left, and its
results are on top of them. -/
theorem run_hypervRecover (env : AsmEnvironment X) {c : Cpu X} {registers frame : Word}
    {ws : List Word} (h : c.mem.Holds (c.reg .rsp) (registers :: frame :: ws))
    (hlen : 8 * (ws.length + 4) ≤ 2 ^ 64) :
    let c' := c.run env hypervRecover
    c'.reg .rax = frame ∧ c'.read64 (c'.reg .rsp + 0x10) = registers ∧
      c'.reg .rsp = c.reg .rsp - 0x10 ∧
      (∀ x, ¬ InRange (c.reg .rsp - 0x10) 0x10 x → c'.mem x = c.mem x) ∧
      c'.extended = c.extended ∧ c'.xcr0 = c.xcr0 ∧
      c'.mem.Holds (c'.reg .rsp) (c.reg .rcx :: c.reg .rax :: registers :: frame :: ws) ∧
      ∀ r, r ∉ [.rax, .rcx, .rsp] → c'.reg r = c.reg r := by
  have hpush : ∀ i ∈ [Instruction.push .rax, .push .rcx], isPush i = true := by decide
  obtain ⟨hholds, hrsp, hother, _⟩ := run_pushes env _ hpush c h (by simpa using hlen)
  have hpushed : ∀ x, ¬ InRange (c.reg .rsp - 0x10#64) 0x10 x →
      (c.run env [.push .rax, .push .rcx]).mem x = c.mem x :=
    fun x hx => run_pushes_mem env _ hpush c (by simp) hx
  have hkept : (c.run env [.push .rax, .push .rcx]).extended = c.extended ∧
      (c.run env [.push .rax, .push .rcx]).xcr0 = c.xcr0 := ⟨rfl, rfl⟩
  have hrun : c.run env hypervRecover = (c.run env [.push .rax, .push .rcx]).run env
      [.load .rcx .rsp 0x10, .load .rax .rsp 0x18] := rfl
  have hresults : (c.run env [.push .rax, .push .rcx]).mem.Holds
      ((c.run env [.push .rax, .push .rcx]).reg .rsp)
      (c.reg .rcx :: c.reg .rax :: registers :: frame :: ws) := hholds
  rw [hrun]
  generalize c.run env [.push .rax, .push .rcx] = pushed at *
  obtain ⟨_, _, hregisters, hframe, _⟩ := hholds
  have hrsp' : pushed.reg .rsp = c.reg .rsp - 0x10 := hrsp
  have hregisters' : pushed.mem.read (pushed.reg .rsp + 0x10#64) 8 = registers := by
    rw [← hregisters, BitVec.add_assoc]
    rfl
  have hframe' : pushed.mem.read (pushed.reg .rsp + 0x18#64) 8 = frame := by
    rw [← hframe, BitVec.add_assoc, BitVec.add_assoc]
    rfl
  refine ⟨?_, ?_, ?_, hpushed, hkept.1, hkept.2, ?_, ?_⟩
  · simp [exec, read64, hframe']
  · simp [exec, read64, hregisters']
  · simp [exec, hrsp']
  · simpa [exec] using hresults
  · intro r hr
    simp only [List.mem_cons, List.not_mem_nil, or_false, not_or] at hr
    simp [exec, hr, hother r hr.2.2]

/-- XMM0 to XMM5 are stored in their places, and nothing else changes. -/
theorem run_hypervOutputs (env : AsmEnvironment X) (c : Cpu X) :
    let c' := c.run env hypervOutputs
    c' = { c with mem := c'.mem } ∧
      (∀ x, (∀ i ∈ fastXmm, ¬ InRange (c.reg .rax + xmmOffset i) 16 x) → c'.mem x = c.mem x) ∧
      ∀ i ∈ fastXmm, c'.mem.read (c.reg .rax + xmmOffset i) 16 = env.unit.xmm c.extended i :=
  run_movdquStores env .rax fastXmm c

/-- The results go to the guest's frame only. -/
theorem run_hypervResults_mem (env : AsmEnvironment X) {c : Cpu X} {registers : Word}
    (h : c.read64 (c.reg .rsp + 0x10) = registers) {x : Word}
    (hx : ¬ InRange registers guestRegsSize x) :
    (c.run env hypervResults).mem x = c.mem x := by
  have hstore : ∀ offset, offset ≤ 0x40 → ¬ InRange (registers + BitVec.ofNat 64 offset) 8 x := by
    intro offset hle hin
    refine hx (hin.mono ?_)
    simp only [guestRegsSize]
    bv_omega
  rw [read64] at h
  have hzero := hstore 0 (by decide)
  simp only [BitVec.ofNat_eq_ofNat, BitVec.add_zero] at h hzero
  simp [hypervResults, exec, h, read64, ByteMemory.write_apply_of_not _ _ hzero,
    ByteMemory.write_apply_of_not _ _ (hstore 0x08 (by decide)),
    ByteMemory.write_apply_of_not _ _ (hstore 0x10 (by decide)),
    ByteMemory.write_apply_of_not _ _ (hstore 0x40 (by decide))]

theorem run_hypervResults_extended (env : AsmEnvironment X) (c : Cpu X) :
    (c.run env hypervResults).extended = c.extended := rfl

theorem run_hypervPop_extended (env : AsmEnvironment X) (c : Cpu X) :
    (c.run env hypervPop).extended = c.extended := rfl

/-- The results go to the caller's registers, and the way back changes no memory. -/
theorem run_hypervReturn (env : AsmEnvironment X) {c : Cpu X} {registers : Word}
    (h : c.read64 (c.reg .rsp + 0x10) = registers) :
    let c' := c.run env (hypervResults ++ hypervPop)
    (∀ x, ¬ InRange registers guestRegsSize x → c'.mem x = c.mem x) ∧
      c'.extended = c.extended ∧ c'.xcr0 = c.xcr0 := by
  refine ⟨?_, rfl, rfl⟩
  intro x hx
  have hreads : ∀ i ∈ hypervPop, writesMemory i = false := by decide
  rw [run_append, run_mem_of_reads env hreads, run_hypervResults_mem env h hx]

end Cpu

/-- The hypervisor under this one returns on the same stack and does not write to it, and
changes no register of the extended state but those of a fast hypercall. -/
structure HypervisorBelow {X : Type*} (env : AsmEnvironment X) (hostRsp : Word) : Prop where
  rsp : ∀ c, (env.vmcall c).reg .rsp = c.reg .rsp
  hostStack : ∀ c x, OnHostStack hostRsp x → (env.vmcall c).mem x = c.mem x
  xcr0 : ∀ c, (env.vmcall c).xcr0 = c.xcr0
  xmm : ∀ c, ∀ i, i ∉ fastXmm →
    env.unit.xmm (env.vmcall c).extended i = env.unit.xmm c.extended i

/-- All of the frame for the extended state, with its metadata. -/
def InXstateFrame (hostRsp x : Word) : Prop := InRange (xstateFrame hostRsp) 0x3020 x

theorem InXstateFrame.not_gprFrame {hostRsp x : Word} (h : InXstateFrame hostRsp x) :
    ¬ InRange (gprFrame hostRsp) guestRegsSize x := by
  obtain ⟨padding, hpadding, hgpr⟩ := exists_padding hostRsp
  intro hin
  rw [hgpr] at hin
  simp only [InXstateFrame, InRange, guestRegsSize, xstateStackFrameSize] at h hin
  generalize xstateFrame hostRsp = frame at *
  bv_omega

theorem inXstateFrame_of_xmm {hostRsp x : Word} {i : Fin 16}
    (h : InRange (xstateFrame hostRsp + xmmOffset i) 16 x) : InXstateFrame hostRsp x := by
  have hlt := i.isLt
  refine h.mono ?_
  simp only [xmmOffset]
  bv_omega

namespace Cpu

variable {X : Type*} {env : AsmEnvironment X} {hostRsp : Word}

/-- How `HypercallHandler` calls `AsmHypervVmcall`. -/
structure Called (hostRsp : Word) (c : Cpu X) : Prop where
  guestRegisters : c.reg .rcx = gprFrame hostRsp
  guestFxState : c.reg .rdx = xstateFrame hostRsp
  stack : ∀ x, InRange (c.reg .rsp - 0xA8) 0xA8 x →
    CalleeStack hostRsp (xstateFrame hostRsp - 0x20) x

theorem Called.not_stack {c : Cpu X} (h : c.Called hostRsp) {x : Word}
    (hx : InXstateFrame hostRsp x) : ¬ InRange (c.reg .rsp - 0xA8) 0xA8 x :=
  fun hin => (not_calleeStack_of_frame (Or.inl hx)).2 (h.stack x hin)

/-- At the return from the hypervisor the two pointers are still on the stack. -/
theorem returned_spec (hbelow : HypervisorBelow env hostRsp) {c : Cpu X}
    (h : c.Called hostRsp) :
    let c' := env.vmcall (c.atHypervisor env)
    c'.mem.Holds (c'.reg .rsp) [gprFrame hostRsp, xstateFrame hostRsp] ∧
      c'.reg .rsp = c.reg .rsp - 0x98 ∧
      (∀ x, OnHostStack hostRsp x → ¬ InRange (c.reg .rsp - 0xA8) 0xA8 x →
        c'.mem x = c.mem x) ∧
      c'.xcr0 = c.xcr0 := by
  obtain ⟨hrsp, hholds, hmem, hxcr0, _⟩ := atHypervisor_spec env c
  have hstack : ∀ x, InRange (c.reg .rsp - 0xA8) 0xA8 x → OnHostStack hostRsp x :=
    fun x hx => OnHostStack.of_calleeStack (h.stack x hx)
  refine ⟨?_, ?_, ?_, ?_⟩
  · rw [hbelow.rsp, ← h.guestRegisters, ← h.guestFxState]
    refine hholds.congr (by simp) ?_
    intro x hx
    refine hbelow.hostStack _ x (hstack x ?_)
    rw [hrsp] at hx
    simp only [List.length_cons, List.length_nil] at hx
    refine hx.mono ?_
    bv_omega
  · rw [hbelow.rsp, hrsp]
  · intro x hon hx
    rw [hbelow.hostStack _ x hon, hmem]
    refine fun hin => hx (hin.mono ?_)
    bv_omega
  · rw [hbelow.xcr0, hxcr0]

/-- `AsmHypervVmcall` puts the registers that the hypervisor returned into their places of
the saved state, and changes nothing else of the host's stack but the registers' frame and
what is below its own RSP. -/
theorem asmHypervVmcall_spec (hbelow : HypervisorBelow env hostRsp) {c : Cpu X}
    (h : c.Called hostRsp) :
    let c' := c.asmHypervVmcall env
    (∀ i ∈ fastXmm, c'.mem.read (xstateFrame hostRsp + xmmOffset i) 16 = c.returnedXmm env i) ∧
      (∀ x, OnHostStack hostRsp x → ¬ InRange (c.reg .rsp - 0xA8) 0xA8 x →
        ¬ InRange (gprFrame hostRsp) guestRegsSize x →
        (∀ i ∈ fastXmm, ¬ InRange (xstateFrame hostRsp + xmmOffset i) 16 x) →
        c'.mem x = c.mem x) ∧
      c'.xcr0 = c.xcr0 ∧ ∀ i, env.unit.xmm c'.extended i = c.returnedXmm env i := by
  obtain ⟨hreturned, hrsp', hmem', hxcr0'⟩ := returned_spec hbelow h
  have hxmm : ∀ i, env.unit.xmm (env.vmcall (c.atHypervisor env)).extended i =
      c.returnedXmm env i := fun _ => rfl
  obtain ⟨hrax, hregisters, hpointer, hpushed, hextended, hxcr0Recovered, _⟩ :=
    run_hypervRecover env hreturned (by decide)
  rw [asmHypervVmcall, List.append_assoc, run_append env _ (hypervRecover ++ hypervOutputs),
    run_append env _ hypervRecover hypervOutputs]
  generalize env.vmcall (c.atHypervisor env) = returned at *
  generalize returned.run env hypervRecover = recovered at *
  obtain ⟨hrest, hother, hslots⟩ := run_hypervOutputs env recovered
  generalize recovered.run env hypervOutputs = stored at *
  rw [hrax] at hother hslots
  have hread : stored.read64 (stored.reg .rsp + 0x10) = gprFrame hostRsp := by
    have hreg : stored.reg .rsp = recovered.reg .rsp := by rw [hrest]
    rw [hreg, ← hregisters]
    refine ByteMemory.read_congr (by decide) fun x hx => hother x fun i _ hin => ?_
    refine h.not_stack (inXstateFrame_of_xmm hin) ?_
    rw [hpointer, hrsp'] at hx
    refine hx.mono ?_
    bv_omega
  obtain ⟨hkept, hextended', hxcr0Kept⟩ := run_hypervReturn env hread
  have hunit : stored.extended = recovered.extended ∧ stored.xcr0 = recovered.xcr0 := by
    rw [hrest]
    exact ⟨rfl, rfl⟩
  refine ⟨?_, ?_, ?_, ?_⟩
  · intro i hi
    rw [← hxmm i, ← hextended, ← hslots i hi]
    refine ByteMemory.read_congr (by decide) fun x hx => hkept x ?_
    exact (inXstateFrame_of_xmm hx).not_gprFrame
  · intro x hon hx hregs hslot
    rw [hkept x hregs, hother x hslot, hpushed x, hmem' x hon hx]
    rw [hrsp']
    refine fun hin => hx (hin.mono ?_)
    bv_omega
  · rw [hxcr0Kept, hunit.2, hxcr0Recovered, hxcr0']
  · intro i
    rw [hextended', hunit.1, hextended, hxmm]

end Cpu

end NovaHypervisor

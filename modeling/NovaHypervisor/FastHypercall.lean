import NovaHypervisor.AsmHypervVmcall

/-!
What a guest finds in its XMM registers after a forwarded hypercall. The results are
patched into the saved extended state, whose meaning at the restore depends on the header
that was written at the save: a component that the header reports as initial is
initialized, not loaded.
-/
namespace NovaHypervisor

open General

namespace Cpu

variable {X : Type*} {env : AsmEnvironment X} {hostRsp : Word}

theorem saveXstate_legacy {c : Cpu X} (h : c.cr4 &&& cr4OsxsaveMask = 0) :
    c.saveXstate env = c.run env [.movCr4 .rax, .fxsave64 .rsp] := by
  have hcr4 : (c.exec env (.movCr4 .rax)).reg .rax = c.cr4 := by simp [exec]
  rw [saveXstate, hcr4, if_pos h, run_cons, run_cons, run_nil]

theorem saveXstate_xsave {c : Cpu X} (h : c.cr4 &&& cr4OsxsaveMask ≠ 0) :
    c.saveXstate env = c.run env [.movCr4 .rax, .xorSelf .rcx, .xgetbv,
      .storeDword .rsp xstateXcr0LowOffset .rax, .storeDword .rsp xstateXcr0HighOffset .rdx,
      .xsave64 .rsp, .storeImmediate .rsp xstateSaveKindOffset 1] := by
  have hcr4 : (c.exec env (.movCr4 .rax)).reg .rax = c.cr4 := by simp [exec]
  rw [saveXstate, hcr4, if_neg h]
  exact (run_cons ..).symm

end Cpu

/-- The place of an XMM register in an area. -/
def areaXmm (area : ℕ → BitVec 8) (i : Fin 16) : BitVec 128 :=
  ByteMemory.read (fun x => area x.toNat) (xmmOffset i) 16

theorem areaXmm_areaAt (m : ByteMemory) (a : Word) (i : Fin 16) :
    areaXmm (areaAt m a) i = m.read (a + xmmOffset i) 16 := by
  have harea : (fun x : Word => areaAt m a x.toNat) = fun x => m (a + x) := by
    funext x
    rw [areaAt, BitVec.ofNat_toNat, BitVec.setWidth_eq]
  rw [← ByteMemory.read_shift, areaXmm, harea]

theorem read_setArea_xmm (m : ByteMemory) (a : Word) {size : ℕ} (hsize : 0x1A0 ≤ size)
    (area : ℕ → BitVec 8) (i : Fin 16) :
    (setArea m a size area).read (a + xmmOffset i) 16 = areaXmm area i := by
  have hlt := i.isLt
  have hshift := ByteMemory.read_shift (fun x => area (x - a).toNat) a (xmmOffset i) 16
  have hback : ∀ x, a + x - a = x := fun x => add_sub_cancel_left a x
  simp only [hback] at hshift
  rw [areaXmm, hshift]
  refine ByteMemory.read_congr (by decide) fun x hx => if_pos (hx.mono ?_)
  simp only [xmmOffset]
  bv_omega

/-- How the processor manages the XMM registers. Their state is initial only if they are
zero, and the header of an XSAVE area tells whether it was; a restore initializes them
then. An instruction whose mask leaves them out does not touch them. -/
structure SseUnit {X : Type*} (unit : ExtendedUnit X) (inUse : X → Bool) : Prop where
  xmm_of_initial : ∀ x, inUse x = false → ∀ i, unit.xmm x i = 0
  header_xsave64 : ∀ mask x area, mask.getLsbD 1 = true →
    (unit.xsave64 mask x area 0x200).getLsbD 1 = inUse x
  areaXmm_xsave64 : ∀ mask x area i, mask.getLsbD 1 = true →
    areaXmm (unit.xsave64 mask x area) i = unit.xmm x i
  xmm_xrstor64 : ∀ mask area x i, mask.getLsbD 1 = true →
    unit.xmm (unit.xrstor64 mask area x) i =
      if (area 0x200).getLsbD 1 = true then areaXmm area i else 0
  xmm_xrstor64_of_not : ∀ mask area x i, mask.getLsbD 1 = false →
    unit.xmm (unit.xrstor64 mask area x) i = unit.xmm x i
  areaXmm_fxsave64 : ∀ x area i, areaXmm (unit.fxsave64 x area) i = unit.xmm x i
  xmm_fxrstor64 : ∀ area x i, unit.xmm (unit.fxrstor64 area x) i = areaXmm area i

def saveKind (m : ByteMemory) (frame : Word) : Word := m.read (frame + xstateSaveKindOffset) 8

def savedXcr0Low (m : ByteMemory) (frame : Word) : BitVec 32 :=
  m.read (frame + xstateXcr0LowOffset) 4

/-- Bit 1 of XSTATE_BV. -/
def headerSse (m : ByteMemory) (frame : Word) : Bool := (m (frame + 0x200#64)).getLsbD 1

def savedXmm (m : ByteMemory) (frame : Word) (i : Fin 16) : BitVec 128 :=
  m.read (frame + xmmOffset i) 16

namespace Cpu

variable {X : Type*} {env : AsmEnvironment X} {inUse : X → Bool} {hostRsp frame : Word}

theorem getLsbD_edxEax (c : Cpu X) : c.edxEax.getLsbD 1 = (c.reg .rax).getLsbD 1 := by
  rw [edxEax, BitVec.getLsbD_append]
  simp

/-- The save of a processor without OSXSAVE. -/
theorem saveXstate_legacy_spec (hsse : SseUnit env.unit inUse) {c : Cpu X}
    (hcr4 : c.cr4 &&& cr4OsxsaveMask = 0) (hrsp : c.reg .rsp = frame)
    (hkind : saveKind c.mem frame = 0) :
    saveKind (c.saveXstate env).mem frame = 0 ∧
      ∀ i, savedXmm (c.saveXstate env).mem frame i = env.unit.xmm c.extended i := by
  have hmem : (c.saveXstate env).mem = setArea c.mem frame fxsaveAreaSize
      (env.unit.fxsave64 c.extended (areaAt c.mem frame)) := by
    rw [saveXstate_legacy hcr4]
    simp [exec, hrsp]
  rw [hmem]
  refine ⟨?_, ?_⟩
  · rw [← hkind]
    refine ByteMemory.read_congr (by decide) fun x hx => setArea_of_not fun hin => ?_
    simp only [InRange, xstateSaveKindOffset, fxsaveAreaSize] at hx hin
    bv_omega
  · intro i
    rw [savedXmm, read_setArea_xmm _ _ (by decide), hsse.areaXmm_fxsave64]

/-- The words that the stub keeps behind the area are outside it. -/
theorem not_inArea_of_metadata {x : Word} (h : InRange (frame + xstateSaveKindOffset) 0x18 x) :
    ¬ InRange frame xsaveAreaSize x := by
  intro hin
  simp only [InRange, xstateSaveKindOffset, xsaveAreaSize] at h hin
  bv_omega

/-- The words and the area that a processor with OSXSAVE writes, under its XCR0. -/
theorem saveXstate_xsave_mem {c : Cpu X} (hcr4 : c.cr4 &&& cr4OsxsaveMask ≠ 0)
    (hrsp : c.reg .rsp = frame) :
    ∃ (mask : Word) (m : ByteMemory), mask.getLsbD 1 = c.xcr0.getLsbD 1 ∧
      m.read (frame + xstateXcr0LowOffset) 4 = c.xcr0.setWidth 32 ∧
      (c.saveXstate env).mem = (setArea m frame xsaveAreaSize
        (env.unit.xsave64 mask c.extended (areaAt m frame))).write (n := 8)
          (frame + xstateSaveKindOffset) 1 := by
  have hsplit : c.saveXstate env = (c.run env [.movCr4 .rax, .xorSelf .rcx, .xgetbv,
      .storeDword .rsp xstateXcr0LowOffset .rax,
      .storeDword .rsp xstateXcr0HighOffset .rdx]).run env
        [.xsave64 .rsp, .storeImmediate .rsp xstateSaveKindOffset 1] := by
    rw [saveXstate_xsave hcr4]
    exact run_append env c [_, _, _, _, _] _
  have hfirst : ∃ stored : Cpu X, c.run env [.movCr4 .rax, .xorSelf .rcx, .xgetbv,
      .storeDword .rsp xstateXcr0LowOffset .rax,
      .storeDword .rsp xstateXcr0HighOffset .rdx] = stored ∧ stored.reg .rsp = frame ∧
      stored.reg .rax = (c.xcr0.setWidth 32).setWidth 64 ∧ stored.xcr0 = c.xcr0 ∧
      stored.extended = c.extended ∧
      stored.mem = (c.mem.write (n := 4) (frame + xstateXcr0LowOffset)
        (c.xcr0.setWidth 32)).write (n := 4) (frame + xstateXcr0HighOffset)
          ((c.xcr0 >>> 32).setWidth 32) := by
    refine ⟨_, rfl, ?_, ?_, rfl, rfl, ?_⟩
    · simp [exec, hrsp]
    · simp [exec]
    · simp [exec, hrsp]
  obtain ⟨stored, hstored, hframe, hrax, hxcr0, hextended, hmem⟩ := hfirst
  rw [hstored] at hsplit
  refine ⟨stored.edxEax &&& c.xcr0, stored.mem, ?_, ?_, ?_⟩
  · rw [BitVec.getLsbD_and, getLsbD_edxEax, hrax]
    simp
  · rw [hmem, ByteMemory.read_write_of_apart (by decide), ByteMemory.read_write_self (by decide)]
    intro x hx hin
    simp only [InRange, xstateXcr0LowOffset, xstateXcr0HighOffset] at hx hin
    bv_omega
  · rw [hsplit]
    simp [exec, hframe, hxcr0, hextended]

/-- The save of a processor with OSXSAVE, under its XCR0. -/
theorem saveXstate_xsave_spec (hsse : SseUnit env.unit inUse) {c : Cpu X}
    (hcr4 : c.cr4 &&& cr4OsxsaveMask ≠ 0) (hrsp : c.reg .rsp = frame) :
    saveKind (c.saveXstate env).mem frame = 1 ∧
      (savedXcr0Low (c.saveXstate env).mem frame).getLsbD 1 = c.xcr0.getLsbD 1 ∧
      (c.xcr0.getLsbD 1 = true →
        headerSse (c.saveXstate env).mem frame = inUse c.extended ∧
          ∀ i, savedXmm (c.saveXstate env).mem frame i = env.unit.xmm c.extended i) := by
  obtain ⟨mask, m, hmask, hword, hsaved⟩ := saveXstate_xsave_mem hcr4 hrsp
  refine ⟨?_, ?_, ?_⟩
  · rw [saveKind, hsaved]
    exact ByteMemory.read_write_self (by decide) _
  · have hlow : savedXcr0Low (c.saveXstate env).mem frame = c.xcr0.setWidth 32 := by
      rw [← hword, savedXcr0Low, hsaved, ByteMemory.read_write_of_apart (by decide)]
      · refine ByteMemory.read_congr (by decide) fun x hx =>
          setArea_of_not (not_inArea_of_metadata (hx.mono ?_))
        simp only [xstateXcr0LowOffset, xstateSaveKindOffset]
        bv_omega
      · intro x hx hin
        simp only [InRange, xstateXcr0LowOffset, xstateSaveKindOffset] at hx hin
        bv_omega
    rw [hlow]
    simp
  · intro hset
    rw [← hmask] at hset
    have harea : ∀ x, InRange frame xsaveAreaSize x → (c.saveXstate env).mem x =
        setArea m frame xsaveAreaSize
          (env.unit.xsave64 mask c.extended (areaAt m frame)) x := by
      intro x hx
      rw [hsaved]
      exact ByteMemory.write_apply_of_not _ _ fun hin =>
        not_inArea_of_metadata (hin.mono (by simp)) hx
    have hoffset : frame + 0x200#64 - frame = 0x200#64 := add_sub_cancel_left _ _
    have hheader : InRange frame xsaveAreaSize (frame + 0x200#64) := by
      rw [InRange, hoffset]
      decide
    refine ⟨?_, ?_⟩
    · rw [headerSse, harea _ hheader, setArea, if_pos hheader, hoffset,
        ← hsse.header_xsave64 _ c.extended (areaAt m frame) hset]
      rfl
    · intro i
      have hlt := i.isLt
      rw [← hsse.areaXmm_xsave64 _ c.extended (areaAt m frame) i hset,
        ← read_setArea_xmm m frame (show 0x1A0 ≤ xsaveAreaSize by decide)]
      refine ByteMemory.read_congr (by decide) fun x hx => harea x (hx.mono ?_)
      simp only [xmmOffset, xsaveAreaSize]
      bv_omega

/-- A restore reads the registers from the frame, initializes them or leaves them. -/
theorem restoreXstate_xmm (hsse : SseUnit env.unit inUse) {c : Cpu X}
    (hrsp : c.reg .rsp = frame) (i : Fin 16) :
    env.unit.xmm (c.restoreXstate env).extended i =
      if saveKind c.mem frame = 1 then
        if (savedXcr0Low c.mem frame).getLsbD 1 = true ∧ c.xcr0.getLsbD 1 = true then
          if headerSse c.mem frame = true then savedXmm c.mem frame i else 0
        else env.unit.xmm c.extended i
      else savedXmm c.mem frame i := by
  rw [restoreXstate, hrsp]
  by_cases hkind : saveKind c.mem frame = 1
  · have hread : c.read64 (frame + xstateSaveKindOffset) = 1 := hkind
    have hloaded : ∃ loaded : Cpu X, c.run env [.loadDword .rax .rsp xstateXcr0LowOffset,
        .loadDword .rdx .rsp xstateXcr0HighOffset] = loaded ∧ loaded.reg .rsp = frame ∧
        loaded.reg .rax = (savedXcr0Low c.mem frame).setWidth 64 ∧ loaded.mem = c.mem ∧
        loaded.xcr0 = c.xcr0 ∧ loaded.extended = c.extended := by
      refine ⟨_, rfl, ?_, ?_, rfl, rfl, rfl⟩
      · simp [exec, hrsp]
      · simp [exec, hrsp, savedXcr0Low]
    obtain ⟨loaded, hrun, hframe, hrax, hmem, hxcr0, hextended⟩ := hloaded
    have hsplit : c.run env [.loadDword .rax .rsp xstateXcr0LowOffset,
        .loadDword .rdx .rsp xstateXcr0HighOffset, .xrstor64 .rsp] =
        (c.run env [.loadDword .rax .rsp xstateXcr0LowOffset,
          .loadDword .rdx .rsp xstateXcr0HighOffset]).exec env (.xrstor64 .rsp) := rfl
    have hrestored : (c.run env [.loadDword .rax .rsp xstateXcr0LowOffset,
        .loadDword .rdx .rsp xstateXcr0HighOffset, .xrstor64 .rsp]).extended =
        env.unit.xrstor64 (loaded.edxEax &&& c.xcr0) (areaAt c.mem frame) c.extended := by
      rw [hsplit, hrun, exec, hframe, hmem, hxcr0, hextended]
    have hmask : (loaded.edxEax &&& c.xcr0).getLsbD 1 =
        ((savedXcr0Low c.mem frame).getLsbD 1 && c.xcr0.getLsbD 1) := by
      rw [BitVec.getLsbD_and, getLsbD_edxEax, hrax]
      simp
    rw [if_pos hread, if_pos hkind, hrestored]
    by_cases hboth : (savedXcr0Low c.mem frame).getLsbD 1 = true ∧ c.xcr0.getLsbD 1 = true
    · have hset : (loaded.edxEax &&& c.xcr0).getLsbD 1 = true := by
        rw [hmask, hboth.1, hboth.2]
        rfl
      rw [if_pos hboth, hsse.xmm_xrstor64 _ _ _ _ hset, areaXmm_areaAt]
      rfl
    · have hclear : (loaded.edxEax &&& c.xcr0).getLsbD 1 = false := by
        rw [hmask, ← Bool.not_eq_true, Bool.and_eq_true]
        exact hboth
      rw [if_neg hboth, hsse.xmm_xrstor64_of_not _ _ _ _ hclear]
  · have hread : c.read64 (frame + xstateSaveKindOffset) ≠ 1 := hkind
    rw [if_neg hread, if_neg hkind, exec, hsse.xmm_fxrstor64, areaXmm_areaAt, hrsp]
    rfl

/-- Two memories that agree on the frame mean the same to a restore. -/
theorem savedXmm_congr {m m' : ByteMemory} (h : ∀ x, InXstateFrame hostRsp x → m' x = m x)
    (i : Fin 16) : savedXmm m' (xstateFrame hostRsp) i = savedXmm m (xstateFrame hostRsp) i :=
  ByteMemory.read_congr (by decide) fun x hx => h x (inXstateFrame_of_xmm hx)

/-- What the restore reads besides the registers of a fast hypercall. -/
theorem saved_congr {m m' : ByteMemory} (h : ∀ x, InXstateFrame hostRsp x →
      (∀ i ∈ fastXmm, ¬ InRange (xstateFrame hostRsp + xmmOffset i) 16 x) → m' x = m x) :
    saveKind m' (xstateFrame hostRsp) = saveKind m (xstateFrame hostRsp) ∧
      savedXcr0Low m' (xstateFrame hostRsp) = savedXcr0Low m (xstateFrame hostRsp) ∧
      headerSse m' (xstateFrame hostRsp) = headerSse m (xstateFrame hostRsp) ∧
      ∀ i, i ∉ fastXmm →
        savedXmm m' (xstateFrame hostRsp) i = savedXmm m (xstateFrame hostRsp) i := by
  have hhigh : ∀ x, InRange (xstateFrame hostRsp + 0x200) 0x2E20 x → m' x = m x := by
    intro x hx
    refine h x (hx.mono (by bv_omega)) fun i _ hin => ?_
    have hlt := i.isLt
    simp only [InRange, xmmOffset] at hx hin
    bv_omega
  refine ⟨?_, ?_, ?_, ?_⟩
  · refine ByteMemory.read_congr (by decide) fun x hx => hhigh x (hx.mono ?_)
    simp only [xstateSaveKindOffset]
    bv_omega
  · refine ByteMemory.read_congr (by decide) fun x hx => hhigh x (hx.mono ?_)
    simp only [xstateXcr0LowOffset]
    bv_omega
  · rw [headerSse, headerSse, hhigh]
    simp only [InRange]
    bv_omega
  · intro i hi
    refine ByteMemory.read_congr (by decide) fun x hx => ?_
    refine h x (inXstateFrame_of_xmm hx) fun j hj hin => hi ?_
    have hilt := i.isLt
    have hjlt := j.isLt
    have hsame : i = j := by
      refine Fin.ext ?_
      simp only [InRange, xmmOffset] at hx hin
      bv_omega
    rwa [hsame]

/-- The saved state that the handler is called with. -/
theorem enterHandler_saved (hsse : SseUnit env.unit inUse) {c : Cpu X}
    (hrsp : c.reg .rsp = hostRsp) :
    let entered := c.enterHandler env
    let frame := xstateFrame hostRsp
    entered.extended = c.extended ∧ entered.xcr0 = c.xcr0 ∧
      (c.cr4 &&& cr4OsxsaveMask = 0 → saveKind entered.mem frame = 0 ∧
        ∀ i, savedXmm entered.mem frame i = env.unit.xmm c.extended i) ∧
      (c.cr4 &&& cr4OsxsaveMask ≠ 0 → saveKind entered.mem frame = 1 ∧
        (savedXcr0Low entered.mem frame).getLsbD 1 = c.xcr0.getLsbD 1 ∧
        (c.xcr0.getLsbD 1 = true → headerSse entered.mem frame = inUse c.extended ∧
          ∀ i, savedXmm entered.mem frame i = env.unit.xmm c.extended i)) := by
  have hreserved : ∃ reserved, c.run env (pushFrame ++ reserveFrame) = reserved ∧
      reserved.reg .rsp = xstateFrame hostRsp ∧ saveKind reserved.mem (xstateFrame hostRsp) = 0 ∧
      reserved.extended = c.extended ∧ reserved.xcr0 = c.xcr0 ∧ reserved.cr4 = c.cr4 := by
    have hgpr := (run_pushFrame env c).1
    rw [hrsp] at hgpr
    refine ⟨_, rfl, ?_, ?_, rfl, rfl, rfl⟩
    · rw [run_append]
      exact (run_reserveFrame env hgpr).1.rsp
    · rw [run_append]
      generalize c.run env pushFrame = pushed at *
      have hword : (pushed.run env reserveFrame).mem =
          (pushed.mem.write (n := 8) (xstateFrame hostRsp + xstateGprFrameOffset)
            (gprFrame hostRsp)).write (n := 8) (xstateFrame hostRsp + xstateSaveKindOffset) 0 := by
        have hgpr' : pushed.reg .rsp = gprFrame hostRsp := hgpr
        simp [reserveFrame, exec, hgpr', xstateFrame]
      rw [saveKind, hword]
      exact ByteMemory.read_write_self (by decide) _
  obtain ⟨reserved, hrun, hframe, hkind, hextended, hxcr0, hcr4⟩ := hreserved
  have hentered : (c.enterHandler env).mem = (reserved.saveXstate env).mem ∧
      (c.enterHandler env).extended = (reserved.saveXstate env).extended ∧
      (c.enterHandler env).xcr0 = (reserved.saveXstate env).xcr0 := by
    rw [enterHandler, hrun]
    exact ⟨rfl, rfl, rfl⟩
  have hunit : (reserved.saveXstate env).extended = reserved.extended ∧
      (reserved.saveXstate env).xcr0 = reserved.xcr0 := by
    rcases saveXstate_cases env reserved with hsave | hsave
    · rw [hsave]
      exact ⟨rfl, rfl⟩
    · rw [hsave]
      exact ⟨rfl, rfl⟩
  dsimp only
  rw [hentered.1, hentered.2.1, hentered.2.2, hunit.1, hunit.2]
  rw [← hextended, ← hxcr0, ← hcr4]
  refine ⟨rfl, rfl, ?_, ?_⟩
  · exact fun hoff => saveXstate_legacy_spec hsse hoff hframe hkind
  · exact fun hon => saveXstate_xsave_spec hsse hon hframe

/-- The compiled code from one point to another: it passes the address of the saved state
on and does not write there, and it keeps XCR0 and the nonvolatile XMM registers. -/
structure Untouched (env : AsmEnvironment X) (hostRsp : Word) (c c' : Cpu X) : Prop where
  frame : ∀ x, InXstateFrame hostRsp x → c'.mem x = c.mem x
  xcr0 : c'.xcr0 = c.xcr0
  xmm : ∀ i, i ∉ fastXmm → env.unit.xmm c'.extended i = env.unit.xmm c.extended i

/-- The handler forwards the exit's hypercall: it calls `AsmHypervVmcall` once. -/
structure Forwarded (env : AsmEnvironment X) (hostRsp : Word) (c called : Cpu X) : Prop extends
    Called hostRsp called where
  before : Untouched env hostRsp (c.enterHandler env) called
  after : Untouched env hostRsp (called.asmHypervVmcall env) (c.afterHandler env)

/-- The cases in which the guest gets the values that the hypervisor returned: the frame
has the legacy format, or the restore loads the XMM registers, or initializing them is no
different, or it leaves them and so did the rest of the handler. -/
def OutputsReach (env : AsmEnvironment X) (inUse : X → Bool) (c called : Cpu X) : Prop :=
  c.cr4 &&& cr4OsxsaveMask ≠ 0 →
    if c.xcr0.getLsbD 1 = true then
      inUse c.extended = true ∨ ∀ i ∈ fastXmm, called.returnedXmm env i = 0
    else
      ∀ i ∈ fastXmm, env.unit.xmm (c.afterHandler env).extended i =
        env.unit.xmm (called.asmHypervVmcall env).extended i

/-- The registers that the guest should have after a forwarded hypercall. -/
def expectedXmm (env : AsmEnvironment X) (c called : Cpu X) (i : Fin 16) : BitVec 128 :=
  if i ∈ fastXmm then called.returnedXmm env i else env.unit.xmm c.extended i

/-- The frame that the handler leaves is the one it was called with, but for the values
that the hypervisor returned. -/
theorem afterHandler_saved (hbelow : HypervisorBelow env hostRsp) {c called : Cpu X}
    (h : Forwarded env hostRsp c called) :
    let frame := xstateFrame hostRsp
    let entered := c.enterHandler env
    let left := c.afterHandler env
    saveKind left.mem frame = saveKind entered.mem frame ∧
      savedXcr0Low left.mem frame = savedXcr0Low entered.mem frame ∧
      headerSse left.mem frame = headerSse entered.mem frame ∧
      left.xcr0 = entered.xcr0 ∧
      (∀ i, savedXmm left.mem frame i =
        if i ∈ fastXmm then called.returnedXmm env i else savedXmm entered.mem frame i) ∧
      ∀ i, i ∉ fastXmm → env.unit.xmm left.extended i = env.unit.xmm entered.extended i := by
  obtain ⟨hslots, hmem, hxcr0, hxmm⟩ := asmHypervVmcall_spec hbelow h.toCalled
  have hframe : ∀ x, InXstateFrame hostRsp x →
      (∀ i ∈ fastXmm, ¬ InRange (xstateFrame hostRsp + xmmOffset i) 16 x) →
      (c.afterHandler env).mem x = (c.enterHandler env).mem x := by
    intro x hx hslot
    have hon := (not_calleeStack_of_frame (Or.inl hx)).1
    rw [h.after.frame x hx, hmem x hon (h.not_stack hx) hx.not_gprFrame hslot,
      h.before.frame x hx]
  obtain ⟨hkind, hlow, hheader, hother⟩ := saved_congr hframe
  refine ⟨hkind, hlow, hheader, ?_, ?_, ?_⟩
  · rw [h.after.xcr0, hxcr0, h.before.xcr0]
  · intro i
    by_cases hi : i ∈ fastXmm
    · rw [if_pos hi, savedXmm_congr h.after.frame, ← hslots i hi]
      rfl
    · rw [if_neg hi, hother i hi]
  · intro i hi
    obtain ⟨_, _, _, _, hinputs⟩ := atHypervisor_spec env called
    rw [h.after.xmm i hi, hxmm i, returnedXmm, hbelow.xmm _ i hi, hinputs i hi, h.before.xmm i hi]

/-- The restore of a resumed guest, over what the handler left. -/
theorem resumed_xmm {vmxoffState : VmxoffState}
    (hconv : CallingConvention env hostRsp vmxoffState) (hsse : SseUnit env.unit inUse)
    {c : Cpu X} (hrsp : c.reg .rsp = hostRsp) (hresume : (c.asmVmexitHandler env).1 = false)
    (i : Fin 16) :
    let frame := xstateFrame hostRsp
    let left := c.afterHandler env
    env.unit.xmm (c.asmVmexitHandler env).2.extended i =
      if saveKind left.mem frame = 1 then
        if (savedXcr0Low left.mem frame).getLsbD 1 = true ∧ left.xcr0.getLsbD 1 = true then
          if headerSse left.mem frame = true then savedXmm left.mem frame i else 0
        else env.unit.xmm left.extended i
      else savedXmm left.mem frame i := by
  obtain ⟨hframe, hmem⟩ := returnFromHandler_spec hconv hrsp
  have hreturn : (c.returnFromHandler env).extended = (c.afterHandler env).extended ∧
      (c.returnFromHandler env).xcr0 = (c.afterHandler env).xcr0 := ⟨rfl, rfl⟩
  have hfinal : (c.asmVmexitHandler env).2.extended =
      ((c.returnFromHandler env).restoreXstate env).extended := by
    rw [asmVmexitHandler] at hresume ⊢
    split
    · rename_i hoff
      rw [if_pos hoff] at hresume
      exact Bool.noConfusion hresume
    · rfl
  rw [hfinal, restoreXstate_xmm hsse hframe.rsp, hmem, hreturn.1, hreturn.2]

/-- What the guest gets, by the format of the frame and by the components it holds. -/
theorem restored_xmm {vmxoffState : VmxoffState}
    (hconv : CallingConvention env hostRsp vmxoffState) (hsse : SseUnit env.unit inUse)
    (hbelow : HypervisorBelow env hostRsp) {c called : Cpu X}
    (h : Forwarded env hostRsp c called) (hrsp : c.reg .rsp = hostRsp)
    (hresume : (c.asmVmexitHandler env).1 = false) (i : Fin 16) :
    let final := env.unit.xmm (c.asmVmexitHandler env).2.extended i
    (c.cr4 &&& cr4OsxsaveMask = 0 → final = expectedXmm env c called i) ∧
      (c.cr4 &&& cr4OsxsaveMask ≠ 0 → c.xcr0.getLsbD 1 = true →
        final = if inUse c.extended = true then expectedXmm env c called i else 0) ∧
      (c.cr4 &&& cr4OsxsaveMask ≠ 0 → c.xcr0.getLsbD 1 ≠ true →
        final = env.unit.xmm (c.afterHandler env).extended i) := by
  obtain ⟨_, hxcr0, hlegacy, hxsave⟩ := enterHandler_saved hsse (c := c) hrsp
  obtain ⟨hkind, hlow, hheader, hxcr0', hsaved, _⟩ := afterHandler_saved hbelow h
  have hfinal := resumed_xmm hconv hsse hrsp hresume i
  dsimp only at hfinal ⊢
  rw [hkind, hlow, hheader, hxcr0', hxcr0, hsaved i] at hfinal
  rw [hfinal]
  refine ⟨?_, ?_, ?_⟩
  · -- the legacy frame has no header
    intro hoff
    obtain ⟨hzero, hxmm⟩ := hlegacy hoff
    rw [hzero, if_neg (by decide), hxmm i, expectedXmm]
  · intro hon hset
    obtain ⟨hone, hmask, hpresent⟩ := hxsave hon
    obtain ⟨hinUse, hxmm⟩ := hpresent hset
    rw [if_pos hone, if_pos ⟨hmask.trans hset, hset⟩, hinUse, hxmm i, expectedXmm]
  · intro hon hclear
    rw [if_pos (hxsave hon).1, if_neg fun hboth => hclear hboth.2]

/-- Exactly in these cases the guest's XMM registers are right when the exit stub has
restored them. -/
theorem fastOutputs_iff {vmxoffState : VmxoffState}
    (hconv : CallingConvention env hostRsp vmxoffState) (hsse : SseUnit env.unit inUse)
    (hbelow : HypervisorBelow env hostRsp) {c called : Cpu X}
    (h : Forwarded env hostRsp c called) (hrsp : c.reg .rsp = hostRsp)
    (hresume : (c.asmVmexitHandler env).1 = false) :
    (∀ i, env.unit.xmm (c.asmVmexitHandler env).2.extended i = expectedXmm env c called i) ↔
      OutputsReach env inUse c called := by
  have hrestored := restored_xmm hconv hsse hbelow h hrsp hresume
  rw [OutputsReach]
  by_cases hcr4 : c.cr4 &&& cr4OsxsaveMask = 0
  · exact iff_of_true (fun i => (hrestored i).1 hcr4) fun hon => absurd hcr4 hon
  · rw [forall_prop_of_true hcr4]
    by_cases hset : c.xcr0.getLsbD 1 = true
    · have hloaded := fun i => (hrestored i).2.1 hcr4 hset
      rw [if_pos hset]
      by_cases huse : inUse c.extended = true
      · refine iff_of_true ?_ (Or.inl huse)
        intro i
        rw [hloaded i, if_pos huse]
      · have hinitial := hsse.xmm_of_initial c.extended (Bool.eq_false_iff.mpr huse)
        simp only [hloaded, if_neg huse]
        refine ⟨fun hall => Or.inr ?_, ?_⟩
        · intro i hi
          have hexpected := hall i
          rw [expectedXmm, if_pos hi] at hexpected
          exact hexpected.symm
        · intro hzero i
          have hreturned := hzero.resolve_left huse
          rw [expectedXmm]
          split
          · rename_i hi
            exact (hreturned i hi).symm
          · exact (hinitial i).symm
    · obtain ⟨_, _, _, hreturned⟩ := asmHypervVmcall_spec hbelow h.toCalled
      obtain ⟨hextended, _⟩ := enterHandler_saved hsse (c := c) hrsp
      obtain ⟨_, _, _, _, _, hlive⟩ := afterHandler_saved hbelow h
      simp only [(hrestored _).2.2 hcr4 hset]
      rw [if_neg hset]
      refine ⟨?_, ?_⟩
      · intro hall i hi
        rw [hall i, expectedXmm, if_pos hi, hreturned i]
      · intro hkept i
        rw [expectedXmm]
        split
        · rename_i hi
          rw [hkept i hi, hreturned i]
        · rename_i hi
          rw [hlive i hi, hextended]

end Cpu

/-- An area after the XMM registers were written to it. -/
def storeXmm (x : Fin 16 → BitVec 128) (area : ℕ → BitVec 8) (k : ℕ) : BitVec 8 :=
  if 0xA0 ≤ k ∧ k < 0x1A0 then
    (x (Fin.ofNat 16 ((k - 0xA0) / 16))).extractLsb' (8 * ((k - 0xA0) % 16)) 8
  else area k

def xmmInUse (x : Fin 16 → BitVec 128) : Bool := decide (∃ i, x i ≠ 0)

/-- An area after an XSAVE whose mask includes the XMM registers. -/
def storeXsave (x : Fin 16 → BitVec 128) (area : ℕ → BitVec 8) (k : ℕ) : BitVec 8 :=
  if k = 0x200 then area k &&& ~~~2#8 ||| (if xmmInUse x then 2 else 0) else storeXmm x area k

def xmmUnit : ExtendedUnit (Fin 16 → BitVec 128) where
  xmm := id
  setXmm := Function.update
  xmm_setXmm := update_xmm
  xsave64 mask x area := if mask.getLsbD 1 then storeXsave x area else area
  xrstor64 mask area x :=
    if mask.getLsbD 1 then
      if (area 0x200).getLsbD 1 then areaXmm area else fun _ => 0
    else x
  fxsave64 := storeXmm
  fxrstor64 area _ := areaXmm area

theorem areaXmm_storeXmm (x : Fin 16 → BitVec 128) (area : ℕ → BitVec 8) (i : Fin 16) :
    areaXmm (storeXmm x area) i = x i := by
  have hilt := i.isLt
  apply BitVec.eq_of_getLsbD_eq
  intro b hb
  have hoffset : (xmmOffset i + BitVec.ofNat 64 (b / 8)).toNat = 0xA0 + 16 * i.val + b / 8 := by
    simp only [xmmOffset]
    bv_omega
  have hindex : (0xA0 + 16 * i.val + b / 8 - 0xA0) / 16 = i.val := by omega
  have hbyte : (0xA0 + 16 * i.val + b / 8 - 0xA0) % 16 = b / 8 := by omega
  have hfin : Fin.ofNat 16 i.val = i := Fin.ofNat_val_eq_self i
  have hbit : b % 8 < 8 := Nat.mod_lt b (by decide)
  rw [areaXmm, ByteMemory.getLsbD_read _ _ hb, hoffset, storeXmm, if_pos (by omega), hindex,
    hbyte, hfin, BitVec.getLsbD_extractLsb', decide_eq_true hbit, Bool.true_and, Nat.div_add_mod]

theorem areaXmm_storeXsave (x : Fin 16 → BitVec 128) (area : ℕ → BitVec 8) (i : Fin 16) :
    areaXmm (storeXsave x area) i = x i := by
  have hilt := i.isLt
  rw [← areaXmm_storeXmm x area i, areaXmm, areaXmm]
  refine ByteMemory.read_congr (by decide) fun k hk => if_neg ?_
  simp only [InRange, xmmOffset] at hk
  bv_omega

theorem sseUnit_xmmUnit : SseUnit xmmUnit xmmInUse := by
  constructor
  · intro x hx i
    by_contra hne
    exact of_decide_eq_false hx ⟨i, hne⟩
  · intro mask x area hmask
    simp only [xmmUnit, hmask, if_true, storeXsave]
    cases xmmInUse x <;> simp
  · intro mask x area i hmask
    simp only [xmmUnit, hmask, if_true, areaXmm_storeXsave, id]
  · intro mask area x i hmask
    simp only [xmmUnit, hmask, if_true, id]
    split <;> rfl
  · intro mask area x i hmask
    simp only [xmmUnit, hmask]
    rfl
  · intro x area i
    exact areaXmm_storeXmm x area i
  · intro area x i
    rfl

/-- The registers of the hypervisor's answer. -/
def answered (c : Cpu (Fin 16 → BitVec 128)) : Cpu (Fin 16 → BitVec 128) :=
  { c.setReg .rax 0 with extended := Function.update c.extended 0 1 }

def hypervOnly : AsmEnvironment (Fin 16 → BitVec 128) where
  unit := xmmUnit
  callee _ := id
  vmcall := answered

/-- The state in which the handler calls `AsmHypervVmcall`, below a frame of its own. -/
def calling (c : Cpu (Fin 16 → BitVec 128)) : Cpu (Fin 16 → BitVec 128) :=
  c.setReg .rsp (c.reg .rsp - 0x28)

/-- A handler that forwards every exit of one host stack. -/
def forwardingEnvironment : AsmEnvironment (Fin 16 → BitVec 128) :=
  { hypervOnly with
    callee := fun f c =>
      if f = .vmexitHandler ∧ c.reg .rcx = gprFrame 0x17FF0 ∧
          c.reg .rdx = xstateFrame 0x17FF0 ∧ c.reg .rsp = xstateFrame 0x17FF0 - 0x20 then
        { (calling c).asmHypervVmcall hypervOnly with reg := Function.update c.reg .rax 0 }
      else c.setReg .rax 0 }

theorem hypervisorBelow_hypervOnly (hostRsp : Word) : HypervisorBelow hypervOnly hostRsp := by
  constructor
  · intro c
    simp [hypervOnly, answered]
  · exact fun _ _ _ => rfl
  · exact fun _ => rfl
  · intro c i hi
    have hne : i ≠ 0 := fun heq => hi (heq ▸ by decide)
    simp [hypervOnly, answered, xmmUnit, hne]

theorem asmHypervVmcall_forwarding (c : Cpu (Fin 16 → BitVec 128)) :
    c.asmHypervVmcall forwardingEnvironment = c.asmHypervVmcall hypervOnly ∧
      c.returnedXmm forwardingEnvironment = c.returnedXmm hypervOnly := by
  have hbefore : c.atHypervisor forwardingEnvironment = c.atHypervisor hypervOnly :=
    Cpu.run_callee hypervOnly _ (by decide) c
  refine ⟨?_, ?_⟩
  · rw [Cpu.asmHypervVmcall, Cpu.asmHypervVmcall, hbefore]
    exact Cpu.run_callee hypervOnly _ (by decide) _
  · rw [Cpu.returnedXmm, Cpu.returnedXmm, hbefore]
    rfl

theorem called_calling {c : Cpu (Fin 16 → BitVec 128)} (hcx : c.reg .rcx = gprFrame 0x17FF0)
    (hdx : c.reg .rdx = xstateFrame 0x17FF0) (hsp : c.reg .rsp = xstateFrame 0x17FF0 - 0x20) :
    (calling c).Called 0x17FF0 := by
  have hframe : xstateFrame 0x17FF0 = 0x14E40 := by decide
  refine ⟨?_, ?_, ?_⟩
  · simpa [calling] using hcx
  · simpa [calling] using hdx
  · intro x hx
    have hrsp : (calling c).reg .rsp = c.reg .rsp - 0x28 := by simp [calling]
    rw [hrsp, hsp, hframe] at hx
    rw [hframe]
    simp only [CalleeStack, InRange, hostStackSize] at hx ⊢
    bv_omega

theorem hypervisorBelow_forwarding : HypervisorBelow forwardingEnvironment 0x17FF0 :=
  let h := hypervisorBelow_hypervOnly 0x17FF0
  ⟨h.rsp, h.hostStack, h.xcr0, h.xmm⟩

theorem callingConvention_forwarding :
    CallingConvention forwardingEnvironment 0x17FF0 ⟨false, 0, 0⟩ := by
  constructor
  · intro f c r hr
    have hne : r ≠ .rax := fun heq => absurd (heq ▸ hr) (by decide)
    simp only [forwardingEnvironment]
    split <;> simp [hne]
  · intro c x hstack hcallee hregs harea
    simp only [forwardingEnvironment]
    split
    · rename_i hpassed
      obtain ⟨_, hcx, hdx, hsp⟩ := hpassed
      have hcalled := called_calling hcx hdx hsp
      obtain ⟨_, hmem, _⟩ :=
        Cpu.asmHypervVmcall_spec (hypervisorBelow_hypervOnly 0x17FF0) hcalled
      refine hmem x hstack ?_ ?_ ?_
      · exact fun hin => hcallee (hsp ▸ hcalled.stack x hin)
      · exact hcx ▸ hregs
      · intro i _ hin
        have hlt := i.isLt
        refine harea ?_
        rw [hdx]
        refine hin.mono ?_
        simp only [xmmOffset, xsaveAreaSize]
        bv_omega
    · rfl
  · intro f hf c x _
    simp [forwardingEnvironment, hf]
  · intro c
    simp [forwardingEnvironment]
  · intro c
    simp [forwardingEnvironment]

theorem forwarded_calling {c : Cpu (Fin 16 → BitVec 128)} (hrsp : c.reg .rsp = 0x17FF0) :
    Cpu.Forwarded forwardingEnvironment 0x17FF0 c
        (calling (c.enterHandler forwardingEnvironment)) ∧
      (c.asmVmexitHandler forwardingEnvironment).1 = false ∧
      (calling (c.enterHandler forwardingEnvironment)).returnedXmm forwardingEnvironment 0 = 1 := by
  have hentered := Cpu.enterHandler_spec forwardingEnvironment c
  rw [hrsp] at hentered
  have hcalled := called_calling hentered.guestRegisters hentered.guestFxState hentered.rsp
  have hafter : c.afterHandler forwardingEnvironment =
      { (calling (c.enterHandler forwardingEnvironment)).asmHypervVmcall hypervOnly with
        reg := Function.update (c.enterHandler forwardingEnvironment).reg .rax 0 } :=
    if_pos ⟨rfl, hentered.guestRegisters, hentered.guestFxState, hentered.rsp⟩
  refine ⟨⟨hcalled, ?_, ?_⟩, ?_, ?_⟩
  · exact ⟨fun _ _ => rfl, rfl, fun _ _ => rfl⟩
  · rw [(asmHypervVmcall_forwarding _).1, hafter]
    generalize (calling (c.enterHandler forwardingEnvironment)).asmHypervVmcall hypervOnly = left
    exact ⟨fun _ _ => rfl, rfl, fun _ _ => rfl⟩
  · have hrax : (c.returnFromHandler forwardingEnvironment).reg .rax = 0 := by
      have hreturn : c.returnFromHandler forwardingEnvironment =
          (c.afterHandler forwardingEnvironment).exec forwardingEnvironment (.add .rsp 0x20) := rfl
      rw [hreturn, hafter]
      simp [Cpu.exec]
    rw [Cpu.asmVmexitHandler, hrax]
    rfl
  · rw [Cpu.returnedXmm]
    generalize (calling (c.enterHandler forwardingEnvironment)).atHypervisor
      forwardingEnvironment = reached
    have hanswer : Function.update reached.extended 0 1 0 = 1 := Function.update_self ..
    exact hanswer

/-- A guest with XSAVE and the given XMM registers. -/
def fastGuest (x : Fin 16 → BitVec 128) : Cpu (Fin 16 → BitVec 128) where
  reg r := if r = .rsp then 0x17FF0 else 7
  rflags := 2
  rip := 0
  cr4 := 0x40000
  xcr0 := 3
  extended := x
  mem _ := 0

/-- A guest whose XMM6 is not zero gets the value and keeps its register. -/
theorem fastOutputs_iff_inUse :
    let guest := fastGuest (Function.update 0 6 5)
    let final := (guest.asmVmexitHandler forwardingEnvironment).2
    final.extended 0 = 1 ∧ final.extended 6 = 5 := by
  obtain ⟨hforwarded, hresume, hreturned⟩ :=
    forwarded_calling (c := fastGuest (Function.update 0 6 5)) rfl
  have hall := (Cpu.fastOutputs_iff callingConvention_forwarding sseUnit_xmmUnit
    hypervisorBelow_forwarding hforwarded rfl hresume).mpr fun _ => Or.inl (by decide)
  refine ⟨?_, ?_⟩
  · exact (hall 0).trans hreturned
  · exact hall 6

/-- A guest whose XMM registers are all zero does not get the value. -/
theorem fastOutput_lost :
    let guest := fastGuest 0
    let called := calling (guest.enterHandler forwardingEnvironment)
    let final := (guest.asmVmexitHandler forwardingEnvironment).2
    Cpu.Forwarded forwardingEnvironment 0x17FF0 guest called ∧
      (guest.asmVmexitHandler forwardingEnvironment).1 = false ∧
      called.returnedXmm forwardingEnvironment 0 = 1 ∧ final.extended 0 = 0 := by
  obtain ⟨hforwarded, hresume, hreturned⟩ := forwarded_calling (c := fastGuest 0) rfl
  obtain ⟨_, hrestored, _⟩ := Cpu.restored_xmm callingConvention_forwarding sseUnit_xmmUnit
    hypervisorBelow_forwarding hforwarded rfl hresume 0
  have hinitial : ¬ xmmInUse (fastGuest 0).extended = true := by decide
  refine ⟨hforwarded, hresume, hreturned, ?_⟩
  exact (hrestored (by decide) (by decide)).trans (if_neg hinitial)

end NovaHypervisor

import NovaHypervisor.AsmMachine
import NovaHypervisor.VmexitHandler

/-!
The exit stub: what it pushes, the aligned frame for the extended state below that, the
call of the handler, and the two ways back to the guest. The compiled functions are any
that follow the calling convention.
-/
namespace NovaHypervisor

open General

namespace Reg

/-- The field of the frame that has the register's name. -/
def field : Reg → GuestRegs → Word
  | .rax => GuestRegs.rax
  | .rcx => GuestRegs.rcx
  | .rdx => GuestRegs.rdx
  | .rbx => GuestRegs.rbx
  | .rsp => GuestRegs.rsp
  | .rbp => GuestRegs.rbp
  | .rsi => GuestRegs.rsi
  | .rdi => GuestRegs.rdi
  | .r8 => GuestRegs.r8
  | .r9 => GuestRegs.r9
  | .r10 => GuestRegs.r10
  | .r11 => GuestRegs.r11
  | .r12 => GuestRegs.r12
  | .r13 => GuestRegs.r13
  | .r14 => GuestRegs.r14
  | .r15 => GuestRegs.r15

end Reg

/-- The frame at an address, field by field at the offsets of the structure. -/
def guestRegsAt (m : ByteMemory) (a : Word) : GuestRegs where
  rax := m.read a 8
  rcx := m.read (a + 0x08) 8
  rdx := m.read (a + 0x10) 8
  rbx := m.read (a + 0x18) 8
  rsp := m.read (a + 0x20) 8
  rbp := m.read (a + 0x28) 8
  rsi := m.read (a + 0x30) 8
  rdi := m.read (a + 0x38) 8
  r8 := m.read (a + 0x40) 8
  r9 := m.read (a + 0x48) 8
  r10 := m.read (a + 0x50) 8
  r11 := m.read (a + 0x58) 8
  r12 := m.read (a + 0x60) 8
  r13 := m.read (a + 0x68) 8
  r14 := m.read (a + 0x70) 8
  r15 := m.read (a + 0x78) 8

def guestRegsSize : ℕ := 0x80

def xstateStackFrameSize : Word := 0x3100
def xstateGprFrameOffset : Word := 0x3000
def xstateSaveKindOffset : Word := 0x3008
def xstateXcr0LowOffset : Word := 0x3010
def xstateXcr0HighOffset : Word := 0x3018
def cr4OsxsaveMask : Word := 0x40000

/-- The metadata words of the frame, and all that the entry pushes. -/
def xstateMetadataSize : ℕ := 0x20
def gprFrameSize : ℕ := 0x90

namespace Cpu

variable {X : Type*}

def pushFrame : List Instruction :=
  [.pushImmediate 0, .pushfq, .push .r15, .push .r14, .push .r13, .push .r12, .push .r11,
    .push .r10, .push .r9, .push .r8, .push .rdi, .push .rsi, .push .rbp, .push .rbp, .push .rbx,
    .push .rdx, .push .rcx, .push .rax]

def reserveFrame : List Instruction :=
  [.mov .r11 .rsp, .sub .rsp xstateStackFrameSize, .and .rsp 0xFFFFFFFFFFFFFFC0,
    .store .rsp xstateGprFrameOffset .r11, .storeImmediate .rsp xstateSaveKindOffset 0]

def saveXstate (env : AsmEnvironment X) (c : Cpu X) : Cpu X :=
  let c := c.exec env (.movCr4 .rax)
  if c.reg .rax &&& cr4OsxsaveMask = 0 then c.exec env (.fxsave64 .rsp)
  else
    c.run env [.xorSelf .rcx, .xgetbv, .storeDword .rsp xstateXcr0LowOffset .rax,
      .storeDword .rsp xstateXcr0HighOffset .rdx, .xsave64 .rsp,
      .storeImmediate .rsp xstateSaveKindOffset 1]

def passFrame : List Instruction :=
  [.load .rcx .rsp xstateGprFrameOffset, .mov .rdx .rsp, .sub .rsp 0x20]

def restoreXstate (env : AsmEnvironment X) (c : Cpu X) : Cpu X :=
  if c.read64 (c.reg .rsp + xstateSaveKindOffset) = 1 then
    c.run env [.loadDword .rax .rsp xstateXcr0LowOffset, .loadDword .rdx .rsp xstateXcr0HighOffset,
      .xrstor64 .rsp]
  else c.exec env (.fxrstor64 .rsp)

def poppedRegs : List Reg :=
  [.rax, .rcx, .rdx, .rbx, .rbp, .rbp, .rsi, .rdi, .r8, .r9, .r10, .r11, .r12, .r13, .r14, .r15]

def popFrame : List Instruction :=
  .load .rsp .rsp xstateGprFrameOffset :: poppedRegs.map .pop ++ [.popfq]

/-- The stub up to the call of the handler. -/
def enterHandler (env : AsmEnvironment X) (c : Cpu X) : Cpu X :=
  ((c.run env (pushFrame ++ reserveFrame)).saveXstate env).run env passFrame

def returnFromHandler (env : AsmEnvironment X) (c : Cpu X) : Cpu X :=
  (c.enterHandler env).run env [.call .vmexitHandler, .add .rsp 0x20]

/-- The way back to a guest: up to VMRESUME. -/
def resume (env : AsmEnvironment X) (c : Cpu X) : Cpu X :=
  (c.restoreXstate env).run env popFrame

def getGuestRsp : List Instruction :=
  [.sub .rsp 0x20, .call .getCurrentGuestRsp, .add .rsp 0x20,
    .load .r10 .rsp xstateGprFrameOffset, .store .r10 0x88 .rax]

def getGuestRip : List Instruction :=
  [.sub .rsp 0x20, .call .getCurrentGuestRip, .add .rsp 0x20]

/-- The return address goes on the guest's stack, and its place into the frame. -/
def pushReturn : List Instruction :=
  [.mov .rdx .rsp, .load .r10 .rsp xstateGprFrameOffset, .load .rbx .r10 0x88, .mov .rsp .rbx,
    .push .rax, .mov .rsp .rdx, .sub .rbx 8, .load .r10 .rsp xstateGprFrameOffset,
    .store .r10 0x88 .rbx]

def asmVmxoffHandler (env : AsmEnvironment X) (c : Cpu X) : Cpu X :=
  (((c.run env (getGuestRsp ++ getGuestRip ++ pushReturn)).restoreXstate env).run env
    popFrame).run env [.pop .rsp, .ret]

/-- Whether VMX is off when the stub ends, and the processor at VMRESUME or after RET. -/
def asmVmexitHandler (env : AsmEnvironment X) (c : Cpu X) : Bool × Cpu X :=
  let c := c.returnFromHandler env
  if (c.reg .rax).setWidth 8 = 1#8 then (true, c.asmVmxoffHandler env)
  else (false, c.resume env)

end Cpu

/-- Where the entry's pushes end. -/
def gprFrame (hostRsp : Word) : Word := hostRsp - 0x90

def xstateFrame (hostRsp : Word) : Word :=
  (gprFrame hostRsp - xstateStackFrameSize) &&& 0xFFFFFFFFFFFFFFC0#64

theorem and_alignMask (x : Word) :
    (x &&& 0xFFFFFFFFFFFFFFC0#64).toNat = x.toNat / 64 * 64 := by
  have hshift : x &&& 0xFFFFFFFFFFFFFFC0#64 = (x >>> 6) <<< 6 := by
    apply BitVec.eq_of_getLsbD_eq
    intro i hi
    have hmask : (0xFFFFFFFFFFFFFFC0#64).getLsbD i = decide (6 ≤ i) := by
      revert i
      decide
    rw [BitVec.getLsbD_and, hmask, BitVec.getLsbD_shiftLeft, BitVec.getLsbD_ushiftRight]
    by_cases hlow : 6 ≤ i
    · have hsum : 6 + (i - 6) = i := by omega
      simp [hlow, hi, hsum, Nat.not_lt.mpr hlow]
    · simp [hlow, Nat.lt_of_not_le hlow]
  have hlt := x.isLt
  rw [hshift, BitVec.toNat_shiftLeft, BitVec.toNat_ushiftRight, Nat.shiftRight_eq_div_pow,
    Nat.shiftLeft_eq]
  omega

/-- XSAVE64 and XRSTOR64 take an area at a multiple of 64 bytes. -/
theorem xstateFrame_aligned (hostRsp : Word) : (xstateFrame hostRsp).toNat % 64 = 0 := by
  rw [xstateFrame, and_alignMask]
  omega

/-- The frame for the extended state ends less than 64 bytes below the pushed registers. -/
theorem exists_padding (hostRsp : Word) :
    ∃ padding : Word, padding.toNat < 64 ∧
      gprFrame hostRsp = xstateFrame hostRsp + xstateStackFrameSize + padding := by
  refine ⟨BitVec.ofNat 64 ((gprFrame hostRsp - xstateStackFrameSize).toNat % 64), ?_, ?_⟩
  · rw [BitVec.toNat_ofNat]
    omega
  · have hmask := and_alignMask (gprFrame hostRsp - xstateStackFrameSize)
    rw [show (gprFrame hostRsp - xstateStackFrameSize) &&& 0xFFFFFFFFFFFFFFC0#64 =
      xstateFrame hostRsp from rfl] at hmask
    generalize xstateFrame hostRsp = frame at hmask ⊢
    generalize gprFrame hostRsp = gpr at hmask ⊢
    have hsize : xstateStackFrameSize = 0x3100#64 := rfl
    rw [hsize] at hmask ⊢
    bv_omega

theorem eq_gprFrame_add (hostRsp : Word) : hostRsp = gprFrame hostRsp + 0x90#64 := by
  rw [gprFrame]
  bv_omega

/-- The parts of the stack frame do not overlap, whatever the host's RSP is. -/
theorem frames_apart (hostRsp : Word) :
    Apart (xstateFrame hostRsp) xsaveAreaSize (xstateFrame hostRsp + xstateGprFrameOffset)
        xstateMetadataSize ∧
      Apart (xstateFrame hostRsp) xsaveAreaSize (gprFrame hostRsp) gprFrameSize ∧
      Apart (xstateFrame hostRsp + xstateGprFrameOffset) xstateMetadataSize (gprFrame hostRsp)
        gprFrameSize := by
  obtain ⟨padding, hpadding, hgpr⟩ := exists_padding hostRsp
  rw [hgpr]
  generalize xstateFrame hostRsp = frame
  simp only [Apart, InRange, xsaveAreaSize, xstateGprFrameOffset, xstateMetadataSize,
    gprFrameSize, xstateStackFrameSize]
  refine ⟨?_, ?_, ?_⟩
  · intro x hx
    bv_omega
  · intro x hx
    bv_omega
  · intro x hx
    bv_omega

namespace Cpu

variable {X : Type*}

/-- RSP is at the frame for the extended state, and the frame's first metadata word still
points at the pushed registers. -/
structure AtFrame (hostRsp : Word) (c : Cpu X) : Prop where
  rsp : c.reg .rsp = xstateFrame hostRsp
  pointer : c.read64 (xstateFrame hostRsp + xstateGprFrameOffset) = gprFrame hostRsp

/-- The frame is where the pointer is as long as the pointer's bytes are unchanged. -/
theorem AtFrame.congr {hostRsp : Word} {c c' : Cpu X} (h : c.AtFrame hostRsp)
    (hrsp : c'.reg .rsp = c.reg .rsp)
    (hmem : ∀ x, InRange (xstateFrame hostRsp + xstateGprFrameOffset) 8 x → c'.mem x = c.mem x) :
    c'.AtFrame hostRsp := by
  refine ⟨hrsp.trans h.rsp, ?_⟩
  rw [← h.pointer]
  exact ByteMemory.read_congr (by decide) hmem

theorem setArea_of_not {m : ByteMemory} {a : Word} {size : ℕ} {area : ℕ → BitVec 8} {x : Word}
    (h : ¬ InRange a size x) : setArea m a size area x = m x := if_neg h

theorem saveXstate_cases (env : AsmEnvironment X) (c : Cpu X) :
    c.saveXstate env = c.run env [.movCr4 .rax, .fxsave64 .rsp] ∨
      c.saveXstate env = c.run env [.movCr4 .rax, .xorSelf .rcx, .xgetbv,
        .storeDword .rsp xstateXcr0LowOffset .rax, .storeDword .rsp xstateXcr0HighOffset .rdx,
        .xsave64 .rsp, .storeImmediate .rsp xstateSaveKindOffset 1] := by
  rw [saveXstate]
  split
  · exact Or.inl (by rw [run_cons, run_cons, run_nil])
  · exact Or.inr (run_cons ..).symm

/-- Saving the extended state fills its frame and the other metadata words. -/
theorem saveXstate_spec (env : AsmEnvironment X) (c : Cpu X) :
    (∀ r, r ∉ [.rax, .rcx, .rdx] → (c.saveXstate env).reg r = c.reg r) ∧
      ∀ x, ¬ InRange (c.reg .rsp) xsaveAreaSize x →
        ¬ InRange (c.reg .rsp + xstateSaveKindOffset) 0x18 x →
        (c.saveXstate env).mem x = c.mem x := by
  rcases saveXstate_cases env c with hsave | hsave
  · rw [hsave]
    refine ⟨?_, ?_⟩
    · intro r hr
      simp only [List.mem_cons, List.not_mem_nil, or_false, not_or] at hr
      simp [exec, hr]
    · intro x harea _
      have hlegacy : ¬ InRange (c.reg .rsp) fxsaveAreaSize x := by
        intro hx
        apply harea
        simp only [InRange, fxsaveAreaSize, xsaveAreaSize] at hx ⊢
        omega
      simp [exec, setArea_of_not hlegacy]
  · rw [hsave]
    refine ⟨?_, ?_⟩
    · intro r hr
      simp only [List.mem_cons, List.not_mem_nil, or_false, not_or] at hr
      simp [exec, hr]
    · intro x harea hmetadata
      have hkind : ¬ InRange (c.reg .rsp + xstateSaveKindOffset) 8 x :=
        fun hx => hmetadata (hx.mono (by simp))
      have hlow : ¬ InRange (c.reg .rsp + xstateXcr0LowOffset) 4 x := by
        refine fun hx => hmetadata (hx.mono ?_)
        simp only [xstateXcr0LowOffset, xstateSaveKindOffset]
        bv_omega
      have hhigh : ¬ InRange (c.reg .rsp + xstateXcr0HighOffset) 4 x := by
        refine fun hx => hmetadata (hx.mono ?_)
        simp only [xstateXcr0HighOffset, xstateSaveKindOffset]
        bv_omega
      simp [exec, setArea_of_not harea, ByteMemory.write_apply_of_not _ _ hkind,
        ByteMemory.write_apply_of_not _ _ hlow, ByteMemory.write_apply_of_not _ _ hhigh]

theorem restoreXstate_spec (env : AsmEnvironment X) (c : Cpu X) :
    (∀ r, r ∉ [.rax, .rdx] → (c.restoreXstate env).reg r = c.reg r) ∧
      (c.restoreXstate env).mem = c.mem := by
  rw [restoreXstate]
  split
  · refine ⟨?_, by simp [exec]⟩
    intro r hr
    simp only [List.mem_cons, List.not_mem_nil, or_false, not_or] at hr
    simp [exec, hr]
  · exact ⟨fun _ _ => rfl, rfl⟩

/-- The general registers, as a frame. -/
def guestRegs (c : Cpu X) : GuestRegs :=
  ⟨c.reg .rax, c.reg .rcx, c.reg .rdx, c.reg .rbx, c.reg .rsp, c.reg .rbp, c.reg .rsi, c.reg .rdi,
    c.reg .r8, c.reg .r9, c.reg .r10, c.reg .r11, c.reg .r12, c.reg .r13, c.reg .r14, c.reg .r15⟩

theorem words_guestRegs (m : ByteMemory) (a : Word) :
    let r := guestRegsAt m a
    m.words a 16 = [r.rax, r.rcx, r.rdx, r.rbx, r.rsp, r.rbp, r.rsi, r.rdi, r.r8, r.r9, r.r10,
      r.r11, r.r12, r.r13, r.r14, r.r15] := by
  simp [ByteMemory.words, guestRegsAt, BitVec.add_assoc]

theorem guestRegsAt_congr {m m' : ByteMemory} {a : Word}
    (h : ∀ x, InRange a guestRegsSize x → m' x = m x) : guestRegsAt m' a = guestRegsAt m a := by
  have hwords : m'.words a 16 = m.words a 16 := ByteMemory.words_congr (by decide) h
  simp only [words_guestRegs, List.cons.injEq, and_true] at hwords
  obtain ⟨hax, hcx, hdx, hbx, hsp, hbp, hsi, hdi, h8, h9, h10, h11, h12, h13, h14, h15⟩ := hwords
  rw [GuestRegs.mk.injEq]
  exact ⟨hax, hcx, hdx, hbx, hsp, hbp, hsi, hdi, h8, h9, h10, h11, h12, h13, h14, h15⟩

/-- The entry pushes the registers as the structure has them, with RBP in the place of RSP. -/
theorem run_pushFrame (env : AsmEnvironment X) (c : Cpu X) :
    (c.run env pushFrame).reg .rsp = c.reg .rsp - 0x90 ∧
      guestRegsAt (c.run env pushFrame).mem (c.reg .rsp - 0x90) =
        { c.guestRegs with rsp := c.reg .rbp } := by
  have hpush : ∀ i ∈ pushFrame, isPush i = true := by decide
  have hempty := ByteMemory.holds_nil c.mem (c.reg .rsp)
  have hroom : 8 * (([] : List Word).length + pushFrame.length) ≤ 2 ^ 64 := by decide
  obtain ⟨hholds, hrsp, _, _⟩ := run_pushes env pushFrame hpush c hempty hroom
  have hlength : BitVec.ofNat 64 (8 * pushFrame.length) = 0x90#64 := by decide
  rw [hlength] at hrsp
  rw [hrsp] at hholds
  refine ⟨hrsp, ?_⟩
  have hstack : (c.run env pushFrame).mem.Holds (c.reg .rsp - 0x90#64)
      ([c.reg .rax, c.reg .rcx, c.reg .rdx, c.reg .rbx, c.reg .rbp, c.reg .rbp, c.reg .rsi,
        c.reg .rdi, c.reg .r8, c.reg .r9, c.reg .r10, c.reg .r11, c.reg .r12, c.reg .r13,
        c.reg .r14, c.reg .r15] ++ [c.rflags, 0]) := hholds
  have hwords := hstack.words_append
  have hfields := (words_guestRegs (c.run env pushFrame).mem (c.reg .rsp - 0x90#64)).symm.trans
    hwords
  simp only [List.cons.injEq, and_true] at hfields
  rw [GuestRegs.mk.injEq]
  exact hfields

theorem run_reserveFrame (env : AsmEnvironment X) {hostRsp : Word} {c : Cpu X}
    (h : c.reg .rsp = gprFrame hostRsp) :
    (c.run env reserveFrame).AtFrame hostRsp ∧
      ∀ x, InRange (gprFrame hostRsp) gprFrameSize x →
        (c.run env reserveFrame).mem x = c.mem x := by
  obtain ⟨_, _, hapart⟩ := frames_apart hostRsp
  have hrsp : (c.run env reserveFrame).reg .rsp = xstateFrame hostRsp := by
    simp [reserveFrame, exec, h, xstateFrame]
  have hmem : (c.run env reserveFrame).mem =
      (c.mem.write (n := 8) (xstateFrame hostRsp + xstateGprFrameOffset)
        (gprFrame hostRsp)).write (n := 8) (xstateFrame hostRsp + xstateSaveKindOffset) 0 := by
    simp [reserveFrame, exec, h, xstateFrame]
  refine ⟨⟨hrsp, ?_⟩, ?_⟩
  · rw [read64, hmem, ByteMemory.read_write_of_apart (by decide),
      ByteMemory.read_write_self (by decide)]
    intro x hx
    simp only [InRange, xstateGprFrameOffset, xstateSaveKindOffset] at hx ⊢
    bv_omega
  · intro x hx
    have hmetadata : ¬ InRange (xstateFrame hostRsp + xstateGprFrameOffset) xstateMetadataSize x :=
      fun hin => hapart x hin hx
    rw [hmem, ByteMemory.write_apply_of_not, ByteMemory.write_apply_of_not]
    · exact fun hin => hmetadata (hin.mono (by simp [xstateMetadataSize]))
    · refine fun hin => hmetadata (hin.mono ?_)
      simp only [xstateGprFrameOffset, xstateSaveKindOffset, xstateMetadataSize]
      bv_omega

/-- What the handler is called with: the guest's registers in their frame, and the saved
extended state. -/
structure Entered (hostRsp : Word) (guest : GuestRegs) (c : Cpu X) : Prop where
  rsp : c.reg .rsp = xstateFrame hostRsp - 0x20
  guestRegisters : c.reg .rcx = gprFrame hostRsp
  guestFxState : c.reg .rdx = xstateFrame hostRsp
  pointer : c.read64 (xstateFrame hostRsp + xstateGprFrameOffset) = gprFrame hostRsp
  registers : guestRegsAt c.mem (gprFrame hostRsp) = guest

theorem enterHandler_spec (env : AsmEnvironment X) (c : Cpu X) :
    (c.enterHandler env).Entered (c.reg .rsp) { c.guestRegs with rsp := c.reg .rbp } := by
  obtain ⟨hpushed, hregisters⟩ := run_pushFrame env c
  have hgprFrame : (c.run env pushFrame).reg .rsp = gprFrame (c.reg .rsp) := hpushed
  obtain ⟨hframe, hkept⟩ := run_reserveFrame env hgprFrame
  obtain ⟨hreg, hmem⟩ := saveXstate_spec env ((c.run env pushFrame).run env reserveFrame)
  obtain ⟨hxsave, hgpr, hmetadata⟩ := frames_apart (c.reg .rsp)
  rw [hframe.rsp] at hmem
  rw [enterHandler, run_append]
  generalize (c.run env pushFrame).run env reserveFrame = reserved at *
  have hsaved : (reserved.saveXstate env).AtFrame (c.reg .rsp) := by
    refine hframe.congr (hreg .rsp (by decide)) ?_
    intro x hx
    refine hmem x (fun hin => hxsave x hin (hx.mono (by simp [xstateMetadataSize]))) ?_
    intro hin
    simp only [InRange, xstateGprFrameOffset, xstateSaveKindOffset] at hx hin
    bv_omega
  have hpassed : guestRegsAt (reserved.saveXstate env).mem (gprFrame (c.reg .rsp)) =
      { c.guestRegs with rsp := c.reg .rbp } := by
    rw [← hregisters]
    apply guestRegsAt_congr
    intro x hx
    have hin : InRange (gprFrame (c.reg .rsp)) gprFrameSize x :=
      hx.mono (by simp [guestRegsSize, gprFrameSize])
    rw [hmem x (fun harea => hgpr x harea hin), hkept x hin]
    refine fun hmeta => hmetadata x (hmeta.mono ?_) hin
    simp only [xstateGprFrameOffset, xstateSaveKindOffset, xstateMetadataSize]
    bv_omega
  generalize reserved.saveXstate env = saved at *
  have hpointer := hsaved.pointer
  rw [read64] at hpointer
  constructor
  · simp [passFrame, exec, hsaved.rsp]
  · simp [passFrame, exec, hsaved.rsp, read64, hpointer]
  · simp [passFrame, exec, hsaved.rsp]
  · simp [passFrame, exec, read64, hpointer]
  · simpa [passFrame, exec] using hpassed

/-- The pops load each register but RSP from the field of its name. -/
theorem run_popFrame (env : AsmEnvironment X) {hostRsp : Word} {c : Cpu X}
    (h : c.AtFrame hostRsp) :
    (∀ r, r ≠ .rsp →
        (c.run env popFrame).reg r = r.field (guestRegsAt c.mem (gprFrame hostRsp))) ∧
      (c.run env popFrame).reg .rsp = gprFrame hostRsp + 0x88 ∧
      (c.run env popFrame).mem = c.mem := by
  have hpointer := h.pointer
  have hload : (c.exec env (.load .rsp .rsp xstateGprFrameOffset)).reg .rsp =
      gprFrame hostRsp := by
    simp [exec, h.rsp, hpointer]
  have hmem : (c.exec env (.load .rsp .rsp xstateGprFrameOffset)).mem = c.mem := rfl
  rw [popFrame, List.cons_append, run_cons, run_append]
  generalize c.exec env (.load .rsp .rsp xstateGprFrameOffset) = loaded at hload hmem ⊢
  obtain ⟨hrsp, hother, hrest⟩ := run_pops env poppedRegs (by decide) loaded
  have hwords := words_guestRegs c.mem (gprFrame hostRsp)
  have hlength : poppedRegs.length = 16 := rfl
  rw [hload, hmem, hlength, hwords] at hother
  have hpopped : (loaded.run env (poppedRegs.map .pop)).mem = c.mem := by
    rw [hrest]
    exact hmem
  refine ⟨?_, ?_, ?_⟩
  · intro r hr
    have hreg := hother r hr
    rw [run_cons, run_nil, exec]
    cases r <;> first | exact absurd rfl hr | simpa [poppedRegs, loadAll, Reg.field] using hreg
  · have hsize : BitVec.ofNat 64 (8 * poppedRegs.length) = 0x80#64 := by decide
    rw [hload, hsize] at hrsp
    simp [exec, hrsp, BitVec.add_assoc]
  · simpa [exec] using hpopped

theorem resume_spec (env : AsmEnvironment X) {hostRsp : Word} {c : Cpu X}
    (h : c.AtFrame hostRsp) {r : Reg} (hr : r ≠ .rsp) :
    (c.resume env).reg r = r.field (guestRegsAt c.mem (gprFrame hostRsp)) := by
  obtain ⟨hreg, hmem⟩ := restoreXstate_spec env c
  have hframe : (c.restoreXstate env).AtFrame hostRsp :=
    h.congr (hreg .rsp (by decide)) fun x _ => congrFun hmem x
  rw [resume, (run_popFrame env hframe).1 r hr, hmem]

end Cpu

/-- The registers that a called function keeps. -/
def nonvolatile : List Reg := [.rbx, .rbp, .rsp, .rsi, .rdi, .r12, .r13, .r14, .r15]

/-- The stack that `AllocateVmStructures` reserves, below the aligned top. -/
def hostStackSize : ℕ := 0x7FF0

def OnHostStack (hostRsp x : Word) : Prop :=
  InRange (hostRsp - BitVec.ofNat 64 hostStackSize) hostStackSize x

/-- The bytes of the host's stack that a function called with this RSP may use: all below
the caller's frame, with the shadow space. -/
def CalleeStack (hostRsp rsp x : Word) : Prop :=
  InRange (hostRsp - BitVec.ofNat 64 hostStackSize)
    (rsp + 0x20 - (hostRsp - BitVec.ofNat 64 hostStackSize)).toNat x

/-- The compiled functions follow the calling convention. The handler may change its
parameters' objects, the frame and the extended state, and memory elsewhere; the two
other functions change no memory but their stack. -/
structure CallingConvention {X : Type*} (env : AsmEnvironment X) (hostRsp : Word)
    (vmxoffState : VmxoffState) : Prop where
  keeps : ∀ function c, ∀ r ∈ nonvolatile, (env.callee function c).reg r = c.reg r
  handler_mem : ∀ c x, OnHostStack hostRsp x → ¬ CalleeStack hostRsp (c.reg .rsp) x →
    ¬ InRange (c.reg .rcx) guestRegsSize x → ¬ InRange (c.reg .rdx) xsaveAreaSize x →
    (env.callee .vmexitHandler c).mem x = c.mem x
  getter_mem : ∀ function, function ≠ .vmexitHandler → ∀ c x,
    ¬ CalleeStack hostRsp (c.reg .rsp) x → (env.callee function c).mem x = c.mem x
  guestRsp : ∀ c, (env.callee .getCurrentGuestRsp c).reg .rax = vmxoffState.guestRsp
  guestRip : ∀ c, (env.callee .getCurrentGuestRip c).reg .rax = vmxoffState.guestRip

/-- The frames are on the host's stack, above what a called function may use. -/
theorem not_calleeStack_of_frame {hostRsp x : Word}
    (h : InRange (xstateFrame hostRsp) 0x3020 x ∨ InRange (gprFrame hostRsp) gprFrameSize x) :
    OnHostStack hostRsp x ∧ ¬ CalleeStack hostRsp (xstateFrame hostRsp - 0x20) x := by
  obtain ⟨padding, hpadding, hgpr⟩ := exists_padding hostRsp
  have htop := eq_gprFrame_add hostRsp
  simp only [OnHostStack, CalleeStack, InRange, hostStackSize, gprFrameSize,
    xstateStackFrameSize] at *
  generalize gprFrame hostRsp = gpr at *
  generalize xstateFrame hostRsp = frame at *
  subst htop
  subst hgpr
  rcases h with h | h
  · refine ⟨?_, ?_⟩
    · bv_omega
    · bv_omega
  · refine ⟨?_, ?_⟩
    · bv_omega
    · bv_omega

theorem OnHostStack.of_calleeStack {hostRsp x : Word}
    (h : CalleeStack hostRsp (xstateFrame hostRsp - 0x20) x) : OnHostStack hostRsp x := by
  obtain ⟨padding, hpadding, hgpr⟩ := exists_padding hostRsp
  have htop := eq_gprFrame_add hostRsp
  simp only [OnHostStack, CalleeStack, InRange, hostStackSize, xstateStackFrameSize] at *
  generalize gprFrame hostRsp = gpr at *
  generalize xstateFrame hostRsp = frame at *
  subst htop
  subst hgpr
  bv_omega

namespace Cpu

variable {X : Type*} {env : AsmEnvironment X} {hostRsp : Word} {vmxoffState : VmxoffState}

/-- The processor when the handler has returned. -/
def afterHandler (env : AsmEnvironment X) (c : Cpu X) : Cpu X :=
  env.callee .vmexitHandler (c.enterHandler env)

theorem returnFromHandler_spec (hconv : CallingConvention env hostRsp vmxoffState) {c : Cpu X}
    (hrsp : c.reg .rsp = hostRsp) :
    (c.returnFromHandler env).AtFrame hostRsp ∧
      (c.returnFromHandler env).mem = (c.afterHandler env).mem := by
  have hentered := enterHandler_spec env c
  rw [hrsp] at hentered
  have hreturn : c.returnFromHandler env = (c.afterHandler env).exec env (.add .rsp 0x20) := rfl
  have hkept : (c.afterHandler env).reg .rsp = xstateFrame hostRsp - 0x20 := by
    rw [afterHandler, hconv.keeps _ _ _ (by decide), hentered.rsp]
  have hpointer : (c.afterHandler env).read64 (xstateFrame hostRsp + xstateGprFrameOffset) =
      gprFrame hostRsp := by
    rw [← hentered.pointer]
    apply ByteMemory.read_congr (by decide)
    intro x hx
    obtain ⟨hxsave, _, hmetadata⟩ := frames_apart hostRsp
    have hword : InRange (xstateFrame hostRsp + xstateGprFrameOffset) xstateMetadataSize x :=
      hx.mono (by simp [xstateMetadataSize])
    have hframe : InRange (xstateFrame hostRsp) 0x3020 x := by
      refine hx.mono ?_
      simp only [xstateGprFrameOffset]
      bv_omega
    obtain ⟨hstack, hcallee⟩ := not_calleeStack_of_frame (Or.inl hframe)
    refine hconv.handler_mem _ x hstack (by rwa [hentered.rsp]) ?_ ?_
    · rw [hentered.guestRegisters]
      intro hin
      exact hmetadata x hword (hin.mono (by simp [guestRegsSize, gprFrameSize]))
    · rw [hentered.guestFxState]
      exact fun hin => hxsave x hin hword
  rw [hreturn]
  refine ⟨⟨?_, hpointer⟩, rfl⟩
  simp [exec, hkept]

/-- A called function that only reads leaves the frames, and all memory but its stack. -/
theorem call_getter (hconv : CallingConvention env hostRsp vmxoffState) {f : Callee}
    (hf : f ≠ .vmexitHandler) {c : Cpu X} (h : c.AtFrame hostRsp) :
    let c' := c.run env [.sub .rsp 0x20, .call f, .add .rsp 0x20]
    c'.AtFrame hostRsp ∧
      c'.reg .rax = (env.callee f (c.exec env (.sub .rsp 0x20))).reg .rax ∧
      (∀ x, InRange (gprFrame hostRsp) gprFrameSize x → c'.mem x = c.mem x) ∧
      ∀ x, ¬ OnHostStack hostRsp x → c'.mem x = c.mem x := by
  have hsub : (c.exec env (.sub .rsp 0x20)).reg .rsp = xstateFrame hostRsp - 0x20 := by
    simp [exec, h.rsp]
  have hmem : ∀ x, ¬ CalleeStack hostRsp (xstateFrame hostRsp - 0x20) x →
      (env.callee f (c.exec env (.sub .rsp 0x20))).mem x = c.mem x := by
    intro x hx
    exact hconv.getter_mem f hf _ x (by rwa [hsub])
  have hrsp : (env.callee f (c.exec env (.sub .rsp 0x20))).reg .rsp =
      xstateFrame hostRsp - 0x20 := by
    rw [hconv.keeps _ _ _ (by decide), hsub]
  have hrun : c.run env [.sub .rsp 0x20, .call f, .add .rsp 0x20] =
      (env.callee f (c.exec env (.sub .rsp 0x20))).exec env (.add .rsp 0x20) := rfl
  dsimp only
  rw [hrun]
  generalize env.callee f (c.exec env (.sub .rsp 0x20)) = called at hmem hrsp ⊢
  refine ⟨h.congr ?_ ?_, ?_, ?_, ?_⟩
  · simp [exec, hrsp, h.rsp]
  · intro x hx
    have hframe : InRange (xstateFrame hostRsp) 0x3020 x := by
      refine hx.mono ?_
      simp only [xstateGprFrameOffset]
      bv_omega
    exact hmem x (not_calleeStack_of_frame (Or.inl hframe)).2
  · simp [exec]
  · exact fun x hx => hmem x (not_calleeStack_of_frame (Or.inr hx)).2
  · exact fun x hx => hmem x fun hcallee => hx (OnHostStack.of_calleeStack hcallee)

/-- The last pushed word, which the pops do not load, is free for the guest's RSP. -/
def rspSlot (hostRsp : Word) : Word := gprFrame hostRsp + 0x88

theorem rspSlot_inFrame {hostRsp x : Word} (hx : InRange (rspSlot hostRsp) 8 x) :
    InRange (gprFrame hostRsp) gprFrameSize x ∧ ¬ InRange (gprFrame hostRsp) guestRegsSize x ∧
      ¬ InRange (xstateFrame hostRsp + xstateGprFrameOffset) xstateMetadataSize x := by
  obtain ⟨_, _, hmetadata⟩ := frames_apart hostRsp
  have hin : InRange (gprFrame hostRsp) gprFrameSize x := by
    refine hx.mono ?_
    simp only [rspSlot, gprFrameSize]
    bv_omega
  refine ⟨hin, ?_, fun hmeta => hmetadata x hmeta hin⟩
  intro hregs
  simp only [InRange, rspSlot, guestRegsSize] at hx hregs
  bv_omega

/-- A store to the slot keeps the frame pointer and the registers. -/
theorem AtFrame.store_rspSlot {c : Cpu X} (h : c.AtFrame hostRsp) (value : Word) :
    (c.setMem (c.mem.write (n := 8) (rspSlot hostRsp) value)).AtFrame hostRsp ∧
      ∀ x, InRange (gprFrame hostRsp) guestRegsSize x →
        c.mem.write (n := 8) (rspSlot hostRsp) value x = c.mem x := by
  refine ⟨h.congr rfl ?_, ?_⟩
  · intro x hx
    refine ByteMemory.write_apply_of_not _ _ fun hslot => ?_
    exact (rspSlot_inFrame hslot).2.2 (hx.mono (by simp [xstateMetadataSize]))
  · intro x hx
    exact ByteMemory.write_apply_of_not _ _ fun hslot => (rspSlot_inFrame hslot).2.1 hx

theorem run_getGuestRsp (hconv : CallingConvention env hostRsp vmxoffState) {c : Cpu X}
    (h : c.AtFrame hostRsp) :
    let c' := c.run env getGuestRsp
    c'.AtFrame hostRsp ∧ c'.read64 (rspSlot hostRsp) = vmxoffState.guestRsp ∧
      (∀ x, InRange (gprFrame hostRsp) guestRegsSize x → c'.mem x = c.mem x) ∧
      ∀ x, ¬ OnHostStack hostRsp x → c'.mem x = c.mem x := by
  obtain ⟨hframe, hrax, hgpr, hguest⟩ := call_getter hconv (f := .getCurrentGuestRsp) (by decide) h
  have hrun : c.run env getGuestRsp =
      (c.run env [.sub .rsp 0x20, .call .getCurrentGuestRsp, .add .rsp 0x20]).run env
        [.load .r10 .rsp xstateGprFrameOffset, .store .r10 0x88 .rax] := rfl
  dsimp only at hframe hrax hgpr hguest ⊢
  rw [hconv.guestRsp] at hrax
  rw [hrun]
  generalize c.run env [.sub .rsp 0x20, .call .getCurrentGuestRsp, .add .rsp 0x20] = called at *
  have hpointer := hframe.pointer
  rw [read64] at hpointer
  have hstore : (called.run env [.load .r10 .rsp xstateGprFrameOffset, .store .r10 0x88 .rax]) =
      ((called.setReg .r10 (gprFrame hostRsp)).setMem
        (called.mem.write (n := 8) (rspSlot hostRsp) vmxoffState.guestRsp)) := by
    simp [exec, hframe.rsp, hpointer, hrax, read64, rspSlot]
  obtain ⟨hstored, hkept⟩ := hframe.store_rspSlot vmxoffState.guestRsp
  rw [hstore]
  refine ⟨⟨by simpa using hstored.rsp, hstored.pointer⟩, ?_, ?_, ?_⟩
  · exact ByteMemory.read_write_self (by decide) _
  · intro x hx
    rw [setMem_mem, hkept x hx]
    exact hgpr x (hx.mono (by simp [guestRegsSize, gprFrameSize]))
  · intro x hx
    have hslot : ¬ InRange (rspSlot hostRsp) 8 x := fun hslot =>
      hx (not_calleeStack_of_frame (Or.inr (rspSlot_inFrame hslot).1)).1
    rw [setMem_mem, ByteMemory.write_apply_of_not _ _ hslot]
    exact hguest x hx

/-- What `AsmVmxoffHandler` has made when the registers are about to be restored: the return
address is on the guest's stack, and the slot points at it. -/
structure Leaving (hostRsp : Word) (vmxoffState : VmxoffState) (start c : Cpu X) : Prop extends
    AtFrame hostRsp c where
  slot : c.read64 (rspSlot hostRsp) = vmxoffState.guestRsp - 8
  returnAddress : c.read64 (vmxoffState.guestRsp - 8) = vmxoffState.guestRip
  registers : ∀ x, InRange (gprFrame hostRsp) guestRegsSize x → c.mem x = start.mem x
  guest : ∀ x, ¬ OnHostStack hostRsp x → ¬ InRange (vmxoffState.guestRsp - 8) 8 x →
    c.mem x = start.mem x

theorem run_pushReturn {c : Cpu X} (h : c.AtFrame hostRsp)
    (hrax : c.reg .rax = vmxoffState.guestRip)
    (hslot : c.read64 (rspSlot hostRsp) = vmxoffState.guestRsp)
    (hguest : ∀ x, InRange (vmxoffState.guestRsp - 8) 8 x → ¬ OnHostStack hostRsp x) :
    Leaving hostRsp vmxoffState c (c.run env pushReturn) := by
  have hpointer := h.pointer
  rw [read64] at hpointer hslot
  have houtside : ∀ x, InRange (gprFrame hostRsp) gprFrameSize x ∨
      InRange (xstateFrame hostRsp) 0x3020 x → ¬ InRange (vmxoffState.guestRsp - 8) 8 x := by
    intro x hx hin
    exact hguest x hin (not_calleeStack_of_frame hx.symm).1
  have hpushed : (c.mem.write (n := 8) (vmxoffState.guestRsp - 8) vmxoffState.guestRip).read
      (xstateFrame hostRsp + xstateGprFrameOffset) 8 = gprFrame hostRsp := by
    rw [← hpointer]
    refine ByteMemory.read_write_of_apart (by decide) _ fun x hx => houtside x (Or.inr ?_)
    refine hx.mono ?_
    simp only [xstateGprFrameOffset]
    bv_omega
  have hword : c.mem.read (gprFrame hostRsp + 0x88#64) 8 = vmxoffState.guestRsp := hslot
  have hrsp : (c.run env pushReturn).reg .rsp = c.reg .rsp := by
    simp [pushReturn, exec, pushWord]
  have hmem : (c.run env pushReturn).mem =
      (c.mem.write (n := 8) (vmxoffState.guestRsp - 8) vmxoffState.guestRip).write (n := 8)
        (rspSlot hostRsp) (vmxoffState.guestRsp - 8) := by
    simp only [BitVec.ofNat_eq_ofNat] at hpushed ⊢
    simp [pushReturn, exec, pushWord, read64, h.rsp, hpointer, hword, hrax, hpushed, rspSlot]
  have hpushedFrame : (c.setMem (c.mem.write (n := 8) (vmxoffState.guestRsp - 8)
      vmxoffState.guestRip)).AtFrame hostRsp := ⟨h.rsp, hpushed⟩
  obtain ⟨hstored, hkept⟩ := hpushedFrame.store_rspSlot (vmxoffState.guestRsp - 8)
  simp only [setMem_mem] at hstored hkept
  refine ⟨⟨hrsp.trans h.rsp, ?_⟩, ?_, ?_, ?_, ?_⟩
  · rw [read64, hmem]
    exact hstored.pointer
  · rw [read64, hmem]
    exact ByteMemory.read_write_self (by decide) _
  · rw [read64, hmem, ByteMemory.read_write_of_apart (by decide),
      ByteMemory.read_write_self (by decide)]
    exact fun x hx hin => houtside x (Or.inl (rspSlot_inFrame hin).1) hx
  · intro x hx
    rw [hmem, hkept x hx]
    refine ByteMemory.write_apply_of_not _ _ (houtside x (Or.inl ?_))
    exact hx.mono (by simp [guestRegsSize, gprFrameSize])
  · intro x hstack hx
    have hout : ¬ InRange (rspSlot hostRsp) 8 x := fun hin =>
      hstack (not_calleeStack_of_frame (Or.inr (rspSlot_inFrame hin).1)).1
    rw [hmem, ByteMemory.write_apply_of_not _ _ hout, ByteMemory.write_apply_of_not _ _ hx]

/-- The two calls and the push on the guest's stack, from the frame that the handler left. -/
theorem run_leave (hconv : CallingConvention env hostRsp vmxoffState) {c : Cpu X}
    (h : c.AtFrame hostRsp)
    (hguest : ∀ x, InRange (vmxoffState.guestRsp - 8) 8 x → ¬ OnHostStack hostRsp x) :
    Leaving hostRsp vmxoffState c (c.run env (getGuestRsp ++ getGuestRip ++ pushReturn)) := by
  obtain ⟨hframe, hslot, hregs, hmem⟩ := run_getGuestRsp hconv h
  rw [run_append, run_append]
  generalize c.run env getGuestRsp = first at *
  obtain ⟨hframe', hrax, hgpr, hmem'⟩ :=
    call_getter hconv (f := .getCurrentGuestRip) (by decide) hframe
  have hrip : first.run env getGuestRip =
      first.run env [.sub .rsp 0x20, .call .getCurrentGuestRip, .add .rsp 0x20] := rfl
  rw [hconv.guestRip] at hrax
  rw [hrip]
  generalize first.run env [.sub .rsp 0x20, .call .getCurrentGuestRip, .add .rsp 0x20] =
    second at *
  have hslot' : second.read64 (rspSlot hostRsp) = vmxoffState.guestRsp := by
    rw [← hslot]
    exact ByteMemory.read_congr (by decide) fun x hx => hgpr x (rspSlot_inFrame hx).1
  have hleaving : Leaving hostRsp vmxoffState second (second.run env pushReturn) :=
    run_pushReturn hframe' hrax hslot' hguest
  refine ⟨hleaving.toAtFrame, hleaving.slot, hleaving.returnAddress, ?_, ?_⟩
  · intro x hx
    have hin : InRange (gprFrame hostRsp) gprFrameSize x :=
      hx.mono (by simp [guestRegsSize, gprFrameSize])
    rw [hleaving.registers x hx, hgpr x hin, hregs x hx]
  · intro x hstack hx
    rw [hleaving.guest x hstack hx, hmem' x hstack, hmem x hstack]

/-- `AsmVmxoffHandler` ends in the guest: its registers are the fields of the frame, and it
goes on at the saved RIP and RSP. -/
theorem asmVmxoffHandler_spec (hconv : CallingConvention env hostRsp vmxoffState) {c : Cpu X}
    (h : c.AtFrame hostRsp)
    (hguest : ∀ x, InRange (vmxoffState.guestRsp - 8) 8 x → ¬ OnHostStack hostRsp x) :
    let c' := c.asmVmxoffHandler env
    (∀ r, r ≠ .rsp → c'.reg r = r.field (guestRegsAt c.mem (gprFrame hostRsp))) ∧
      c'.reg .rsp = vmxoffState.guestRsp ∧ c'.rip = vmxoffState.guestRip ∧
      ∀ x, ¬ OnHostStack hostRsp x → ¬ InRange (vmxoffState.guestRsp - 8) 8 x →
        c'.mem x = c.mem x := by
  have hleaving := run_leave hconv h hguest
  rw [asmVmxoffHandler]
  generalize c.run env (getGuestRsp ++ getGuestRip ++ pushReturn) = leaving at *
  obtain ⟨hreg, hmem⟩ := restoreXstate_spec env leaving
  have hframe : (leaving.restoreXstate env).AtFrame hostRsp :=
    hleaving.toAtFrame.congr (hreg .rsp (by decide)) fun x _ => congrFun hmem x
  obtain ⟨hpopped, hrsp, hmem'⟩ := run_popFrame env hframe
  have hfields : guestRegsAt leaving.mem (gprFrame hostRsp) =
      guestRegsAt c.mem (gprFrame hostRsp) := guestRegsAt_congr hleaving.registers
  rw [hmem, hfields] at hpopped
  rw [hmem] at hmem'
  generalize (leaving.restoreXstate env).run env popFrame = popped at *
  have hslot : popped.read64 (popped.reg .rsp) = vmxoffState.guestRsp - 8 := by
    rw [hrsp, read64, hmem']
    exact hleaving.slot
  have hreturn : popped.read64 (vmxoffState.guestRsp - 8) = vmxoffState.guestRip := by
    rw [read64, hmem']
    exact hleaving.returnAddress
  have hstack : (popped.run env [.pop .rsp, .ret]).reg .rsp =
      popped.read64 (popped.reg .rsp) + 8 := by
    simp [exec]
  have hrip : (popped.run env [.pop .rsp, .ret]).rip =
      popped.read64 (popped.read64 (popped.reg .rsp)) := by
    simp [exec]
  refine ⟨?_, ?_, ?_, ?_⟩
  · intro r hr
    rw [← hpopped r hr]
    simp [exec, hr]
  · rw [hstack, hslot]
    exact BitVec.sub_add_cancel _ _
  · rw [hrip, hslot, hreturn]
  · intro x houtside hx
    rw [← hleaving.guest x houtside hx, ← hmem']
    simp [exec]

/-- The exit stub hands the guest's registers to the handler in their frame and loads the
frame's fields on both ways back, and the parts of its own frame never overlap. -/
theorem asmVmexitHandler_preserves (hconv : CallingConvention env hostRsp vmxoffState)
    (hguest : ∀ x, InRange (vmxoffState.guestRsp - 8) 8 x → ¬ OnHostStack hostRsp x)
    (c : Cpu X) (hrsp : c.reg .rsp = hostRsp) :
    let frame := (c.enterHandler env).reg .rcx
    let fxState := (c.enterHandler env).reg .rdx
    let after := c.afterHandler env
    let final := (c.asmVmexitHandler env).2
    guestRegsAt (c.enterHandler env).mem frame = { c.guestRegs with rsp := c.reg .rbp } ∧
      (c.asmVmexitHandler env).1 = decide ((after.reg .rax).setWidth 8 = 1#8) ∧
      (∀ r, r ≠ .rsp → final.reg r = r.field (guestRegsAt after.mem frame)) ∧
      ((c.asmVmexitHandler env).1 = true →
        final.reg .rsp = vmxoffState.guestRsp ∧ final.rip = vmxoffState.guestRip ∧
        ∀ x, ¬ OnHostStack hostRsp x → ¬ InRange (vmxoffState.guestRsp - 8) 8 x →
          final.mem x = after.mem x) ∧
      Apart fxState xsaveAreaSize (fxState + xstateGprFrameOffset) xstateMetadataSize ∧
      Apart fxState xsaveAreaSize frame gprFrameSize ∧
      Apart (fxState + xstateGprFrameOffset) xstateMetadataSize frame gprFrameSize := by
  have hentered := enterHandler_spec env c
  rw [hrsp] at hentered
  obtain ⟨hframe, hmem⟩ := returnFromHandler_spec hconv hrsp
  have hrax : (c.returnFromHandler env).reg .rax = (c.afterHandler env).reg .rax := by
    have hreturn : c.returnFromHandler env = (c.afterHandler env).exec env (.add .rsp 0x20) := rfl
    rw [hreturn]
    simp [exec]
  simp only [hentered.guestRegisters, hentered.guestFxState]
  refine ⟨hentered.registers, ?_, ?_, ?_, frames_apart hostRsp⟩
  · rw [asmVmexitHandler, hrax]
    split
    · rename_i hoff
      exact (decide_eq_true hoff).symm
    · rename_i hon
      exact (decide_eq_false hon).symm
  · intro r hr
    rw [asmVmexitHandler]
    split
    · rw [(asmVmxoffHandler_spec hconv hframe hguest).1 r hr, hmem]
    · rw [resume_spec env hframe hr, hmem]
  · intro hoff
    rw [asmVmexitHandler] at hoff ⊢
    split at hoff
    · rename_i hone
      obtain ⟨_, hstack, hrip, hkept⟩ := asmVmxoffHandler_spec hconv hframe hguest
      rw [if_pos hone]
      refine ⟨hstack, hrip, ?_⟩
      intro x hx hslot
      rw [hkept x hx hslot, hmem]
    · exact absurd hoff (by simp)

/-- A processor that does not save its extended state, and a handler that turns VMX off and
changes the guest's RAX. -/
def offEnvironment : AsmEnvironment (Fin 16 → BitVec 128) where
  unit :=
    { xmm := id
      setXmm := Function.update
      xmm_setXmm := update_xmm
      xsave64 := fun _ _ area => area
      xrstor64 := fun _ _ x => x
      fxsave64 := fun _ area => area
      fxrstor64 := fun _ x => x }
  callee
    | .vmexitHandler => fun c => (c.setReg .rax 1).setMem (c.mem.write (n := 8) (c.reg .rcx) 42)
    | .getCurrentGuestRsp => fun c => c.setReg .rax 0x50000
    | .getCurrentGuestRip => fun c => c.setReg .rax 0x1234
  vmcall c := c

theorem callingConvention_off (hostRsp : Word) :
    CallingConvention offEnvironment hostRsp ⟨true, 0x1234, 0x50000⟩ := by
  constructor
  · intro f c r hr
    have hne : r ≠ .rax := fun heq => absurd (heq ▸ hr) (by decide)
    cases f <;> simp [offEnvironment, hne]
  · intro c x _ _ hframe _
    refine ByteMemory.write_apply_of_not _ _ fun hin => hframe ?_
    exact hin.mono (by simp [guestRegsSize])
  · intro f hf c x _
    cases f with
    | vmexitHandler => exact absurd rfl hf
    | getCurrentGuestRsp => rfl
    | getCurrentGuestRip => rfl
  · intro c
    simp [offEnvironment]
  · intro c
    simp [offEnvironment]

def offCpu : Cpu (Fin 16 → BitVec 128) where
  reg r := if r = .rsp then 0x17FF0 else 7
  rflags := 2
  rip := 0
  cr4 := 0
  xcr0 := 1
  extended _ := 0
  mem _ := 0

/-- A guest leaves VMX with the RAX that the handler stored and its own RBX. -/
theorem asmVmexitHandler_preserves_off :
    let final := (offCpu.asmVmexitHandler offEnvironment).2
    final.reg .rax = 42 ∧ final.reg .rsp = 0x50000 ∧ final.rip = 0x1234 := by
  have hguest : ∀ x, InRange (0x50000#64 - 8) 8 x → ¬ OnHostStack 0x17FF0 x := by
    intro x hx
    simp only [OnHostStack, InRange, hostStackSize] at hx ⊢
    bv_omega
  obtain ⟨_, hoff, hregs, hleft, _⟩ :=
    asmVmexitHandler_preserves (callingConvention_off 0x17FF0) hguest offCpu rfl
  have hone : ((offCpu.afterHandler offEnvironment).reg .rax).setWidth 8 = 1#8 := by
    simp [afterHandler, offEnvironment]
  obtain ⟨hrsp, hrip, _⟩ := hleft (hoff.trans (decide_eq_true hone))
  refine ⟨?_, hrsp, hrip⟩
  rw [hregs .rax (by decide)]
  exact ByteMemory.read_write_self (by decide) _

end Cpu

end NovaHypervisor

import NovaHypervisor.General.ByteMemory
import NovaHypervisor.Definitions

/-!
The instructions that the assembly of the hypervisor uses. The extended state of the
processor, the functions that are called and the hypervisor under this one are
parameters. The flags that arithmetic sets are read only by the jump that follows, so a
comparison and its jump are one conditional of the program.
-/
namespace NovaHypervisor

open General

inductive Reg where
  | rax | rcx | rdx | rbx | rsp | rbp | rsi | rdi
  | r8 | r9 | r10 | r11 | r12 | r13 | r14 | r15
  deriving DecidableEq

/-- The registers outside the general ones, and the instructions that save and restore
them. An area is given by its bytes; the components are those of a mask. -/
structure ExtendedUnit (X : Type*) where
  xmm : X → Fin 16 → BitVec 128
  setXmm : X → Fin 16 → BitVec 128 → X
  xmm_setXmm : ∀ x i v j, xmm (setXmm x i v) j = if j = i then v else xmm x j
  xsave64 : Word → X → (ℕ → BitVec 8) → ℕ → BitVec 8
  xrstor64 : Word → (ℕ → BitVec 8) → X → X
  fxsave64 : X → (ℕ → BitVec 8) → ℕ → BitVec 8
  fxrstor64 : (ℕ → BitVec 8) → X → X

/-- The law of `setXmm` where the XMM registers are all that is modelled. -/
theorem update_xmm (x : Fin 16 → BitVec 128) (i : Fin 16) (v : BitVec 128) (j : Fin 16) :
    Function.update x i v j = if j = i then v else x j := Function.update_apply x i v j

structure Cpu (X : Type*) where
  reg : Reg → Word
  rflags : Word
  rip : Word
  cr4 : Word
  xcr0 : Word
  extended : X
  mem : ByteMemory

inductive Callee where
  | vmexitHandler
  | getCurrentGuestRsp
  | getCurrentGuestRip
  deriving DecidableEq

/-- What the assembly runs on: the processor's unit, the compiled functions, from the call
to the return, and the hypervisor that a VMCALL reaches. -/
structure AsmEnvironment (X : Type*) where
  unit : ExtendedUnit X
  callee : Callee → Cpu X → Cpu X
  vmcall : Cpu X → Cpu X

inductive Instruction where
  | pushImmediate (value : Word)
  | push (r : Reg)
  | pop (r : Reg)
  | pushfq
  | popfq
  | mov (destination source : Reg)
  | load (destination base : Reg) (offset : Word)
  | store (base : Reg) (offset : Word) (source : Reg)
  | storeImmediate (base : Reg) (offset value : Word)
  | loadDword (destination base : Reg) (offset : Word)
  | storeDword (base : Reg) (offset : Word) (source : Reg)
  | add (r : Reg) (value : Word)
  | sub (r : Reg) (value : Word)
  | and (r : Reg) (value : Word)
  | xorSelf (r : Reg)
  | movCr4 (r : Reg)
  | xgetbv
  | xsave64 (base : Reg)
  | xrstor64 (base : Reg)
  | fxsave64 (base : Reg)
  | fxrstor64 (base : Reg)
  | movdquLoad (destination : Fin 16) (base : Reg) (offset : Word)
  | movdquStore (base : Reg) (offset : Word) (source : Fin 16)
  | call (function : Callee)
  | vmcall
  | ret
  deriving DecidableEq

def xsaveAreaSize : ℕ := 0x3000
def fxsaveAreaSize : ℕ := 512

/-- The bytes of an area, by their offsets. -/
def areaAt (m : ByteMemory) (a : Word) (i : ℕ) : BitVec 8 := m (a + BitVec.ofNat 64 i)

def setArea (m : ByteMemory) (a : Word) (size : ℕ) (area : ℕ → BitVec 8) : ByteMemory :=
  fun x => if InRange a size x then area (x - a).toNat else m x

namespace Cpu

variable {X : Type*}

def setReg (c : Cpu X) (r : Reg) (value : Word) : Cpu X :=
  { c with reg := Function.update c.reg r value }

def setMem (c : Cpu X) (m : ByteMemory) : Cpu X := { c with mem := m }

def pushWord (c : Cpu X) (value : Word) : Cpu X :=
  let rsp := c.reg .rsp - 8
  (c.setMem (c.mem.write (n := 8) rsp value)).setReg .rsp rsp

def read64 (c : Cpu X) (a : Word) : Word := c.mem.read a 8

/-- EDX:EAX. -/
def edxEax (c : Cpu X) : Word := (c.reg .rdx).setWidth 32 ++ (c.reg .rax).setWidth 32

def exec (env : AsmEnvironment X) (c : Cpu X) : Instruction → Cpu X
  | .pushImmediate value => c.pushWord value
  | .push r => c.pushWord (c.reg r)
  | .pop r =>
    let value := c.read64 (c.reg .rsp)
    (c.setReg .rsp (c.reg .rsp + 8)).setReg r value
  | .pushfq => c.pushWord c.rflags
  | .popfq =>
    { c.setReg .rsp (c.reg .rsp + 8) with rflags := c.read64 (c.reg .rsp) }
  | .mov destination source => c.setReg destination (c.reg source)
  | .load destination base offset => c.setReg destination (c.read64 (c.reg base + offset))
  | .store base offset source =>
    c.setMem (c.mem.write (n := 8) (c.reg base + offset) (c.reg source))
  | .storeImmediate base offset value =>
    c.setMem (c.mem.write (n := 8) (c.reg base + offset) value)
  | .loadDword destination base offset =>
    c.setReg destination ((c.mem.read (c.reg base + offset) 4).setWidth 64)
  | .storeDword base offset source =>
    c.setMem (c.mem.write (n := 4) (c.reg base + offset) ((c.reg source).setWidth 32))
  | .add r value => c.setReg r (c.reg r + value)
  | .sub r value => c.setReg r (c.reg r - value)
  | .and r value => c.setReg r (c.reg r &&& value)
  | .xorSelf r => c.setReg r 0
  | .movCr4 r => c.setReg r c.cr4
  | .xgetbv =>
    (c.setReg .rax ((c.xcr0.setWidth 32).setWidth 64)).setReg .rdx (c.xcr0 >>> 32)
  | .xsave64 base =>
    c.setMem (setArea c.mem (c.reg base) xsaveAreaSize
      (env.unit.xsave64 (c.edxEax &&& c.xcr0) c.extended (areaAt c.mem (c.reg base))))
  | .xrstor64 base =>
    { c with extended :=
      env.unit.xrstor64 (c.edxEax &&& c.xcr0) (areaAt c.mem (c.reg base)) c.extended }
  | .fxsave64 base =>
    c.setMem (setArea c.mem (c.reg base) fxsaveAreaSize
      (env.unit.fxsave64 c.extended (areaAt c.mem (c.reg base))))
  | .fxrstor64 base =>
    { c with extended := env.unit.fxrstor64 (areaAt c.mem (c.reg base)) c.extended }
  | .movdquLoad destination base offset =>
    { c with extended :=
      env.unit.setXmm c.extended destination (c.mem.read (c.reg base + offset) 16) }
  | .movdquStore base offset source =>
    c.setMem (c.mem.write (n := 16) (c.reg base + offset) (env.unit.xmm c.extended source))
  | .call function => env.callee function c
  | .vmcall => env.vmcall c
  | .ret =>
    { c.setReg .rsp (c.reg .rsp + 8) with rip := c.read64 (c.reg .rsp) }

def run (env : AsmEnvironment X) (c : Cpu X) (program : List Instruction) : Cpu X :=
  program.foldl (exec env) c

@[simp] theorem run_nil (env : AsmEnvironment X) (c : Cpu X) : c.run env [] = c := rfl

@[simp] theorem run_cons (env : AsmEnvironment X) (c : Cpu X) (i : Instruction)
    (program : List Instruction) : c.run env (i :: program) = (c.exec env i).run env program :=
  rfl

theorem run_append (env : AsmEnvironment X) (c : Cpu X) (first second : List Instruction) :
    c.run env (first ++ second) = (c.run env first).run env second := by
  simp [run]

@[simp] theorem setReg_reg (c : Cpu X) (r s : Reg) (value : Word) :
    (c.setReg r value).reg s = if s = r then value else c.reg s := Function.update_apply ..

@[simp] theorem setReg_mem (c : Cpu X) (r : Reg) (value : Word) :
    (c.setReg r value).mem = c.mem := rfl

@[simp] theorem setReg_extended (c : Cpu X) (r : Reg) (value : Word) :
    (c.setReg r value).extended = c.extended := rfl

@[simp] theorem setReg_xcr0 (c : Cpu X) (r : Reg) (value : Word) :
    (c.setReg r value).xcr0 = c.xcr0 := rfl

@[simp] theorem setReg_read64 (c : Cpu X) (r : Reg) (value a : Word) :
    (c.setReg r value).read64 a = c.read64 a := rfl

@[simp] theorem setMem_reg (c : Cpu X) (m : ByteMemory) : (c.setMem m).reg = c.reg := rfl

@[simp] theorem setMem_mem (c : Cpu X) (m : ByteMemory) : (c.setMem m).mem = m := rfl

@[simp] theorem setMem_extended (c : Cpu X) (m : ByteMemory) :
    (c.setMem m).extended = c.extended := rfl

/-- The instructions that may change memory. -/
def writesMemory : Instruction → Bool
  | .pushImmediate _ | .push _ | .pushfq | .store .. | .storeImmediate .. | .storeDword ..
  | .xsave64 _ | .fxsave64 _ | .movdquStore .. | .call _ | .vmcall => true
  | _ => false

theorem run_mem_of_reads (env : AsmEnvironment X) {program : List Instruction}
    (h : ∀ i ∈ program, writesMemory i = false) (c : Cpu X) :
    (c.run env program).mem = c.mem := by
  induction program generalizing c with
  | nil => rfl
  | cons i program ih =>
    have hi := h i List.mem_cons_self
    rw [run_cons, ih fun j hj => h j (List.mem_cons_of_mem _ hj)]
    cases i <;> first | rfl | exact Bool.noConfusion hi

def callsFunction : Instruction → Bool
  | .call _ => true
  | _ => false

/-- A program without calls runs the same whatever the functions do. -/
theorem run_callee (env : AsmEnvironment X) (callee : Callee → Cpu X → Cpu X)
    {program : List Instruction} (h : ∀ i ∈ program, callsFunction i = false) (c : Cpu X) :
    c.run { env with callee := callee } program = c.run env program := by
  induction program generalizing c with
  | nil => rfl
  | cons i program ih =>
    have hi := h i List.mem_cons_self
    have hexec : c.exec { env with callee := callee } i = c.exec env i := by
      cases i <;> first | rfl | exact Bool.noConfusion hi
    rw [run_cons, run_cons, hexec, ih fun j hj => h j (List.mem_cons_of_mem _ hj)]

/-- The value that an instruction of the entry pushes. -/
def pushed (c : Cpu X) : Instruction → Word
  | .pushImmediate value => value
  | .push r => c.reg r
  | .pushfq => c.rflags
  | _ => 0

/-- A push of something other than RSP itself. -/
def isPush : Instruction → Bool
  | .pushImmediate _ | .pushfq => true
  | .push r => r != .rsp
  | _ => false

theorem pushWord_reg (c : Cpu X) (value : Word) {r : Reg} (h : r ≠ .rsp) :
    (c.pushWord value).reg r = c.reg r := by
  rw [pushWord, setReg_reg, if_neg h, setMem_reg]

theorem pushWord_rsp (c : Cpu X) (value : Word) :
    (c.pushWord value).reg .rsp = c.reg .rsp - 8 := by
  rw [pushWord, setReg_reg, if_pos rfl]

theorem exec_of_isPush (env : AsmEnvironment X) (c : Cpu X) {i : Instruction}
    (h : isPush i = true) : c.exec env i = c.pushWord (c.pushed i) := by
  cases i <;> first | rfl | exact Bool.noConfusion h

/-- A sequence of pushes leaves what it pushed on top of what the stack held, and changes
no other register. -/
theorem run_pushes (env : AsmEnvironment X) (program : List Instruction)
    (hpush : ∀ i ∈ program, isPush i = true) (c : Cpu X) {ws : List Word}
    (hws : c.mem.Holds (c.reg .rsp) ws) (hlen : 8 * (ws.length + program.length) ≤ 2 ^ 64) :
    (c.run env program).mem.Holds ((c.run env program).reg .rsp)
        ((program.map c.pushed).reverse ++ ws) ∧
      (c.run env program).reg .rsp = c.reg .rsp - BitVec.ofNat 64 (8 * program.length) ∧
      (∀ r, r ≠ .rsp → (c.run env program).reg r = c.reg r) ∧
      c.run env program =
        { c with reg := (c.run env program).reg, mem := (c.run env program).mem } := by
  induction program generalizing c ws with
  | nil => exact ⟨hws, by simp, fun _ _ => rfl, rfl⟩
  | cons i program ih =>
    simp only [List.length_cons] at hlen
    have hi := hpush i List.mem_cons_self
    have hfirst : (c.exec env i).mem.Holds ((c.exec env i).reg .rsp) (c.pushed i :: ws) := by
      rw [exec_of_isPush env c hi]
      rw [pushWord_rsp]
      exact hws.push (by omega) _
    have hreg : ∀ r, r ≠ .rsp → (c.exec env i).reg r = c.reg r := by
      intro r hr
      rw [exec_of_isPush env c hi, pushWord_reg c _ hr]
    have hpushed : ∀ j ∈ program, (c.exec env i).pushed j = c.pushed j := by
      intro j hj
      have hisPush := hpush j (List.mem_cons_of_mem _ hj)
      rw [exec_of_isPush env c hi]
      cases j with
      | push r => exact pushWord_reg c _ (bne_iff_ne.mp hisPush)
      | _ => rfl
    obtain ⟨hholds, hrsp, hother, hrest⟩ :=
      ih (fun j hj => hpush j (List.mem_cons_of_mem _ hj)) (c.exec env i) hfirst
        (by simp only [List.length_cons]; omega)
    refine ⟨?_, ?_, ?_, ?_⟩
    · rw [List.map_congr_left hpushed] at hholds
      simpa using hholds
    · rw [run_cons, hrsp, exec_of_isPush env c hi, pushWord_rsp, List.length_cons]
      bv_omega
    · intro r hr
      rw [run_cons, hother r hr, hreg r hr]
    · rw [run_cons, hrest, exec_of_isPush env c hi]
      rfl

theorem run_pushes_mem (env : AsmEnvironment X) (program : List Instruction)
    (hpush : ∀ i ∈ program, isPush i = true) (c : Cpu X) (hlen : 8 * program.length ≤ 2 ^ 64)
    {x : Word} (hx : ¬ InRange (c.reg .rsp - BitVec.ofNat 64 (8 * program.length))
      (8 * program.length) x) : (c.run env program).mem x = c.mem x := by
  induction program generalizing c with
  | nil => rfl
  | cons i program ih =>
    have hi := hpush i List.mem_cons_self
    simp only [List.length_cons] at hlen hx
    have hfirst : (c.exec env i).mem x = c.mem x := by
      rw [exec_of_isPush env c hi]
      refine ByteMemory.write_apply_of_not _ _ fun hin => hx ?_
      refine hin.mono ?_
      bv_omega
    rw [run_cons, ih (fun j hj => hpush j (List.mem_cons_of_mem _ hj)) _ (by omega), hfirst]
    intro hin
    apply hx
    rw [exec_of_isPush env c hi, pushWord_rsp] at hin
    refine hin.mono ?_
    bv_omega

/-- A register file after loading registers in order. -/
def loadAll (fields : List (Reg × Word)) (file : Reg → Word) : Reg → Word :=
  fields.foldl (fun file field => Function.update file field.1 field.2) file

theorem loadAll_cons (field : Reg × Word) (fields : List (Reg × Word)) (file : Reg → Word) :
    loadAll (field :: fields) file = loadAll fields (Function.update file field.1 field.2) := rfl

theorem loadAll_congr (fields : List (Reg × Word)) {file file' : Reg → Word} {q : Reg}
    (h : ∀ r, r ≠ q → file r = file' r) (r : Reg) (hr : r ≠ q) :
    loadAll fields file r = loadAll fields file' r := by
  induction fields generalizing file file' with
  | nil => exact h r hr
  | cons field fields ih =>
    rw [loadAll_cons, loadAll_cons]
    apply ih
    intro s hs
    rw [Function.update_apply, Function.update_apply, h s hs]

/-- A sequence of pops loads the words of the stack in order, so the last pop of a
register decides, and changes nothing else. -/
theorem run_pops (env : AsmEnvironment X) (rs : List Reg) (hrs : .rsp ∉ rs) (c : Cpu X) :
    (c.run env (rs.map .pop)).reg .rsp = c.reg .rsp + BitVec.ofNat 64 (8 * rs.length) ∧
      (∀ r, r ≠ .rsp → (c.run env (rs.map .pop)).reg r =
        loadAll (rs.zip (c.mem.words (c.reg .rsp) rs.length)) c.reg r) ∧
      c.run env (rs.map .pop) = { c with reg := (c.run env (rs.map .pop)).reg } := by
  induction rs generalizing c with
  | nil => exact ⟨by simp, fun _ _ => rfl, rfl⟩
  | cons q rs ih =>
    have hq : q ≠ .rsp := fun heq => hrs (heq ▸ List.mem_cons_self)
    obtain ⟨hrsp, hother, hrest⟩ :=
      ih (fun hmem => hrs (List.mem_cons_of_mem _ hmem)) (c.exec env (.pop q))
    have hnext : (c.exec env (.pop q)).reg .rsp = c.reg .rsp + 8 := by
      simp [exec, Ne.symm hq]
    refine ⟨?_, ?_, ?_⟩
    · rw [List.map_cons, run_cons, hrsp, hnext, List.length_cons]
      bv_omega
    · intro r hr
      rw [List.map_cons, run_cons, hother r hr, hnext, List.length_cons, ByteMemory.words,
        List.zip_cons_cons, loadAll_cons]
      -- the two starting files differ in RSP only
      refine loadAll_congr _ ?_ r hr
      intro s hs
      simp [exec, Function.update_apply, hs, read64]
    · rw [List.map_cons, run_cons, hrest]
      rfl

theorem loadAll_map (rs : List Reg) (file saved : Reg → Word) (r : Reg) :
    loadAll (rs.zip (rs.map saved)) file r = if r ∈ rs then saved r else file r := by
  induction rs generalizing file with
  | nil => simp [loadAll]
  | cons q rs ih =>
    rw [List.map_cons, List.zip_cons_cons, loadAll_cons, ih, Function.update_apply]
    by_cases hr : r ∈ rs
    · simp [hr]
    · by_cases hq : r = q
      · simp [hq]
      · simp [hr, hq]

/-- Pops load the registers that a stack holds, and leave the rest of it. -/
theorem run_restore (env : AsmEnvironment X) (rs : List Reg) (hrs : .rsp ∉ rs) {c : Cpu X}
    {saved : Reg → Word} {rest : List Word}
    (h : c.mem.Holds (c.reg .rsp) (rs.map saved ++ rest)) :
    let c' := c.run env (rs.map .pop)
    c'.mem.Holds (c'.reg .rsp) rest ∧
      c'.reg .rsp = c.reg .rsp + BitVec.ofNat 64 (8 * rs.length) ∧
      (∀ r, r ≠ .rsp → c'.reg r = if r ∈ rs then saved r else c.reg r) ∧
      c' = { c with reg := c'.reg } := by
  obtain ⟨hrsp, hreg, hrest⟩ := run_pops env rs hrs c
  have hwords := h.words_append
  rw [List.length_map] at hwords
  rw [hwords] at hreg
  refine ⟨?_, hrsp, ?_, hrest⟩
  · rw [hrsp, hrest]
    have hright := h.append_right
    rwa [List.length_map] at hright
  · intro r hr
    rw [hreg r hr, loadAll_map]

end Cpu

end NovaHypervisor

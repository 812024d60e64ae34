import NovaHypervisor.AsmHypervVmcall

/-!
What forwarding a hypercall does to the guest's registers, to the caller's and to memory.
The caller's registers are on the stack before the hypervisor is called, below them two
pointers and then its two results, and each way through the stack finds them again.
-/
namespace NovaHypervisor

open General

namespace Cpu

variable {X : Type*} {env : AsmEnvironment X}

/-- What is on the stack when the VMCALL is executed, up to the return address. -/
def hypervStack (c : Cpu X) : List Word :=
  c.reg .rcx :: c.reg .rdx :: (poppedRegs.map c.reg ++ [c.rflags, c.read64 (c.reg .rsp)])

theorem length_hypervStack (c : Cpu X) : c.hypervStack.length = 20 := rfl

theorem atHypervisor_stack (env : AsmEnvironment X) (c : Cpu X) :
    (c.atHypervisor env).mem.Holds (c.reg .rsp - 0x98) c.hypervStack := by
  obtain ⟨hrsp, hother, hpushed, _⟩ := run_hypervPush env c
  have hcx := hother .rcx (by decide)
  rw [atHypervisor, run_append, run_append]
  generalize c.run env hypervPush = saved at *
  obtain ⟨hloads, _⟩ := run_hypervInputs env saved
  generalize saved.run env hypervInputs = loaded at *
  have hreg : loaded.reg = saved.reg := by rw [hloads]
  have hbytes : loaded.mem = saved.mem := by rw [hloads]
  obtain ⟨_, hmem, _⟩ := run_hypervUnpack env loaded
  have htop : c.reg .rsp - 0x98 = saved.reg .rsp - 8 := by
    rw [hrsp]
    bv_omega
  rw [hmem, hreg, hbytes, hcx, htop]
  exact hpushed.push (by simp [poppedRegs]) (c.reg .rcx)

theorem loadAll_zip_map (f : Reg → Word) (rs : List Reg) (file : Reg → Word) {r : Reg}
    (hr : r ∈ rs) : loadAll (rs.zip (rs.map f)) file r = f r := by
  induction rs generalizing file with
  | nil => exact absurd hr List.not_mem_nil
  | cons q rs ih =>
    rw [List.map_cons, List.zip_cons_cons, loadAll_cons]
    by_cases hmore : r ∈ rs
    · exact ih _ hmore
    · obtain rfl : r = q := (List.mem_cons.mp hr).resolve_right hmore
      have hkept : ∀ (fields : List (Reg × Word)) (file : Reg → Word),
          (∀ field ∈ fields, field.1 ≠ r) → loadAll fields file r = file r := by
        intro fields
        induction fields with
        | nil => exact fun _ _ => rfl
        | cons field fields ih =>
          intro file hne
          rw [loadAll_cons, ih _ fun field hfield => hne field (List.mem_cons_of_mem _ hfield)]
          exact Function.update_of_ne (hne field List.mem_cons_self).symm _ _
      rw [hkept, Function.update_self]
      intro field hfield heq
      exact hmore (heq ▸ (List.of_mem_zip hfield).1)

theorem run_hypervResults (env : AsmEnvironment X) {c : Cpu X} {rcx rax registers : Word}
    {ws : List Word} (h : c.mem.Holds (c.reg .rsp) (rcx :: rax :: registers :: ws))
    (hapart : Apart (c.reg .rsp) 8 registers guestRegsSize) :
    (c.run env hypervResults).reg .rsp = c.reg .rsp ∧
      (c.run env hypervResults).mem = (((c.mem.write (n := 8) registers rax).write (n := 8)
        (registers + 0x08) rcx).write (n := 8) (registers + 0x10) (c.reg .rdx)).write (n := 8)
          (registers + 0x40) (c.reg .r8) := by
  obtain ⟨hrcx, hrax, hregisters, _⟩ := h
  have hsum : c.reg .rsp + 8 + 8 = c.reg .rsp + 0x10#64 := BitVec.add_assoc _ 8 8
  rw [hsum] at hregisters
  have hrax' : c.mem.read (c.reg .rsp + 0x08#64) 8 = rax := hrax
  have hkept : (c.mem.write (n := 8) registers rax).read (c.reg .rsp) 8 = rcx := by
    rw [ByteMemory.read_write_of_apart (by decide), hrcx]
    intro x hx hin
    exact hapart x hx (hin.mono (by simp [guestRegsSize]))
  refine ⟨?_, ?_⟩
  · simp [hypervResults, exec]
  · simp [hypervResults, exec, read64, hregisters, hrax', hkept]

theorem run_popfq_ret (env : AsmEnvironment X) (c : Cpu X) :
    (c.run env [.popfq, .ret]).reg = Function.update c.reg .rsp (c.reg .rsp + 0x10) ∧
      (c.run env [.popfq, .ret]).rflags = c.mem.read (c.reg .rsp) 8 ∧
      (c.run env [.popfq, .ret]).rip = c.mem.read (c.reg .rsp + 8) 8 := by
  have hpopfq : (c.exec env .popfq).reg = Function.update c.reg .rsp (c.reg .rsp + 8) := rfl
  have hrsp : (c.exec env .popfq).reg .rsp = c.reg .rsp + 8 := by
    rw [hpopfq, Function.update_self]
  have hreg : (c.run env [.popfq, .ret]).reg =
      Function.update (c.exec env .popfq).reg .rsp ((c.exec env .popfq).reg .rsp + 8) := rfl
  have hrip : (c.run env [.popfq, .ret]).rip = c.mem.read ((c.exec env .popfq).reg .rsp) 8 := rfl
  refine ⟨?_, rfl, by rw [hrip, hrsp]⟩
  rw [hreg, hrsp, hpopfq, Function.update_idem, BitVec.add_assoc]
  rfl

/-- The way back finds the caller's registers above the pointers and the results. -/
theorem run_hypervPop (env : AsmEnvironment X) {c : Cpu X} {rcx rax registers frame : Word}
    {f : Reg → Word} {rflags address : Word}
    (h : c.mem.Holds (c.reg .rsp)
      (rcx :: rax :: registers :: frame :: (poppedRegs.map f ++ [rflags, address]))) :
    let c' := c.run env hypervPop
    (∀ r, r ≠ .rsp → c'.reg r = f r) ∧ c'.reg .rsp = c.reg .rsp + 0xB0 ∧
      c'.rflags = rflags ∧ c'.rip = address ∧ c'.mem = c.mem := by
  have hreads : ∀ i ∈ hypervPop, writesMemory i = false := by decide
  have hmem := run_mem_of_reads env hreads c
  obtain ⟨_, _, _, _, hsaved⟩ := h
  have hrun : c.run env hypervPop = ((c.run env [.add .rsp 0x10, .pop .rcx, .add .rsp 0x08]).run
      env (poppedRegs.map .pop)).run env [.popfq, .ret] := by
    rw [hypervPop, run_append, run_append]
  rw [hrun] at hmem ⊢
  have htop : (c.run env [.add .rsp 0x10, .pop .rcx, .add .rsp 0x08]).reg .rsp =
      c.reg .rsp + 8 + 8 + 8 + 8 := by
    simp [exec, BitVec.add_assoc]
  have hbytes : (c.run env [.add .rsp 0x10, .pop .rcx, .add .rsp 0x08]).mem = c.mem :=
    run_mem_of_reads env (by decide) c
  rw [← htop, ← hbytes] at hsaved
  generalize c.run env [.add .rsp 0x10, .pop .rcx, .add .rsp 0x08] = above at *
  obtain ⟨hrsp, hother, hrest⟩ := run_pops env poppedRegs (by decide) above
  have hwords : above.mem.words (above.reg .rsp) poppedRegs.length = poppedRegs.map f := by
    have happend := ByteMemory.Holds.words_append hsaved
    rwa [List.length_map] at happend
  rw [hwords] at hother
  have hlength : BitVec.ofNat 64 (8 * poppedRegs.length) = 0x80#64 := by decide
  have htail := hsaved.append_right
  rw [List.length_map, hlength] at htail
  obtain ⟨hrflags, haddress, _⟩ := htail
  rw [hlength] at hrsp
  have hpopped : (above.run env (poppedRegs.map .pop)).mem = above.mem := by rw [hrest]
  have hlast : c.reg .rsp + 8 + 8 + 8 + 8 + 0x80#64 + 0x10 = c.reg .rsp + 0xB0 := by bv_omega
  generalize above.run env (poppedRegs.map .pop) = popped at *
  obtain ⟨hreg, hflags, hrip⟩ := run_popfq_ret env popped
  rw [hrsp] at hreg hflags hrip
  rw [hpopped] at hflags hrip
  refine ⟨?_, ?_, ?_, ?_, hmem⟩
  · intro r hr
    have hmember : r ∈ poppedRegs := by cases r <;> first | exact absurd rfl hr | decide
    rw [hreg, Function.update_of_ne hr, hother r hr,
      loadAll_zip_map f poppedRegs above.reg hmember]
  · rw [hreg, Function.update_self, htop, hlast]
  · rw [hflags, hrflags]
  · rw [hrip, haddress]

theorem guestRegsAt_results (m : ByteMemory) (a rax rcx rdx r8 : Word) :
    guestRegsAt ((((m.write (n := 8) a rax).write (n := 8) (a + 0x08) rcx).write (n := 8)
      (a + 0x10) rdx).write (n := 8) (a + 0x40) r8) a =
      { guestRegsAt m a with rax := rax, rcx := rcx, rdx := rdx, r8 := r8 } := by
  have hstore : ∀ {m : ByteMemory} {ws : List Word} {i : ℕ}, m.words a 16 = ws → i < 16 →
      ∀ w, (m.write (n := 8) (a + BitVec.ofNat 64 (8 * i)) w).words a 16 = ws.set i w := by
    intro m ws i h hi w
    rw [ByteMemory.words_write hi (by decide), h]
  have hrax := hstore (words_guestRegs m a) (i := 0) (by decide) rax
  have haddr : a + BitVec.ofNat 64 (8 * 0) = a := BitVec.add_zero a
  rw [haddr] at hrax
  have hrcx := hstore hrax (i := 1) (by decide) rcx
  have hrdx := hstore hrcx (i := 2) (by decide) rdx
  have hr8 := hstore hrdx (i := 8) (by decide) r8
  have hfields := (words_guestRegs _ a).symm.trans hr8
  simp only [List.set_cons_zero, List.set_cons_succ, List.cons.injEq, and_true] at hfields
  rw [GuestRegs.mk.injEq]
  exact hfields

/-- The guest's frame, the places of the saved registers and the stack of the call lie
apart, in memory that is kept. -/
structure CallFrames (kept : Word → Prop) (c : Cpu X) : Prop where
  stack : ∀ x, InRange (c.reg .rsp - 0xA8) 0xB0 x → kept x
  registers : ∀ x, InRange (c.reg .rcx) guestRegsSize x →
    kept x ∧ ¬ InRange (c.reg .rsp - 0xA8) 0xB0 x
  fxState : ∀ i ∈ fastXmm, ∀ x, InRange (c.reg .rdx + xmmOffset i) 16 x →
    kept x ∧ ¬ InRange (c.reg .rsp - 0xA8) 0xB0 x ∧ ¬ InRange (c.reg .rcx) guestRegsSize x

/-- The hypervisor that is called returns on the same stack and keeps the memory. -/
structure KeepsMemory (env : AsmEnvironment X) (kept : Word → Prop) (c : Cpu X) : Prop where
  rsp : (env.vmcall c).reg .rsp = c.reg .rsp
  mem : ∀ x, kept x → (env.vmcall c).mem x = c.mem x

/-- The routine shows the hypervisor the guest's registers and stores only its results. The
caller gets back its registers, its flags and its stack, without the return address. Of the extended
state the routine loads XMM0 to XMM5 only, and changes nothing on the way back. -/
structure Forwards (env : AsmEnvironment X) (kept : Word → Prop) (c : Cpu X) : Prop where
  presented : ∀ r, r ≠ .rsp →
    (c.atHypervisor env).reg r = r.field (guestRegsAt c.mem (c.reg .rcx))
  presentedXmm : ∀ i ∈ fastXmm, env.unit.xmm (c.atHypervisor env).extended i =
    c.mem.read (c.reg .rdx + xmmOffset i) 16
  registers : guestRegsAt (c.asmHypervVmcall env).mem (c.reg .rcx) =
    { guestRegsAt c.mem (c.reg .rcx) with
      rax := (env.vmcall (c.atHypervisor env)).reg .rax
      rcx := (env.vmcall (c.atHypervisor env)).reg .rcx
      rdx := (env.vmcall (c.atHypervisor env)).reg .rdx
      r8 := (env.vmcall (c.atHypervisor env)).reg .r8 }
  fxState : ∀ i ∈ fastXmm, (c.asmHypervVmcall env).mem.read (c.reg .rdx + xmmOffset i) 16 =
    c.returnedXmm env i
  memory : ∀ x, kept x → ¬ InRange (c.reg .rsp - 0xA8) 0xA8 x →
    ¬ InRange (c.reg .rcx) guestRegsSize x →
    (∀ i ∈ fastXmm, ¬ InRange (c.reg .rdx + xmmOffset i) 16 x) →
    (c.asmHypervVmcall env).mem x = c.mem x
  host : ∀ r, r ≠ .rsp → (c.asmHypervVmcall env).reg r = c.reg r
  rsp : (c.asmHypervVmcall env).reg .rsp = c.reg .rsp + 8
  rip : (c.asmHypervVmcall env).rip = c.read64 (c.reg .rsp)
  rflags : (c.asmHypervVmcall env).rflags = c.rflags
  presentedOther : ∀ i, i ∉ fastXmm →
    env.unit.xmm (c.atHypervisor env).extended i = env.unit.xmm c.extended i
  extended : (c.asmHypervVmcall env).extended = (env.vmcall (c.atHypervisor env)).extended

section Forward

variable {kept : Word → Prop} {c : Cpu X}

/-- At the VMCALL every register but RSP has the value of the guest's. -/
theorem CallFrames.presented (env : AsmEnvironment X) (h : c.CallFrames kept) :
    (∀ r, r ≠ .rsp →
        (c.atHypervisor env).reg r = r.field (guestRegsAt c.mem (c.reg .rcx))) ∧
      ∀ i ∈ fastXmm, env.unit.xmm (c.atHypervisor env).extended i =
        c.mem.read (c.reg .rdx + xmmOffset i) 16 := by
  obtain ⟨hrsp, hother, _, hpushed, _⟩ := run_hypervPush env c
  have hcx := hother .rcx (by decide)
  have hdx := hother .rdx (by decide)
  rw [atHypervisor, run_append, run_append]
  generalize c.run env hypervPush = saved at *
  obtain ⟨hloads, hxmm, _⟩ := run_hypervInputs env saved
  generalize saved.run env hypervInputs = loaded at *
  have hreg : loaded.reg = saved.reg := by rw [hloads]
  have hbytes : loaded.mem = saved.mem := by rw [hloads]
  have hframe : guestRegsAt loaded.mem (c.reg .rcx) = guestRegsAt c.mem (c.reg .rcx) := by
    rw [hbytes]
    refine guestRegsAt_congr fun x hx => hpushed x fun hin => (h.registers x hx).2 (hin.mono ?_)
    bv_omega
  have hlast : (loaded.mem.write (n := 8) (loaded.reg .rsp - 8) (loaded.reg .rcx)).read
      (c.reg .rcx + 0x08) 8 = loaded.mem.read (c.reg .rcx + 0x08) 8 := by
    apply ByteMemory.read_write_of_apart (by decide)
    intro x hx hin
    refine (h.registers x (hx.mono ?_)).2 ?_
    · simp only [guestRegsSize]
      bv_omega
    · rw [hreg, hrsp] at hin
      refine hin.mono ?_
      bv_omega
  refine ⟨?_, ?_⟩
  · intro r hr
    rw [← hframe, ← hcx, ← hreg]
    rw [← hcx, ← hreg] at hlast
    cases r with
    | rsp => exact absurd rfl hr
    | rcx =>
      -- the frame's pointer is pushed before it is replaced
      simpa [hypervUnpack, exec, pushWord, read64, Reg.field, guestRegsAt] using hlast
    | _ => simp [hypervUnpack, exec, pushWord, read64, Reg.field, guestRegsAt]
  · intro i hi
    have hextended : (loaded.run env hypervUnpack).extended = loaded.extended := rfl
    rw [hextended, hxmm i hi, hdx]
    refine ByteMemory.read_congr (by decide) fun x hx => hpushed x fun hin => ?_
    refine (h.fxState i hi x hx).2.1 (hin.mono ?_)
    bv_omega

/-- The way from the hypervisor to the caller, where the stack of the call, the guest's frame
and the places of the saved registers lie apart. -/
theorem run_hypervBack (env : AsmEnvironment X) {c : Cpu X} {registers frame : Word}
    {f : Reg → Word} {rflags address : Word}
    (h : c.mem.Holds (c.reg .rsp)
      (registers :: frame :: (poppedRegs.map f ++ [rflags, address])))
    (hregisters : ∀ x, InRange registers guestRegsSize x → ¬ InRange (c.reg .rsp - 0x10) 0xB0 x)
    (hframe : ∀ i ∈ fastXmm, ∀ x, InRange (frame + xmmOffset i) 16 x →
      ¬ InRange (c.reg .rsp - 0x10) 0xB0 x ∧ ¬ InRange registers guestRegsSize x) :
    let c' := c.run env (hypervRecover ++ hypervOutputs ++ hypervResults ++ hypervPop)
    guestRegsAt c'.mem registers = { guestRegsAt c.mem registers with
        rax := c.reg .rax, rcx := c.reg .rcx, rdx := c.reg .rdx, r8 := c.reg .r8 } ∧
      (∀ i ∈ fastXmm, c'.mem.read (frame + xmmOffset i) 16 = env.unit.xmm c.extended i) ∧
      (∀ x, ¬ InRange (c.reg .rsp - 0x10) 0x10 x → ¬ InRange registers guestRegsSize x →
        (∀ i ∈ fastXmm, ¬ InRange (frame + xmmOffset i) 16 x) → c'.mem x = c.mem x) ∧
      (∀ r, r ≠ .rsp → c'.reg r = f r) ∧ c'.reg .rsp = c.reg .rsp + 0xA0 ∧
      c'.rflags = rflags ∧ c'.rip = address ∧ c'.extended = c.extended := by
  obtain ⟨hrax, _, hrsp, hpushed, hextended, _, hholds, hother⟩ :=
    run_hypervRecover env h (by simp [poppedRegs])
  have hrdx := hother .rdx (by decide)
  have hr8 := hother .r8 (by decide)
  dsimp only
  rw [run_append, run_append, run_append]
  generalize c.run env hypervRecover = recovered at *
  obtain ⟨hrest, hstored, hslots⟩ := run_hypervOutputs env recovered
  have hreg : (recovered.run env hypervOutputs).reg = recovered.reg := by rw [hrest]
  have hunit : (recovered.run env hypervOutputs).extended = recovered.extended := by rw [hrest]
  generalize recovered.run env hypervOutputs = stored at *
  rw [hrax] at hstored hslots
  -- the stores of the XMM registers keep the stack
  have hstack : stored.mem.Holds (stored.reg .rsp) (c.reg .rcx :: c.reg .rax :: registers ::
      frame :: (poppedRegs.map f ++ [rflags, address])) := by
    rw [hreg]
    refine hholds.congr (by simp [poppedRegs]) fun x hx => hstored x fun i hi hin => ?_
    refine (hframe i hi x hin).1 ?_
    rw [hrsp] at hx
    exact hx
  have hstoredRsp : stored.reg .rsp = c.reg .rsp - 0x10 := by rw [hreg, hrsp]
  obtain ⟨hresultsRsp, hresultsMem⟩ := run_hypervResults env hstack (by
    intro x hx hin
    refine hregisters x hin (hx.mono ?_)
    rw [hstoredRsp]
    bv_omega)
  rw [hreg, hrdx, hr8] at hresultsMem
  have hresults := guestRegsAt_results stored.mem registers (c.reg .rax) (c.reg .rcx)
    (c.reg .rdx) (c.reg .r8)
  rw [← hresultsMem] at hresults
  have hread : stored.read64 (stored.reg .rsp + 0x10) = registers := by
    obtain ⟨_, _, hread, _⟩ := hstack
    rw [BitVec.add_assoc] at hread
    exact hread
  have hcopied : ∀ x, ¬ InRange registers guestRegsSize x →
      (stored.run env hypervResults).mem x = stored.mem x :=
    fun x hx => run_hypervResults_mem env hread hx
  have hcopiedUnit : (stored.run env hypervResults).extended = stored.extended :=
    run_hypervResults_extended env stored
  generalize stored.run env hypervResults = copied at *
  have hsaved : copied.mem.Holds (copied.reg .rsp) (c.reg .rcx :: c.reg .rax :: registers ::
      frame :: (poppedRegs.map f ++ [rflags, address])) := by
    rw [hresultsRsp]
    refine hstack.congr (by simp [poppedRegs]) fun x hx => hcopied x fun hin => ?_
    rw [hstoredRsp] at hx
    exact hregisters x hin hx
  obtain ⟨hf, hlast, hflags, hrip, hback⟩ := run_hypervPop env hsaved
  have hbackUnit : (copied.run env hypervPop).extended = copied.extended :=
    run_hypervPop_extended env copied
  rw [hback]
  refine ⟨?_, ?_, ?_, hf, ?_, hflags, hrip, ?_⟩
  · have hbefore : guestRegsAt stored.mem registers = guestRegsAt c.mem registers := by
      refine guestRegsAt_congr fun x hx => ?_
      rw [hstored x fun i hi hin => (hframe i hi x hin).2 hx]
      exact hpushed x fun hin => hregisters x hx (hin.mono (by simp))
    rw [hresults, hbefore]
  · intro i hi
    rw [← hextended, ← hslots i hi]
    exact ByteMemory.read_congr (by decide) fun x hx => hcopied x (hframe i hi x hx).2
  · intro x hstackBytes hframeBytes hxmm
    rw [hcopied x hframeBytes, hstored x hxmm, hpushed x hstackBytes]
  · rw [hlast, hresultsRsp, hstoredRsp]
    bv_omega
  · rw [hbackUnit, hcopiedUnit, hunit, hextended]

theorem asmHypervVmcall_forwards (hkeeps : KeepsMemory env kept (c.atHypervisor env))
    (h : c.CallFrames kept) : c.Forwards env kept := by
  obtain ⟨hpresented, hpresentedXmm⟩ := h.presented env
  obtain ⟨hrsp, _, hmem, _, hpresentedOther⟩ := atHypervisor_spec env c
  have hreturnedRsp : (env.vmcall (c.atHypervisor env)).reg .rsp = c.reg .rsp - 0x98 :=
    hkeeps.rsp.trans hrsp
  have hreturned : (env.vmcall (c.atHypervisor env)).mem.Holds
      ((env.vmcall (c.atHypervisor env)).reg .rsp) c.hypervStack := by
    rw [hreturnedRsp]
    refine (atHypervisor_stack env c).congr (by simp [length_hypervStack]) fun x hx =>
      hkeeps.mem x (h.stack x (hx.mono ?_))
    rw [length_hypervStack]
    bv_omega
  have hkept : ∀ x, kept x → ¬ InRange (c.reg .rsp - 0xA8) 0xA8 x →
      (env.vmcall (c.atHypervisor env)).mem x = c.mem x := by
    intro x hx hout
    rw [hkeeps.mem x hx, hmem]
    refine fun hin => hout (hin.mono ?_)
    bv_omega
  have hbottom : (env.vmcall (c.atHypervisor env)).reg .rsp - 0x10 = c.reg .rsp - 0xA8 := by
    rw [hreturnedRsp]
    bv_omega
  have hstack : ∀ x, InRange (c.reg .rsp - 0xA8) 0xA8 x → InRange (c.reg .rsp - 0xA8) 0xB0 x :=
    fun x hx => hx.mono (by simp)
  have hframe : guestRegsAt (env.vmcall (c.atHypervisor env)).mem (c.reg .rcx) =
      guestRegsAt c.mem (c.reg .rcx) :=
    guestRegsAt_congr fun x hx =>
      hkept x (h.registers x hx).1 fun hin => (h.registers x hx).2 (hstack x hin)
  obtain ⟨hregisters, hslots, hother, hhost, htop, hflags, hrip, hextended⟩ :=
    run_hypervBack env hreturned
      (by rw [hbottom]; exact fun x hx => (h.registers x hx).2)
      (by rw [hbottom]; exact fun i hi x hx => (h.fxState i hi x hx).2)
  rw [hframe] at hregisters
  refine ⟨hpresented, hpresentedXmm, hregisters, hslots, ?_, hhost, ?_, hrip, hflags,
    hpresentedOther, hextended⟩
  · intro x hx hout hregs hxmm
    rw [asmHypervVmcall, hother x ?_ hregs hxmm, hkept x hx hout]
    rw [hbottom]
    exact fun hin => hout (hin.mono (by simp))
  · rw [asmHypervVmcall, htop, hreturnedRsp]
    bv_omega

end Forward

/-- A caller with the frame and the saved state above its stack. -/
def hypercallCpu : Cpu (Fin 16 → BitVec 128) :=
  { offCpu with reg := fun r =>
      if r = .rsp then 0x17000 else if r = .rcx then 0x20000 else if r = .rdx then 0x30000 else 7 }

def answerEnvironment : AsmEnvironment (Fin 16 → BitVec 128) :=
  { offEnvironment with vmcall := fun c => (c.setReg .rax 0).setReg .r8 5 }

theorem asmHypervVmcall_forwards_answer :
    hypercallCpu.Forwards answerEnvironment fun _ => True := by
  refine asmHypervVmcall_forwards ⟨rfl, fun _ _ => rfl⟩ ⟨fun _ _ => trivial, ?_, ?_⟩
  · intro x hx
    refine ⟨trivial, ?_⟩
    simp only [InRange, hypercallCpu, guestRegsSize, reduceCtorEq, if_true, if_false] at hx ⊢
    bv_omega
  · intro i _ x hx
    have hlt := i.isLt
    refine ⟨trivial, ?_, ?_⟩
    · simp only [InRange, hypercallCpu, xmmOffset, reduceCtorEq, if_true, if_false] at hx ⊢
      bv_omega
    · simp only [InRange, hypercallCpu, xmmOffset, guestRegsSize, reduceCtorEq, if_true,
        if_false] at hx ⊢
      bv_omega

end Cpu

end NovaHypervisor

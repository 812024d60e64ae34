import NovaHypervisor.RegistersHandler
import Mathlib.Data.Fintype.Basic
import Mathlib.Tactic.FinCases

/-!
The accesses to control registers that the handler emulates. A value that is moved to a
control register and back arrives in the second register, and nothing else moves; an
access that is refused leaves everything as it was.
-/
namespace NovaHypervisor

open General Vmcs

theorem GuestRegs.get_set (registers : GuestRegs) (i j : Fin 16) (value : Word) :
    (registers.set i value).get j = if j = i then value else registers.get j := by
  fin_cases i <;> fin_cases j <;> rfl

namespace RegistersHandler

/-- The guest's general registers, with its RSP in the place of the frame's. -/
def generalRegister (registers : GuestRegs) (vmcs : Vmcs) (i : Fin 16) : Word :=
  if i = rspIndex then vmcs.vmread .guestRsp else registers.get i

theorem generalRegister_of_ne {i : Fin 16} (h : i ≠ rspIndex) (registers : GuestRegs)
    (vmcs : Vmcs) : generalRegister registers vmcs i = registers.get i := if_neg h

def crNumber (exitQualification : Word) : ℕ :=
  (MovCrQualification.controlRegister.get exitQualification).toNat

def movesToCr (exitQualification : Word) : Prop :=
  MovCrQualification.accessType.get exitQualification = typeMovToCr

def movesFromCr (exitQualification : Word) : Prop :=
  MovCrQualification.accessType.get exitQualification = typeMovFromCr

/-- The control registers that are emulated, and their fields. -/
def guestCr : List (ℕ × VmcsField) := [(0, .guestCr0), (3, .guestCr3), (4, .guestCr4)]

/-- Bit 63 of a value for CR3 asks for no flush and is not stored. -/
def crValue (controlRegister : ℕ) (value : Word) : Word :=
  if controlRegister = 3 then value &&& ~~~(1#64 <<< 63) else value

/-- The exit qualification describes a move to or from an emulated control register. -/
def IsCrMove (exitQualification : Word) : Prop :=
  (movesToCr exitQualification ∨ movesFromCr exitQualification) ∧
    crNumber exitQualification ∈ guestCr.map Prod.fst

/-- The registers after a move from the register `r` through a control register, whose
field is `cr`, to the register `s`. -/
structure MovedThrough (n : ℕ) (cr : VmcsField) (r s : Fin 16) (registers : GuestRegs)
    (vmcs : Vmcs) (registers' : GuestRegs) (vmcs' : Vmcs) : Prop where
  general : ∀ i, generalRegister registers' vmcs' i =
    if i = s then crValue n (generalRegister registers vmcs r)
    else generalRegister registers vmcs i
  slot : registers'.rsp = registers.rsp
  control : vmcs'.vmread cr = crValue n (generalRegister registers vmcs r)
  others : ∀ f ∈ guestCr.map Prod.snd, f ≠ cr → vmcs'.vmread f = vmcs.vmread f

theorem movToCr_of_not_mem {n : ℕ} (h : n ∉ guestCr.map Prod.fst) (value : Word) (vmcs : Vmcs) :
    movToCr n value vmcs = none := by
  unfold movToCr
  split
  · exact absurd (by decide) h
  · exact absurd (by decide) h
  · exact absurd (by decide) h
  · rfl

theorem movFromCr_of_not_mem {n : ℕ} (h : n ∉ guestCr.map Prod.fst) (vmcs : Vmcs) :
    movFromCr n vmcs = none := by
  unfold movFromCr
  split
  · exact absurd (by decide) h
  · exact absurd (by decide) h
  · exact absurd (by decide) h
  · rfl

/-- A store to a control register writes its field, and of the others a read shadow only. -/
theorem movToCr_spec {n : ℕ} {cr : VmcsField} (h : (n, cr) ∈ guestCr) (value : Word)
    (vmcs : Vmcs) :
    ∃ vmcs', movToCr n value vmcs = some vmcs' ∧ vmcs'.vmread cr = crValue n value ∧
      AgreeOutside [cr, .cr0ReadShadow, .cr4ReadShadow] vmcs vmcs' := by
  simp only [guestCr, List.mem_cons, Prod.mk.injEq, List.not_mem_nil, or_false] at h
  rcases h with ⟨rfl, rfl⟩ | ⟨rfl, rfl⟩ | ⟨rfl, rfl⟩
  · refine ⟨_, rfl, ?_, ?_⟩
    · rw [vmread_vmwrite_of_ne (by decide), vmread_vmwrite_self]
      exact BitVec.and_allOnes
    · exact ((AgreeOutside.refl _ _).vmwrite (by simp) _).vmwrite (by simp) _
  · refine ⟨_, rfl, ?_, (AgreeOutside.refl _ _).vmwrite (by simp) _⟩
    rw [vmread_vmwrite_self]
    exact BitVec.and_allOnes
  · refine ⟨_, rfl, ?_, ?_⟩
    · rw [vmread_vmwrite_of_ne (by decide), vmread_vmwrite_self]
      exact BitVec.and_allOnes
    · exact ((AgreeOutside.refl _ _).vmwrite (by simp) _).vmwrite (by simp) _

theorem movFromCr_spec {n : ℕ} {cr : VmcsField} (h : (n, cr) ∈ guestCr) (vmcs : Vmcs) :
    movFromCr n vmcs = some (vmcs.vmread cr) := by
  simp only [guestCr, List.mem_cons, Prod.mk.injEq, List.not_mem_nil, or_false] at h
  rcases h with ⟨rfl, rfl⟩ | ⟨rfl, rfl⟩ | ⟨rfl, rfl⟩ <;> rfl

section Access

variable (registers : GuestRegs) {vmcs : Vmcs}

theorem handleCRAccess_to (h : movesToCr (vmcs.vmread .exitQualification)) :
    handleCRAccess registers vmcs =
      match movToCr (crNumber (vmcs.vmread .exitQualification))
        (generalRegister registers vmcs (crRegister (vmcs.vmread .exitQualification))) vmcs with
      | none => (false, registers, vmcs)
      | some vmcs' => (true, registers, vmcs') := by
  have hle : ¬ typeMovToCr > typeMovFromCr := by decide
  simp only [handleCRAccess, crNumber, generalRegister]
  rw [movesToCr] at h
  rw [h, if_neg hle]
  exact if_pos rfl

theorem handleCRAccess_from (h : movesFromCr (vmcs.vmread .exitQualification)) :
    handleCRAccess registers vmcs =
      match movFromCr (crNumber (vmcs.vmread .exitQualification)) vmcs with
      | none => (false, registers, vmcs)
      | some value =>
        if crRegister (vmcs.vmread .exitQualification) = rspIndex then
          (true, registers, vmcs.vmwrite .guestRsp value)
        else (true, registers.set (crRegister (vmcs.vmread .exitQualification)) value, vmcs) := by
  have hle : ¬ typeMovFromCr > typeMovFromCr := by decide
  have hne : ¬ typeMovFromCr = typeMovToCr := by decide
  simp only [handleCRAccess, crNumber]
  rw [movesFromCr] at h
  rw [h, if_neg hle]
  exact if_neg hne

/-- The two other access types are refused. -/
theorem handleCRAccess_other (hto : ¬ movesToCr (vmcs.vmread .exitQualification))
    (hfrom : ¬ movesFromCr (vmcs.vmread .exitQualification)) :
    handleCRAccess registers vmcs = (false, registers, vmcs) := by
  have hgt : MovCrQualification.accessType.get (vmcs.vmread .exitQualification) >
      typeMovFromCr := by
    simp only [movesToCr, movesFromCr, typeMovToCr, typeMovFromCr] at hto hfrom ⊢
    bv_omega
  simp only [handleCRAccess]
  rw [if_pos hgt]

/-- An access to a control register that is not emulated is refused. -/
theorem handleCRAccess_notEmulated
    (h : crNumber (vmcs.vmread .exitQualification) ∉ guestCr.map Prod.fst) :
    handleCRAccess registers vmcs = (false, registers, vmcs) := by
  by_cases hto : movesToCr (vmcs.vmread .exitQualification)
  · rw [handleCRAccess_to registers hto, movToCr_of_not_mem h]
  by_cases hfrom : movesFromCr (vmcs.vmread .exitQualification)
  · rw [handleCRAccess_from _ hfrom, movFromCr_of_not_mem h]
  · exact handleCRAccess_other registers hto hfrom

theorem handleCRAccess_emulated (h : IsCrMove (vmcs.vmread .exitQualification)) :
    (handleCRAccess registers vmcs).1 = true := by
  obtain ⟨hmove, hnumber⟩ := h
  obtain ⟨⟨n, cr⟩, hmem, hn⟩ := List.mem_map.mp hnumber
  obtain rfl : n = crNumber (vmcs.vmread .exitQualification) := hn
  rcases hmove with hto | hfrom
  · obtain ⟨vmcs', hstore, -⟩ := movToCr_spec hmem
      (generalRegister registers vmcs (crRegister (vmcs.vmread .exitQualification))) vmcs
    rw [handleCRAccess_to registers hto, hstore]
  · rw [handleCRAccess_from _ hfrom, movFromCr_spec hmem]
    dsimp only
    split_ifs <;> rfl

/-- Every other access is refused, and nothing changes. -/
theorem handleCRAccess_refused (h : ¬ IsCrMove (vmcs.vmread .exitQualification)) :
    handleCRAccess registers vmcs = (false, registers, vmcs) := by
  by_cases hnumber : crNumber (vmcs.vmread .exitQualification) ∈ guestCr.map Prod.fst
  · apply handleCRAccess_other
    · exact fun hto => h ⟨Or.inl hto, hnumber⟩
    · exact fun hfrom => h ⟨Or.inr hfrom, hnumber⟩
  · exact handleCRAccess_notEmulated registers hnumber

end Access

/-- The guest's general and control registers are in these fields and in the frame. -/
def guestFields : List VmcsField := .guestRsp :: guestCr.map Prod.snd

theorem mem_guestFields {n : ℕ} {cr : VmcsField} (h : (n, cr) ∈ guestCr) : cr ∈ guestFields :=
  List.mem_cons_of_mem _ (List.mem_map_of_mem (f := Prod.snd) h)

/-- After the first move the control register has the value and no register has changed. -/
theorem moved_to (registers : GuestRegs) {vmcs : Vmcs} {n : ℕ} {cr : VmcsField}
    (hmem : (n, cr) ∈ guestCr) (hto : movesToCr (vmcs.vmread .exitQualification))
    (hn : crNumber (vmcs.vmread .exitQualification) = n) :
    ∃ vmcs', handleCRAccess registers vmcs = (true, registers, vmcs') ∧
      vmcs'.vmread cr = crValue n (generalRegister registers vmcs
        (crRegister (vmcs.vmread .exitQualification))) ∧
      ∀ f ∈ guestFields, f ≠ cr → vmcs'.vmread f = vmcs.vmread f := by
  obtain ⟨vmcs', hstore, hvalue, hframe⟩ := movToCr_spec hmem
    (generalRegister registers vmcs (crRegister (vmcs.vmread .exitQualification))) vmcs
  refine ⟨vmcs', ?_, hvalue, ?_⟩
  · rw [handleCRAccess_to registers hto, hn, hstore]
  · intro f hf hne
    have hshadow : ∀ g ∈ guestFields, g ≠ .cr0ReadShadow ∧ g ≠ .cr4ReadShadow := by decide
    apply hframe
    simp [hne, hshadow f hf]

/-- A value moved to a control register and from there to a register. -/
theorem moved_through {registers : GuestRegs} {vmcs vmcs' : Vmcs} {n : ℕ} {cr : VmcsField}
    (hmem : (n, cr) ∈ guestCr) (hto : movesToCr (vmcs.vmread .exitQualification))
    (hn : crNumber (vmcs.vmread .exitQualification) = n)
    (hbetween : ∀ f ∈ guestFields,
      vmcs'.vmread f = (handleCRAccess registers vmcs).2.2.vmread f)
    (hfrom : movesFromCr (vmcs'.vmread .exitQualification))
    (hn' : crNumber (vmcs'.vmread .exitQualification) = n) :
    MovedThrough n cr (crRegister (vmcs.vmread .exitQualification))
      (crRegister (vmcs'.vmread .exitQualification)) registers vmcs
      (handleCRAccess (handleCRAccess registers vmcs).2.1 vmcs').2.1
      (handleCRAccess (handleCRAccess registers vmcs).2.1 vmcs').2.2 := by
  obtain ⟨vmcs₁, hfirst, hvalue, hframe⟩ := moved_to registers hmem hto hn
  generalize crRegister (vmcs.vmread .exitQualification) = r at hvalue ⊢
  generalize hs : crRegister (vmcs'.vmread .exitQualification) = s
  have hne : cr ≠ .guestRsp := by
    rintro rfl
    simp [guestCr] at hmem
  have hcr : vmcs'.vmread cr = crValue n (generalRegister registers vmcs r) := by
    rw [hbetween cr (mem_guestFields hmem), hfirst, hvalue]
  have hother : ∀ f ∈ guestFields, f ≠ cr → vmcs'.vmread f = vmcs.vmread f := by
    intro f hf hf'
    rw [hbetween f hf, hfirst, hframe f hf hf']
  rw [hfirst, handleCRAccess_from _ hfrom, hn', movFromCr_spec hmem, hs]
  dsimp only
  rw [hcr]
  have hrsp := hother .guestRsp (by decide) hne.symm
  by_cases hrspIndex : s = rspIndex
  · rw [if_pos hrspIndex]
    refine ⟨?_, rfl, ?_, ?_⟩
    · intro i
      by_cases hi : i = s
      · rw [generalRegister, if_pos (hi.trans hrspIndex), if_pos hi, vmread_vmwrite_self]
        exact BitVec.and_allOnes
      · have hi' : i ≠ rspIndex := fun h => hi (h.trans hrspIndex.symm)
        rw [generalRegister_of_ne hi', if_neg hi, generalRegister_of_ne hi']
    · rw [vmread_vmwrite_of_ne hne, hcr]
    · intro f hf hf'
      have hmemRsp : f ≠ .guestRsp := by
        rintro rfl
        revert hf
        decide
      rw [vmread_vmwrite_of_ne hmemRsp, hother f (List.mem_cons_of_mem _ hf) hf']
  · rw [if_neg hrspIndex]
    refine ⟨?_, ?_, hcr, ?_⟩
    · intro i
      by_cases hi : i = rspIndex
      · have his : i ≠ s := fun h => hrspIndex (h.symm.trans hi)
        rw [generalRegister, if_pos hi, if_neg his, hrsp, generalRegister, if_pos hi]
      · rw [generalRegister_of_ne hi, GuestRegs.get_set, generalRegister_of_ne hi registers vmcs]
    · have hslot := GuestRegs.get_set registers s rspIndex
        (crValue n (generalRegister registers vmcs r))
      rw [if_neg (Ne.symm hrspIndex)] at hslot
      exact hslot
    · intro f hf hf'
      exact hother f (List.mem_cons_of_mem _ hf) hf'

/-- The accesses to control registers: which are emulated, that the others change nothing,
and that a value comes back as it was stored. -/
theorem crAccess_correct (registers : GuestRegs) (vmcs : Vmcs) :
    ((handleCRAccess registers vmcs).1 = true ↔ IsCrMove (vmcs.vmread .exitQualification)) ∧
      ((handleCRAccess registers vmcs).1 = false →
        (handleCRAccess registers vmcs).2 = (registers, vmcs)) ∧
      ∀ n cr, (n, cr) ∈ guestCr → movesToCr (vmcs.vmread .exitQualification) →
        crNumber (vmcs.vmread .exitQualification) = n →
        ∀ vmcs' : Vmcs, (∀ f ∈ guestFields,
            vmcs'.vmread f = (handleCRAccess registers vmcs).2.2.vmread f) →
          movesFromCr (vmcs'.vmread .exitQualification) →
          crNumber (vmcs'.vmread .exitQualification) = n →
          MovedThrough n cr (crRegister (vmcs.vmread .exitQualification))
            (crRegister (vmcs'.vmread .exitQualification)) registers vmcs
            (handleCRAccess (handleCRAccess registers vmcs).2.1 vmcs').2.1
            (handleCRAccess (handleCRAccess registers vmcs).2.1 vmcs').2.2 := by
  by_cases hmove : IsCrMove (vmcs.vmread .exitQualification)
  · have htrue := handleCRAccess_emulated registers hmove
    refine ⟨iff_of_true htrue hmove, ?_, ?_⟩
    · rw [htrue]
      exact fun h => absurd h (by decide)
    · intro n cr hmem hto hn vmcs' hbetween hfrom hn'
      exact moved_through hmem hto hn hbetween hfrom hn'
  · have hrefused := handleCRAccess_refused registers hmove
    refine ⟨?_, ?_, ?_⟩
    · rw [hrefused]
      exact iff_of_false Bool.false_ne_true hmove
    · rw [hrefused]
      exact fun _ => rfl
    · intro n cr hmem hto hn
      refine absurd ⟨Or.inl hto, ?_⟩ hmove
      rw [hn]
      exact List.mem_map_of_mem (f := Prod.fst) hmem

/-- A VMCS at an access to a control register. -/
def crExit (exitQualification cr3 : Word) : Vmcs :=
  ⟨fun f => if f = .exitQualification then exitQualification
    else if f = .guestCr3 then cr3 else 0⟩

/-- Registers of which RBX has bit 63 set. -/
def crRegisters (rax : Word) : GuestRegs :=
  ⟨rax, 2, 3, 0x80000000001AA000, 5, 6, 7, 8, 9, 10, 11, 12, 13, 14, 15, 16⟩

/-- MOV CR3, RBX and then MOV RAX, CR3. -/
theorem crAccess_correct_cr3 :
    MovedThrough 3 .guestCr3 3 0 (crRegisters 1) (crExit 0x303#64 0) (crRegisters 0x1AA000)
      (crExit 0x13#64 0x1AA000#64) :=
  (crAccess_correct (crRegisters 1) (crExit 0x303#64 0)).2.2 3 .guestCr3 (by decide)
    (by unfold movesToCr; decide) (by decide) (crExit 0x13#64 0x1AA000#64) (by decide)
    (by unfold movesFromCr; decide) (by decide)

end RegistersHandler

end NovaHypervisor

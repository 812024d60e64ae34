import NovaHypervisor.General.Cache
import NovaHypervisor.Rearm

/-!
A processor that runs its guest under the page table. An instruction accesses
memory through translations that the processor may have cached; an access that
its translation does not grant is an EPT violation, and the instruction is tried
again after it unless a page fault was injected. The monitor trap flag exits when
an instruction ends. The cached translations go with the INVEPTs of the handlers.
-/
namespace NovaHypervisor

open General

/-- An access of an instruction, with the bits of its qualification that no handler reads. -/
structure GuestAccess where
  guestPhysicalAddr : Word
  guestLinearAddress : Word
  read : Bool
  write : Bool
  execute : Bool
  userMode : Bool
  otherBits : Word

namespace GuestAccess

def GrantedBy (access : GuestAccess) (t : Translation) : Prop :=
  (access.read = true → t.read ≠ 0) ∧ (access.write = true → t.write ≠ 0) ∧
    (access.execute = true → t.execute ≠ 0)

instance (access : GuestAccess) (t : Translation) : Decidable (access.GrantedBy t) :=
  inferInstanceAs (Decidable (_ ∧ _ ∧ _))

def bit (b : Bool) : Word := if b then 1 else 0

/-- The exit qualification of the violation that the access is under a translation. -/
def qualification (access : GuestAccess) (t : Translation) : Word :=
  let flags := EptViolation.readAccess.set access.otherBits (bit access.read)
  let flags := EptViolation.writeAccess.set flags (bit access.write)
  let flags := EptViolation.executeAccess.set flags (bit access.execute)
  let flags := EptViolation.eptReadable.set flags (bit (t.read ≠ 0))
  let flags := EptViolation.eptWriteable.set flags (bit (t.write ≠ 0))
  let flags := EptViolation.eptExecutable.set flags (bit (t.execute ≠ 0))
  EptViolation.userModeLinearAddress.set flags (bit access.userMode)

theorem bit_eq_zero_iff (b : Bool) : bit b &&& 1#64 = 0 ↔ b = false := by
  cases b <;> decide

theorem qualification_fields (access : GuestAccess) (t : Translation) :
    (EptViolation.readAccess.get (access.qualification t) = 0 ↔ access.read = false) ∧
    (EptViolation.writeAccess.get (access.qualification t) = 0 ↔ access.write = false) ∧
    (EptViolation.executeAccess.get (access.qualification t) = 0 ↔ access.execute = false) ∧
    (EptViolation.eptReadable.get (access.qualification t) = 0 ↔ t.read = 0) ∧
    (EptViolation.eptWriteable.get (access.qualification t) = 0 ↔ t.write = 0) ∧
    (EptViolation.eptExecutable.get (access.qualification t) = 0 ↔ t.execute = 0) ∧
    (EptViolation.userModeLinearAddress.get (access.qualification t) = 0 ↔
      access.userMode = false) := by
  refine ⟨?_, ?_, ?_, ?_, ?_, ?_, ?_⟩ <;>
    simp (disch := decide) only [qualification, BitField.get_set_of_disjoint,
      BitField.get_set_self] <;>
    refine (bit_eq_zero_iff _).trans ?_ <;>
    simp

/-- The handler finds a denied right exactly in the accesses that are not granted. -/
theorem deniedAccess_qualification (access : GuestAccess) (t : Translation) :
    EptViolation.deniedAccess (access.qualification t) = none ↔ access.GrantedBy t := by
  obtain ⟨hread, hwrite, hexecute, hreadable, hwriteable, hexecutable, _⟩ :=
    access.qualification_fields t
  have hfalse : ∀ b : Bool, ¬ b = false ↔ b = true := fun b => by cases b <;> simp
  simp only [EptViolation.deniedAccess, ne_eq, hread, hwrite, hexecute, hreadable, hwriteable,
    hexecutable, GrantedBy, hfalse]
  constructor
  · intro hnone
    split at hnone
    · simp at hnone
    split at hnone
    · simp at hnone
    split at hnone
    · simp at hnone
    rename_i hx hw hr
    exact ⟨fun h hzero => hr ⟨hzero, h⟩, fun h hzero => hw ⟨hzero, h⟩,
      fun h hzero => hx ⟨hzero, h⟩⟩
  · intro hgranted
    obtain ⟨hr, hw, hx⟩ := hgranted
    rw [if_neg fun h => hx h.2 h.1, if_neg fun h => hw h.2 h.1, if_neg fun h => hr h.2 h.1]

/-- The error code of the page fault names the access: present, write, user mode, fetch. -/
theorem pageFaultErrorCode_qualification (access : GuestAccess) (t : Translation) :
    EptViolation.pageFaultErrorCode (access.qualification t) =
      1#32 ||| (if access.write then 2#32 else 0) ||| (if access.userMode then 4#32 else 0) |||
        (if access.execute then 16#32 else 0) := by
  obtain ⟨_, hwrite, hexecute, _, _, _, huser⟩ := access.qualification_fields t
  simp only [EptViolation.pageFaultErrorCode, ne_eq, hwrite, hexecute, huser]
  cases access.write <;> cases access.userMode <;> cases access.execute <;> rfl

end GuestAccess

/-- Nothing is mapped above 512GB. -/
def Translation.absent : Translation := ⟨0, 0, 0, 0, 0⟩

structure GuestCpu (Caller : Type*) where
  machine : Machine Caller
  eptPointer : Word
  /-- The translations of the page table that the processor has cached, by page. -/
  tlb : Cache Word Translation
  guestRip : Option Word

inductive GuestAction (Caller : Type*) where
  | fetch (guestRip : Word)
  | access (access : GuestAccess)
  | retire
  | vmcall (vmcallNumber optionalParam1 optionalParam2 : Word)
  | cache (guestPhysicalAddr : Word)
  | evict (guestPhysicalAddr : Word)
  | others (action : PoolAction Caller PoolBuffer)

namespace Machine

variable {Caller : Type*} [DecidableEq Caller]

def installs (os : Os) (targetFunc : Pvoid) (permissions : BitVec 8) (m : Machine Caller) : Bool :=
  match m.prepareHook os targetFunc permissions with
  | some (.ready _ _ _, m') => (m'.allocate os .eptHookPage).1.isSome
  | _ => false

/-- `InvalidateEpt` with a context reaches the table of that pointer, without one all. -/
def invalidateEpt (eptPointer context : Word) : Bool := context = 0 || context = eptPointer

/-- The INVEPTs that `VmcallHandler` comes to: `SetPML1AndInvalidateTLB` of the hook, which
stores without it before the launch, that of each unhooked record, and its own two calls. -/
def vmcallInvalidates (os : Os) (eptPointer vmcallNumber optionalParam1 optionalParam2 : Word)
    (m : Machine Caller) : Bool :=
  match vmcallNumber.toNat with
  | 3 => optionalParam1 ≠ 0 && m.installs os optionalParam1 (optionalParam2.setWidth 8) &&
      m.guest.isLaunched && invalidateEpt eptPointer eptPointer
  | 4 => invalidateEpt eptPointer optionalParam1
  | 5 => invalidateEpt eptPointer 0
  | 6 => optionalParam1 ≠ 0 && m.guest.isOnVmxRoot && (m.getHookedPage optionalParam1).isSome &&
      invalidateEpt eptPointer eptPointer
  | 7 => m.guest.isOnVmxRoot && !m.ept.hookedPages.isEmpty && invalidateEpt eptPointer eptPointer
  | _ => false

/-- Whether the handler of an exit invalidates what is cached of the processor's table. -/
def exitInvalidates (os : Os) (kernelBaseInfo : KernelBaseInfo) (eptPointer : Word)
    (m : Machine Caller) : VmExit → Bool
  | .eptViolation exitQualification guestPhysicalAddr _ guestRip =>
    (m.opened kernelBaseInfo exitQualification guestPhysicalAddr guestRip).isSome &&
      invalidateEpt eptPointer eptPointer
  | .monitorTrapFlag => m.guest.hookedPage.isSome && invalidateEpt eptPointer eptPointer
  | .vmcall vmcallNumber optionalParam1 optionalParam2 =>
    m.enterRoot.vmcallInvalidates os eptPointer vmcallNumber optionalParam1 optionalParam2

omit [DecidableEq Caller] in
@[simp] theorem invalidateEpt_self (eptPointer : Word) : invalidateEpt eptPointer eptPointer := by
  simp [invalidateEpt]

end Machine

namespace GuestCpu

variable {Caller : Type*} [DecidableEq Caller]

def translation (os : Os) (guestPhysicalAddr : Word) (s : GuestCpu Caller) : Option Translation :=
  if 2 ^ 39 ≤ guestPhysicalAddr.toNat then some .absent
  else s.machine.ept.eptPageTable.map fun pageTable =>
    s.tlb.lookup (s.machine.translate os pageTable) (pageAlign guestPhysicalAddr)

def Completes (os : Os) (access : GuestAccess) (s : GuestCpu Caller) : Prop :=
  ∃ t, s.translation os access.guestPhysicalAddr = some t ∧ access.GrantedBy t

/-- Leave the guest, handle the exit and enter the guest again. -/
def exit (os : Os) (kernelBaseInfo : KernelBaseInfo) (exit : VmExit) (s : GuestCpu Caller) :
    Option (GuestCpu Caller) :=
  (s.machine.exitStep os kernelBaseInfo (.exit exit)).map fun machine =>
    { s with
      machine := machine
      tlb := if s.machine.exitInvalidates os kernelBaseInfo s.eptPointer exit then Cache.empty
        else s.tlb }

/-- A violation drops the translation that it is about. An injected page fault takes the
guest to another instruction; else the instruction is executing still. -/
def violate (os : Os) (kernelBaseInfo : KernelBaseInfo) (access : GuestAccess) (t : Translation)
    (guestRip : Word) (s : GuestCpu Caller) : Option (GuestCpu Caller) :=
  (exit os kernelBaseInfo (.eptViolation (access.qualification t) access.guestPhysicalAddr
    access.guestLinearAddress guestRip)
    { s with tlb := s.tlb.evict (pageAlign access.guestPhysicalAddr) }).map fun s =>
      { s with guestRip := if s.machine.guest.pendingInjection.isSome then none else s.guestRip }

def step (os : Os) (kernelBaseInfo : KernelBaseInfo) (s : GuestCpu Caller) :
    GuestAction Caller → Option (GuestCpu Caller)
  | .fetch guestRip =>
    if s.guestRip = none ∧ s.machine.guest.isLaunched = true then
      some { s with guestRip := some guestRip }
    else none
  | .access access =>
    s.guestRip.bind fun guestRip =>
      (s.translation os access.guestPhysicalAddr).bind fun t =>
        if access.GrantedBy t then some s else s.violate os kernelBaseInfo access t guestRip
  | .retire =>
    s.guestRip.bind fun _ =>
      (if s.machine.guest.monitorTrapFlag then s.exit os kernelBaseInfo .monitorTrapFlag
        else some s).map fun s => { s with guestRip := none }
  | .vmcall vmcallNumber optionalParam1 optionalParam2 =>
    s.guestRip.bind fun _ =>
      (s.exit os kernelBaseInfo (.vmcall vmcallNumber optionalParam1 optionalParam2)).map
        fun s => { s with guestRip := none }
  | .cache guestPhysicalAddr =>
    if s.machine.guest.isLaunched = true then
      s.machine.ept.eptPageTable.map fun pageTable =>
        { s with
          tlb := s.tlb.fill (pageAlign guestPhysicalAddr)
            (s.machine.translate os pageTable (pageAlign guestPhysicalAddr)) }
    else none
  | .evict guestPhysicalAddr =>
    some { s with tlb := s.tlb.evict (pageAlign guestPhysicalAddr) }
  | .others action =>
    (s.machine.othersStep os action).map fun machine => { s with machine := machine }

end GuestCpu

end NovaHypervisor

import NovaHypervisor.Definitions
import Mathlib.Logic.Function.Basic

/-!
The current VMCS of one processor, with the fields that the exit handler reads or
writes. The encoding of a field gives its width: a store to a 32-bit field keeps the
low half of the value, and a load fills the high half with zeros. The execution
control with the monitor trap flag is a field of the guest state, not of this record.
-/
namespace NovaHypervisor

open General

inductive VmcsField where
  | guestPhysicalAddress
  | vmEntryIntrInfoField
  | vmEntryExceptionErrorCode
  | vmEntryInstructionLen
  | vmExitReason
  | vmExitIntrInfo
  | vmExitIntrErrorCode
  | idtVectoringInfoField
  | idtVectoringErrorCode
  | vmExitInstructionLen
  | cr0ReadShadow
  | cr4ReadShadow
  | exitQualification
  | guestLinearAddress
  | guestCr0
  | guestCr3
  | guestCr4
  | guestRsp
  | guestRip
  | guestRflags
  deriving DecidableEq

namespace VmcsField

def encoding : VmcsField → BitVec 32
  | guestPhysicalAddress => 0x2400#32
  | vmEntryIntrInfoField => 0x4016#32
  | vmEntryExceptionErrorCode => 0x4018#32
  | vmEntryInstructionLen => 0x401A#32
  | vmExitReason => 0x4402#32
  | vmExitIntrInfo => 0x4404#32
  | vmExitIntrErrorCode => 0x4406#32
  | idtVectoringInfoField => 0x4408#32
  | idtVectoringErrorCode => 0x440A#32
  | vmExitInstructionLen => 0x440C#32
  | cr0ReadShadow => 0x6004#32
  | cr4ReadShadow => 0x6006#32
  | exitQualification => 0x6400#32
  | guestLinearAddress => 0x640A#32
  | guestCr0 => 0x6800#32
  | guestCr3 => 0x6802#32
  | guestCr4 => 0x6804#32
  | guestRsp => 0x681C#32
  | guestRip => 0x681E#32
  | guestRflags => 0x6820#32

/-- Bits 14:13 of an encoding are 2 for the 32-bit fields. -/
def mask (f : VmcsField) : Word :=
  if (f.encoding >>> 13) &&& 3#32 = 2#32 then 0xFFFFFFFF#64 else BitVec.allOnes 64

end VmcsField

structure Vmcs where
  field : VmcsField → Word

namespace Vmcs

def vmread (vmcs : Vmcs) (f : VmcsField) : Word := vmcs.field f &&& f.mask

def vmwrite (f : VmcsField) (value : Word) (vmcs : Vmcs) : Vmcs :=
  ⟨Function.update vmcs.field f (value &&& f.mask)⟩

@[simp] theorem vmread_vmwrite_self (f : VmcsField) (value : Word) (vmcs : Vmcs) :
    (vmcs.vmwrite f value).vmread f = value &&& f.mask := by
  simp only [vmread, vmwrite, Function.update_self, BitVec.and_assoc, BitVec.and_self]

theorem vmread_vmwrite_of_ne {f g : VmcsField} (h : g ≠ f) (value : Word) (vmcs : Vmcs) :
    (vmcs.vmwrite f value).vmread g = vmcs.vmread g := by
  simp only [vmread, vmwrite, Function.update_of_ne h]

theorem vmwrite_comm {f g : VmcsField} (h : f ≠ g) (value value' : Word) (vmcs : Vmcs) :
    (vmcs.vmwrite f value).vmwrite g value' = (vmcs.vmwrite g value').vmwrite f value := by
  simp only [vmwrite, Function.update_comm h]

/-- Storing what a load of a field of the same width gave loses nothing. -/
theorem vmread_and_mask (vmcs : Vmcs) {f g : VmcsField} (h : f.mask = g.mask) :
    vmcs.vmread f &&& g.mask = vmcs.vmread f := by
  rw [vmread, h, BitVec.and_assoc, BitVec.and_self]

/-- Two states of the VMCS that can only differ in the given fields. -/
def AgreeOutside (fields : List VmcsField) (vmcs vmcs' : Vmcs) : Prop :=
  ∀ f ∉ fields, vmcs'.vmread f = vmcs.vmread f

namespace AgreeOutside

variable {fields fields' : List VmcsField} {vmcs vmcs' vmcs'' : Vmcs}

theorem refl (fields : List VmcsField) (vmcs : Vmcs) : AgreeOutside fields vmcs vmcs :=
  fun _ _ => rfl

theorem trans (h : AgreeOutside fields vmcs vmcs') (h' : AgreeOutside fields vmcs' vmcs'') :
    AgreeOutside fields vmcs vmcs'' :=
  fun f hf => (h' f hf).trans (h f hf)

theorem mono (h : AgreeOutside fields vmcs vmcs') (hsub : fields ⊆ fields') :
    AgreeOutside fields' vmcs vmcs' :=
  fun f hf => h f (mt (@hsub f) hf)

theorem vmwrite {g : VmcsField} (h : AgreeOutside fields vmcs vmcs') (hg : g ∈ fields)
    (value : Word) : AgreeOutside fields vmcs (vmcs'.vmwrite g value) := by
  intro f hf
  have hne : f ≠ g := fun heq => hf (heq ▸ hg)
  rw [vmread_vmwrite_of_ne hne, h f hf]

end AgreeOutside

end Vmcs

/-- The general registers of the guest, in the order of the source's `GUEST_REGS`. -/
structure GuestRegs where
  rax : Word
  rcx : Word
  rdx : Word
  rbx : Word
  rsp : Word
  rbp : Word
  rsi : Word
  rdi : Word
  r8 : Word
  r9 : Word
  r10 : Word
  r11 : Word
  r12 : Word
  r13 : Word
  r14 : Word
  r15 : Word
  deriving DecidableEq

namespace GuestRegs

/-- The element of the frame at an index from `rax`. -/
def get (registers : GuestRegs) (index : Fin 16) : Word :=
  match index.val with
  | 0 => registers.rax
  | 1 => registers.rcx
  | 2 => registers.rdx
  | 3 => registers.rbx
  | 4 => registers.rsp
  | 5 => registers.rbp
  | 6 => registers.rsi
  | 7 => registers.rdi
  | 8 => registers.r8
  | 9 => registers.r9
  | 10 => registers.r10
  | 11 => registers.r11
  | 12 => registers.r12
  | 13 => registers.r13
  | 14 => registers.r14
  | _ => registers.r15

def set (registers : GuestRegs) (index : Fin 16) (value : Word) : GuestRegs :=
  match index.val with
  | 0 => { registers with rax := value }
  | 1 => { registers with rcx := value }
  | 2 => { registers with rdx := value }
  | 3 => { registers with rbx := value }
  | 4 => { registers with rsp := value }
  | 5 => { registers with rbp := value }
  | 6 => { registers with rsi := value }
  | 7 => { registers with rdi := value }
  | 8 => { registers with r8 := value }
  | 9 => { registers with r9 := value }
  | 10 => { registers with r10 := value }
  | 11 => { registers with r11 := value }
  | 12 => { registers with r12 := value }
  | 13 => { registers with r13 := value }
  | 14 => { registers with r14 := value }
  | _ => { registers with r15 := value }

end GuestRegs

end NovaHypervisor

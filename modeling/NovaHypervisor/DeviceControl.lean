import NovaHypervisor.Vmexit

/-!
The driver's requests on the processors of a system. The pool is shared; each
processor has its table, its hook list and its guest state. A broadcast runs its
worker once on every processor, in some order, while the pool's own threads and
every other caller rest. A request returns the status that it leaves in the IRP.
-/
namespace NovaHypervisor

structure Processor where
  ept : Ept
  guest : VmState

structure System (Caller : Type*) (n : ℕ) where
  pool : PoolState Caller PoolBuffer
  processors : Fin n → Processor

/-- The processors in the order in which a broadcast reaches them. -/
structure IpiOrder (n : ℕ) where
  processors : List (Fin n)
  nodup : processors.Nodup
  complete : ∀ i, i ∈ processors

structure HookedPage where
  permissions : BitVec 8
  address : Word

def sizeofHookedPage : BitVec 32 := 16
def sizeofUint64 : BitVec 32 := 8

/-- A request with the first two words of its buffer. -/
structure Irp where
  ioControlCode : BitVec 32
  inputBufferLength : BitVec 32
  systemBuffer : Word × Word

def Irp.hookedPage (irp : Irp) : HookedPage :=
  ⟨irp.systemBuffer.1.setWidth 8, irp.systemBuffer.2⟩

def Irp.protectedMemory (irp : Irp) : Word := irp.systemBuffer.1

def ioctlProtectAddressRange : BitVec 32 := 0x80002000#32
def ioctlUnprotectAddressRange : BitVec 32 := 0x80002004#32

def statusInvalidDeviceRequest : Ntstatus := 0xC0000010#32

def vmcallExecHookPage : Word := 3
def vmcallUnhookSinglePage : Word := 6

def validKernelmodeMemory (address : Word) : Bool :=
  address > 0x8000000000000000#64 && address < 0xFFFFFFFFFFFFFFFF#64

namespace Machine

variable {Caller : Type*} [DecidableEq Caller]

/-- A VMCALL, which faults on a processor that is not launched. -/
def asmVmxVmcall (os : Os) (kernelBaseInfo : KernelBaseInfo)
    (vmcallNumber optionalParam1 optionalParam2 : Word) (m : Machine Caller) :
    Option (Ntstatus × Machine Caller) :=
  if m.guest.isLaunched then
    (m.vmexitHandler os kernelBaseInfo
      (.vmcall vmcallNumber optionalParam1 optionalParam2)).bind fun (status, m) =>
        status.map fun status => (status, m)
  else none

/-- The worker of a request to protect a page. No context stands for a null one. -/
def hookPageByVmcall (os : Os) (kernelBaseInfo : KernelBaseInfo) (context : Option HookedPage)
    (m : Machine Caller) : Option (Ntstatus × Machine Caller) :=
  match context with
  | none => some (statusInvalidParameter, m)
  | some hookedPage =>
    m.asmVmxVmcall os kernelBaseInfo vmcallExecHookPage hookedPage.address
      (hookedPage.permissions.setWidth 64)

def unhookPageByVmcall (os : Os) (kernelBaseInfo : KernelBaseInfo) (context : Word)
    (m : Machine Caller) : Option (Ntstatus × Machine Caller) :=
  if context = 0 then some (statusInvalidParameter, m)
  else m.asmVmxVmcall os kernelBaseInfo vmcallUnhookSinglePage context 0

end Machine

namespace System

variable {Caller : Type*} {n : ℕ}

/-- A processor with the pool to itself. -/
def machine (s : System Caller n) (i : Fin n) : Machine Caller where
  pool := ⟨s.pool, []⟩
  ept := (s.processors i).ept
  guest := (s.processors i).guest
  history := []

def setMachine (s : System Caller n) (i : Fin n) (m : Machine Caller) : System Caller n where
  pool := m.pool.state
  processors := Function.update s.processors i ⟨m.ept, m.guest⟩

/-- Run the worker on the processors in turn and collect what it returns on each. -/
def broadcast (worker : Machine Caller → Option (Ntstatus × Machine Caller)) :
    List (Fin n) → (Fin n → Ntstatus) → System Caller n →
      Option ((Fin n → Ntstatus) × System Caller n)
  | [], results, s => some (results, s)
  | i :: order, results, s =>
    (worker (s.machine i)).bind fun (status, m) =>
      broadcast worker order (Function.update results i status) (s.setMachine i m)

/-- The result is that of the processor that started the broadcast. -/
def keIpiGenericCall (worker : Machine Caller → Option (Ntstatus × Machine Caller))
    (order : IpiOrder n) (initiator : Fin n) (s : System Caller n) :
    Option (Ntstatus × System Caller n) :=
  (broadcast worker order.processors (fun _ => statusSuccess) s).map fun (results, s) =>
    (results initiator, s)

variable [DecidableEq Caller]

def novaDeviceControl (os : Os) (kernelBaseInfo : KernelBaseInfo)
    (mmIsNonPagedSystemAddressValid : Pvoid → Bool) (order : IpiOrder n) (initiator : Fin n)
    (irp : Irp) (s : System Caller n) : Option (Ntstatus × System Caller n) :=
  if irp.ioControlCode = ioctlProtectAddressRange then
    if irp.inputBufferLength ≠ sizeofHookedPage then some (statusInvalidParameter, s)
    else
      let hookedPage := irp.hookedPage
      let alignedAddress := pageAlign hookedPage.address
      if !validKernelmodeMemory hookedPage.address ||
          !permissionsAccepted hookedPage.permissions ||
          !mmIsNonPagedSystemAddressValid alignedAddress then some (statusInvalidParameter, s)
      else
        s.keIpiGenericCall (fun m => m.hookPageByVmcall os kernelBaseInfo (some hookedPage))
          order initiator
  else if irp.ioControlCode = ioctlUnprotectAddressRange then
    if irp.inputBufferLength ≠ sizeofUint64 then some (statusInvalidParameter, s)
    else if !validKernelmodeMemory irp.protectedMemory then some (statusInvalidParameter, s)
    else
      s.keIpiGenericCall (fun m => m.unhookPageByVmcall os kernelBaseInfo irp.protectedMemory)
        order initiator
  else some (statusInvalidDeviceRequest, s)

end System

/-- A request to protect a page that passes every check of the driver. -/
structure Irp.Valid (mmIsNonPagedSystemAddressValid : Pvoid → Bool) (irp : Irp) : Prop where
  ioControlCode : irp.ioControlCode = ioctlProtectAddressRange
  inputBufferLength : irp.inputBufferLength = sizeofHookedPage
  address : validKernelmodeMemory irp.hookedPage.address = true
  permissions : permissionsAccepted irp.hookedPage.permissions = true
  mapped : mmIsNonPagedSystemAddressValid (pageAlign irp.hookedPage.address) = true

theorem System.novaDeviceControl_of_valid {Caller : Type*} {n : ℕ} [DecidableEq Caller] (os : Os)
    (kernelBaseInfo : KernelBaseInfo) {mmIsNonPagedSystemAddressValid : Pvoid → Bool}
    (order : IpiOrder n) (initiator : Fin n) {irp : Irp}
    (hvalid : irp.Valid mmIsNonPagedSystemAddressValid) (s : System Caller n) :
    s.novaDeviceControl os kernelBaseInfo mmIsNonPagedSystemAddressValid order initiator irp =
      s.keIpiGenericCall
        (fun m => m.hookPageByVmcall os kernelBaseInfo (some irp.hookedPage)) order initiator := by
  rw [novaDeviceControl, if_pos hvalid.ioControlCode,
    if_neg (not_not_intro hvalid.inputBufferLength)]
  simp only [hvalid.address, hvalid.permissions, hvalid.mapped, Bool.not_true, Bool.or_self,
    Bool.false_eq_true, if_false]

end NovaHypervisor

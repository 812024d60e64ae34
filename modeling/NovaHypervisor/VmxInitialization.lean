import NovaHypervisor.General.Monitor
import NovaHypervisor.Vmexit

/-!
How VMX is started on all processors and ended again. The answers of the processors and
of the kernel are an environment. Each function gives the trace of what it does: the
resources it acquires, uses and releases, and the VMX instructions of each processor. The
processors run their part of a broadcast in some order, here by their numbers, and no
part depends on another. The model does not stop at an instruction that is not allowed:
the trace goes on as it does where another hypervisor, or a debugger, lets it go on.
-/
namespace NovaHypervisor

open General

inductive DriverResource where
  | poolManager
  | allocationThread
  | freeThread
  | deviceObject
  | symbolicLink
  | guestState
  | eptInstance (processor : ℕ)
  | vmxonRegion (processor : ℕ)
  | vmcsRegion (processor : ℕ)
  | vmmStack (processor : ℕ)
  | msrBitmap (processor : ℕ)
  deriving DecidableEq

/-- VMXON and VMLAUNCH with their outcome, since what is allowed next depends on it. -/
inductive VmxInstruction where
  | vmxon (succeeds : Bool)
  | vmclear
  | vmptrld
  | vmread
  | vmwrite
  | vmlaunch (succeeds : Bool)
  | vmxoff
  | vmcallTest
  | vmcallVmxoff
  deriving DecidableEq

inductive DriverEvent where
  | resource (event : ResourceEvent DriverResource)
  | vmx (processor : ℕ) (instruction : VmxInstruction)

namespace DriverEvent

def acquire (r : DriverResource) : DriverEvent := .resource (.acquire r)
def access (r : DriverResource) : DriverEvent := .resource (.access r)
def release (r : DriverResource) : DriverEvent := .resource (.release r)

end DriverEvent

structure ProcessorEnvironment where
  vmxonRegion : Bool
  vmcsRegion : Bool
  vmmStack : Bool
  msrBitmap : Bool
  writeBack : Bool
  vmxon : Bool
  vmclear : Bool
  vmptrld : Bool
  vmwrites : ℕ
  vmlaunch : Bool
  vmxoffVmclear : Bool

structure Environment where
  processorCount : ℕ
  currentProcessor : ℕ
  current_lt : currentProcessor < processorCount
  processor : ℕ → ProcessorEnvironment
  isVmxSupported : Bool
  isXstateSaveAreaSupported : Bool
  guestStateAllocated : Bool
  constructsEpt : ℕ → Bool
  /-- Whether a broadcast waits for a routine that does not signal its end. -/
  genericCallDpcWaits : Bool
  testVmcall : Ntstatus

structure ProcessorState where
  eptInstance : Bool
  vmxonRegion : Bool
  vmcsRegion : Bool
  vmmStack : Bool
  msrBitmap : Bool
  isLaunched : Bool

def ProcessorState.zero : ProcessorState := ⟨false, false, false, false, false, false⟩

/-- The global pointer, which may dangle, and what it points to or did. -/
structure DriverState where
  guestState : Bool
  processors : ℕ → ProcessorState

inductive RegionType where
  | vmxonRegion
  | vmcsRegion

namespace ProcessorEnvironment

open DriverEvent DriverResource

/-- Whether the region is allocated. The VMXON region also turns VMX operation on. -/
def allocateRegion (i : ℕ) (p : ProcessorEnvironment) : RegionType → Bool × List DriverEvent
  | .vmxonRegion =>
    if !p.vmxonRegion then (false, [])
    else if !p.writeBack then
      (false, [acquire (.vmxonRegion i), access (.vmxonRegion i), release (.vmxonRegion i)])
    else if !p.vmxon then
      (false, [acquire (.vmxonRegion i), access (.vmxonRegion i), .vmx i (.vmxon false),
        release (.vmxonRegion i)])
    else
      (true, [acquire (.vmxonRegion i), access (.vmxonRegion i), .vmx i (.vmxon true),
        access guestState])
  | .vmcsRegion =>
    if !p.vmcsRegion then (false, [])
    else if !p.writeBack then
      (false, [acquire (.vmcsRegion i), access (.vmcsRegion i), release (.vmcsRegion i)])
    else (true, [acquire (.vmcsRegion i), access (.vmcsRegion i), access guestState])

/-- Whether the routine signals its end. It does not after a failure. -/
def allocateVmStructures (i : ℕ) (p : ProcessorEnvironment) (state : ProcessorState) :
    Bool × ProcessorState × List DriverEvent :=
  let (allocated, events) := p.allocateRegion i .vmxonRegion
  if !allocated then (false, state, events)
  else
    let state := { state with vmxonRegion := true }
    let (allocated, vmcsEvents) := p.allocateRegion i .vmcsRegion
    let events := events ++ vmcsEvents
    if !allocated then (false, state, events)
    else
      let state := { state with vmcsRegion := true }
      if !p.vmmStack then (false, state, events ++ [access guestState])
      else
        let state := { state with vmmStack := true }
        let events := events ++ [acquire (.vmmStack i), access guestState]
        if !p.msrBitmap then (false, state, events ++ [access guestState])
        else
          (true, { state with msrBitmap := true },
            events ++ [acquire (.msrBitmap i), access guestState])

/-- A failure to clear turns VMX operation off. -/
def clearVmcsState (i : ℕ) (succeeds : Bool) : Bool × List DriverEvent :=
  if succeeds then (true, [.vmx i .vmclear]) else (false, [.vmx i .vmclear, .vmx i .vmxoff])

def setupVmcs (i : ℕ) (p : ProcessorEnvironment) : List DriverEvent :=
  access guestState :: access (eptInstance i) :: List.replicate p.vmwrites (.vmx i .vmwrite)

/-- Whether the guest of the processor is launched. Only a failure comes back here. -/
def virtualizeProcessor (i : ℕ) (p : ProcessorEnvironment) (state : ProcessorState) :
    Bool × List DriverEvent :=
  let failure := [.vmx i .vmxoff, .vmx i .vmread, access guestState]
  if !state.vmxonRegion then (false, access guestState :: failure)
  else
    let (cleared, events) := clearVmcsState i p.vmclear
    let events := access guestState :: events
    if !cleared then (false, events ++ failure)
    else
      let events := events ++ [.vmx i .vmptrld]
      if !p.vmptrld then (false, events ++ failure)
      else
        let events := events ++ p.setupVmcs i ++
          [access guestState, .vmx i (.vmlaunch p.vmlaunch)]
        if p.vmlaunch then (true, events) else (false, events ++ failure)

def vmxVmxoff (i : ℕ) (p : ProcessorEnvironment) : List DriverEvent :=
  -- the exit's own loads and the stores that clear the pending injection
  access guestState :: List.replicate 2 (.vmx i .vmread) ++ List.replicate 3 (.vmx i .vmwrite) ++
    -- the guest's CR3, RIP and RSP, the instruction's length, and RestoreRegisters
    List.replicate 4 (.vmx i .vmread) ++ access guestState ::
      List.replicate 6 (.vmx i .vmread) ++ (clearVmcsState i p.vmxoffVmclear).2 ++
        [.vmx i .vmxoff, access guestState]

def freeVmState (i : ℕ) (state : ProcessorState) : List DriverEvent :=
  access guestState ::
    (if state.vmxonRegion then [release (.vmxonRegion i), access guestState] else []) ++
      access guestState ::
        (if state.vmcsRegion then [release (.vmcsRegion i), access guestState] else []) ++
          access guestState :: (if state.vmmStack then [release (.vmmStack i)] else []) ++
            access guestState :: (if state.msrBitmap then [release (.msrBitmap i)] else [])

/-- The VMCALL comes first, whether or not a guest runs on the processor. -/
def vmxTerminate (i : ℕ) (p : ProcessorEnvironment) (guestStatePointer : Bool)
    (state : ProcessorState) : List DriverEvent :=
  .vmx i .vmcallVmxoff :: (if state.isLaunched then p.vmxVmxoff i else []) ++
    if guestStatePointer then freeVmState i state else []

end ProcessorEnvironment

namespace Environment

open DriverEvent DriverResource

/-- The construction may take buffers of the pool to split large pages. -/
def constructEpt (i : ℕ) : List DriverEvent :=
  [acquire (.eptInstance i), access poolManager, access guestState]

/-- Deleting an instance reads whether hooks are left, which would go back to the pool. -/
def deleteEpt (i : ℕ) : List DriverEvent :=
  [access guestState, access (.eptInstance i), access poolManager, release (.eptInstance i),
    access guestState]

/-- The instances are constructed one by one, and a failure at one deletes those before
it and frees the array. The pointer to the array stays. -/
def constructEpts (env : Environment) : Option ℕ × List DriverEvent :=
  match (List.range env.processorCount).find? fun i => !env.constructsEpt i with
  | none => (none, (List.range env.processorCount).flatMap constructEpt)
  | some k =>
    (some k, (List.range k).flatMap constructEpt ++
      (List.range k).flatMap (fun i => access guestState :: deleteEpt i) ++ [release guestState])

def allocateOn (env : Environment) (i : ℕ) : Bool × ProcessorState × List DriverEvent :=
  (env.processor i).allocateVmStructures i { ProcessorState.zero with eptInstance := true }

/-- Whether VMX is initialized, if the call returns, and the state that it leaves. -/
def vmxInitializer (env : Environment) : Option Bool × DriverState × List DriverEvent :=
  let absent : DriverState := ⟨false, fun _ => .zero⟩
  if !env.isVmxSupported then (some false, absent, [])
  else if !env.isXstateSaveAreaSupported then (some false, absent, [])
  else if !env.guestStateAllocated then (some false, absent, [])
  else
    match env.constructEpts with
    | (some _, events) => (some false, ⟨true, fun _ => .zero⟩, acquire guestState :: events)
    | (none, events) =>
      let signalled := (List.range env.processorCount).all fun i => (env.allocateOn i).1
      (if signalled || !env.genericCallDpcWaits then some true else none,
        ⟨true, fun i => (env.allocateOn i).2.1⟩,
        acquire guestState :: events ++
          (List.range env.processorCount).flatMap fun i => (env.allocateOn i).2.2)

def vmxInitialize (env : Environment) : Option Bool × DriverState × List DriverEvent :=
  match env.vmxInitializer with
  | (some true, state, events) =>
    let launch := fun i => (env.processor i).virtualizeProcessor i (state.processors i)
    let processors := fun i => { state.processors i with isLaunched := (launch i).1 }
    (some (ntSuccess env.testVmcall), { state with processors := processors },
      events ++ (List.range env.processorCount).flatMap (fun i => (launch i).2) ++
        [.vmx env.currentProcessor .vmcallTest])
  | result => result

def terminateVmx (env : Environment) (state : DriverState) : List DriverEvent :=
  (List.range env.processorCount).flatMap (fun i =>
    (env.processor i).vmxTerminate i state.guestState (state.processors i)) ++
  if state.guestState then
    (List.range env.processorCount).flatMap (fun i =>
      access guestState ::
        if (state.processors i).eptInstance then deleteEpt i else []) ++ [release guestState]
  else []

def vmxLifetime (env : Environment) : List DriverEvent :=
  match env.vmxInitialize with
  | (none, _, events) => events
  | (some _, state, events) => events ++ env.terminateVmx state

end Environment

end NovaHypervisor

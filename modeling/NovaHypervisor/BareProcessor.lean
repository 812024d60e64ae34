import NovaHypervisor.CpuidTransparency
import NovaHypervisor.EntryFields

/-!
The processor as the guest has it without this hypervisor. It executes an instruction
itself, or raises #GP, and delivers events through the guest's IDT. Its MSRs, its CPUID,
the values that its control registers take as they are and the Hyper-V below it, which
answers hypercalls, are a parameter. HLT and the VMX instructions, which the handler only
steps over, are not among its instructions here. What the guest does between two exits is
any function of its state.
-/
namespace NovaHypervisor

inductive ControlRegister where
  | cr0
  | cr3
  | cr4
  deriving DecidableEq

/-- What the guest's instructions read and write, with the stores to MSRs as a log. -/
structure BareCpu where
  general : GuestRegs
  rip : Word
  rflags : Word
  cr0 : Word
  cr3 : Word
  cr4 : Word
  xcr0 : Word
  cr2 : Word
  msrWrites : List (BitVec 32 × Word)

/-- An event as its delivery sees it. The length takes RIP over a software interrupt. -/
structure GuestEvent where
  info : BitVec 32
  errorCode : BitVec 32
  length : Word

structure Architecture where
  host : Host
  acceptsCr : ControlRegister → Word → Bool
  deliver : GuestEvent → BareCpu → BareCpu

/-- The instructions of the guest that exit and are emulated. -/
inductive TrappedInstruction where
  | cpuid
  | rdmsr
  | wrmsr
  | xsetbv
  | movToCr (cr : ControlRegister) (r : Fin 16)
  | movFromCr (cr : ControlRegister) (r : Fin 16)
  | invd
  | hypercall

/-- Why the guest is left. The lengths are those of the instruction at RIP. -/
inductive GuestExit where
  | instruction (i : TrappedInstruction) (length : BitVec 32)
  | exception (info errorCode length : BitVec 32) (qualification : Word)
  | violation (qualification physical linear : Word) (interrupted : Option EntryEvent)
      (length : BitVec 32)
  | monitorTrap (interrupted : Option EntryEvent) (length : BitVec 32)

def GuestEvent.ofEntry (event : EntryEvent) (length : BitVec 32) : GuestEvent where
  info := event.info
  errorCode := Vmcs.entryErrorCode (some event)
  length := if InterruptInfo.isSoftware event.info then length.setWidth 64 else 0

namespace BareCpu

def retire (length : BitVec 32) (b : BareCpu) : BareCpu :=
  { b with rip := b.rip + length.setWidth 64 }

def control (b : BareCpu) : ControlRegister → Word
  | .cr0 => b.cr0
  | .cr3 => b.cr3
  | .cr4 => b.cr4

/-- Bit 63 of a value for CR3 asks for no flush and is not stored. -/
def setControl (b : BareCpu) (value : Word) : ControlRegister → BareCpu
  | .cr0 => { b with cr0 := value }
  | .cr3 => { b with cr3 := value &&& ~~~(1#64 <<< 63) }
  | .cr4 => { b with cr4 := value }

def edxEax (b : BareCpu) : Word := b.general.rdx.setWidth 32 ++ b.general.rax.setWidth 32

def ecx (b : BareCpu) : BitVec 32 := b.general.rcx.setWidth 32

/-- The effect of an instruction before RIP moves, if it does not raise #GP. -/
def execute (arch : Architecture) (b : BareCpu) : TrappedInstruction → Option BareCpu
  | .cpuid =>
    let cpuInfo := hostCpuid arch.host b.general
    some { b with general := { b.general with
      rax := cpuInfo.eax.setWidth 64
      rbx := cpuInfo.ebx.setWidth 64
      rcx := cpuInfo.ecx.setWidth 64
      rdx := cpuInfo.edx.setWidth 64 } }
  | .rdmsr =>
    (arch.host.readmsr b.ecx).map fun content =>
      { b with general := { b.general with
        rax := (content.setWidth 32).setWidth 64
        rdx := ((content >>> 32).setWidth 32).setWidth 64 } }
  | .wrmsr =>
    if arch.host.writemsr b.ecx b.edxEax then
      some { b with msrWrites := (b.ecx, b.edxEax) :: b.msrWrites }
    else none
  | .xsetbv =>
    if b.ecx = 0 ∧ arch.host.xsetbv b.edxEax then some { b with xcr0 := b.edxEax } else none
  | .movToCr cr r =>
    if arch.acceptsCr cr (b.general.get r) then some (b.setControl (b.general.get r) cr) else none
  | .movFromCr cr r => some { b with general := b.general.set r (b.control cr) }
  | .invd => some b
  | .hypercall => some { b with general := arch.host.hypervVmcall b.general }

def raise (arch : Architecture) (event : Option GuestEvent) (b : BareCpu) : BareCpu :=
  match event with
  | none => b
  | some event => arch.deliver event b

/-- The event of a fault of the guest's own. -/
def fault (vector : ExceptionVector) (errorCode : BitVec 32) : GuestEvent :=
  ⟨0x80000B00#32 ||| vector.code, errorCode, 0⟩

def isPageFault (info : BitVec 32) : Bool :=
  InterruptInfo.vector.get info = ExceptionVector.pageFault.code &&
    InterruptInfo.interruptType.get info = InterruptType.hardwareException.code

/-- One step of the guest where it would exit. Without page tables of the hypervisor there is
no violation: the access goes on, or the delivery of the event that it interrupts. -/
def step (arch : Architecture) (b : BareCpu) : GuestExit → BareCpu
  | .instruction i length =>
    match b.execute arch i with
    | none => arch.deliver (fault .generalProtectionFault 0) b
    | some b' => b'.retire length
  | .exception info errorCode length qualification =>
    { b with cr2 := if isPageFault info then qualification else b.cr2 }.raise arch
      ((EntryEvent.ofFlags? info errorCode).map fun event => .ofEntry event length)
  | .violation _ _ _ interrupted length =>
    b.raise arch (interrupted.map fun event => .ofEntry event length)
  | .monitorTrap interrupted length =>
    b.raise arch (interrupted.map fun event => .ofEntry event length)

end BareCpu

end NovaHypervisor

import NovaHypervisor.ControlRegisters
import NovaHypervisor.EntryControls
import NovaHypervisor.General.Cache
import NovaHypervisor.VmexitHandler

/-!
The cached translations of linear addresses, which the processor tags with a VPID where the
driver enables VPIDs and drops at every exit and entry where it does not. The guest drops
them by a load of CR3. A load that exits drops them as well: the guest uses no translation
from before its last load, and none of the host's.
-/
namespace NovaHypervisor

open General

inductive InvvpidType where
  | individualAddress
  | singleContext
  | allContext

structure InvvpidDescriptor where
  vpid : BitVec 16
  linearAddress : Word

namespace VmxHelper

def isCurrentHypervisorHyperV (host : Host) : Bool :=
  let processorFeatures := host.cpuidex 1 0
  if processorFeatures.ecx &&& 0x80000000#32 = 0 then false
  else
    let hypervisorVendor := host.cpuidex 0x40000000 0
    hypervisorVendor.ebx = 0x7263694D#32 && hypervisorVendor.ecx = 0x666F736F#32 &&
      hypervisorVendor.edx = 0x76482074#32

def initializeVpidSupport (p : LogicalProcessor) (host : Host) : Bool :=
  let secondaryControls := p.readmsr msrIa32VmxProcbasedCtls2
  let eptVpidCapabilities := p.readmsr msrIa32VmxEptVpidCap
  (secondaryControls >>> 32).setWidth 32 &&& 0x20#32 ≠ 0 &&
    EptVpidCapabilities.invvpid.get eptVpidCapabilities ≠ 0 &&
    EptVpidCapabilities.invvpidIndividualAddress.get eptVpidCapabilities ≠ 0 &&
    EptVpidCapabilities.invvpidSingleContext.get eptVpidCapabilities ≠ 0 &&
    EptVpidCapabilities.invvpidAllContexts.get eptVpidCapabilities ≠ 0 &&
    !isCurrentHypervisorHyperV host

def invalidateVpid (vpidSupported : Bool) (vpid address : Word) :
    Option (InvvpidType × InvvpidDescriptor) :=
  if !vpidSupported then none
  else if vpid ≠ 0 then
    if address ≠ 0 then some (.individualAddress, ⟨vpid.setWidth 16, address⟩)
    else some (.singleContext, ⟨vpid.setWidth 16, 0⟩)
  else some (.allContext, ⟨0, 0⟩)

end VmxHelper

/-- The guest's translations are those since one of its loads of CR3. -/
inductive LinearTranslation where
  | host
  | guest (loads : ℕ)
  deriving DecidableEq

/-- The translations by VPID and linear page, and the guest's loads of CR3 so far. -/
structure LinearTlb where
  cached : Cache (BitVec 16 × Word) LinearTranslation
  loads : ℕ

def Canonical (x : Word) : Bool := (x.setWidth 48).signExtend 64 = x

def invvpidSucceeds (p : LogicalProcessor) (type : InvvpidType)
    (descriptor : InvvpidDescriptor) : Bool :=
  let capabilities := p.readmsr msrIa32VmxEptVpidCap
  EptVpidCapabilities.invvpid.get capabilities ≠ 0 && match type with
    | .individualAddress =>
      EptVpidCapabilities.invvpidIndividualAddress.get capabilities ≠ 0 &&
        descriptor.vpid ≠ 0 && Canonical descriptor.linearAddress
    | .singleContext =>
      EptVpidCapabilities.invvpidSingleContext.get capabilities ≠ 0 && descriptor.vpid ≠ 0
    | .allContext => EptVpidCapabilities.invvpidAllContexts.get capabilities ≠ 0

/-- What INVVPID drops. No type reaches the translations of VPID 0. -/
def invvpidReaches (type : InvvpidType) (descriptor : InvvpidDescriptor)
    (k : BitVec 16 × Word) : Bool :=
  match type with
  | .individualAddress => k = (descriptor.vpid, pageAlign descriptor.linearAddress)
  | .singleContext => k.1 = descriptor.vpid
  | .allContext => k.1 ≠ 0

def asmInvvpid (p : LogicalProcessor) (type : InvvpidType) (descriptor : InvvpidDescriptor)
    (cached : Cache (BitVec 16 × Word) LinearTranslation) :
    Cache (BitVec 16 × Word) LinearTranslation :=
  if invvpidSucceeds p type descriptor then cached.drop (invvpidReaches type descriptor)
  else cached

/-- The hypercalls after which the translations are dropped here too. -/
def requiresLocalTranslationFlush (registers : GuestRegs) : Bool :=
  (registers.rcx &&& 0xFFFF#64).toNat ∈ [0x1, 0x2, 0x3, 0x13, 0x14, 0xAF, 0xB0]

inductive LinearAction (Caller : Type*) where
  | cache (linearPage : Word)
  | evict (vpid : BitVec 16) (linearPage : Word)
  /-- An exit that finds the processor so, with the pages that the handler itself accesses
  before and after it invalidates. -/
  | exit (v : Vcpu Caller) (before after : List Word)

namespace Vcpu

variable {Caller : Type*}

def loadsCr3 (v : Vcpu Caller) : Bool :=
  v.exitReason = .crAccess &&
    MovCrQualification.accessType.get (v.vmcs.vmread .exitQualification) =
      RegistersHandler.typeMovToCr &&
    RegistersHandler.crNumber (v.vmcs.vmread .exitQualification) = 3

/-- The call of `InvalidateVpid` that the handler of an exit comes to. -/
def invalidation (vpidSupported : Bool) (processorIndex : BitVec 32) (v : Vcpu Caller) :
    Option (InvvpidType × InvvpidDescriptor) :=
  if v.loadsCr3 then
    VmxHelper.invalidateVpid vpidSupported
      ((VmxHelper.getVpidTagForProcessor processorIndex).setWidth 64) 0
  else if v.exitReason = .vmcall && !isSelfVmcall v.registers &&
      requiresLocalTranslationFlush v.registers then
    VmxHelper.invalidateVpid vpidSupported 0 0
  else none

/-- The handler stores the guest's value, without bit 63. -/
theorem handleCRAccess_loadsCr3 {v : Vcpu Caller} (h : v.loadsCr3 = true) : ∃ vmcs',
    RegistersHandler.handleCRAccess v.registers v.vmcs = (true, v.registers, vmcs') ∧
      vmcs'.vmread .guestCr3 = RegistersHandler.crValue 3 (RegistersHandler.generalRegister
        v.registers v.vmcs (RegistersHandler.crRegister (v.vmcs.vmread .exitQualification))) := by
  simp only [loadsCr3, Bool.and_eq_true, decide_eq_true_eq] at h
  obtain ⟨⟨_, hto⟩, hnumber⟩ := h
  have hcr3 : (3, VmcsField.guestCr3) ∈ RegistersHandler.guestCr := by decide
  obtain ⟨vmcs', hstore, hread, _⟩ := RegistersHandler.movToCr_spec hcr3
    (RegistersHandler.generalRegister v.registers v.vmcs
      (RegistersHandler.crRegister (v.vmcs.vmread .exitQualification))) v.vmcs
  refine ⟨vmcs', ?_, hread⟩
  rw [RegistersHandler.handleCRAccess_to v.registers hto, hnumber, hstore]

end Vcpu

namespace LinearTlb

section Definitions

variable {Caller : Type*} [DecidableEq Caller]

def guestVpid (p : LogicalProcessor) (host : Host) (processorIndex : BitVec 32) : BitVec 16 :=
  if VmxHelper.initializeVpidSupport p host then VmxHelper.getVpidTagForProcessor processorIndex
  else 0

/-- What an exit or an entry itself drops. -/
def switch (vpidSupported : Bool) (cached : Cache (BitVec 16 × Word) LinearTranslation) :
    Cache (BitVec 16 × Word) LinearTranslation :=
  if vpidSupported then cached else cached.drop fun k => k.1 = 0

def handled (p : LogicalProcessor) (host : Host) (processorIndex : BitVec 32) (v : Vcpu Caller)
    (cached : Cache (BitVec 16 × Word) LinearTranslation) :
    Cache (BitVec 16 × Word) LinearTranslation :=
  match v.invalidation (VmxHelper.initializeVpidSupport p host) processorIndex with
  | none => cached
  | some (type, descriptor) => asmInvvpid p type descriptor cached

def hostAccesses (hostPages : List Word)
    (cached : Cache (BitVec 16 × Word) LinearTranslation) :
    Cache (BitVec 16 × Word) LinearTranslation :=
  hostPages.foldl (fun cached linearPage => cached.fill (0, linearPage) .host) cached

/-- What is cached in root mode until the handler invalidates. -/
def entered (p : LogicalProcessor) (host : Host) (before : List Word)
    (cached : Cache (BitVec 16 × Word) LinearTranslation) :
    Cache (BitVec 16 × Word) LinearTranslation :=
  hostAccesses before (switch (VmxHelper.initializeVpidSupport p host) cached)

def leaving (p : LogicalProcessor) (host : Host) (processorIndex : BitVec 32) (v : Vcpu Caller)
    (before after : List Word) (cached : Cache (BitVec 16 × Word) LinearTranslation) :
    Cache (BitVec 16 × Word) LinearTranslation :=
  hostAccesses after (handled p host processorIndex v (entered p host before cached))

/-- An exit that ends VMX has no entry after it. -/
def step (os : Os) (kernelBaseInfo : KernelBaseInfo) (p : LogicalProcessor) (host : Host)
    (processorIndex : BitVec 32) (s : LinearTlb) : LinearAction Caller → Option LinearTlb
  | .cache linearPage =>
    some { s with
      cached := s.cached.fill (guestVpid p host processorIndex, linearPage) (.guest s.loads) }
  | .evict vpid linearPage => some { s with cached := s.cached.evict (vpid, linearPage) }
  | .exit v before after =>
    (v.vmexitHandler os kernelBaseInfo host).bind fun (isVmxoffExecuted, _) =>
      if isVmxoffExecuted then none
      else
        some ⟨switch (VmxHelper.initializeVpidSupport p host)
          (leaving p host processorIndex v before after s.cached),
          if v.loadsCr3 then s.loads + 1 else s.loads⟩

end Definitions

/-- What may be cached: the guest's translations of its last load, and the host's. -/
def current (vpid : BitVec 16) (loads : ℕ) (k : BitVec 16 × Word) : LinearTranslation :=
  if k.1 = vpid then .guest loads else .host

theorem current_of_ne {vpid : BitVec 16} (loads : ℕ) {k : BitVec 16 × Word} (h : k.1 ≠ vpid) :
    current vpid loads k = .host := if_neg h

variable {table : BitVec 16 × Word → LinearTranslation}
  {cached : Cache (BitVec 16 × Word) LinearTranslation}

theorem asmInvvpid_agrees (p : LogicalProcessor) (type : InvvpidType)
    (descriptor : InvvpidDescriptor) (h : cached.Agrees Eq table) :
    (asmInvvpid p type descriptor cached).Agrees Eq table := by
  rw [asmInvvpid]
  split
  · exact h.drop fun _ _ => rfl
  · exact h

theorem handled_agrees {Caller : Type*} (p : LogicalProcessor) (host : Host)
    (processorIndex : BitVec 32) (v : Vcpu Caller) (h : cached.Agrees Eq table) :
    (handled p host processorIndex v cached).Agrees Eq table := by
  rw [handled]
  split
  · exact h
  · exact asmInvvpid_agrees p _ _ h

theorem hostAccesses_agrees (hostPages : List Word) (h : cached.Agrees Eq table)
    (hhost : ∀ linearPage, table (0, linearPage) = .host) :
    (hostAccesses hostPages cached).Agrees Eq table := by
  induction hostPages generalizing cached with
  | nil => exact h
  | cons linearPage hostPages ih => exact ih (h.fill (hhost linearPage).symm)

theorem vpidTag_ne_host {processorIndex : BitVec 32} (h : processorIndex.toNat < 65535) :
    VmxHelper.getVpidTagForProcessor processorIndex ≠ 0 := by
  intro hzero
  have hne := LogicalProcessor.vpidTag_ne_zero h
  rw [hzero] at hne
  exact hne rfl

/-- The type of every INVVPID that the handler comes to is supported, and its descriptor
valid. -/
theorem invvpidSucceeds_of_invalidation {Caller : Type*} {p : LogicalProcessor} {host : Host}
    {processorIndex : BitVec 32} {v : Vcpu Caller} (hprocessor : processorIndex.toNat < 65535)
    {type : InvvpidType} {descriptor : InvvpidDescriptor}
    (h : v.invalidation (VmxHelper.initializeVpidSupport p host) processorIndex =
      some (type, descriptor)) : invvpidSucceeds p type descriptor = true := by
  have hwide : (VmxHelper.getVpidTagForProcessor processorIndex).setWidth 64 ≠ 0 :=
    LogicalProcessor.vpidTag_ne_zero hprocessor
  rcases hsupported : VmxHelper.initializeVpidSupport p host with _ | _
  · rw [hsupported] at h
    simp [Vcpu.invalidation, VmxHelper.invalidateVpid] at h
  · rw [hsupported] at h
    simp only [VmxHelper.initializeVpidSupport, Bool.and_eq_true] at hsupported
    obtain ⟨⟨⟨⟨⟨_, hinvvpid⟩, _⟩, hsingle⟩, hall⟩, _⟩ := hsupported
    rw [Vcpu.invalidation] at h
    split at h
    · rw [VmxHelper.invalidateVpid, if_neg (by simp), if_pos hwide, if_neg (by simp),
        BitVec.setWidth_setWidth_of_le _ (by decide), BitVec.setWidth_eq] at h
      obtain ⟨rfl, rfl⟩ := Prod.mk.inj (Option.some.inj h)
      simp only [invvpidSucceeds, Bool.and_eq_true, hinvvpid, hsingle, true_and]
      exact decide_eq_true (vpidTag_ne_host hprocessor)
    · split at h
      · rw [VmxHelper.invalidateVpid, if_neg (by simp), if_neg (by simp)] at h
        obtain ⟨rfl, rfl⟩ := Prod.mk.inj (Option.some.inj h)
        simp only [invvpidSucceeds, Bool.and_eq_true, hinvvpid, hall, and_self]
      · simp at h

/-- Where VPIDs are enabled, a load of CR3 drops what has the guest's VPID. -/
theorem handled_loadsCr3 {Caller : Type*} {p : LogicalProcessor} {host : Host}
    {processorIndex : BitVec 32} {v : Vcpu Caller}
    (hprocessor : processorIndex.toNat < 65535)
    (hsupported : VmxHelper.initializeVpidSupport p host = true) (hloads : v.loadsCr3 = true) :
    handled p host processorIndex v cached =
      cached.drop fun k => k.1 = VmxHelper.getVpidTagForProcessor processorIndex := by
  have hwide : (VmxHelper.getVpidTagForProcessor processorIndex).setWidth 64 ≠ 0 :=
    LogicalProcessor.vpidTag_ne_zero hprocessor
  have hinvalidation : v.invalidation (VmxHelper.initializeVpidSupport p host) processorIndex =
      some (.singleContext, ⟨VmxHelper.getVpidTagForProcessor processorIndex, 0⟩) := by
    rw [Vcpu.invalidation, if_pos hloads, VmxHelper.invalidateVpid, hsupported, if_neg (by simp),
      if_pos hwide, if_neg (by simp), BitVec.setWidth_setWidth_of_le _ (by decide),
      BitVec.setWidth_eq]
  rw [handled, hinvalidation]
  exact if_pos (invvpidSucceeds_of_invalidation hprocessor hinvalidation)

section Exit

variable {Caller : Type*} {p : LogicalProcessor} {host : Host} {processorIndex : BitVec 32}
  {loads : ℕ}

/-- What an exit finds cached, as the handler may use it: without VPIDs nothing of the
guest's is left. -/
theorem entered_agrees (hprocessor : processorIndex.toNat < 65535) (before : List Word)
    (h : cached.Agrees Eq (current (guestVpid p host processorIndex) loads)) :
    (entered p host before cached).Agrees Eq
      (if VmxHelper.initializeVpidSupport p host then
        current (guestVpid p host processorIndex) loads else fun _ => .host) := by
  rw [entered]
  rcases hsupported : VmxHelper.initializeVpidSupport p host with _ | _
  · have hvpid : guestVpid p host processorIndex = 0 := by
      simp [guestVpid, hsupported]
    rw [hvpid] at h
    refine hostAccesses_agrees before ?_ fun _ => rfl
    exact h.drop fun k hk => current_of_ne loads (by simpa using hk)
  · have hvpid : guestVpid p host processorIndex =
        VmxHelper.getVpidTagForProcessor processorIndex := by
      simp [guestVpid, hsupported]
    refine hostAccesses_agrees before h fun linearPage => ?_
    rw [hvpid]
    exact current_of_ne loads (vpidTag_ne_host hprocessor).symm

/-- The handler leaves no translation of the guest's from before a load of CR3. -/
theorem leaving_agrees (hprocessor : processorIndex.toNat < 65535) (v : Vcpu Caller)
    (before after : List Word)
    (h : cached.Agrees Eq (current (guestVpid p host processorIndex) loads)) :
    (leaving p host processorIndex v before after cached).Agrees Eq
      (if VmxHelper.initializeVpidSupport p host then
        current (guestVpid p host processorIndex) (if v.loadsCr3 then loads + 1 else loads)
      else fun _ => .host) := by
  have hentered := entered_agrees hprocessor before h
  rw [leaving]
  rcases hsupported : VmxHelper.initializeVpidSupport p host with _ | _
  · simp only [hsupported, Bool.false_eq_true, if_false] at hentered ⊢
    exact hostAccesses_agrees after (handled_agrees p host processorIndex v hentered) fun _ => rfl
  · have hvpid : guestVpid p host processorIndex =
        VmxHelper.getVpidTagForProcessor processorIndex := by
      simp [guestVpid, hsupported]
    simp only [hsupported, if_true, hvpid] at hentered ⊢
    refine hostAccesses_agrees after ?_ fun linearPage =>
      current_of_ne _ (vpidTag_ne_host hprocessor).symm
    rcases hloads : v.loadsCr3 with _ | _
    · exact handled_agrees p host processorIndex v hentered
    · rw [handled_loadsCr3 hprocessor hsupported hloads]
      exact hentered.drop fun k hk => (current_of_ne loads (by simpa using hk)).trans
        (current_of_ne _ (by simpa using hk)).symm

theorem exit_agrees (hprocessor : processorIndex.toNat < 65535) (v : Vcpu Caller)
    (before after : List Word)
    (h : cached.Agrees Eq (current (guestVpid p host processorIndex) loads)) :
    (switch (VmxHelper.initializeVpidSupport p host)
      (leaving p host processorIndex v before after cached)).Agrees Eq
      (current (guestVpid p host processorIndex) (if v.loadsCr3 then loads + 1 else loads)) := by
  have hleaving := leaving_agrees hprocessor v before after h
  rcases hsupported : VmxHelper.initializeVpidSupport p host with _ | _
  · have hvpid : guestVpid p host processorIndex = 0 := by
      simp [guestVpid, hsupported]
    simp only [hsupported, Bool.false_eq_true, if_false, hvpid] at hleaving ⊢
    exact hleaving.drop fun k hk => (current_of_ne _ (by simpa using hk)).symm
  · simp only [hsupported, if_true] at hleaving
    exact hleaving

/-- No translation of VPID 0 in root mode is one of the guest's. -/
theorem eq_host_of_root (hprocessor : processorIndex.toNat < 65535)
    (h : cached.Agrees Eq (if VmxHelper.initializeVpidSupport p host then
      current (guestVpid p host processorIndex) loads else fun _ => .host))
    {linearPage : Word} {t : LinearTranslation} (hcached : cached (0, linearPage) = some t) :
    t = .host := by
  have ht := h _ t hcached
  rcases hsupported : VmxHelper.initializeVpidSupport p host with _ | _
  · simpa only [hsupported, Bool.false_eq_true, if_false] using ht
  · have hvpid : guestVpid p host processorIndex =
        VmxHelper.getVpidTagForProcessor processorIndex := by
      simp [guestVpid, hsupported]
    simp only [hsupported, if_true, hvpid] at ht
    exact ht.trans (current_of_ne loads (vpidTag_ne_host hprocessor).symm)

end Exit

/-- The guest can use only what was cached since its last load of CR3, and the handler of any
exit that comes now, before and after it invalidates, only what is the host's. -/
structure Separate (Caller : Type*) (p : LogicalProcessor) (host : Host)
    (processorIndex : BitVec 32) (s : LinearTlb) : Prop where
  guest : ∀ linearPage t, s.cached (guestVpid p host processorIndex, linearPage) = some t →
    t = .guest s.loads
  entered : ∀ before linearPage t, entered p host before s.cached (0, linearPage) = some t →
    t = .host
  leaving : ∀ (v : Vcpu Caller) before after linearPage t,
    leaving p host processorIndex v before after s.cached (0, linearPage) = some t → t = .host

/-- In every state of a run of guest accesses, evictions and exits, on a processor of any
capabilities, the guest's translations are those since its last load of CR3 and apart from
the host's. A load that exits stores the guest's value, and its INVVPID succeeds. -/
theorem current_of_run {Caller : Type*} [DecidableEq Caller] {os : Os}
    {kernelBaseInfo : KernelBaseInfo} {p : LogicalProcessor} {host : Host}
    {processorIndex : BitVec 32} (hprocessor : processorIndex.toNat < 65535) {s s' : LinearTlb}
    (hstart : ∀ k t, s.cached k = some t → k.1 ≠ guestVpid p host processorIndex ∧ t = .host)
    {actions : List (LinearAction Caller)}
    (hrun : Run (step os kernelBaseInfo p host processorIndex) s actions s') :
    s'.Separate Caller p host processorIndex ∧
      ∀ v : Vcpu Caller,
        (v.loadsCr3 = true → ∃ vmcs',
          RegistersHandler.handleCRAccess v.registers v.vmcs = (true, v.registers, vmcs') ∧
          vmcs'.vmread .guestCr3 = RegistersHandler.crValue 3
            (RegistersHandler.generalRegister v.registers v.vmcs
              (RegistersHandler.crRegister (v.vmcs.vmread .exitQualification)))) ∧
        ∀ type descriptor, v.invalidation (VmxHelper.initializeVpidSupport p host)
          processorIndex = some (type, descriptor) → invvpidSucceeds p type descriptor = true := by
  have hagrees : s'.cached.Agrees Eq (current (guestVpid p host processorIndex) s'.loads) := by
    refine GuardedRun.invariant (I := fun s =>
      s.cached.Agrees Eq (current (guestVpid p host processorIndex) s.loads)) ?_ hrun ?_
    · intro s action s' hs _ hstep
      cases action with
      | cache linearPage =>
        obtain rfl := Option.some.inj hstep
        exact hs.fill (if_pos rfl).symm
      | evict vpid linearPage =>
        obtain rfl := Option.some.inj hstep
        exact hs.evict (vpid, linearPage)
      | exit v before after =>
        obtain ⟨⟨isVmxoffExecuted, v'⟩, _, hstep⟩ := Option.bind_eq_some_iff.mp hstep
        simp only at hstep
        split at hstep
        · simp at hstep
        · obtain rfl := Option.some.inj hstep
          exact exit_agrees hprocessor v before after hs
    · intro k t hcached
      obtain ⟨hother, rfl⟩ := hstart k t hcached
      exact (current_of_ne s.loads hother).symm
  refine ⟨⟨fun linearPage t hcached => ?_, fun before linearPage t => ?_,
    fun v before after linearPage t => ?_⟩, fun v => ⟨Vcpu.handleCRAccess_loadsCr3, ?_⟩⟩
  · exact (hagrees _ t hcached).trans (if_pos rfl)
  · exact eq_host_of_root hprocessor (entered_agrees hprocessor before hagrees)
  · exact eq_host_of_root hprocessor (leaving_agrees hprocessor v before after hagrees)
  · exact fun type descriptor => invvpidSucceeds_of_invalidation hprocessor

def vpidProcessor : LogicalProcessor :=
  { LogicalProcessor.flatProcessor with
    readmsr := fun msr => if msr = msrIa32VmxEptVpidCap then 0x70100000000
      else if msr = msrIa32VmxProcbasedCtls2 then 0x2000000000 else 0 }

/-- MOV CR3, RBX between two accesses. The handler accesses a page as well. -/
def accessLoadAccess : List (LinearAction Unit) :=
  [.cache 0x7000, .exit (Vcpu.flatVcpu (Machine.flatMachine 1 1) [(.vmExitReason, 28),
    (.exitQualification, 0x303), (.vmExitInstructionLen, 3), (.guestCr3, 0x1AD000)]) [0x8000]
      [0xA000], .cache 0x9000]

theorem current_of_run_accessLoadAccess :
    let final := execute (step flatOs Machine.flatKernel vpidProcessor Vcpu.flatHost 0)
      ⟨Cache.empty, 0⟩ accessLoadAccess
    final.cached (1, 0x7000) = none ∧ final.cached (1, 0x9000) = some (.guest 1) ∧
      final.cached (0, 0x8000) = some .host ∧
      final.Separate Unit vpidProcessor Vcpu.flatHost 0 := by
  have hrun : Run (step flatOs Machine.flatKernel vpidProcessor Vcpu.flatHost 0)
      ⟨Cache.empty, 0⟩ accessLoadAccess
      (execute (step flatOs Machine.flatKernel vpidProcessor Vcpu.flatHost 0) ⟨Cache.empty, 0⟩
        accessLoadAccess) :=
    guardedRun_of_allowed (by decide +kernel)
  have hempty : ∀ (k : BitVec 16 × Word) (t : LinearTranslation),
      (Cache.empty : Cache (BitVec 16 × Word) LinearTranslation) k = some t →
        k.1 ≠ guestVpid vpidProcessor Vcpu.flatHost 0 ∧ t = .host := by
    intro k t hcached
    simp [Cache.empty] at hcached
  exact ⟨by decide +kernel, by decide +kernel, by decide +kernel,
    (current_of_run (by decide) hempty hrun).1⟩

/-- Without VPIDs the handler finds nothing of the guest's, and the guest nothing of the
handler's. -/
example :
    let final := execute (step flatOs Machine.flatKernel LogicalProcessor.flatProcessor
      Vcpu.flatHost 0) ⟨Cache.empty, 0⟩ accessLoadAccess
    final.cached (0, 0x8000) = none ∧ final.cached (0, 0x9000) = some (.guest 1) ∧
      entered LogicalProcessor.flatProcessor Vcpu.flatHost [0xB000] final.cached (0, 0x9000) =
        none := by
  decide +kernel

end LinearTlb

end NovaHypervisor

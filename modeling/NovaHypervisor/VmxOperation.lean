import NovaHypervisor.VmxInitialization

/-!
VMX instructions and VMX operation. A monitor of each processor allows the instructions
between a VMXON that succeeds and the next VMXOFF, and the VMCALL that ends VMX while the
processor's guest runs. The start and the end of VMX keep its law just when no step on
the way fails, since each failure is followed by an instruction that needs VMX operation.
-/
namespace NovaHypervisor

open General

inductive VmxStatus where
  | off
  | on
  | launched
  deriving DecidableEq

/-- The status after an instruction that the law allows. -/
def VmxInstruction.execute (status : VmxStatus) : VmxInstruction → Option VmxStatus
  | .vmxon succeeds => some (if succeeds = true ∧ status = .off then .on else status)
  | .vmclear | .vmptrld | .vmread | .vmwrite => if status = .off then none else some status
  | .vmlaunch succeeds =>
    if status = .off then none else some (if succeeds then .launched else status)
  | .vmxoff => if status = .off then none else some .off
  | .vmcallTest => some status
  | .vmcallVmxoff => if status = .launched then some status else none

/-- The monitor of one processor. -/
def vmxStep (i : ℕ) (status : VmxStatus) : DriverEvent → Option VmxStatus
  | .resource _ => some status
  | .vmx j instruction => if j = i then instruction.execute status else some status

@[simp] theorem vmxStep_acquire (i : ℕ) (status : VmxStatus) (r : DriverResource) :
    vmxStep i status (.acquire r) = some status := rfl

@[simp] theorem vmxStep_access (i : ℕ) (status : VmxStatus) (r : DriverResource) :
    vmxStep i status (.access r) = some status := rfl

@[simp] theorem vmxStep_release (i : ℕ) (status : VmxStatus) (r : DriverResource) :
    vmxStep i status (.release r) = some status := rfl

@[simp] theorem vmxStep_self (i : ℕ) (status : VmxStatus) (instruction : VmxInstruction) :
    vmxStep i status (.vmx i instruction) = instruction.execute status := if_pos rfl

/-- The processor that a resource is for. -/
@[simp] def DriverResource.processor : DriverResource → Option ℕ
  | eptInstance i | vmxonRegion i | vmcsRegion i | vmmStack i | msrBitmap i => some i
  | poolManager | allocationThread | freeThread | deviceObject | symbolicLink | guestState => none

/-- The event is of the processor's part: its own instruction, its own resource, or a use
of what the processors share. -/
def DriverEvent.Of (i : ℕ) : DriverEvent → Prop
  | .resource (.acquire r) | .resource (.release r) => r.processor = some i
  | .resource (.access r) => r = .guestState ∨ r = .poolManager ∨ r.processor = some i
  | .vmx j _ => j = i

@[simp] theorem DriverEvent.of_acquire_iff (i : ℕ) (r : DriverResource) :
    (acquire r).Of i ↔ r.processor = some i := Iff.rfl

@[simp] theorem DriverEvent.of_access_iff (i : ℕ) (r : DriverResource) :
    (access r).Of i ↔ r = .guestState ∨ r = .poolManager ∨ r.processor = some i := Iff.rfl

@[simp] theorem DriverEvent.of_release_iff (i : ℕ) (r : DriverResource) :
    (release r).Of i ↔ r.processor = some i := Iff.rfl

@[simp] theorem DriverEvent.of_vmx (i : ℕ) (instruction : VmxInstruction) :
    (DriverEvent.vmx i instruction).Of i := rfl

/-- Instructions of other processors are not this monitor's. -/
theorem observe_vmxStep_of_ne {i j : ℕ} {events : List DriverEvent} (hne : j ≠ i)
    (h : ∀ e ∈ events, e.Of j) (status : VmxStatus) :
    observe (vmxStep i) status events = some status := by
  refine observe_stays fun e he => ?_
  cases e with
  | resource event => rfl
  | vmx k instruction =>
    obtain rfl : k = j := h _ he
    exact if_neg hne

/-- A processor in VMX operation allows its loads and stores. -/
theorem observe_replicate {i n : ℕ} {status : VmxStatus} {instruction : VmxInstruction}
    (h : instruction.execute status = some status) :
    observe (vmxStep i) status (List.replicate n (.vmx i instruction)) = some status := by
  refine observe_stays fun e he => ?_
  rw [List.eq_of_mem_replicate he, vmxStep_self, h]

namespace ProcessorEnvironment

open DriverEvent

variable (i : ℕ) (p : ProcessorEnvironment)

/-- The VMXON region is allocated and VMX operation is on. -/
def StartsVmx : Prop := p.vmxonRegion = true ∧ p.writeBack = true ∧ p.vmxon = true

/-- Every instruction up to the launch succeeds. -/
def Launches : Prop :=
  p.StartsVmx ∧ p.vmclear = true ∧ p.vmptrld = true ∧ p.vmlaunch = true

/-- Every structure of the processor is allocated. -/
def Allocates : Prop :=
  p.StartsVmx ∧ p.vmcsRegion = true ∧ p.vmmStack = true ∧ p.msrBitmap = true

instance : Decidable p.StartsVmx := inferInstanceAs (Decidable (_ ∧ _))

instance : Decidable p.Launches := inferInstanceAs (Decidable (_ ∧ _))

instance : Decidable p.Allocates := inferInstanceAs (Decidable (_ ∧ _))

theorem of_allocateRegion (type : RegionType) : ∀ e ∈ (p.allocateRegion i type).2, e.Of i := by
  cases type with
  | vmxonRegion =>
    dsimp only [allocateRegion]
    split_ifs <;> simp
  | vmcsRegion =>
    dsimp only [allocateRegion]
    split_ifs <;> simp

theorem of_allocateVmStructures (state : ProcessorState) :
    ∀ e ∈ (p.allocateVmStructures i state).2.2, e.Of i := by
  have hvmxon := of_allocateRegion i p .vmxonRegion
  have hvmcs := of_allocateRegion i p .vmcsRegion
  unfold allocateVmStructures
  dsimp only
  split_ifs
  · exact hvmxon
  · exact List.forall_mem_append.mpr ⟨hvmxon, hvmcs⟩
  · simpa [or_imp, forall_and] using And.intro hvmxon hvmcs
  · simpa [or_imp, forall_and] using And.intro hvmxon hvmcs
  · simpa [or_imp, forall_and] using And.intro hvmxon hvmcs

theorem of_clearVmcsState (succeeds : Bool) : ∀ e ∈ (clearVmcsState i succeeds).2, e.Of i := by
  unfold clearVmcsState
  split_ifs <;> simp

theorem of_setupVmcs : ∀ e ∈ p.setupVmcs i, e.Of i := by
  simp [setupVmcs]

theorem of_virtualizeProcessor (state : ProcessorState) :
    ∀ e ∈ (p.virtualizeProcessor i state).2, e.Of i := by
  have hclear := of_clearVmcsState i p.vmclear
  have hsetup := of_setupVmcs i p
  unfold virtualizeProcessor
  dsimp only
  split_ifs
  · simp
  · simpa [or_imp, forall_and] using hclear
  · simpa [or_imp, forall_and] using hclear
  · simpa [or_imp, forall_and] using And.intro hclear hsetup
  · simpa [or_imp, forall_and] using And.intro hclear hsetup

theorem of_vmxVmxoff : ∀ e ∈ p.vmxVmxoff i, e.Of i := by
  have hclear := of_clearVmcsState i p.vmxoffVmclear
  simpa [vmxVmxoff, or_imp, forall_and] using hclear

theorem of_freeVmState (state : ProcessorState) : ∀ e ∈ freeVmState i state, e.Of i := by
  unfold freeVmState
  split_ifs <;> simp

theorem of_vmxTerminate (guestStatePointer : Bool) (state : ProcessorState) :
    ∀ e ∈ p.vmxTerminate i guestStatePointer state, e.Of i := by
  have hvmxoff := of_vmxVmxoff i p
  have hfree := of_freeVmState i state
  unfold vmxTerminate
  split_ifs
  · simpa [or_imp, forall_and] using And.intro hvmxoff hfree
  · simpa using hvmxoff
  · simpa using hfree
  · simp

theorem allocateRegion_vmxonRegion :
    (p.allocateRegion i .vmxonRegion).1 = decide p.StartsVmx ∧
      observe (vmxStep i) .off (p.allocateRegion i .vmxonRegion).2 =
        some (if p.StartsVmx then .on else .off) := by
  unfold allocateRegion StartsVmx
  split_ifs <;> simp_all [VmxInstruction.execute]

theorem observe_allocateRegion_vmcsRegion (status : VmxStatus) :
    observe (vmxStep i) status (p.allocateRegion i .vmcsRegion).2 = some status := by
  unfold allocateRegion
  split_ifs <;> simp

theorem allocateRegion_vmcsRegion :
    (p.allocateRegion i .vmcsRegion).1 = (p.vmcsRegion && p.writeBack) := by
  dsimp only [allocateRegion]
  split_ifs <;> simp_all

theorem allocateVmStructures_fst (state : ProcessorState) :
    (p.allocateVmStructures i state).1 = decide p.Allocates := by
  obtain ⟨hallocated, _⟩ := allocateRegion_vmxonRegion i p
  unfold allocateVmStructures Allocates
  dsimp only
  rw [hallocated, allocateRegion_vmcsRegion i p]
  by_cases hstarts : p.StartsVmx
  · rw [decide_eq_true hstarts, Bool.not_true, if_neg Bool.false_ne_true, hstarts.2.1,
      Bool.and_true]
    split_ifs <;> simp_all
  · simp [hstarts]

/-- Allocating leaves VMX operation on just when the VMXON region is there. -/
theorem allocateVmStructures_ends (state : ProcessorState) (hstate : state.vmxonRegion = false) :
    (p.allocateVmStructures i state).2.1.vmxonRegion = decide p.StartsVmx ∧
      observe (vmxStep i) .off (p.allocateVmStructures i state).2.2 =
        some (if p.StartsVmx then .on else .off) := by
  obtain ⟨hallocated, hobserve⟩ := allocateRegion_vmxonRegion i p
  have hvmcs := observe_allocateRegion_vmcsRegion i p
  unfold allocateVmStructures
  dsimp only
  rw [hallocated]
  by_cases hstarts : p.StartsVmx
  · rw [decide_eq_true hstarts, Bool.not_true, if_neg Bool.false_ne_true]
    split_ifs <;> simp [observe_append, hobserve, hvmcs, hstarts]
  · rw [decide_eq_false hstarts, Bool.not_false, if_pos rfl]
    exact ⟨hstate, hobserve⟩

/-- A launch that fails anywhere ends with a load after VMX operation is off. -/
theorem virtualizeProcessor_ends {state : ProcessorState}
    (hstate : state.vmxonRegion = decide p.StartsVmx) :
    (p.virtualizeProcessor i state).1 = decide p.Launches ∧
      observe (vmxStep i) (if p.StartsVmx then .on else .off) (p.virtualizeProcessor i state).2 =
        if p.Launches then some .launched else none := by
  have hsetup : observe (vmxStep i) .on (p.setupVmcs i) = some .on := by
    rw [setupVmcs, observe_cons, vmxStep_access, Option.bind_some, observe_cons, vmxStep_access]
    exact observe_replicate rfl
  unfold virtualizeProcessor clearVmcsState Launches
  dsimp only
  rw [hstate]
  by_cases hstarts : p.StartsVmx
  · rw [decide_eq_true hstarts, Bool.not_true, if_neg Bool.false_ne_true, if_pos hstarts]
    split_ifs <;> simp_all [observe_append, VmxInstruction.execute]
  · rw [decide_eq_false hstarts, Bool.not_false, if_pos rfl, if_neg hstarts]
    simp [VmxInstruction.execute, hstarts]

theorem observe_vmxVmxoff :
    observe (vmxStep i) .launched (p.vmxVmxoff i) =
      if p.vmxoffVmclear = true then some .off else none := by
  have hread : ∀ n, observe (vmxStep i) .launched (List.replicate n (.vmx i .vmread)) =
      some .launched := fun n => observe_replicate rfl
  have hwrite : ∀ n, observe (vmxStep i) .launched (List.replicate n (.vmx i .vmwrite)) =
      some .launched := fun n => observe_replicate rfl
  unfold vmxVmxoff clearVmcsState
  split_ifs <;> simp [-List.reduceReplicate, observe_append, hread, hwrite, VmxInstruction.execute]

theorem observe_freeVmState (state : ProcessorState) (status : VmxStatus) :
    observe (vmxStep i) status (freeVmState i state) = some status := by
  unfold freeVmState
  split_ifs <;> simp

/-- The end of VMX starts with the VMCALL, so a guest has to run. -/
theorem observe_vmxTerminate (guestStatePointer : Bool) {state : ProcessorState}
    {status : VmxStatus} (hstatus : status = .launched ↔ state.isLaunched = true) :
    observe (vmxStep i) status (p.vmxTerminate i guestStatePointer state) =
      if status = .launched ∧ p.vmxoffVmclear = true then some .off else none := by
  unfold vmxTerminate
  rw [List.cons_append, observe_cons, vmxStep_self]
  by_cases hlaunched : status = .launched
  · rw [VmxInstruction.execute, if_pos hlaunched, Option.bind_some,
      if_pos (hstatus.mp hlaunched), hlaunched, observe_append, observe_vmxVmxoff]
    by_cases hclear : p.vmxoffVmclear = true
    · have hfree : observe (vmxStep i) .off
          (if guestStatePointer then freeVmState i state else []) = some .off := by
        split
        · exact observe_freeVmState i state .off
        · rfl
      rw [if_pos hclear, Option.bind_some, hfree]
      simp [hclear]
    · simp [hclear]
  · simp [VmxInstruction.execute, hlaunched]

end ProcessorEnvironment

namespace Environment

open DriverEvent ProcessorEnvironment

variable (env : Environment)

/-- The law of the monitor holds on a processor from the start of VMX to its end. -/
def VmxLegal (i : ℕ) : Prop := (observe (vmxStep i) .off env.vmxLifetime).isSome = true

/-- The initialization comes as far as the first instance. -/
def ReachesConstruction : Prop :=
  env.isVmxSupported = true ∧ env.isXstateSaveAreaSupported = true ∧
    env.guestStateAllocated = true

/-- No instance fails. -/
def ConstructsEpts : Prop := ∀ i < env.processorCount, env.constructsEpt i = true

/-- The broadcast that allocates returns. -/
def ReachesLaunch : Prop :=
  env.genericCallDpcWaits = false ∨ ∀ i < env.processorCount, (env.processor i).Allocates

theorem of_allocateOn (j : ℕ) : ∀ e ∈ (env.allocateOn j).2.2, e.Of j :=
  of_allocateVmStructures j (env.processor j) _

theorem observe_constructEpts (i : ℕ) (status : VmxStatus) :
    observe (vmxStep i) status env.constructEpts.2 = some status := by
  have hconstruct : ∀ l : List ℕ, observe (vmxStep i) status (l.flatMap constructEpt) =
      some status := fun l => observe_flatMap_stays fun _ _ => rfl
  have hdelete : ∀ l : List ℕ, observe (vmxStep i) status
      (l.flatMap fun j => access .guestState :: deleteEpt j) = some status :=
    fun l => observe_flatMap_stays fun _ _ => rfl
  unfold constructEpts
  split
  · exact hconstruct _
  · rw [observe_append, observe_append, hconstruct, Option.bind_some, hdelete]
    rfl

theorem constructEpts_eq_none_iff :
    env.constructEpts.1 = none ↔ env.ConstructsEpts := by
  unfold constructEpts ConstructsEpts
  split
  · rename_i hnone
    rw [List.find?_eq_none] at hnone
    simpa using hnone
  · rename_i k hk
    have hfails := List.find?_some hk
    have hlt := List.mem_range.mp (List.mem_of_find?_eq_some hk)
    simp only [reduceCtorEq, false_iff, not_forall]
    exact ⟨k, hlt, by simpa using hfails⟩

theorem all_allocateOn_iff :
    ((List.range env.processorCount).all fun i => (env.allocateOn i).1) = true ↔
      ∀ i < env.processorCount, (env.processor i).Allocates := by
  simp only [List.all_eq_true, List.mem_range, allocateOn, allocateVmStructures_fst,
    decide_eq_true_iff]

/-- The three ways in which the initializer ends. -/
theorem vmxInitializer_ends :
    (¬ env.ReachesConstruction ∧ env.vmxInitializer = (some false, ⟨false, fun _ => .zero⟩, [])) ∨
    (env.ReachesConstruction ∧ ¬ env.ConstructsEpts ∧ env.vmxInitializer =
      (some false, ⟨true, fun _ => .zero⟩, acquire .guestState :: env.constructEpts.2)) ∨
    (env.ReachesConstruction ∧ env.ConstructsEpts ∧
      ∃ returns, (returns = some true ∧ env.ReachesLaunch ∨
        returns = none ∧ ¬ env.ReachesLaunch) ∧
      env.vmxInitializer = (returns, ⟨true, fun i => (env.allocateOn i).2.1⟩,
        acquire .guestState :: env.constructEpts.2 ++
          (List.range env.processorCount).flatMap fun i => (env.allocateOn i).2.2)) := by
  unfold vmxInitializer
  dsimp only
  by_cases hvmx : env.isVmxSupported = true
  swap
  · exact Or.inl ⟨fun h => hvmx h.1, by simp [hvmx]⟩
  by_cases hxstate : env.isXstateSaveAreaSupported = true
  swap
  · exact Or.inl ⟨fun h => hxstate h.2.1, by simp [hvmx, hxstate]⟩
  by_cases hguest : env.guestStateAllocated = true
  swap
  · exact Or.inl ⟨fun h => hguest h.2.2, by simp [hvmx, hxstate, hguest]⟩
  have hconstruction : env.ReachesConstruction := ⟨hvmx, hxstate, hguest⟩
  have hconstructed := env.constructEpts_eq_none_iff
  rw [hvmx, hxstate, hguest]
  simp only [Bool.not_true, Bool.false_eq_true, if_false]
  rcases hepts : env.constructEpts with ⟨_ | k, events⟩
  · rw [hepts] at hconstructed
    refine Or.inr (Or.inr ⟨hconstruction, hconstructed.mp rfl, _, ?_, rfl⟩)
    have hsignalled := env.all_allocateOn_iff
    by_cases hreturns : env.ReachesLaunch
    · refine Or.inl ⟨if_pos ?_, hreturns⟩
      rcases hreturns with hwaits | hall
      · rw [hwaits, Bool.not_false, Bool.or_true]
      · rw [hsignalled.mpr hall, Bool.true_or]
    · refine Or.inr ⟨if_neg ?_, hreturns⟩
      intro hor
      rcases Bool.or_eq_true_iff.mp hor with hall | hwaits
      · exact hreturns (Or.inr (hsignalled.mp hall))
      · exact hreturns (Or.inl (by simpa using hwaits))
  · rw [hepts] at hconstructed
    exact Or.inr (Or.inl ⟨hconstruction,
      fun hall => Option.some_ne_none k (hconstructed.mpr hall), rfl⟩)

/-- What the processor's monitor sees of a broadcast is the processor's own part. -/
theorem observe_broadcast {i : ℕ} (hi : i < env.processorCount) {part : ℕ → List DriverEvent}
    (hpart : ∀ j, ∀ e ∈ part j, e.Of j) (status : VmxStatus) :
    observe (vmxStep i) status ((List.range env.processorCount).flatMap part) =
      observe (vmxStep i) status (part i) := by
  refine observe_flatMap_of_mem List.nodup_range (List.mem_range.mpr hi) ?_
  intro j _ hne status'
  exact observe_vmxStep_of_ne hne (hpart j) status'

/-- The end of VMX on one processor, in the state that the initialization leaves. -/
theorem observe_terminateVmx {i : ℕ} (hi : i < env.processorCount) {state : DriverState}
    {status : VmxStatus} (hstatus : status = .launched ↔ (state.processors i).isLaunched = true) :
    observe (vmxStep i) status (env.terminateVmx state) =
      if status = .launched ∧ (env.processor i).vmxoffVmclear = true then some .off
      else none := by
  have hfree : ∀ status', observe (vmxStep i) status'
      (if state.guestState then
        (List.range env.processorCount).flatMap (fun i =>
          access .guestState :: if (state.processors i).eptInstance then deleteEpt i else []) ++
            [release .guestState]
      else []) = some status' := by
    intro status'
    split
    · rw [observe_append, observe_flatMap_stays]
      · rfl
      · intro j _
        split
        · rfl
        · rfl
    · rfl
  rw [terminateVmx, observe_append,
    env.observe_broadcast hi fun j => of_vmxTerminate j _ _ _, observe_vmxTerminate i _ _ hstatus]
  split
  · rw [Option.bind_some, hfree]
  · rfl

/-- The monitor up to the launch: VMX operation is on where its region is. -/
theorem observe_allocation {i : ℕ} (hi : i < env.processorCount) :
    (env.allocateOn i).2.1.vmxonRegion = decide (env.processor i).StartsVmx ∧
      observe (vmxStep i) .off (acquire .guestState :: env.constructEpts.2 ++
        (List.range env.processorCount).flatMap fun i => (env.allocateOn i).2.2) =
        some (if (env.processor i).StartsVmx then .on else .off) := by
  obtain ⟨hregion, hobserve⟩ := allocateVmStructures_ends i (env.processor i)
    { ProcessorState.zero with eptInstance := true } rfl
  refine ⟨hregion, ?_⟩
  have hconstruct := env.observe_constructEpts i .off
  rw [List.cons_append, observe_cons, vmxStep_acquire, Option.bind_some, observe_append,
    hconstruct, Option.bind_some,
    env.observe_broadcast hi env.of_allocateOn]
  exact hobserve

/-- A failure before the allocation is followed by the VMCALL, without a guest. -/
theorem not_vmxLegal_of_failure {state : DriverState} {events : List DriverEvent}
    (hinitializer : env.vmxInitializer = (some false, state, events))
    (hevents : ∀ i, observe (vmxStep i) .off events = some .off)
    (hstate : ∀ i, (state.processors i).isLaunched = false) :
    ¬ env.VmxLegal env.currentProcessor := by
  have hidle : VmxStatus.off = .launched ↔
      (state.processors env.currentProcessor).isLaunched = true := by
    rw [hstate]
    exact iff_of_false VmxStatus.noConfusion Bool.false_ne_true
  rw [VmxLegal, vmxLifetime, vmxInitialize, hinitializer]
  dsimp only
  rw [observe_append, hevents, Option.bind_some, env.observe_terminateVmx env.current_lt hidle,
    if_neg fun h => VmxStatus.noConfusion h.1]
  exact Bool.false_ne_true

/-- Where the launch is reached, the law is that it and the end of VMX do not fail. -/
theorem vmxLegal_iff_launches (hinitializer : env.vmxInitializer =
      (some true, ⟨true, fun i => (env.allocateOn i).2.1⟩,
        acquire .guestState :: env.constructEpts.2 ++
          (List.range env.processorCount).flatMap fun i => (env.allocateOn i).2.2))
    {i : ℕ} (hi : i < env.processorCount) :
    env.VmxLegal i ↔
      (env.processor i).Launches ∧ (env.processor i).vmxoffVmclear = true := by
  obtain ⟨hregion, hallocation⟩ := env.observe_allocation hi
  obtain ⟨hlaunched, hlaunch⟩ := virtualizeProcessor_ends i (env.processor i) hregion
  rw [VmxLegal, vmxLifetime, vmxInitialize, hinitializer]
  dsimp only
  rw [observe_append, observe_append, observe_append, hallocation, Option.bind_some,
    env.observe_broadcast hi fun j => of_virtualizeProcessor j (env.processor j) _, hlaunch]
  by_cases hsucceeds : (env.processor i).Launches
  · have htest : observe (vmxStep i) .launched
        [.vmx env.currentProcessor .vmcallTest] = some .launched := by
      by_cases hcurrent : env.currentProcessor = i
      · simp [vmxStep, hcurrent, VmxInstruction.execute]
      · simp [vmxStep, hcurrent]
    rw [if_pos hsucceeds, Option.bind_some, htest, Option.bind_some,
      env.observe_terminateVmx hi (iff_of_true rfl (by simp [hlaunched, hsucceeds]))]
    by_cases hclear : (env.processor i).vmxoffVmclear = true
    · simp [hsucceeds, hclear]
    · simp [hclear]
  · rw [if_neg hsucceeds]
    simp [hsucceeds]

/-- VMX instructions are executed in VMX operation only, and the VMCALL that ends VMX with
a guest only, just when no step of the start or of the end fails. -/
theorem vmxLegal_iff :
    (∀ i < env.processorCount, env.VmxLegal i) ↔
      (env.ReachesConstruction ∧ env.ConstructsEpts) ∧
        (env.ReachesLaunch → ∀ i < env.processorCount,
          (env.processor i).Launches ∧ (env.processor i).vmxoffVmclear = true) := by
  rcases env.vmxInitializer_ends with ⟨hnot, hinitializer⟩ | ⟨_, hnot, hinitializer⟩ |
    ⟨hconstruction, hconstructs, returns, hreturns, hinitializer⟩
  · refine iff_of_false (fun hlegal => ?_) fun h => hnot h.1.1
    exact env.not_vmxLegal_of_failure hinitializer (fun _ => rfl) (fun _ => rfl)
      (hlegal _ env.current_lt)
  · refine iff_of_false (fun hlegal => ?_) fun h => hnot h.1.2
    exact env.not_vmxLegal_of_failure hinitializer (fun i => env.observe_constructEpts i .off)
      (fun _ => rfl) (hlegal _ env.current_lt)
  · rcases hreturns with ⟨rfl, hlaunch⟩ | ⟨rfl, hlaunch⟩
    · constructor
      · intro hlegal
        exact ⟨⟨hconstruction, hconstructs⟩,
          fun _ i hi => (env.vmxLegal_iff_launches hinitializer hi).mp (hlegal i hi)⟩
      · intro h i hi
        exact (env.vmxLegal_iff_launches hinitializer hi).mpr (h.2 hlaunch i hi)
    · refine iff_of_true (fun i hi => ?_)
        ⟨⟨hconstruction, hconstructs⟩, fun h => absurd h hlaunch⟩
      rw [VmxLegal, vmxLifetime, vmxInitialize, hinitializer]
      dsimp only
      rw [(env.observe_allocation hi).2]
      rfl

end Environment

/-- A processor on which everything succeeds, with the stores of SetupVmcs without VPID. -/
def ProcessorEnvironment.willing : ProcessorEnvironment where
  vmxonRegion := true
  vmcsRegion := true
  vmmStack := true
  msrBitmap := true
  writeBack := true
  vmxon := true
  vmclear := true
  vmptrld := true
  vmwrites := 99
  vmlaunch := true
  vmxoffVmclear := true

/-- One such processor, and a kernel that gives what it is asked for. -/
def Environment.willing : Environment where
  processorCount := 1
  currentProcessor := 0
  current_lt := Nat.one_pos
  processor := fun _ => ProcessorEnvironment.willing
  isVmxSupported := true
  isXstateSaveAreaSupported := true
  guestStateAllocated := true
  constructsEpt := fun _ => true
  genericCallDpcWaits := true
  testVmcall := statusSuccess

def Environment.refusedLaunch : Environment :=
  { Environment.willing with
    processor := fun _ => { ProcessorEnvironment.willing with vmlaunch := false }
    testVmcall := statusUnsuccessful }

/-- The error of a launch that failed is read after VMXOFF. -/
theorem not_vmxLegal_of_refusedLaunch :
    ¬ ∀ (env : Environment), ∀ i < env.processorCount, env.VmxLegal i := by
  intro h
  have hlegal := h Environment.refusedLaunch 0 Nat.one_pos
  exact absurd hlegal (by unfold Environment.VmxLegal; decide)

end NovaHypervisor

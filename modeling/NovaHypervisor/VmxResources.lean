import NovaHypervisor.VmxOperation

/-!
The resources of VMX, from its start to its end. A monitor of each resource lets it be
acquired once, used while it is live and released once. The parts of a broadcast are
observed for one processor at a time. Where the launch is reached, or the support is
missing, VMX gives back all that it has acquired. Where an instance of the tables fails,
the array of guest states is used after its release.
-/
namespace NovaHypervisor

open General

/-- The monitor of one resource over the driver's events. -/
def resourceMonitor (r : DriverResource) (status : ResourceStatus) :
    DriverEvent → Option ResourceStatus
  | .resource event => resourceStep r status event
  | .vmx _ _ => some status

@[simp] theorem resourceMonitor_acquire (r r' : DriverResource) (status : ResourceStatus) :
    resourceMonitor r status (.acquire r') =
      if r' = r then (if status = .fresh then some .live else none) else some status := rfl

@[simp] theorem resourceMonitor_access (r r' : DriverResource) (status : ResourceStatus) :
    resourceMonitor r status (.access r') =
      if r' = r then (if status = .live then some .live else none) else some status := rfl

@[simp] theorem resourceMonitor_release (r r' : DriverResource) (status : ResourceStatus) :
    resourceMonitor r status (.release r') =
      if r' = r then (if status = .live then some .released else none) else some status := rfl

@[simp] theorem resourceMonitor_vmx (r : DriverResource) (status : ResourceStatus) (i : ℕ)
    (instruction : VmxInstruction) :
    resourceMonitor r status (.vmx i instruction) = some status := rfl

theorem observe_vmx_cons (r : DriverResource) (status : ResourceStatus) (i : ℕ)
    (instruction : VmxInstruction) (events : List DriverEvent) :
    observe (resourceMonitor r) status (.vmx i instruction :: events) =
      observe (resourceMonitor r) status events := rfl

theorem observe_resourceMonitor_replicate (r : DriverResource) (status : ResourceStatus)
    (n i : ℕ) (instruction : VmxInstruction) :
    observe (resourceMonitor r) status (List.replicate n (.vmx i instruction)) = some status :=
  observe_stays fun e he => by rw [List.eq_of_mem_replicate he, resourceMonitor_vmx]

/-- VMX has given back its own resources, and left the driver's other ones as they are. -/
structure Contained (events : List DriverEvent) : Prop where
  own : ∀ r, r = .guestState ∨ r.processor ≠ none →
    ∃ status, observe (resourceMonitor r) .fresh events = some status ∧ status ≠ .live
  other : ∀ r status, r ≠ .guestState → r.processor = none →
    (r = .poolManager → status = .live) →
      observe (resourceMonitor r) status events = some status

/-- A processor's part leaves another's resources alone and only uses what is shared. -/
theorem observe_resourceMonitor_of {r : DriverResource} {j : ℕ} {events : List DriverEvent}
    {status : ResourceStatus} (h : ∀ e ∈ events, e.Of j) (hr : r.processor ≠ some j)
    (hshared : r = .guestState ∨ r = .poolManager → status = .live) :
    observe (resourceMonitor r) status events = some status := by
  refine observe_stays fun e he => ?_
  have hof := h e he
  cases e with
  | vmx k instruction => rfl
  | resource event =>
    cases event with
    | acquire r' =>
      have hne : r' ≠ r := fun heq => hr (heq ▸ hof)
      exact if_neg hne
    | release r' =>
      have hne : r' ≠ r := fun heq => hr (heq ▸ hof)
      exact if_neg hne
    | access r' =>
      by_cases heq : r' = r
      · subst heq
        have hlive := hshared (or_assoc.mpr hof |>.resolve_right hr)
        exact (if_pos rfl).trans ((if_pos hlive).trans (congrArg some hlive.symm))
      · exact if_neg heq

/-- Whether the field for a processor's memory is set. -/
def ProcessorState.holds (state : ProcessorState) : DriverResource → Bool
  | .vmxonRegion _ => state.vmxonRegion
  | .vmcsRegion _ => state.vmcsRegion
  | .vmmStack _ => state.vmmStack
  | .msrBitmap _ => state.msrBitmap
  | _ => false

namespace ProcessorEnvironment

open DriverEvent

variable (i : ℕ) (p : ProcessorEnvironment)

/-- The memory that a processor allocates for itself. -/
def regions : List DriverResource := [.vmxonRegion i, .vmcsRegion i, .vmmStack i, .msrBitmap i]

theorem ne_of_mem_regions {r : DriverResource} (hr : r ∈ regions i) :
    r ≠ .guestState ∧ r ≠ .poolManager ∧ r ≠ .eptInstance i := by
  simp only [regions, List.mem_cons, List.not_mem_nil, or_false] at hr
  rcases hr with rfl | rfl | rfl | rfl <;> simp

theorem holds_zero_of_mem_regions {r : DriverResource} (hr : r ∈ regions i) :
    { ProcessorState.zero with eptInstance := true }.holds r = false := by
  simp only [regions, List.mem_cons, List.not_mem_nil, or_false] at hr
  rcases hr with rfl | rfl | rfl | rfl <;> rfl

theorem holds_isLaunched (state : ProcessorState) (launched : Bool) (r : DriverResource) :
    { state with isLaunched := launched }.holds r = state.holds r := by
  cases r <;> rfl

def regionResource : RegionType → DriverResource
  | .vmxonRegion => .vmxonRegion i
  | .vmcsRegion => .vmcsRegion i

/-- A region that could not be set up is given back. -/
theorem observe_allocateRegion (type : RegionType) :
    ∃ status, observe (resourceMonitor (regionResource i type)) .fresh
      (p.allocateRegion i type).2 = some status ∧
        (status = .live ↔ (p.allocateRegion i type).1 = true) := by
  cases type with
  | vmxonRegion =>
    dsimp only [allocateRegion, regionResource]
    split_ifs <;> simp
  | vmcsRegion =>
    dsimp only [allocateRegion, regionResource]
    split_ifs <;> simp

theorem observe_allocateRegion_of_ne {type : RegionType} {r : DriverResource}
    (hne : r ≠ regionResource i type) (hguest : r ≠ .guestState) (status : ResourceStatus) :
    observe (resourceMonitor r) status (p.allocateRegion i type).2 = some status := by
  cases type with
  | vmxonRegion =>
    dsimp only [allocateRegion, regionResource] at hne ⊢
    split_ifs <;> simp [hne.symm, hguest.symm]
  | vmcsRegion =>
    dsimp only [allocateRegion, regionResource] at hne ⊢
    split_ifs <;> simp [hne.symm, hguest.symm]

theorem observe_allocateVmStructures_eptInstance (state : ProcessorState)
    (status : ResourceStatus) :
    observe (resourceMonitor (.eptInstance i)) status (p.allocateVmStructures i state).2.2 =
      some status := by
  have hregion : ∀ type, observe (resourceMonitor (.eptInstance i)) status
      (p.allocateRegion i type).2 = some status := by
    intro type
    refine observe_allocateRegion_of_ne i p ?_ DriverResource.noConfusion status
    cases type <;> exact DriverResource.noConfusion
  dsimp only [allocateVmStructures]
  split_ifs <;> simp [observe_append, hregion]

/-- A region is live after the allocation just when its field is set. -/
theorem observe_allocateVmStructures_region {r : DriverResource} (hr : r ∈ regions i)
    {state : ProcessorState} (hstate : state.holds r = false) :
    ∃ status, observe (resourceMonitor r) .fresh (p.allocateVmStructures i state).2.2 =
      some status ∧ (status = .live ↔ (p.allocateVmStructures i state).2.1.holds r = true) := by
  obtain ⟨vmxon, hvmxon, hvmxonLive⟩ := observe_allocateRegion i p .vmxonRegion
  obtain ⟨vmcs, hvmcs, hvmcsLive⟩ := observe_allocateRegion i p .vmcsRegion
  have hother := @observe_allocateRegion_of_ne i p
  simp only [regions, List.mem_cons, List.not_mem_nil, or_false] at hr
  dsimp only [allocateVmStructures]
  rcases hr with rfl | rfl | rfl | rfl
  · split_ifs <;> simp_all [ProcessorState.holds, observe_append, regionResource]
  · split_ifs <;> simp_all [ProcessorState.holds, observe_append, regionResource]
  · split_ifs <;> simp_all [ProcessorState.holds, observe_append, regionResource]
  · split_ifs <;> simp_all [ProcessorState.holds, observe_append, regionResource]

/-- The driver's VMCALL in root mode uses the guest state only. -/
theorem observe_vmxVmxoff_of_ne {r : DriverResource} (hr : r ≠ .guestState)
    (status : ResourceStatus) :
    observe (resourceMonitor r) status (p.vmxVmxoff i) = some status := by
  unfold vmxVmxoff clearVmcsState
  split_ifs <;> simp [hr.symm]

theorem observe_freeVmState_of_holds {r : DriverResource} (hr : r ∈ regions i)
    {state : ProcessorState} (hholds : state.holds r = true) :
    observe (resourceMonitor r) .live (freeVmState i state) = some .released := by
  simp only [regions, List.mem_cons, List.not_mem_nil, or_false] at hr
  rcases hr with rfl | rfl | rfl | rfl
  all_goals
    simp only [ProcessorState.holds] at hholds
    simp [freeVmState, observe_append, observe_ite, hholds]

theorem observe_freeVmState_of_not_holds {r : DriverResource} (hr : r ∈ regions i)
    {state : ProcessorState} (hholds : state.holds r = false) (status : ResourceStatus) :
    observe (resourceMonitor r) status (freeVmState i state) = some status := by
  simp only [regions, List.mem_cons, List.not_mem_nil, or_false] at hr
  rcases hr with rfl | rfl | rfl | rfl
  all_goals
    simp only [ProcessorState.holds] at hholds
    simp [freeVmState, observe_append, observe_ite, hholds]

/-- The end of VMX frees the regions whose fields are set. -/
theorem observe_vmxTerminate_region {r : DriverResource} (hr : r ∈ regions i)
    {state : ProcessorState} {status : ResourceStatus}
    (hstatus : status = .live ↔ state.holds r = true) :
    ∃ status', observe (resourceMonitor r) status (p.vmxTerminate i true state) =
      some status' ∧ status' ≠ .live := by
  obtain ⟨hguest, _⟩ := ne_of_mem_regions i hr
  have hfree : observe (resourceMonitor r) status (p.vmxTerminate i true state) =
      observe (resourceMonitor r) status (freeVmState i state) := by
    rw [vmxTerminate, if_pos rfl, List.cons_append, observe_cons, resourceMonitor_vmx,
      Option.bind_some, observe_append, observe_ite, observe_vmxVmxoff_of_ne i p hguest,
      observe_nil, ite_self, Option.bind_some]
  rw [hfree]
  by_cases hholds : state.holds r = true
  · rw [hstatus.mpr hholds]
    exact ⟨.released, observe_freeVmState_of_holds i hr hholds, ResourceStatus.noConfusion⟩
  · refine ⟨status, ?_, fun hlive => hholds (hstatus.mp hlive)⟩
    exact observe_freeVmState_of_not_holds i hr (Bool.eq_false_iff.mpr hholds) status

theorem observe_vmxTerminate_eptInstance (guestStatePointer : Bool) (state : ProcessorState)
    (status : ResourceStatus) :
    observe (resourceMonitor (.eptInstance i)) status
      (p.vmxTerminate i guestStatePointer state) = some status := by
  have hvmxoff := observe_vmxVmxoff_of_ne i p (r := .eptInstance i) DriverResource.noConfusion
  simp [vmxTerminate, freeVmState, observe_append, observe_ite, hvmxoff]

theorem observe_virtualizeProcessor_eptInstance (state : ProcessorState) :
    observe (resourceMonitor (.eptInstance i)) .live (p.virtualizeProcessor i state).2 =
      some .live := by
  have hsetup : observe (resourceMonitor (.eptInstance i)) .live (p.setupVmcs i) = some .live := by
    simp [setupVmcs, observe_resourceMonitor_replicate]
  unfold virtualizeProcessor clearVmcsState
  dsimp only
  split_ifs <;> simp [observe_append, hsetup]

theorem observe_virtualizeProcessor_region {r : DriverResource} (hr : r ∈ regions i)
    (state : ProcessorState) (status : ResourceStatus) :
    observe (resourceMonitor r) status (p.virtualizeProcessor i state).2 = some status := by
  obtain ⟨hguest, _, hept⟩ := ne_of_mem_regions i hr
  have hsetup : observe (resourceMonitor r) status (p.setupVmcs i) = some status := by
    simp [setupVmcs, observe_resourceMonitor_replicate, hguest.symm, hept.symm]
  unfold virtualizeProcessor clearVmcsState
  dsimp only
  split_ifs <;> simp [observe_append, hsetup, hguest.symm]

end ProcessorEnvironment

namespace Environment

open DriverEvent ProcessorEnvironment

variable (env : Environment)

/-- A broadcast leaves what it does not own as it is. -/
theorem observe_broadcast_stays {r : DriverResource} {part : ℕ → List DriverEvent}
    {status : ResourceStatus} (hpart : ∀ j < env.processorCount, ∀ e ∈ part j, e.Of j)
    (hr : ∀ j < env.processorCount, r.processor ≠ some j)
    (hshared : r = .guestState ∨ r = .poolManager → status = .live) :
    observe (resourceMonitor r) status ((List.range env.processorCount).flatMap part) =
      some status := by
  refine observe_flatMap_stays fun j hj => ?_
  have hj := List.mem_range.mp hj
  exact observe_resourceMonitor_of (hpart j hj) (hr j hj) hshared

/-- Of a broadcast, a processor's resource sees the processor's own part. -/
theorem observe_broadcast_own {r : DriverResource} {i : ℕ} (hr : r.processor = some i)
    (hi : i < env.processorCount) {part : ℕ → List DriverEvent}
    (hpart : ∀ j, ∀ e ∈ part j, e.Of j) (status : ResourceStatus) :
    observe (resourceMonitor r) status ((List.range env.processorCount).flatMap part) =
      observe (resourceMonitor r) status (part i) := by
  refine observe_flatMap_of_mem List.nodup_range (List.mem_range.mpr hi) ?_
  intro j _ hne status'
  refine observe_resourceMonitor_of (hpart j) (fun h => hne ?_) fun hshared => ?_
  · exact Option.some.inj (h.symm.trans hr)
  · rcases hshared with rfl | rfl
    · exact absurd hr (Option.some_ne_none i).symm
    · exact absurd hr (Option.some_ne_none i).symm

theorem of_constructEpt (j : ℕ) : ∀ e ∈ constructEpt j, e.Of j := by
  simp [constructEpt]

/-- The processor's part in the broadcast that launches. -/
def launchOn (i : ℕ) : Bool × List DriverEvent :=
  (env.processor i).virtualizeProcessor i (env.allocateOn i).2.1

def terminateOn (i : ℕ) : List DriverEvent :=
  (env.processor i).vmxTerminate i true
    { (env.allocateOn i).2.1 with isLaunched := (env.launchOn i).1 }

theorem of_launchOn (j : ℕ) : ∀ e ∈ (env.launchOn j).2, e.Of j :=
  of_virtualizeProcessor j (env.processor j) _

theorem of_terminateOn (j : ℕ) : ∀ e ∈ env.terminateOn j, e.Of j :=
  of_vmxTerminate j (env.processor j) true _

theorem of_deleteOn (j : ℕ) : ∀ e ∈ access .guestState :: deleteEpt j, e.Of j := by
  simp [deleteEpt]

theorem allocateOn_eptInstance (i : ℕ) : (env.allocateOn i).2.1.eptInstance = true := by
  dsimp only [allocateOn, allocateVmStructures]
  split_ifs <;> rfl

/-- The trace from the start to the end of VMX where the launch is reached. -/
def launchedLifetime : List DriverEvent :=
  acquire .guestState :: ((List.range env.processorCount).flatMap constructEpt ++
    ((List.range env.processorCount).flatMap (fun i => (env.allocateOn i).2.2) ++
      ((List.range env.processorCount).flatMap (fun i => (env.launchOn i).2) ++
        .vmx env.currentProcessor .vmcallTest ::
          ((List.range env.processorCount).flatMap env.terminateOn ++
            ((List.range env.processorCount).flatMap (fun i => access .guestState :: deleteEpt i) ++
              [release .guestState])))))

theorem vmxLifetime_of_launch (hconstructs : env.ConstructsEpts)
    (hinitializer : env.vmxInitializer = (some true, ⟨true, fun i => (env.allocateOn i).2.1⟩,
      acquire .guestState :: env.constructEpts.2 ++
        (List.range env.processorCount).flatMap fun i => (env.allocateOn i).2.2)) :
    env.vmxLifetime = env.launchedLifetime := by
  have hconstruct : env.constructEpts.2 = (List.range env.processorCount).flatMap constructEpt := by
    have hnone := env.constructEpts_eq_none_iff.mpr hconstructs
    unfold constructEpts at hnone ⊢
    split at hnone
    · rfl
    · exact absurd hnone (Option.some_ne_none _)
  rw [vmxLifetime, vmxInitialize, hinitializer]
  dsimp only [terminateVmx, launchedLifetime]
  simp only [hconstruct, allocateOn_eptInstance, if_true, List.cons_append, List.append_assoc,
    List.nil_append]
  rfl

/-- A resource of a processor sees the processor's own parts one after the other. -/
theorem observe_launchedLifetime_own {r : DriverResource} {i : ℕ} (hr : r.processor = some i)
    (hi : i < env.processorCount) :
    observe (resourceMonitor r) .fresh env.launchedLifetime =
      observe (resourceMonitor r) .fresh (constructEpt i ++ ((env.allocateOn i).2.2 ++
        ((env.launchOn i).2 ++ (env.terminateOn i ++ (access .guestState :: deleteEpt i))))) := by
  have hguest : DriverResource.guestState ≠ r := by
    intro h
    simp [← h] at hr
  have hrelease : ∀ status,
      observe (resourceMonitor r) status [release .guestState] = some status := by
    intro status
    rw [observe_cons, resourceMonitor_release, if_neg hguest]
    rfl
  rw [launchedLifetime, observe_cons, resourceMonitor_acquire, if_neg hguest, Option.bind_some]
  have hown := @env.observe_broadcast_own r i hr hi
  simp only [observe_append, observe_vmx_cons, hown of_constructEpt, hown env.of_allocateOn,
    hown env.of_launchOn, hown env.of_terminateOn, hown of_deleteOn, hrelease,
    Option.bind_fun_some]

/-- A resource that no processor owns stays as it is, if what is shared is live. -/
theorem observe_launchedLifetime_other {r : DriverResource}
    (hr : ∀ j < env.processorCount, r.processor ≠ some j) (hguest : r ≠ .guestState)
    {status : ResourceStatus} (hpool : r = .poolManager → status = .live) :
    observe (resourceMonitor r) status env.launchedLifetime = some status := by
  have hshared : r = .guestState ∨ r = .poolManager → status = .live :=
    fun h => hpool (h.resolve_left hguest)
  have hstays : ∀ part : ℕ → List DriverEvent, (∀ j, ∀ e ∈ part j, e.Of j) →
      observe (resourceMonitor r) status ((List.range env.processorCount).flatMap part) =
        some status :=
    fun part hpart => env.observe_broadcast_stays (fun j _ => hpart j) hr hshared
  rw [launchedLifetime, observe_cons, resourceMonitor_acquire, if_neg hguest.symm,
    Option.bind_some]
  simp only [observe_append, observe_vmx_cons, hstays _ of_constructEpt,
    hstays _ env.of_allocateOn, hstays _ env.of_launchOn, hstays _ env.of_terminateOn,
    hstays _ of_deleteOn, Option.bind_some]
  rw [observe_cons, resourceMonitor_release, if_neg hguest.symm]
  rfl

/-- The array of guest states is used while it is live and released at the end. -/
theorem observe_launchedLifetime_guestState :
    observe (resourceMonitor .guestState) .fresh env.launchedLifetime = some .released := by
  have hstays : ∀ part : ℕ → List DriverEvent, (∀ j, ∀ e ∈ part j, e.Of j) →
      observe (resourceMonitor .guestState) .live
        ((List.range env.processorCount).flatMap part) = some .live :=
    fun part hpart => env.observe_broadcast_stays (fun j _ => hpart j)
      (fun _ _ => (Option.some_ne_none _).symm) fun _ => rfl
  rw [launchedLifetime, observe_cons, resourceMonitor_acquire, if_pos rfl, if_pos rfl,
    Option.bind_some]
  simp only [observe_append, observe_vmx_cons, hstays _ of_constructEpt,
    hstays _ env.of_allocateOn, hstays _ env.of_launchOn, hstays _ env.of_terminateOn,
    hstays _ of_deleteOn, Option.bind_some]
  rfl

theorem mem_regions_of_processor {r : DriverResource} {i : ℕ} (hr : r.processor = some i) :
    r = .eptInstance i ∨ r ∈ regions i := by
  cases r <;> simp_all [regions]

/-- Each processor gives back what it has acquired. -/
theorem observe_launchedLifetime_processor {r : DriverResource} {i : ℕ}
    (hr : r.processor = some i) (hi : i < env.processorCount) :
    ∃ status, observe (resourceMonitor r) .fresh env.launchedLifetime = some status ∧
      status ≠ .live := by
  rw [env.observe_launchedLifetime_own hr hi]
  rcases mem_regions_of_processor hr with rfl | hregion
  · have hallocate : observe (resourceMonitor (.eptInstance i)) .live (env.allocateOn i).2.2 =
        some .live := observe_allocateVmStructures_eptInstance i (env.processor i) _ .live
    have hlaunch : observe (resourceMonitor (.eptInstance i)) .live (env.launchOn i).2 =
        some .live := observe_virtualizeProcessor_eptInstance i (env.processor i) _
    have hterminate : observe (resourceMonitor (.eptInstance i)) .live (env.terminateOn i) =
        some .live := observe_vmxTerminate_eptInstance i (env.processor i) true _ .live
    refine ⟨.released, ?_, ResourceStatus.noConfusion⟩
    have hconstruct : observe (resourceMonitor (.eptInstance i)) .fresh (constructEpt i) =
        some .live := by simp [constructEpt]
    rw [observe_append, hconstruct, Option.bind_some, observe_append, hallocate,
      Option.bind_some, observe_append, hlaunch, Option.bind_some, observe_append, hterminate,
      Option.bind_some]
    simp [deleteEpt]
  · obtain ⟨hguest, hpool, hept⟩ := ne_of_mem_regions i hregion
    have hconstruct : observe (resourceMonitor r) .fresh (constructEpt i) = some .fresh := by
      simp [constructEpt, hguest.symm, hpool.symm, hept.symm]
    have hdelete : ∀ status, observe (resourceMonitor r) status
        (access .guestState :: deleteEpt i) = some status := by
      simp [deleteEpt, hguest.symm, hpool.symm, hept.symm]
    obtain ⟨status, hallocate, hlive⟩ : ∃ status, observe (resourceMonitor r) .fresh
        (env.allocateOn i).2.2 = some status ∧
          (status = .live ↔ (env.allocateOn i).2.1.holds r = true) :=
      observe_allocateVmStructures_region i (env.processor i) hregion
        (holds_zero_of_mem_regions i hregion)
    have hlaunch : observe (resourceMonitor r) status (env.launchOn i).2 = some status :=
      observe_virtualizeProcessor_region i (env.processor i) hregion _ status
    obtain ⟨status', hterminate, hreleased⟩ : ∃ status', observe (resourceMonitor r) status
        (env.terminateOn i) = some status' ∧ status' ≠ .live :=
      observe_vmxTerminate_region i (env.processor i) hregion
        (hlive.trans (Bool.eq_iff_iff.mp (holds_isLaunched _ (env.launchOn i).1 r).symm))
    refine ⟨status', ?_, hreleased⟩
    rw [observe_append, hconstruct, Option.bind_some, observe_append, hallocate,
      Option.bind_some, observe_append, hlaunch, Option.bind_some, observe_append, hterminate,
      Option.bind_some, hdelete]

/-- Without a launch the end of VMX only makes its VMCALLs. -/
theorem observe_vmxLifetime_of_not_construction
    (hinitializer : env.vmxInitializer = (some false, ⟨false, fun _ => .zero⟩, []))
    (r : DriverResource) (status : ResourceStatus) :
    observe (resourceMonitor r) status env.vmxLifetime = some status := by
  rw [vmxLifetime, vmxInitialize, hinitializer]
  dsimp only [terminateVmx]
  rw [List.nil_append, if_neg Bool.false_ne_true, List.append_nil]
  exact observe_flatMap_stays fun _ _ => rfl

/-- Where an instance fails, the array is released and then used through its pointer. -/
theorem observe_vmxLifetime_guestState_of_failure (hconstructs : ¬ env.ConstructsEpts)
    (hinitializer : env.vmxInitializer =
      (some false, ⟨true, fun _ => .zero⟩, acquire .guestState :: env.constructEpts.2)) :
    observe (resourceMonitor .guestState) .fresh env.vmxLifetime = none := by
  have hreleased : observe (resourceMonitor .guestState) .live env.constructEpts.2 =
      some .released := by
    have hconstruct : ∀ k, observe (resourceMonitor .guestState) .live
        ((List.range k).flatMap constructEpt) = some .live :=
      fun k => observe_flatMap_stays fun i _ => by simp [constructEpt]
    have hdelete : ∀ k, observe (resourceMonitor .guestState) .live
        ((List.range k).flatMap fun i => access .guestState :: deleteEpt i) = some .live :=
      fun k => observe_flatMap_stays fun i _ => by simp [deleteEpt]
    have hfails := mt env.constructEpts_eq_none_iff.mp hconstructs
    unfold constructEpts at hfails ⊢
    split at hfails
    · exact absurd rfl hfails
    · dsimp only
      rw [observe_append, observe_append, hconstruct, Option.bind_some, hdelete]
      rfl
  have hused : observe (resourceMonitor .guestState) .released
      (env.terminateVmx ⟨true, fun _ => .zero⟩) = none := by
    obtain ⟨n, hn⟩ := Nat.exists_eq_add_of_lt env.current_lt
    rw [terminateVmx, hn, List.range_succ_eq_map, List.flatMap_cons, observe_append,
      observe_append]
    rfl
  rw [vmxLifetime, vmxInitialize, hinitializer]
  dsimp only
  rw [List.cons_append, observe_cons, resourceMonitor_acquire, if_pos rfl, if_pos rfl,
    Option.bind_some, observe_append, hreleased, Option.bind_some, hused]

theorem contained_of_not_construction
    (hinitializer : env.vmxInitializer = (some false, ⟨false, fun _ => .zero⟩, [])) :
    Contained env.vmxLifetime where
  own r _ := ⟨.fresh, env.observe_vmxLifetime_of_not_construction hinitializer r .fresh,
    ResourceStatus.noConfusion⟩
  other r status _ _ _ := env.observe_vmxLifetime_of_not_construction hinitializer r status

theorem contained_launchedLifetime : Contained env.launchedLifetime where
  own r hr := by
    rcases hr with rfl | hr
    · exact ⟨.released, env.observe_launchedLifetime_guestState, ResourceStatus.noConfusion⟩
    · obtain ⟨i, hi⟩ := Option.ne_none_iff_exists'.mp hr
      by_cases hlt : i < env.processorCount
      · exact env.observe_launchedLifetime_processor hi hlt
      · have hguest : r ≠ .guestState := by
          intro h
          simp [h] at hi
        have hpool : r ≠ .poolManager := by
          intro h
          simp [h] at hi
        refine ⟨.fresh, ?_, ResourceStatus.noConfusion⟩
        refine env.observe_launchedLifetime_other (fun j hj h => ?_) hguest
          fun h => absurd h hpool
        exact hlt (Option.some.inj (hi.symm.trans h) ▸ hj)
  other r status hguest hr hpool := by
    refine env.observe_launchedLifetime_other (fun j _ h => ?_) hguest hpool
    rw [hr] at h
    exact (Option.some_ne_none j).symm h

end Environment

end NovaHypervisor

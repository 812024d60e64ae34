import NovaHypervisor.General.Run
import NovaHypervisor.PoolManager

/-!
The allocation worker beside the constructor that creates it. The constructor sets
`running` after the creation, and the worker reads it after each of its turns: a worker
whose first turn ends before the constructor goes on leaves its loop for good.
-/
namespace NovaHypervisor

open General

/-- The next statement of the constructor. An exception ends it. -/
inductive ConstructorStage where
  | createAllocationThread
  | setRunning
  | createFreeThread
  | constructed
  | raised
  deriving DecidableEq

/-- Where the worker stands in its loop; the loop's own test follows the read of
`running` at once. -/
inductive WorkerStage where
  | absent
  | listSize
  | sleep
  | pop
  | allocate (type : AllocationType)
  | updateRunning
  | left
  deriving DecidableEq

structure StartupState (β : Type*) where
  manager : PoolManager
  memory : Pvoid → β
  running : Bool
  stage : ConstructorStage
  worker : WorkerStage
  /-- Whether StopThreads has cleared `running`. -/
  cleared : Bool

/-- The answers of the kernel are part of the actions. -/
inductive StartupAction where
  | createAllocationThread (succeeds : Bool)
  | setRunning
  | createFreeThread (succeeds : Bool)
  | worker (buffer : Option Pvoid)
  | allocate (type : AllocationType) (stage : PoolManager.AllocateStage)
  | stopThreads

namespace StartupState

variable {β : Type*} [Zero β]

def initial (manager : PoolManager) (memory : Pvoid → β) : StartupState β :=
  ⟨manager, memory, false, .createAllocationThread, .absent, false⟩

/-- One step of ProcessAllocation. The lock of `running` makes its read one step. -/
def processAllocation (s : StartupState β) (buffer : Option Pvoid) : Option (StartupState β) :=
  match s.worker with
  | .absent => none
  | .listSize =>
    if s.manager.allocationRequests.getListSize = 0 then some { s with worker := .sleep }
    else some { s with worker := .pop }
  | .sleep => some { s with worker := .updateRunning }
  | .pop =>
    let (type, requests) := s.manager.allocationRequests.pop
    some { s with
      manager := { s.manager with allocationRequests := requests }
      worker := .allocate type }
  | .allocate type =>
    let (_, manager, memory) := s.manager.allocateInternal s.memory type buffer
    some { s with manager := manager, memory := memory, worker := .updateRunning }
  | .updateRunning =>
    if s.running then some { s with worker := .listSize } else some { s with worker := .left }
  | .left => none

/-- StopThreads is called by the destructor, so only after the construction. -/
def step (s : StartupState β) : StartupAction → Option (StartupState β)
  | .createAllocationThread succeeds =>
    if s.stage ≠ .createAllocationThread then none
    else if succeeds then some { s with stage := .setRunning, worker := .listSize }
    else some { s with stage := .raised }
  | .setRunning =>
    if s.stage ≠ .setRunning then none
    else some { s with stage := .createFreeThread, running := true }
  | .createFreeThread succeeds =>
    if s.stage ≠ .createFreeThread then none
    else if succeeds then some { s with stage := .constructed }
    else some { s with stage := .raised }
  | .worker buffer => s.processAllocation buffer
  | .allocate type stage =>
    if s.stage ≠ .constructed then none
    else some { s with manager := (PoolManager.allocateStep type stage s.manager).2 }
  | .stopThreads =>
    if s.stage ≠ .constructed then none
    else if s.running then some { s with running := false, cleared := true }
    else some s

def WorkerLives (s : StartupState β) : Prop := s.worker = .left → s.cleared = true

def ReadsAfterStart (s : StartupState β) : StartupAction → Prop
  | .worker _ => s.worker = .updateRunning → s.stage ≠ .setRunning
  | _ => True

omit [Zero β] in
instance (s : StartupState β) (action : StartupAction) : Decidable (s.ReadsAfterStart action) :=
  match action with
  | .worker _ => inferInstanceAs (Decidable (_ → _))
  | .createAllocationThread _ => instDecidableTrue
  | .setRunning => instDecidableTrue
  | .createFreeThread _ => instDecidableTrue
  | .allocate _ _ => instDecidableTrue
  | .stopThreads => instDecidableTrue

/-- What the worker relies on: there is none before its creation, `running` is false until
the constructor sets it, and then true until it is cleared. -/
structure Started (s : StartupState β) : Prop where
  absent : s.stage = .createAllocationThread → s.worker = .absent
  unset : s.stage = .createAllocationThread ∨ s.stage = .setRunning →
    s.running = false ∧ s.cleared = false
  set : s.worker ≠ .absent → s.stage ≠ .setRunning → s.running = true ∨ s.cleared = true

omit [Zero β] in
theorem started_initial (manager : PoolManager) (memory : Pvoid → β) :
    (initial manager memory).Started := by
  constructor <;> simp [initial]

/-- A step of the worker moves the worker and the pool, and leaves the loop where it reads
that `running` is false. -/
theorem processAllocation_frame {s s' : StartupState β} {buffer : Option Pvoid}
    (h : s.processAllocation buffer = some s') :
    s'.stage = s.stage ∧ s'.running = s.running ∧ s'.cleared = s.cleared ∧
      s.worker ≠ .absent ∧ s'.worker ≠ .absent ∧
      (s'.worker = .left ↔ s.worker = .updateRunning ∧ s.running = false) := by
  unfold processAllocation at h
  cases hworker : s.worker with
  | absent => simp [hworker] at h
  | listSize =>
    simp only [hworker] at h
    split_ifs at h <;> obtain rfl := Option.some.inj h <;> simp
  | sleep =>
    simp only [hworker] at h
    obtain rfl := Option.some.inj h
    simp
  | pop =>
    simp only [hworker] at h
    obtain rfl := Option.some.inj h
    simp
  | allocate type =>
    simp only [hworker] at h
    obtain rfl := Option.some.inj h
    simp
  | updateRunning =>
    simp only [hworker] at h
    split_ifs at h with hrunning <;> obtain rfl := Option.some.inj h <;> simp [hrunning]
  | left => simp [hworker] at h

inductive StepOutcome (s : StartupState β) : StartupAction → StartupState β → Prop
  | allocationThread (hstage : s.stage = .createAllocationThread) :
      StepOutcome s (.createAllocationThread true)
        { s with stage := .setRunning, worker := .listSize }
  | noAllocationThread (hstage : s.stage = .createAllocationThread) :
      StepOutcome s (.createAllocationThread false) { s with stage := .raised }
  | setRunning (hstage : s.stage = .setRunning) :
      StepOutcome s .setRunning { s with stage := .createFreeThread, running := true }
  | freeThread (hstage : s.stage = .createFreeThread) :
      StepOutcome s (.createFreeThread true) { s with stage := .constructed }
  | noFreeThread (hstage : s.stage = .createFreeThread) :
      StepOutcome s (.createFreeThread false) { s with stage := .raised }
  | worker {buffer : Option Pvoid} {s' : StartupState β}
      (hturn : s.processAllocation buffer = some s') : StepOutcome s (.worker buffer) s'
  | allocate (type : AllocationType) (stage : PoolManager.AllocateStage) :
      StepOutcome s (.allocate type stage)
        { s with manager := (PoolManager.allocateStep type stage s.manager).2 }
  | stopped (hstage : s.stage = .constructed) :
      StepOutcome s .stopThreads { s with running := false, cleared := true }
  | alreadyStopped : StepOutcome s .stopThreads s

theorem step_cases {s s' : StartupState β} {action : StartupAction}
    (h : s.step action = some s') : s.StepOutcome action s' := by
  cases action with
  | createAllocationThread succeeds =>
    simp only [step] at h
    split_ifs at h with hstage hcreated <;> obtain rfl := Option.some.inj h
    · rw [hcreated]
      exact .allocationThread (not_not.mp hstage)
    · rw [eq_false_of_ne_true hcreated]
      exact .noAllocationThread (not_not.mp hstage)
  | setRunning =>
    simp only [step] at h
    split_ifs at h with hstage
    obtain rfl := Option.some.inj h
    exact .setRunning (not_not.mp hstage)
  | createFreeThread succeeds =>
    simp only [step] at h
    split_ifs at h with hstage hcreated <;> obtain rfl := Option.some.inj h
    · rw [hcreated]
      exact .freeThread (not_not.mp hstage)
    · rw [eq_false_of_ne_true hcreated]
      exact .noFreeThread (not_not.mp hstage)
  | worker buffer => exact .worker h
  | allocate type stage =>
    simp only [step] at h
    split_ifs at h
    obtain rfl := Option.some.inj h
    exact .allocate type stage
  | stopThreads =>
    simp only [step] at h
    split_ifs at h with hstage hrunning <;> obtain rfl := Option.some.inj h
    · exact .stopped (not_not.mp hstage)
    · exact .alreadyStopped

theorem Started.step {s s' : StartupState β} {action : StartupAction} (hs : s.Started)
    (h : s.step action = some s') : s'.Started := by
  cases step_cases h with
  | allocationThread hstage =>
    have hunset := hs.unset (Or.inl hstage)
    exact ⟨by simp, fun _ => hunset, by simp⟩
  | noAllocationThread hstage =>
    have habsent := hs.absent hstage
    exact ⟨by simp, by simp, fun h => absurd habsent h⟩
  | setRunning hstage => exact ⟨by simp, by simp, fun _ _ => Or.inl rfl⟩
  | freeThread hstage =>
    exact ⟨by simp, by simp, fun hworker _ => hs.set hworker (by simp [hstage])⟩
  | noFreeThread hstage =>
    exact ⟨by simp, by simp, fun hworker _ => hs.set hworker (by simp [hstage])⟩
  | worker hturn =>
    obtain ⟨hstage, hrunning, hcleared, habsent, habsent', -⟩ := processAllocation_frame hturn
    refine ⟨?_, ?_, ?_⟩
    · intro hfirst
      exact absurd (hs.absent (hstage ▸ hfirst)) habsent
    · rw [hstage, hrunning, hcleared]
      exact hs.unset
    · rw [hstage, hrunning, hcleared]
      exact fun _ => hs.set habsent
  | allocate type stage => exact ⟨hs.absent, hs.unset, hs.set⟩
  | stopped hstage => exact ⟨hs.absent, by simp [hstage], fun _ _ => Or.inr rfl⟩
  | alreadyStopped => exact hs

/-- The next step ends the worker too early exactly if it reads `running` too early. -/
theorem workerLives_step {s s' : StartupState β} {action : StartupAction} (hs : s.Started)
    (hlives : s.WorkerLives) (h : s.step action = some s') :
    s'.WorkerLives ↔ s.ReadsAfterStart action := by
  cases step_cases h with
  | allocationThread hstage => exact iff_of_true (by simp [WorkerLives]) trivial
  | worker hturn =>
    obtain ⟨-, -, hcleared, habsent, -, hleft⟩ := processAllocation_frame hturn
    rw [WorkerLives, hleft, hcleared, ReadsAfterStart]
    constructor
    · intro hkept hupdate hset
      obtain ⟨hoff, hnot⟩ := hs.unset (Or.inr hset)
      simp [hkept ⟨hupdate, hoff⟩] at hnot
    · rintro hguard ⟨hupdate, hoff⟩
      simpa [hoff] using hs.set habsent (hguard hupdate)
  | stopped hstage => exact iff_of_true (fun _ => rfl) trivial
  | _ => exact iff_of_true hlives trivial

def noRequests : PoolManager := ⟨[], [], RequestList.empty, RequestList.empty⟩

def earlyRead : StartupState ℕ :=
  execute step (initial noRequests fun _ => 0)
    [.createAllocationThread true, .worker none, .worker none, .worker none, .setRunning,
      .createFreeThread true]

theorem earlyRead_ends :
    (∃ actions, Run step (initial noRequests fun _ => 0) actions earlyRead) ∧
      ¬ earlyRead.WorkerLives := by
  refine ⟨exists_run_execute _ _ _, ?_⟩
  unfold WorkerLives
  decide

/-- In a run whose reads of `running` all follow its setting the worker lives until it is
stopped, and the next step ends it too early exactly if it reads before the setting. -/
theorem workerLives_of_readsAfterStart (manager : PoolManager) (memory : Pvoid → β)
    {actions : List StartupAction} {s : StartupState β}
    (hrun : GuardedRun step ReadsAfterStart (initial manager memory) actions s) :
    s.WorkerLives ∧
      ∀ action s', s.step action = some s' → (s'.WorkerLives ↔ s.ReadsAfterStart action) := by
  have hinv : s.Started ∧ s.WorkerLives := by
    have hinitial : (initial manager memory).WorkerLives := by simp [WorkerLives, initial]
    refine GuardedRun.invariant (I := fun s => s.Started ∧ s.WorkerLives) ?_ hrun
      ⟨started_initial manager memory, hinitial⟩
    rintro s action s' ⟨hs, hlives⟩ hguard hstep
    exact ⟨hs.step hstep, (workerLives_step hs hlives hstep).mpr hguard⟩
  exact ⟨hinv.2, fun action s' hstep => workerLives_step hinv.1 hinv.2 hstep⟩

theorem workerLives_of_readsAfterStart_stopped :
    (execute step (initial noRequests fun _ => 0 : StartupState ℕ)
      [.createAllocationThread true, .worker none, .setRunning, .createFreeThread true,
        .worker none, .stopThreads, .worker none]).WorkerLives := by
  have hallowed : allowed step ReadsAfterStart (initial noRequests fun _ => 0 : StartupState ℕ)
      [.createAllocationThread true, .worker none, .setRunning, .createFreeThread true,
        .worker none, .stopThreads, .worker none] = true := by decide
  exact (workerLives_of_readsAfterStart noRequests (fun _ => 0)
    (guardedRun_of_allowed hallowed)).1

end StartupState

end NovaHypervisor

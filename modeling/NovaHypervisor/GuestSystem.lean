import NovaHypervisor.ExitConduct
import NovaHypervisor.GuestProtection
import NovaHypervisor.QuietExits

/-!
The processors of a system, with one pool. Each runs its guest and handles its own
exits; the pool's two threads run beside them. Since a processor's exits are the work
of a caller of the pool, its neighbours see nothing of them but the pool's steps: every
run of the system is, for each processor, a run of that processor alone.
-/
namespace NovaHypervisor

open General

/-- What a processor has to itself. -/
structure GuestCore where
  ept : Ept
  guest : VmState
  eptPointer : Word
  tlb : Cache Word Translation
  guestRip : Option Word

structure GuestSystem (Processor : Type*) where
  pool : PoolState Processor PoolBuffer
  cores : Processor → GuestCore

inductive SystemAction (Processor : Type*) where
  | processor (i : Processor) (action : GuestAction Processor)
  | pool (action : PoolAction Processor PoolBuffer)

/-- The actions of the processor itself. -/
def GuestAction.IsOwn {Caller : Type*} : GuestAction Caller → Bool
  | .others _ => false
  | _ => true

namespace GuestCpu

variable {Caller : Type*}

def core (s : GuestCpu Caller) : GuestCore :=
  ⟨s.machine.ept, s.machine.guest, s.eptPointer, s.tlb, s.guestRip⟩

/-- The processor among other callers, with more history behind it. -/
def among (callers : Caller → CallerState) (past : List PoolEvent) (s : GuestCpu Caller) :
    GuestCpu Caller :=
  { s with machine := s.machine.among callers past }

variable [DecidableEq Caller] {os : Os} {kernelBaseInfo : KernelBaseInfo} {s s' : GuestCpu Caller}

theorem exit_among (os : Os) (kernelBaseInfo : KernelBaseInfo) (h : s.machine.Quiet)
    (callers : Caller → CallerState) (past : List PoolEvent) (exit : VmExit) :
    (s.among callers past).exit os kernelBaseInfo exit =
      (s.exit os kernelBaseInfo exit).map (among callers past) := by
  simp only [GuestCpu.exit, among, h.exitStep callers past os kernelBaseInfo exit,
    h.exitInvalidates callers past os kernelBaseInfo, Option.map_map]
  rfl

theorem violate_among (h : s.machine.Quiet) (callers : Caller → CallerState)
    (past : List PoolEvent) (access : GuestAccess) (t : Translation) (guestRip : Word) :
    (s.among callers past).violate os kernelBaseInfo access t guestRip =
      (s.violate os kernelBaseInfo access t guestRip).map (among callers past) := by
  have hexit := exit_among os kernelBaseInfo
    (s := { s with tlb := s.tlb.evict (pageAlign access.guestPhysicalAddr) }) h callers past
    (.eptViolation (access.qualification t) access.guestPhysicalAddr access.guestLinearAddress
      guestRip)
  simp only [violate, Option.map_map]
  exact (congrArg (Option.map _) hexit).trans (Option.map_map _ _ _)

/-- What a processor does itself does not depend on the other callers or on its history. -/
theorem step_among (h : s.machine.Quiet) (callers : Caller → CallerState) (past : List PoolEvent)
    {action : GuestAction Caller} (hown : action.IsOwn = true) :
    (s.among callers past).step os kernelBaseInfo action =
      (s.step os kernelBaseInfo action).map (among callers past) := by
  have hrip : (s.among callers past).guestRip = s.guestRip := rfl
  have hguest : (s.among callers past).machine.guest = s.machine.guest := rfl
  cases action with
  | fetch guestRip =>
    simp only [step, hrip, hguest]
    split <;> rfl
  | access access =>
    have htranslation : (s.among callers past).translation os access.guestPhysicalAddr =
      s.translation os access.guestPhysicalAddr := rfl
    simp only [step, hrip, htranslation]
    rcases s.guestRip with _ | guestRip
    · rfl
    rcases s.translation os access.guestPhysicalAddr with _ | t
    · rfl
    simp only [Option.bind_some]
    split
    · rfl
    · exact violate_among h callers past access t guestRip
  | retire =>
    simp only [step, hrip, hguest]
    rcases s.guestRip with _ | guestRip
    · rfl
    simp only [Option.bind_some]
    split
    · rw [exit_among os kernelBaseInfo h callers past, Option.map_map, Option.map_map]
      rfl
    · rfl
  | vmcall vmcallNumber optionalParam1 optionalParam2 =>
    simp only [step, hrip]
    rcases s.guestRip with _ | guestRip
    · rfl
    · simp only [Option.bind_some]
      rw [exit_among os kernelBaseInfo h callers past, Option.map_map, Option.map_map]
      rfl
  | cache guestPhysicalAddr =>
    have hept : (s.among callers past).machine.ept = s.machine.ept := rfl
    simp only [step, hguest, hept]
    split
    · rw [Option.map_map]
      rfl
    · rfl
  | evict guestPhysicalAddr => rfl
  | others action => simp [GuestAction.IsOwn] at hown

theorem orderly_among (h : s.machine.Quiet) (callers : Caller → CallerState)
    (past : List PoolEvent) (action : GuestAction Caller) :
    (s.among callers past).Orderly os action ↔ s.Orderly os action := by
  cases action with
  | vmcall vmcallNumber optionalParam1 optionalParam2 =>
    have hquiet : s.machine.enterRoot.Quiet := h
    have hdenied := hquiet.recordDenied callers past os optionalParam1
      (optionalParam2.setWidth 8)
    simp only [Orderly, Machine.Orderly]
    refine and_congr Iff.rfl (forall₂_congr fun _ _ => and_congr ?_ Iff.rfl)
    exact iff_of_eq (congrArg (· = false) hdenied)
  | _ => exact Iff.rfl

theorem exit_machine {exit : VmExit} (hexit : s.exit os kernelBaseInfo exit = some s') :
    s.machine.exitStep os kernelBaseInfo (.exit exit) = some s'.machine := by
  obtain ⟨machine, hmachine, rfl⟩ := Option.map_eq_some_iff.mp hexit
  exact hmachine

/-- A step of the processor itself is at most one exit. -/
theorem step_machine {action : GuestAction Caller} (hown : action.IsOwn = true)
    (hstep : s.step os kernelBaseInfo action = some s') :
    s'.machine = s.machine ∨ ∃ exit, (s.KeepsTable os action → s.machine.KeepsTable os exit) ∧
      (∀ vmcallNumber optionalParam1 optionalParam2,
        exit = .vmcall vmcallNumber optionalParam1 optionalParam2 →
          action = .vmcall vmcallNumber optionalParam1 optionalParam2) ∧
      s.machine.exitStep os kernelBaseInfo (.exit exit) = some s'.machine := by
  cases action with
  | fetch guestRip =>
    simp only [step] at hstep
    split at hstep
    · obtain rfl := Option.some.inj hstep
      exact Or.inl rfl
    · simp at hstep
  | access access =>
    obtain ⟨guestRip, _, hstep⟩ := Option.bind_eq_some_iff.mp hstep
    obtain ⟨t, _, hstep⟩ := Option.bind_eq_some_iff.mp hstep
    split at hstep
    · obtain rfl := Option.some.inj hstep
      exact Or.inl rfl
    · obtain ⟨s1, hs1, rfl⟩ := Option.map_eq_some_iff.mp hstep
      have hexit := exit_machine hs1
      refine Or.inr ⟨_, ?_, by simp, hexit⟩
      exact fun _ => trivial
  | retire =>
    obtain ⟨guestRip, _, hstep⟩ := Option.bind_eq_some_iff.mp hstep
    obtain ⟨s1, hs1, rfl⟩ := Option.map_eq_some_iff.mp hstep
    split at hs1
    · have hexit := exit_machine hs1
      refine Or.inr ⟨_, ?_, by simp, hexit⟩
      exact fun _ => trivial
    · obtain rfl := Option.some.inj hs1
      exact Or.inl rfl
  | vmcall vmcallNumber optionalParam1 optionalParam2 =>
    obtain ⟨guestRip, _, hstep⟩ := Option.bind_eq_some_iff.mp hstep
    obtain ⟨s1, hs1, rfl⟩ := Option.map_eq_some_iff.mp hstep
    have hexit := exit_machine hs1
    refine Or.inr ⟨_, id, ?_, hexit⟩
    rintro _ _ _ ⟨⟩
    rfl
  | cache guestPhysicalAddr =>
    simp only [step] at hstep
    split at hstep
    · obtain ⟨table, _, rfl⟩ := Option.map_eq_some_iff.mp hstep
      exact Or.inl rfl
    · simp at hstep
  | evict guestPhysicalAddr =>
    obtain rfl := Option.some.inj hstep
    exact Or.inl rfl
  | others action => simp [GuestAction.IsOwn] at hown

theorem step_quiet (h : s.machine.Quiet) {action : GuestAction Caller}
    (hown : action.IsOwn = true) (hstep : s.step os kernelBaseInfo action = some s') :
    s'.machine.Quiet := by
  rcases step_machine hown hstep with hsame | ⟨exit, _, _, hexit⟩
  · rw [hsame]
    exact h
  · exact h.exitStep_quiet hexit

theorem step_stretch {pageTable : VmmEptPageTable} {c : Caller}
    {offered : List (PoolAction Caller PoolBuffer)} {held : List Buffer}
    (hs : s.machine.Tabled os pageTable) (h : s.machine.pool.Offers c offered)
    (hholds : s.machine.Holds os held) {action : GuestAction Caller}
    (hown : action.IsOwn = true) (hguard : s.KeepsTable os action)
    (hstep : s.step os kernelBaseInfo action = some s') :
    ∃ held', Machine.Stretch os c offered s.machine held s'.machine held' ∧
      s'.machine.Holds os held' := by
  rcases step_machine hown hstep with hsame | ⟨exit, hkeeps, _, hexit⟩
  · rw [hsame]
    exact ⟨held, .refl h, hholds⟩
  · exact Machine.exitStep_stretch hs h hholds (hkeeps hguard) hexit

/-- The processor with another state of its pool. -/
def withPool (pool : PoolState Caller PoolBuffer) (s : GuestCpu Caller) : GuestCpu Caller :=
  { s with machine := { s.machine with pool := { s.machine.pool with state := pool } } }

/-- What is done to the pool between two steps of a caller is a run of the others' actions. -/
theorem others_run (os : Os) (kernelBaseInfo : KernelBaseInfo) {c : Caller}
    {pool pool' : PoolState Caller PoolBuffer} {actions : List (PoolAction Caller PoolBuffer)}
    (hrun : GuardedRun (PoolState.step os.toAllocator)
      (fun _ action => action.caller ≠ some c) pool actions pool')
    (state : CallerState) (s : GuestCpu Caller) :
    GuardedRun (step os kernelBaseInfo) (Orderly os) (s.withPool (pool.setCaller c state))
      (actions.map .others) (s.withPool (pool'.setCaller c state)) := by
  induction hrun with
  | nil pool => exact .nil _
  | cons hother hstep _ ih =>
    have hpool := PoolState.step_setCaller hother hstep state
    refine .cons trivial ?_ ih
    simp only [step, Machine.othersStep, withPool, hpool, Option.map_some]

/-- The others' actions leave the records, the leaves and what is cached. -/
theorem extends_of_others {pageTable : VmmEptPageTable}
    {actions : List (PoolAction Caller PoolBuffer)} (h : s.machine.Coherent os pageTable)
    (hrun : GuardedRun (step os kernelBaseInfo) (Orderly os) s (actions.map .others) s') :
    Machine.Extends os pageTable s.machine pageTable s'.machine ∧ s'.tlb = s.tlb := by
  induction actions generalizing s with
  | nil =>
    cases hrun
    exact ⟨h.extends_of_evolves rfl rfl (SharedPool.Evolves.refl h.safe), rfl⟩
  | cons action actions ih =>
    cases hrun with
    | cons _ hstep hrun =>
      obtain ⟨machine, hmachine, rfl⟩ := Option.map_eq_some_iff.mp hstep
      have hext := h.othersStep hmachine
      obtain ⟨hlater, htlb⟩ := ih hext.coherent hrun
      exact ⟨hext.trans hlater, htlb⟩

omit [DecidableEq Caller] in
/-- An access completes alike under leaves that grant alike. -/
theorem completes_congr {pageTable : VmmEptPageTable}
    (htable : s.machine.ept.eptPageTable = some pageTable)
    (htable' : s'.machine.ept.eptPageTable = some pageTable) (htlb : s'.tlb = s.tlb)
    (hsame : ∀ x, (s'.machine.translate os pageTable x).SameAccess
      (s.machine.translate os pageTable x)) (access : GuestAccess) :
    s'.Completes os access ↔ s.Completes os access := by
  simp only [Completes, translation, htable, htable', Option.map_some, htlb, Cache.lookup]
  split
  · exact Iff.rfl
  · rcases s.tlb (pageAlign access.guestPhysicalAddr) with _ | t
    · simp only [Option.getD_none, Option.some.injEq, exists_eq_left']
      exact access.grantedBy_congr (hsame _)
    · exact Iff.rfl

end GuestCpu

namespace SystemAction

variable {Processor : Type*} [DecidableEq Processor]

/-- What the processor does itself. -/
def own (i : Processor) : SystemAction Processor → Option (GuestAction Processor)
  | .processor j action => if j = i then some action else none
  | .pool _ => none

end SystemAction

namespace GuestSystem

variable {Processor : Type*} [DecidableEq Processor]

/-- The processor, with the pool as it is between two steps. -/
def cpu (s : GuestSystem Processor) (i : Processor) : GuestCpu Processor where
  machine := ⟨⟨s.pool, []⟩, (s.cores i).ept, (s.cores i).guest, []⟩
  eptPointer := (s.cores i).eptPointer
  tlb := (s.cores i).tlb
  guestRip := (s.cores i).guestRip

def setCpu (s : GuestSystem Processor) (i : Processor) (cpu : GuestCpu Processor) :
    GuestSystem Processor :=
  ⟨cpu.machine.pool.state, Function.update s.cores i cpu.core⟩

/-- The exits of the processors come one after another. -/
def step (os : Os) (kernelBaseInfo : KernelBaseInfo) (s : GuestSystem Processor) :
    SystemAction Processor → Option (GuestSystem Processor)
  | .processor i action =>
    if action.IsOwn then ((s.cpu i).step os kernelBaseInfo action).map (s.setCpu i) else none
  | .pool action =>
    if action.caller = none then
      (PoolState.step os.toAllocator s.pool action).map fun pool => { s with pool := pool }
    else none

def Orderly (os : Os) (s : GuestSystem Processor) : SystemAction Processor → Prop
  | .processor i action => (s.cpu i).Orderly os action
  | .pool _ => True

instance (os : Os) (s : GuestSystem Processor) :
    (action : SystemAction Processor) → Decidable (s.Orderly os action)
  | .processor i action => inferInstanceAs (Decidable ((s.cpu i).Orderly os action))
  | .pool _ => inferInstanceAs (Decidable True)

/-- Every processor is launched, and none has a buffer yet. -/
structure Launched (os : Os) (pageTables : Processor → VmmEptPageTable)
    (s : GuestSystem Processor) : Prop where
  cpus : ∀ i, (s.cpu i).Launched os (pageTables i)
  callers : s.pool.callers = fun _ => ⟨none, []⟩

/-- The parties of a processor's pool, when each holds these buffers. -/
def neighbours (held : Processor → List Buffer) (i : Processor) : Processor → CallerState :=
  Function.update (fun j => ⟨none, held j⟩) i ⟨none, []⟩

/-- The processor with its neighbours as parties of its pool. -/
def alone (held : Processor → List Buffer) (past : List PoolEvent) (s : GuestSystem Processor)
    (i : Processor) : GuestCpu Processor :=
  (s.cpu i).among (neighbours held i) past

/-- The pool with every processor as a caller. -/
def shared (held : Processor → List Buffer) (s : GuestSystem Processor) :
    PoolState Processor PoolBuffer :=
  s.pool.withCallers fun j => ⟨none, held j⟩

theorem neighbours_update (held : Processor → List Buffer) (i : Processor) (buffers : List Buffer) :
    neighbours (Function.update held i buffers) i = neighbours held i := by
  funext j
  by_cases hj : j = i
  · subst hj
    simp [neighbours]
  · simp [neighbours, hj]

theorem update_neighbours (held : Processor → List Buffer) (i : Processor) (buffers : List Buffer) :
    Function.update (neighbours held i) i ⟨none, buffers⟩ =
      fun j => ⟨none, Function.update held i buffers j⟩ := by
  funext j
  by_cases hj : j = i
  · subst hj
    simp
  · simp [neighbours, hj]

theorem withCaller_alone (held : Processor → List Buffer) (past : List PoolEvent)
    (s : GuestSystem Processor) (i : Processor) :
    (s.alone held past i).machine.withCaller i (held i) = s.shared held := by
  have hcallers := update_neighbours held i (held i)
  rw [Function.update_eq_self] at hcallers
  exact congrArg (fun callers => ({ s.pool with callers := callers } : PoolState _ _)) hcallers

theorem shared_setCpu (held : Processor → List Buffer) (past : List PoolEvent)
    (s : GuestSystem Processor) (i : Processor) (cpu : GuestCpu Processor) (buffers : List Buffer) :
    (cpu.among (neighbours held i) past).machine.withCaller i buffers =
      (s.setCpu i cpu).shared (Function.update held i buffers) :=
  congrArg (fun callers => ({ cpu.machine.pool.state with callers := callers } : PoolState _ _))
    (update_neighbours held i buffers)

theorem alone_setCpu (held : Processor → List Buffer) (past : List PoolEvent)
    (s : GuestSystem Processor) (i : Processor) {cpu : GuestCpu Processor}
    (hquiet : cpu.machine.Quiet) :
    (s.setCpu i cpu).alone held (cpu.machine.history ++ past) i =
      cpu.among (neighbours held i) past := by
  obtain ⟨⟨⟨state, upcoming⟩, ept, guest, history⟩, eptPointer, tlb, guestRip⟩ := cpu
  obtain rfl : upcoming = [] := hquiet
  simp only [alone, GuestSystem.cpu, setCpu, Function.update_self]
  rfl

/-- The processor takes its own steps among its neighbours as it does by itself. -/
theorem alone_step {os : Os} {kernelBaseInfo : KernelBaseInfo} {s : GuestSystem Processor}
    (held : Processor → List Buffer) (past : List PoolEvent) {i : Processor}
    {action : GuestAction Processor} (hown : action.IsOwn = true) {cpu : GuestCpu Processor}
    (hcpu : (s.cpu i).step os kernelBaseInfo action = some cpu) :
    (s.alone held past i).step os kernelBaseInfo action =
      some (cpu.among (neighbours held i) past) := by
  have hquiet : (s.cpu i).machine.Quiet := rfl
  rw [alone, GuestCpu.step_among hquiet (neighbours held i) past hown, hcpu, Option.map_some]

/-- A processor that does nothing itself sees the others' actions on the pool. -/
theorem alone_others {os : Os} (kernelBaseInfo : KernelBaseInfo) {s s' : GuestSystem Processor}
    {held held' : Processor → List Buffer} (past : List PoolEvent) {j : Processor}
    {actions : List (PoolAction Processor PoolBuffer)} (hcores : s'.cores j = s.cores j)
    (hrun : GuardedRun (PoolState.step os.toAllocator) (fun _ action => action.caller ≠ some j)
      (s.shared held) actions (s'.shared held')) :
    GuardedRun (GuestCpu.step os kernelBaseInfo) (GuestCpu.Orderly os) (s.alone held past j)
      (actions.map .others) (s'.alone held' past j) := by
  have hothers := GuestCpu.others_run os kernelBaseInfo hrun ⟨none, []⟩ (s.alone held past j)
  have hend : s'.alone held' past j =
      (s.alone held past j).withPool ((s'.shared held').setCaller j ⟨none, []⟩) := by
    simp only [alone, cpu, hcores]
    rfl
  rw [hend]
  exact hothers

/-- The system has come from `s0` by these actions. Each processor has run alone, among
neighbours that hold these buffers, and its tables and records are among its own. -/
structure Composed (os : Os) (kernelBaseInfo : KernelBaseInfo) (s0 : GuestSystem Processor)
    (actions : List (SystemAction Processor)) (held : Processor → List Buffer)
    (s : GuestSystem Processor) : Prop where
  alone : ∀ i, ∃ acts past, acts.filter GuestAction.IsOwn =
      actions.filterMap (SystemAction.own i) ∧
    GuardedRun (GuestCpu.step os kernelBaseInfo) (GuestCpu.Orderly os) (s0.cpu i) acts
      (s.alone held past i)
  holds : ∀ i, (s.cpu i).machine.Holds os (held i)

theorem Launched.composed {os : Os} {pageTables : Processor → VmmEptPageTable}
    {s : GuestSystem Processor}
    (h : s.Launched os pageTables) (kernelBaseInfo : KernelBaseInfo) :
    Composed os kernelBaseInfo s [] (fun _ => []) s := by
  refine ⟨fun i => ⟨[], [], rfl, ?_⟩, fun i => ?_⟩
  · have hsame : s.alone (fun _ => []) [] i = s.cpu i := by
      have hneighbours : neighbours (fun _ => []) i = s.pool.callers := by
        rw [h.callers]
        exact Function.update_eq_self i fun _ : Processor => (⟨none, []⟩ : CallerState)
      simp only [alone, hneighbours]
      rfl
    rw [hsame]
    exact .nil _
  · exact (h.cpus i).started.holds

/-- What happens elsewhere is a stretch of a processor's run. -/
theorem Composed.alone_elsewhere {os : Os} {kernelBaseInfo : KernelBaseInfo}
    {s0 s s' : GuestSystem Processor} {done : List (SystemAction Processor)}
    {held held' : Processor → List Buffer} (h : Composed os kernelBaseInfo s0 done held s)
    {j : Processor} {action : SystemAction Processor} (hown : action.own j = none)
    (hcores : s'.cores j = s.cores j) {taken : List (PoolAction Processor PoolBuffer)}
    (hrun : GuardedRun (PoolState.step os.toAllocator) (fun _ action => action.caller ≠ some j)
      (s.shared held) taken (s'.shared held')) :
    ∃ acts past, acts.filter GuestAction.IsOwn =
        (done ++ [action]).filterMap (SystemAction.own j) ∧
      GuardedRun (GuestCpu.step os kernelBaseInfo) (GuestCpu.Orderly os) (s0.cpu j) acts
        (s'.alone held' past j) := by
  obtain ⟨acts, past, hacts, halone⟩ := h.alone j
  refine ⟨acts ++ taken.map .others, past, ?_,
    halone.append (alone_others kernelBaseInfo past hcores hrun)⟩
  have hothers : (taken.map GuestAction.others).filter GuestAction.IsOwn = [] := by
    rw [List.filter_eq_nil_iff]
    intro a ha
    obtain ⟨b, _, rfl⟩ := List.mem_map.mp ha
    simp [GuestAction.IsOwn]
  rw [List.filter_append, hothers, List.append_nil, hacts, List.filterMap_append]
  simp [hown]

omit [DecidableEq Processor] in
theorem holds_of_cores {os : Os} {s s' : GuestSystem Processor} {j : Processor}
    {buffers : List Buffer} (h : (s.cpu j).machine.Holds os buffers)
    (hcores : s'.cores j = s.cores j) : (s'.cpu j).machine.Holds os buffers := by
  have hept : (s'.cpu j).machine.ept = (s.cpu j).machine.ept := by
    simp only [cpu, hcores]
  intro pageTable htable b hb
  refine h pageTable (hept ▸ htable) b ?_
  rw [Machine.InUse, hept] at hb
  exact hb

/-- A step of a processor goes on with its half, and is its neighbours' news of the pool. -/
theorem Composed.processor {os : Os} {kernelBaseInfo : KernelBaseInfo}
    {pageTables : Processor → VmmEptPageTable} {s0 s s' : GuestSystem Processor}
    (hstart : s0.Launched os pageTables) {done : List (SystemAction Processor)}
    {held : Processor → List Buffer} (h : Composed os kernelBaseInfo s0 done held s)
    {i : Processor} {action : GuestAction Processor}
    (horderly : (s.cpu i).Orderly os action)
    (hstep : s.step os kernelBaseInfo (.processor i action) = some s') :
    ∃ buffers taken acts past, acts.filter GuestAction.IsOwn =
        (done ++ [SystemAction.processor i action]).filterMap (SystemAction.own i) ∧
      GuardedRun (GuestCpu.step os kernelBaseInfo) (GuestCpu.Orderly os) (s0.cpu i) acts
        (s'.alone (Function.update held i buffers) past i) ∧
      (s'.cpu i).machine.Holds os buffers ∧
      GuardedRun (PoolState.step os.toAllocator) (fun _ action => action.caller = some i)
        (s.shared held) taken (s'.shared (Function.update held i buffers)) ∧
      ∀ j, j ≠ i → s'.cores j = s.cores j := by
  simp only [GuestSystem.step] at hstep
  split at hstep
  · rename_i hown
    obtain ⟨cpu, hcpu, rfl⟩ := Option.map_eq_some_iff.mp hstep
    obtain ⟨acts, past, hacts, halone⟩ := h.alone i
    have hquiet : (s.cpu i).machine.Quiet := rfl
    have hquiet' : cpu.machine.Quiet := GuestCpu.step_quiet hquiet hown hcpu
    have hguard : (s.alone held past i).Orderly os action :=
      (GuestCpu.orderly_among hquiet (neighbours held i) past action).mpr horderly
    have hnext := alone_step held past hown hcpu
    obtain ⟨pageTable, hwatched⟩ := GuestCpu.watched_of_run (hstart.cpus i) halone
    have hoffers : (s.alone held past i).machine.pool.Offers i [] := by
      intro actions hactions
      exact absurd hactions List.not_mem_nil
    obtain ⟨buffers, hstretch, hholds⟩ := GuestCpu.step_stretch hwatched.monitored.tabled
      hoffers (h.holds i) hown hguard.keepsTable hnext
    obtain ⟨taken, htaken⟩ := hstretch.conducts
    rw [withCaller_alone, shared_setCpu held past s i cpu buffers] at htaken
    -- the processor's own buffers are no part of its view
    have hend := alone_setCpu (Function.update held i buffers) past s i hquiet'
    rw [neighbours_update] at hend
    refine ⟨buffers, taken, acts ++ [action], cpu.machine.history ++ past, ?_, ?_, ?_,
      htaken.mono ?_, ?_⟩
    · rw [List.filter_append, hacts, List.filterMap_append]
      simp [hown, SystemAction.own]
    · rw [hend]
      exact halone.snoc hguard hnext
    · rw [← hend] at hholds
      exact hholds
    · intro _ taken htaken
      exact htaken.resolve_right List.not_mem_nil
    · intro j hj
      exact Function.update_of_ne hj _ _
  · simp at hstep

/-- What a step does to the pool is done by none of the processors that it is no step of, and
it leaves them what they have. -/
theorem Composed.elsewhere {os : Os} {kernelBaseInfo : KernelBaseInfo}
    {pageTables : Processor → VmmEptPageTable} {s0 s s' : GuestSystem Processor}
    (hstart : s0.Launched os pageTables) {done : List (SystemAction Processor)}
    {held : Processor → List Buffer} (h : Composed os kernelBaseInfo s0 done held s)
    {action : SystemAction Processor} (horderly : s.Orderly os action)
    (hstep : s.step os kernelBaseInfo action = some s') :
    ∃ held', Composed os kernelBaseInfo s0 (done ++ [action]) held' s' ∧
      ∀ j, action.own j = none → s'.cores j = s.cores j ∧ ∃ taken,
        GuardedRun (PoolState.step os.toAllocator) (fun _ action => action.caller ≠ some j)
          (s.shared held) taken (s'.shared held') := by
  cases action with
  | processor i action =>
    obtain ⟨buffers, taken, acts, past, hacts, halone, hholds, htaken, hcores⟩ :=
      h.processor hstart horderly hstep
    have hown : ∀ j, j ≠ i → SystemAction.own j (SystemAction.processor i action) = none :=
      fun j hj => if_neg (Ne.symm hj)
    have hne : ∀ j, SystemAction.own j (SystemAction.processor i action) = none → j ≠ i := by
      intro j hown hj
      simp [SystemAction.own, hj] at hown
    have hrun : ∀ j, j ≠ i → GuardedRun (PoolState.step os.toAllocator)
        (fun _ action => action.caller ≠ some j) (s.shared held) taken
        (s'.shared (Function.update held i buffers)) := by
      intro j hj
      refine htaken.mono fun _ taken hcaller hother => ?_
      exact hj (Option.some.inj (hother.symm.trans hcaller))
    refine ⟨Function.update held i buffers, ⟨fun j => ?_, fun j => ?_⟩, fun j hown =>
      ⟨hcores j (hne j hown), taken, hrun j (hne j hown)⟩⟩
    · by_cases hj : j = i
      · subst hj
        exact ⟨acts, past, hacts, halone⟩
      · exact h.alone_elsewhere (hown j hj) (hcores j hj) (hrun j hj)
    · by_cases hj : j = i
      · subst hj
        rw [Function.update_self]
        exact hholds
      · rw [Function.update_of_ne hj]
        exact holds_of_cores (h.holds j) (hcores j hj)
  | pool action =>
    simp only [GuestSystem.step] at hstep
    split at hstep
    · rename_i hworker
      obtain ⟨pool, hpool, rfl⟩ := Option.map_eq_some_iff.mp hstep
      have hshared := PoolState.step_withCallers hworker hpool fun j => ⟨none, held j⟩
      have hrun : ∀ j, GuardedRun (PoolState.step os.toAllocator)
          (fun _ action => action.caller ≠ some j) (s.shared held) [action]
          (({ s with pool := pool } : GuestSystem Processor).shared held) := by
        intro j
        exact .cons (by simp [hworker]) hshared (.nil _)
      have hown : ∀ j, SystemAction.own j (SystemAction.pool action) = none := fun _ => rfl
      exact ⟨held, ⟨fun j => h.alone_elsewhere (hown j) rfl (hrun j), h.holds⟩,
        fun j _ => ⟨rfl, [action], hrun j⟩⟩
    · simp at hstep

theorem composed_of_run {os : Os} {kernelBaseInfo : KernelBaseInfo}
    {pageTables : Processor → VmmEptPageTable} {s0 s s' : GuestSystem Processor}
    (hstart : s0.Launched os pageTables) {done actions : List (SystemAction Processor)}
    {held : Processor → List Buffer} (h : Composed os kernelBaseInfo s0 done held s)
    (hrun : GuardedRun (step os kernelBaseInfo) (Orderly os) s actions s') :
    ∃ held', Composed os kernelBaseInfo s0 (done ++ actions) held' s' := by
  induction hrun generalizing done held with
  | nil s =>
    rw [List.append_nil]
    exact ⟨held, h⟩
  | @cons s s1 s2 action actions horderly hstep _ ih =>
    obtain ⟨held1, h1, _⟩ := h.elsewhere hstart horderly hstep
    obtain ⟨held2, h2⟩ := ih h1
    rw [List.append_assoc] at h2
    exact ⟨held2, h2⟩

/-- Every orderly run of the system is, for each processor, an orderly run of that processor
alone: its own steps in their order, with its neighbours' as steps of other callers of the
pool. -/
theorem projects_of_run {os : Os} {kernelBaseInfo : KernelBaseInfo}
    {pageTables : Processor → VmmEptPageTable} {s s' : GuestSystem Processor}
    (hstart : s.Launched os pageTables) {actions : List (SystemAction Processor)}
    (hrun : GuardedRun (step os kernelBaseInfo) (Orderly os) s actions s') (i : Processor) :
    ∃ acts callers past, acts.filter GuestAction.IsOwn =
        actions.filterMap (SystemAction.own i) ∧
      GuardedRun (GuestCpu.step os kernelBaseInfo) (GuestCpu.Orderly os) (s.cpu i) acts
        ((s'.cpu i).among callers past) := by
  obtain ⟨held, h⟩ := composed_of_run hstart (hstart.composed kernelBaseInfo) hrun
  obtain ⟨acts, past, hacts, halone⟩ := h.alone i
  exact ⟨acts, neighbours held i, past, hacts, halone⟩

/-- The tables and records of two processors never share an address. -/
theorem disjoint_of_run {os : Os} {kernelBaseInfo : KernelBaseInfo}
    {pageTables : Processor → VmmEptPageTable} {s s' : GuestSystem Processor}
    (hstart : s.Launched os pageTables) {actions : List (SystemAction Processor)}
    (hrun : GuardedRun (step os kernelBaseInfo) (Orderly os) s actions s') {i j : Processor}
    (hne : i ≠ j) {pageTable pageTable' : VmmEptPageTable}
    (hi : (s'.cpu i).machine.ept.eptPageTable = some pageTable)
    (hj : (s'.cpu j).machine.ept.eptPageTable = some pageTable') {b b' : Buffer}
    (hb : (s'.cpu i).machine.InUse os pageTable b)
    (hb' : (s'.cpu j).machine.InUse os pageTable' b') : b.2 ≠ b'.2 := by
  intro heq
  obtain ⟨held, h⟩ := composed_of_run hstart (hstart.composed kernelBaseInfo) hrun
  obtain ⟨acts, past, _, halone⟩ := h.alone j
  obtain ⟨table, hwatched⟩ := GuestCpu.watched_of_run (hstart.cpus j) halone
  have hcoherent := hwatched.monitored.coherent
  obtain rfl : table = pageTable' := Option.some.inj (hcoherent.pageTable_eq.symm.trans hj)
  have hheld : b ∈ (s'.alone held past j).machine.pool.state.ledger.held i := by
    have hneighbour : neighbours held j i = ⟨none, held i⟩ := Function.update_of_ne hne _ _
    rw [show (s'.alone held past j).machine.pool.state.ledger.held i =
      (neighbours held j i).held from rfl, hneighbour]
    exact h.holds i pageTable hi b hb
  have howned := hcoherent.owned b' hb'
  have hsound := hcoherent.safe.sound
  obtain rfl : b = b' := hsound.eq_of_address (hsound.held_slot i b hheld)
    (hsound.used_slot b' (howned.used.mpr (by simp))) heq
  exact absurd (howned.of_mem_held hheld) (by simp)

/-- A step of another processor, or of a pool thread, leaves a processor's records as they are
and changes for no access whether it completes. -/
theorem unaffected_of_run {os : Os} {kernelBaseInfo : KernelBaseInfo}
    {pageTables : Processor → VmmEptPageTable} {s0 s s' : GuestSystem Processor}
    (hstart : s0.Launched os pageTables) {actions : List (SystemAction Processor)}
    (hrun : GuardedRun (step os kernelBaseInfo) (Orderly os) s0 actions s)
    {action : SystemAction Processor} (horderly : s.Orderly os action)
    (hstep : s.step os kernelBaseInfo action = some s') {j : Processor}
    (hother : action.own j = none) :
    s'.cores j = s.cores j ∧
      (∀ r ∈ (s.cpu j).machine.ept.hookedPages,
        (s'.cpu j).machine.detail r = (s.cpu j).machine.detail r) ∧
      ∀ access, (s'.cpu j).Completes os access ↔ (s.cpu j).Completes os access := by
  obtain ⟨held, h⟩ := composed_of_run hstart (hstart.composed kernelBaseInfo) hrun
  obtain ⟨held', _, helsewhere⟩ := h.elsewhere hstart horderly hstep
  obtain ⟨hcores, taken, htaken⟩ := helsewhere j hother
  obtain ⟨acts, past, _, halone⟩ := h.alone j
  obtain ⟨pageTable, hwatched⟩ := GuestCpu.watched_of_run (hstart.cpus j) halone
  obtain ⟨hext, htlb⟩ := GuestCpu.extends_of_others hwatched.monitored.coherent
    (alone_others kernelBaseInfo past hcores htaken)
  refine ⟨hcores, hext.detail, fun access => ?_⟩
  have hcompletes := GuestCpu.completes_congr hwatched.monitored.coherent.pageTable_eq
    hext.coherent.pageTable_eq htlb hext.access access
  exact hcompletes

def flatSystem : GuestSystem Bool where
  pool := PoolState.initial (fun _ => 0) (PoolManager.flatBuffers 2 2)
  cores := fun _ => ⟨⟨[], memoryTypeWriteBack, some flatTable, []⟩, ⟨true, true, none, 0, none⟩,
    0x101E#64, Cache.empty, none⟩

theorem flatSystem_launched : flatSystem.Launched flatOs fun _ => flatTable :=
  ⟨fun _ => ⟨⟨⟨_, _, [], GuardedRun.nil _⟩, rfl, flatTable_large, rfl⟩, rfl,
    (by decide : VmState.monitorTrapFlag ⟨true, true, none, 0, none⟩ = false), rfl⟩, rfl⟩

/-- A pool thread runs between the hook of the one and that of the other. -/
def oneHooks : List (SystemAction Bool) :=
  [.processor false (.fetch 0x1000#64), .processor true (.fetch 0x2000#64),
    .processor false (.vmcall 3 0x200000#64 1), .pool .processFree]

def bothHook : List (SystemAction Bool) :=
  oneHooks ++ [.processor true (.vmcall 3 0x400000#64 1)]

theorem oneHooks_run : GuardedRun (step flatOs Machine.flatKernel) (Orderly flatOs) flatSystem
    oneHooks (execute (step flatOs Machine.flatKernel) flatSystem oneHooks) :=
  guardedRun_of_allowed (by decide +kernel)

theorem bothHook_run : GuardedRun (step flatOs Machine.flatKernel) (Orderly flatOs) flatSystem
    bothHook (execute (step flatOs Machine.flatKernel) flatSystem bothHook) :=
  guardedRun_of_allowed (by decide +kernel)

theorem projects_of_run_bothHook : ∃ acts callers past, acts.filter GuestAction.IsOwn =
      [.fetch 0x2000#64, .vmcall 3 0x400000#64 1] ∧
    GuardedRun (GuestCpu.step flatOs Machine.flatKernel) (GuestCpu.Orderly flatOs)
      (flatSystem.cpu true) acts
      (((execute (step flatOs Machine.flatKernel) flatSystem bothHook).cpu true).among
        callers past) :=
  projects_of_run flatSystem_launched bothHook_run true

/-- Each has its record, and the two are apart. -/
theorem disjoint_of_run_bothHook :
    ∃ r ∈ ((execute (step flatOs Machine.flatKernel) flatSystem bothHook).cpu
        false).machine.ept.hookedPages,
      ∃ q ∈ ((execute (step flatOs Machine.flatKernel) flatSystem bothHook).cpu
        true).machine.ept.hookedPages, r ≠ q := by
  obtain ⟨r, hr⟩ : ∃ r, r ∈ ((execute (step flatOs Machine.flatKernel) flatSystem bothHook).cpu
      false).machine.ept.hookedPages := List.exists_mem_of_ne_nil _ (by decide +kernel)
  obtain ⟨q, hq⟩ : ∃ q, q ∈ ((execute (step flatOs Machine.flatKernel) flatSystem bothHook).cpu
      true).machine.ept.hookedPages := List.exists_mem_of_ne_nil _ (by decide +kernel)
  obtain ⟨pageTable, htable⟩ := Option.isSome_iff_exists.mp (by decide +kernel :
    ((execute (step flatOs Machine.flatKernel) flatSystem bothHook).cpu
      false).machine.ept.eptPageTable.isSome = true)
  obtain ⟨pageTable', htable'⟩ := Option.isSome_iff_exists.mp (by decide +kernel :
    ((execute (step flatOs Machine.flatKernel) flatSystem bothHook).cpu
      true).machine.ept.eptPageTable.isSome = true)
  exact ⟨r, hr, q, hq, disjoint_of_run flatSystem_launched bothHook_run (by decide) htable htable'
    (Or.inr ⟨r, hr, rfl⟩) (Or.inr ⟨q, hq, rfl⟩)⟩

/-- The second hook does not open the first's page. -/
theorem unaffected_of_run_write : ∃ s', (execute (step flatOs Machine.flatKernel) flatSystem
      oneHooks).step flatOs Machine.flatKernel (.processor true (.vmcall 3 0x400000#64 1)) =
        some s' ∧
    ¬ (s'.cpu false).Completes flatOs (GuestCpu.writeAccess 0x200018#64) := by
  obtain ⟨s', hstep⟩ := Option.isSome_iff_exists.mp (by decide +kernel :
    ((execute (step flatOs Machine.flatKernel) flatSystem oneHooks).step flatOs
      Machine.flatKernel (.processor true (.vmcall 3 0x400000#64 1))).isSome = true)
  obtain ⟨_, _, hcompletes⟩ := unaffected_of_run (j := false) flatSystem_launched oneHooks_run
    (by decide +kernel) hstep rfl
  refine ⟨s', hstep, ?_⟩
  rw [hcompletes]
  rintro ⟨t, ht, hgranted⟩
  have hdenied : (((execute (step flatOs Machine.flatKernel) flatSystem oneHooks).cpu
      false).translation flatOs 0x200018#64).all
        (fun t => ¬ (GuestCpu.writeAccess 0x200018#64).GrantedBy t) = true := by
    decide +kernel
  have hsome : ((execute (step flatOs Machine.flatKernel) flatSystem oneHooks).cpu
      false).translation flatOs 0x200018#64 = some t := ht
  rw [hsome] at hdenied
  exact of_decide_eq_true hdenied hgranted

end GuestSystem

end NovaHypervisor

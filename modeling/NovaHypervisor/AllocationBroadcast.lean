import NovaHypervisor.VmxOperation

/-!
The signals of the broadcast that allocates. A kernel's generic DPC returns when the
routine has signalled on every processor; the routine's failure exits return before its
signals, and its result is lost, since the broadcast calls it as a routine without one.
-/
namespace NovaHypervisor

inductive DpcSignal where
  | synchronize
  | done
  deriving DecidableEq

namespace ProcessorEnvironment

variable (i : ℕ) (p : ProcessorEnvironment) (state : ProcessorState)

/-- The end of the routine: its result, the calls that it makes with the arguments that
are not null, and the processor's state. Each call is taken to return. -/
def allocateVmStructuresRoutine (systemArgument1 systemArgument2 : Bool) :
    Bool × List DpcSignal × ProcessorState :=
  let (allocated, state, _) := p.allocateVmStructures i state
  if !allocated then (false, [], state)
  else
    (true, (if systemArgument2 then [.synchronize] else []) ++
      (if systemArgument1 then [.done] else []), state)

structure HasStructures (state : ProcessorState) : Prop where
  vmxonRegion : state.vmxonRegion = true
  vmcsRegion : state.vmcsRegion = true
  vmmStack : state.vmmStack = true
  msrBitmap : state.msrBitmap = true

theorem allocateVmStructures_complete (h : p.Allocates) :
    HasStructures (p.allocateVmStructures i state).2.1 := by
  obtain ⟨hstarts, hvmcs, hstack, hbitmap⟩ := h
  obtain ⟨hvmxon, -⟩ := allocateRegion_vmxonRegion i p
  have hregion : (p.allocateRegion i .vmcsRegion).1 = true := by
    rw [allocateRegion_vmcsRegion, hvmcs, hstarts.2.1]
    rfl
  unfold allocateVmStructures
  dsimp only
  rw [hvmxon, hregion, decide_eq_true hstarts, hstack, hbitmap]
  exact ⟨rfl, rfl, rfl, rfl⟩

theorem signals_routine :
    (p.allocateVmStructuresRoutine i state true true).2.1 =
      if p.Allocates then [.synchronize, .done] else [] := by
  have hallocated := allocateVmStructures_fst i p state
  rw [allocateVmStructuresRoutine]
  rcases hroutine : p.allocateVmStructures i state with ⟨allocated, state', events⟩
  rw [hroutine] at hallocated
  subst hallocated
  by_cases hallocates : p.Allocates
  · simp [hallocates]
  · simp [hallocates]

end ProcessorEnvironment

namespace Environment

variable (env : Environment)

def Broadcasts : Prop := env.ReachesConstruction ∧ env.ConstructsEpts

/-- The calls of the routine on one processor, to which the kernel gives two arguments. -/
def signalsOn (i : ℕ) : List DpcSignal :=
  ((env.processor i).allocateVmStructuresRoutine i
    { ProcessorState.zero with eptInstance := true } true true).2.1

/-- Every processor of a broadcast signals once, and the initializer's success stands for
the structures of all processors. -/
structure AllocationChecked : Prop where
  signals : env.Broadcasts → ∀ i < env.processorCount, ∀ signal : DpcSignal,
    (env.signalsOn i).count signal = 1
  structures : env.vmxInitializer.1 = some true → ∀ i < env.processorCount,
    ProcessorEnvironment.HasStructures (env.vmxInitializer.2.1.processors i)

/-- Two processors, of which the second one gets no stack. -/
def secondStackFails : Environment where
  processorCount := 2
  currentProcessor := 0
  current_lt := Nat.two_pos
  processor := fun i => { ProcessorEnvironment.willing with vmmStack := i = 0 }
  isVmxSupported := true
  isXstateSaveAreaSupported := true
  guestStateAllocated := true
  constructsEpt := fun _ => true
  genericCallDpcWaits := true
  testVmcall := statusSuccess

theorem not_allocationChecked_secondStackFails : ¬ secondStackFails.AllocationChecked := by
  intro h
  have hbroadcasts : secondStackFails.Broadcasts := ⟨⟨rfl, rfl, rfl⟩, fun _ _ => rfl⟩
  have hcount := h.signals hbroadcasts 1 (by decide) .done
  exact absurd hcount (by decide)

/-- The broadcast is answered and its success is right exactly if nothing fails on any
processor, or the initializer gives up before it. -/
theorem allocationChecked_iff :
    env.AllocationChecked ↔
      (env.Broadcasts → ∀ i < env.processorCount, (env.processor i).Allocates) := by
  have hsignals : ∀ i, env.signalsOn i =
      if (env.processor i).Allocates then [.synchronize, .done] else [] :=
    fun i => ProcessorEnvironment.signals_routine i _ _
  constructor
  · intro h hbroadcasts i hi
    by_contra hfails
    have hcount := h.signals hbroadcasts i hi .done
    rw [hsignals, if_neg hfails] at hcount
    exact absurd hcount (by decide)
  · intro h
    refine ⟨?_, ?_⟩
    · intro hbroadcasts i hi signal
      rw [hsignals, if_pos (h hbroadcasts i hi)]
      cases signal <;> rfl
    · rcases env.vmxInitializer_ends with ⟨_, hinitializer⟩ | ⟨_, _, hinitializer⟩ |
        ⟨hconstruction, hconstructs, returns, _, hinitializer⟩
      · rw [hinitializer]
        intro hfalse
        exact absurd hfalse (by decide)
      · rw [hinitializer]
        intro hfalse
        exact absurd hfalse (by simp)
      · rw [hinitializer]
        intro _ i hi
        exact ProcessorEnvironment.allocateVmStructures_complete i _ _
          (h ⟨hconstruction, hconstructs⟩ i hi)

end Environment

end NovaHypervisor

import NovaHypervisor.PoolCalls

/-!
The waits of `Allocate` against every behaviour of the other threads: each of its
operations finds the pool as they left it. The last retry of the queueing loop ends the
call whether or not it has queued the request, so a request that it queues is not waited
for.
-/
namespace NovaHypervisor

namespace PoolManager

inductive AllocateEvent where
  | insert (queued : Bool)
  | poll (allocation : Option Pvoid)

def insertQueued (type : AllocationType) (p : PoolManager) : Bool :=
  (p.allocationRequests.insert type).1

/-- What the operation of a stage sees. -/
def allocateEvent (type : AllocationType) (stage : AllocateStage) (p : PoolManager) :
    AllocateEvent :=
  match stage with
  | .find | .poll _ _ => .poll (p.findFreeSlot type).1
  | .insert | .insertRetry _ _ => .insert (p.insertQueued type)

/-- The operations from a stage on, where the `n`-th one finds the pool `seen n`, and the
result, unless the fuel does not suffice. -/
def allocateTrace (type : AllocationType) (seen : ℕ → PoolManager) :
    (fuel : ℕ) → AllocateStage → (n : ℕ) → List AllocateEvent × Option (Option Pvoid)
  | 0, _, _ => ([], none)
  | fuel + 1, stage, n =>
    match (allocateStep type stage (seen n)).1 with
    | .inl stage' =>
      let (events, result) := allocateTrace type seen fuel stage' (n + 1)
      (allocateEvent type stage (seen n) :: events, result)
    | .inr result => ([allocateEvent type stage (seen n)], some result)

/-- The call from its start. -/
def allocateRun (type : AllocationType) (seen : ℕ → PoolManager) :
    List AllocateEvent × Option (Option Pvoid) :=
  allocateTrace type seen (AllocateStage.find.turns + 1) .find 0

def polls : List AllocateEvent → List (Option Pvoid)
  | [] => []
  | .poll allocation :: events => allocation :: polls events
  | .insert _ :: events => polls events

/-- The polls after the first request that was queued, if one was. -/
def pollsAfterQueued : List AllocateEvent → Option (List (Option Pvoid))
  | [] => none
  | .insert true :: events => some (polls events)
  | _ :: events => pollsAfterQueued events

/-- If a request was queued and there is no buffer, then there were polls after it, and
none of them found a slot. -/
def WaitedFor (run : List AllocateEvent × Option (Option Pvoid)) : Prop :=
  run.2 = some none → ∀ later ∈ pollsAfterQueued run.1, later ≠ [] ∧ ∀ poll ∈ later, poll = none

/-- The call returns, and it waits for a request that it has queued. -/
structure AllocateWaits (type : AllocationType) (seen : ℕ → PoolManager) : Prop where
  returns : ∃ result, (allocateRun type seen).2 = some result
  waitedFor : WaitedFor (allocateRun type seen)

/-- The first attempts to queue fail, and the one after them succeeds. -/
def QueuedAt (type : AllocationType) (seen : ℕ → PoolManager) (n attempts : ℕ) : Prop :=
  (∀ j < attempts, (seen (n + j)).insertQueued type = false) ∧
    (seen (n + attempts)).insertQueued type = true

/-- How many retries the queueing loop makes at most. -/
def maxRetries : ℕ := 25

/-- No slot is found at first, and of all attempts to queue only the last one succeeds. -/
def LateInsert (type : AllocationType) (seen : ℕ → PoolManager) : Prop :=
  ((seen 0).findFreeSlot type).1 = none ∧ QueuedAt type seen 1 maxRetries

variable {type : AllocationType} {seen : ℕ → PoolManager}

/-- The loop ends by its own tests. -/
theorem allocateTrace_returns {fuel : ℕ} {stage : AllocateStage} (hstage : stage.Reached)
    (hfuel : stage.turns < fuel) (n : ℕ) :
    ∃ result, (allocateTrace type seen fuel stage n).2 = some result := by
  induction fuel generalizing stage n with
  | zero => omega
  | succ fuel ih =>
    rw [allocateTrace]
    cases hstep : (allocateStep type stage (seen n)).1 with
    | inl stage' =>
      obtain ⟨hreached, hlt⟩ := allocateStep_turns hstage hstep
      exact ih hreached (by omega) (n + 1)
    | inr result => exact ⟨result, rfl⟩

def waitAfter (k : ℕ) : ℕ := 2 ^ min k 16

def countAfter (k : ℕ) : ℕ := k - 15

theorem next_waitAfter : ∀ k < maxRetries, nextWait (waitAfter k) = waitAfter (k + 1) ∧
    nextWaitCount (waitAfter k) (countAfter k) = countAfter (k + 1) := by
  decide

theorem waiting_after {k : ℕ} (hk : k < maxRetries) : Waiting (waitAfter k) (countAfter k) := by
  refine ⟨⟨min k 16, Nat.min_le_right _ _, rfl⟩, ?_⟩
  simp only [countAfter, maxRetries, maxWaitIterations] at *
  omega

theorem countAfter_lt_iff (k : ℕ) :
    countAfter (k + 1) < maxWaitIterations ↔ k + 1 < maxRetries := by
  simp only [countAfter, maxRetries, maxWaitIterations]
  omega

/-- The polling loop polls, and without a buffer none of its polls found a slot. -/
theorem allocateTrace_poll (type : AllocationType) (seen : ℕ → PoolManager) {k : ℕ}
    (hk : k < maxRetries) (fuel n : ℕ) :
    (0 < fuel →
      polls (allocateTrace type seen fuel (.poll (waitAfter k) (countAfter k)) n).1 ≠ []) ∧
    ((allocateTrace type seen fuel (.poll (waitAfter k) (countAfter k)) n).2 = some none →
      ∀ poll ∈ polls (allocateTrace type seen fuel (.poll (waitAfter k) (countAfter k)) n).1,
        poll = none) := by
  induction fuel generalizing k n with
  | zero => exact ⟨fun h => absurd h (Nat.lt_irrefl 0), fun h => absurd h (by simp [allocateTrace])⟩
  | succ fuel ih =>
    obtain ⟨hwait, hcount⟩ := next_waitAfter k hk
    have hmore := countAfter_lt_iff k
    rw [allocateTrace]
    simp only [allocateStep, hwait, hcount]
    cases hfound : ((seen n).findFreeSlot type).1 with
    | some address =>
      simp [allocateEvent, polls]
    | none =>
      by_cases hlast : k + 1 < maxRetries
      · obtain ⟨-, hnone⟩ := ih hlast (n + 1)
        simp only [hmore.mpr hlast, Option.isNone_none, decide_true, Bool.and_self, if_true,
          allocateEvent, hfound, polls]
        refine ⟨fun _ => List.cons_ne_nil _ _, ?_⟩
        intro hresult poll hpoll
        rcases List.mem_cons.mp hpoll with rfl | htail
        · rfl
        · exact hnone hresult poll htail
      · simp [mt hmore.mp hlast, allocateEvent, hfound, polls]

/-- What is polled after a request is queued is waited for. -/
theorem waitedFor_queued {events : List AllocateEvent} {result : Option (Option Pvoid)}
    (hpolls : polls events ≠ [])
    (hnone : result = some none → ∀ poll ∈ polls events, poll = none) :
    WaitedFor (.insert true :: events, result) := by
  intro hresult later hlater
  obtain rfl : polls events = later := by simpa [pollsAfterQueued] using hlater
  exact ⟨hpolls, hnone hresult⟩

theorem waitedFor_insert_false (events : List AllocateEvent) (result : Option (Option Pvoid)) :
    WaitedFor (.insert false :: events, result) ↔ WaitedFor (events, result) := Iff.rfl

theorem waitedFor_poll (allocation : Option Pvoid) (events : List AllocateEvent)
    (result : Option (Option Pvoid)) :
    WaitedFor (.poll allocation :: events, result) ↔ WaitedFor (events, result) := Iff.rfl

theorem queuedAt_succ (type : AllocationType) (seen : ℕ → PoolManager) (n attempts : ℕ) :
    QueuedAt type seen n (attempts + 1) ↔
      (seen n).insertQueued type = false ∧ QueuedAt type seen (n + 1) attempts := by
  rw [QueuedAt, QueuedAt, Nat.forall_lt_succ_left]
  simp only [Nat.add_zero, ← Nat.add_assoc, Nat.add_right_comm n _ 1]
  exact and_assoc

/-- The queueing loop waits unless only its last retry succeeds. -/
theorem allocateTrace_retry {k : ℕ} (hk : k < maxRetries) {fuel : ℕ}
    (hfuel : (AllocateStage.insertRetry (waitAfter k) (countAfter k)).turns < fuel) (n : ℕ) :
    WaitedFor (allocateTrace type seen fuel (.insertRetry (waitAfter k) (countAfter k)) n) ↔
      ¬ QueuedAt type seen n (maxRetries - 1 - k) := by
  induction fuel generalizing k n with
  | zero => omega
  | succ fuel ih =>
    obtain ⟨hwait, hcount⟩ := next_waitAfter k hk
    have hmore := countAfter_lt_iff k
    have hturns : ∀ stage', (allocateStep type (.insertRetry (waitAfter k) (countAfter k))
        (seen n)).1 = .inl stage' → stage'.turns < fuel := by
      intro stage' hstep
      have hreached : (AllocateStage.insertRetry (waitAfter k) (countAfter k)).Reached :=
        waiting_after hk
      have hlt := (allocateStep_turns hreached hstep).2
      omega
    have hevent : allocateEvent type (.insertRetry (waitAfter k) (countAfter k)) (seen n) =
        .insert ((seen n).insertQueued type) := rfl
    rw [allocateTrace, hevent]
    simp only [allocateStep, hwait, hcount] at hturns ⊢
    rw [← insertQueued] at hturns ⊢
    by_cases hlast : k + 1 < maxRetries
    · have hcount' := hmore.mpr hlast
      have hattempts : maxRetries - 1 - k = maxRetries - 1 - (k + 1) + 1 := by omega
      have hne : ¬ countAfter (k + 1) = maxWaitIterations := by omega
      rw [hattempts, queuedAt_succ]
      cases hqueued : (seen n).insertQueued type with
      | true =>
        simp only [hqueued, Bool.not_true, Bool.false_and, Bool.false_eq_true, if_false, hne]
          at hturns ⊢
        have hfuel' := hturns _ rfl
        have hzero : 0 < maxRetries := by decide
        obtain ⟨hpolls, hnone⟩ :=
          allocateTrace_poll type seen hzero fuel (n + 1)
        exact iff_of_true (waitedFor_queued (hpolls (by omega)) hnone) (by simp)
      | false =>
        simp only [hqueued, hcount', Bool.not_false, decide_true, Bool.and_self, if_true]
          at hturns ⊢
        rw [waitedFor_insert_false, true_and]
        exact ih hlast (hturns _ rfl) (n + 1)
    · -- The last retry ends the call, whatever it sees.
      obtain rfl : k = maxRetries - 1 := by omega
      have hcount' : countAfter (maxRetries - 1 + 1) = maxWaitIterations := by decide
      simp only [hcount', Nat.lt_irrefl, decide_false, Bool.and_false, Bool.false_eq_true,
        if_false, if_true]
      cases hqueued : (seen n).insertQueued type with
      | true => simp [WaitedFor, pollsAfterQueued, polls, QueuedAt, hqueued]
      | false => simp [WaitedFor, pollsAfterQueued, QueuedAt, hqueued]

/-- The call waits for what it queues unless it queues it at the last retry. -/
theorem waitedFor_find (type : AllocationType) (seen : ℕ → PoolManager) {fuel : ℕ}
    (hfuel : (AllocateStage.insertRetry (waitAfter 0) (countAfter 0)).turns < fuel) :
    WaitedFor (allocateTrace type seen (fuel + 1 + 1) .find 0) ↔ ¬ LateInsert type seen := by
  have hretries : maxRetries = maxRetries - 1 - 0 + 1 := rfl
  rw [allocateTrace, LateInsert]
  simp only [allocateStep, allocateEvent]
  cases hfound : ((seen 0).findFreeSlot type).1 with
  | some address => simp [WaitedFor]
  | none =>
    simp only [Option.isSome_none, Bool.false_eq_true, if_false, waitedFor_poll, true_and]
    rw [allocateTrace, hretries, queuedAt_succ]
    simp only [allocateStep, allocateEvent, Nat.zero_add]
    rw [← insertQueued]
    cases hqueued : (seen 1).insertQueued type with
    | true =>
      have hzero : 0 < maxRetries := by decide
      obtain ⟨hpolls, hnone⟩ := allocateTrace_poll type seen hzero fuel 2
      exact iff_of_true (waitedFor_queued (hpolls (by omega)) hnone) (by simp)
    | false =>
      have hzero : 0 < maxRetries := by decide
      simp only [Bool.false_eq_true, if_false, waitedFor_insert_false, true_and]
      exact allocateTrace_retry hzero hfuel 2

theorem waitedFor_allocateRun (type : AllocationType) (seen : ℕ → PoolManager) :
    WaitedFor (allocateRun type seen) ↔ ¬ LateInsert type seen :=
  waitedFor_find type seen (by decide : _ < 56)

/-- A queue of requests for hook buffers that is full. -/
def fullRequests : RequestList AllocationType where
  requests := List.replicate maxAllocationRequests ⟨.eptHookPage, true⟩
  itemsCount := maxAllocationRequests
  length_eq := List.length_replicate
  count_eq := by simp [List.countP_replicate]

/-- No slot is ever free, and the queue has room from the last retry on. -/
def lateRoom (n : ℕ) : PoolManager :=
  ⟨[], [], if n < 26 then fullRequests else RequestList.empty, RequestList.empty⟩

theorem not_allocateWaits_lateRoom : ¬ AllocateWaits .eptHookPage lateRoom := by
  intro h
  apply (waitedFor_allocateRun _ _).mp h.waitedFor
  refine ⟨rfl, ?_, ?_⟩
  · intro j hj
    have hroom : 1 + j < 26 := by
      simp only [maxRetries] at hj
      omega
    rw [insertQueued, lateRoom, if_pos hroom]
    exact congrArg Prod.fst (if_pos rfl)
  · decide

/-- The call returns, and waits for what it queues exactly if no request is queued at the
last retry. -/
theorem allocateWaits_iff (type : AllocationType) (seen : ℕ → PoolManager) :
    AllocateWaits type seen ↔ ¬ LateInsert type seen := by
  constructor
  · exact fun h => (waitedFor_allocateRun type seen).mp h.waitedFor
  · intro h
    have hfind : AllocateStage.find.Reached := trivial
    exact ⟨allocateTrace_returns hfind (Nat.lt_succ_self _) 0,
      (waitedFor_allocateRun type seen).mpr h⟩

/-- The pool that the first operation finds, and those that the later ones find. -/
def seenFrom (p : PoolManager) (seen : ℕ → PoolManager) : ℕ → PoolManager
  | 0 => p
  | n + 1 => seen n

theorem allocateTrace_shift (type : AllocationType) (seen : ℕ → PoolManager) (fuel : ℕ)
    (stage : AllocateStage) (n : ℕ) : allocateTrace type seen fuel stage (n + 1) =
      allocateTrace type (fun i => seen (i + 1)) fuel stage n := by
  induction fuel generalizing stage n with
  | zero => rfl
  | succ fuel ih =>
    rw [allocateTrace, allocateTrace]
    simp only [ih]

end PoolManager

namespace SharedPool

variable {Caller β : Type*} [DecidableEq Caller] [Zero β]

theorem allocateFrom_trace (os : Allocator) (type : AllocationType) (fuel : ℕ)
    (stage : PoolManager.AllocateStage) (p : SharedPool Caller β) :
    ∃ seen, (PoolManager.allocateTrace type seen fuel stage 0).2.getD none =
      (allocateFrom os type fuel stage p).1 := by
  induction fuel generalizing stage p with
  | zero => exact ⟨fun _ => p.state.manager, rfl⟩
  | succ fuel ih =>
    rcases hstep : PoolManager.allocateStep type stage (p.interrupt os).state.manager with
      ⟨stage' | result, manager⟩
    · obtain ⟨seen, hseen⟩ := ih stage' ((p.interrupt os).setManager manager)
      refine ⟨PoolManager.seenFrom (p.interrupt os).state.manager seen, ?_⟩
      rw [allocateFrom, hstep, PoolManager.allocateTrace, PoolManager.seenFrom, hstep]
      dsimp only
      rw [PoolManager.allocateTrace_shift]
      exact hseen
    · refine ⟨fun _ => (p.interrupt os).state.manager, ?_⟩
      rw [allocateFrom, hstep, PoolManager.allocateTrace, hstep]
      rfl

/-- A call among the other parties of the pool is one of these runs. -/
theorem allocate_run (os : Allocator) (type : AllocationType) (p : SharedPool Caller β) :
    ∃ seen, (PoolManager.allocateRun type seen).2.getD none = (p.allocate os type).1 :=
  allocateFrom_trace os type _ .find p

end SharedPool

end NovaHypervisor

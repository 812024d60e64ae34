import NovaHypervisor.PoolThreads
import Mathlib.Data.Fintype.Basic

/-!
The slots that nobody will free. A used slot is held by a caller or named by one
pending request as long as no `Free` call ends its bounded wait before a full
queue; the last attempt of such a call forgets the buffer for good.
-/
namespace NovaHypervisor

open General

namespace PoolManager

/-- `Free` gives up at the attempt that finds the queue full and exhausts the wait. -/
theorem freeStep_inr_false_iff (allocation : PoolAllocation) (stage : FreeStage)
    (p : PoolManager) :
    (freeStep allocation stage p).1 = .inr false ↔
      ∃ wait waitCount, stage = .retry wait waitCount ∧
        p.freeRequests.itemsCount = maxAllocationRequests ∧
        maxWaitIterations ≤ nextWaitCount wait waitCount := by
  have hfull := RequestList.insert_eq_false_iff p.freeRequests allocation
  cases stage with
  | insert =>
    simp only [freeStep, reduceCtorEq, false_and, exists_const, iff_false]
    split <;> simp
  | retry wait waitCount =>
    simp only [freeStep, FreeStage.retry.injEq]
    cases hqueued : (p.freeRequests.insert allocation).1 with
    | true =>
      have hroom : p.freeRequests.itemsCount ≠ maxAllocationRequests := by
        intro heq
        rw [hfull.mpr heq] at hqueued
        exact absurd hqueued (by decide)
      simp [hroom]
    | false =>
      have heq := hfull.mp hqueued
      simp [heq]

end PoolManager

/-- A buffer that is outside has no other owner. -/
theorem Ledger.Owned.eq_outside {Caller β : Type*} [DecidableEq Caller] {l : Ledger Caller β}
    {b : Buffer} {owner : Owner Caller} (h : l.Owned b .outside) (h' : l.Owned b owner) :
    owner = .outside := by
  cases owner with
  | idle => exact absurd rfl (h'.used.mp (h.used.mpr (by simp)))
  | held c =>
    have hcount := h'.held c
    rw [h.held c] at hcount
    simp at hcount
  | releasing c => exact absurd ((h.releasing c).mp ((h'.releasing c).mpr rfl)) (by simp)
  | queued =>
    have hcount := h'.requested
    rw [h.requested] at hcount
    simp at hcount
  | reclaiming => exact absurd (h.reclaiming.mp (h'.reclaiming.mpr rfl)) (by simp)
  | outside => rfl

namespace PoolState

variable {Caller β : Type*} [DecidableEq Caller]

/-- A caller holds the buffers it got, and the one whose `Free` call has not returned. -/
def HeldByCaller (s : PoolState Caller β) (b : Buffer) : Prop :=
  ∃ c, b ∈ (s.callers c).held ∨ (s.callers c).call.bind Call.releasing = some b

/-- A request is pending until the free worker, which may have popped it, has served it. -/
def pendingRequests (s : PoolState Caller β) (b : Buffer) : ℕ :=
  s.manager.requested b.1 b.2 +
    if s.freeWorker.map (fun allocation => (allocation.type, allocation.address)) = some b then 1
    else 0

/-- Every used slot is held by a caller or has exactly one pending free request. -/
def NoLeak (s : PoolState Caller β) : Prop :=
  ∀ b : Buffer, s.manager.Used b.1 b.2 → s.HeldByCaller b ∨ s.pendingRequests b = 1

/-- The next operation of a caller's `Free` call is its last, and the queue is full. -/
def givesUp (s : PoolState Caller β) (c : Caller) : Bool :=
  match (s.callers c).call with
  | some (.free _ (.retry wait waitCount)) =>
    decide (s.manager.freeRequests.itemsCount = maxAllocationRequests) &&
      decide (PoolManager.maxWaitIterations ≤ PoolManager.nextWaitCount wait waitCount)
  | _ => false

/-- The guard of the runs in which no `Free` call gives up. -/
def FreeInTime (s : PoolState Caller β) : PoolAction Caller β → Prop
  | .advance c => s.givesUp c = false
  | _ => True

instance (s : PoolState Caller β) (action : PoolAction Caller β) :
    Decidable (s.FreeInTime action) :=
  match action with
  | .advance c => inferInstanceAs (Decidable (s.givesUp c = false))
  | .allocate _ _ => instDecidableTrue
  | .free _ _ => instDecidableTrue
  | .write _ _ _ => instDecidableTrue
  | .processAllocation _ => instDecidableTrue
  | .processFree => instDecidableTrue

omit [DecidableEq Caller] in
theorem pendingRequests_eq (s : PoolState Caller β) (b : Buffer) :
    s.pendingRequests b =
      s.ledger.requested b + if s.ledger.reclaiming = some b then 1 else 0 := rfl

/-- No slot is leaked when every used slot has an owner inside. -/
theorem noLeak_iff {s : PoolState Caller β} (ht : ∀ type, s.ledger.Tracked type) :
    s.NoLeak ↔ ∀ b, ¬ s.ledger.Owned b .outside := by
  constructor
  · intro h b houtside
    have hused : s.manager.Used b.1 b.2 := houtside.used.mpr (by simp)
    rcases h b hused with hheld | hpending
    · obtain ⟨c, hmem | hrel⟩ := hheld
      · exact absurd (houtside.of_mem_held hmem) (by simp)
      · exact absurd ((houtside.releasing c).mp hrel) (by simp)
    · simp [pendingRequests_eq, houtside.requested, houtside.reclaiming] at hpending
  · intro h b hused
    obtain ⟨owner, howned⟩ : ∃ owner, s.ledger.Owned b owner := ht b.1 b.2
    have hidle := howned.used.mp hused
    cases owner with
    | idle => exact absurd rfl hidle
    | held c =>
      have hcount := howned.held c
      rw [if_pos rfl] at hcount
      have hmem : b ∈ s.ledger.held c := List.count_pos_iff.mp (hcount ▸ Nat.one_pos)
      exact Or.inl ⟨c, Or.inl hmem⟩
    | releasing c => exact Or.inl ⟨c, Or.inr ((howned.releasing c).mpr rfl)⟩
    | queued =>
      exact Or.inr (by simp [pendingRequests_eq, howned.requested, howned.reclaiming])
    | reclaiming =>
      exact Or.inr (by simp [pendingRequests_eq, howned.requested, howned.reclaiming])
    | outside => exact absurd howned (h b)

omit [DecidableEq Caller] in
/-- A used buffer is leaked when every caller is idle with empty hands and no request
names it. -/
theorem leak_of_lost {s : PoolState Caller β} {b : Buffer}
    (hused : s.manager.Used b.1 b.2)
    (hcallers : ∀ c, (s.callers c).held = [] ∧ (s.callers c).call.isNone)
    (hpending : s.pendingRequests b = 0) : ¬ s.NoLeak := by
  intro hleak
  rcases hleak b hused with ⟨c, hmem | hrel⟩ | hone
  · rw [(hcallers c).1] at hmem
    exact List.not_mem_nil hmem
  · rw [Option.isNone_iff_eq_none.mp (hcallers c).2] at hrel
    exact absurd hrel (by simp)
  · omega

omit [DecidableEq Caller] in
theorem givesUp_iff (s : PoolState Caller β) (c : Caller) :
    s.givesUp c = true ↔
      ∃ allocation stage, (s.callers c).call = some (.free allocation stage) ∧
        (PoolManager.freeStep allocation stage s.manager).1 = .inr false := by
  simp only [PoolManager.freeStep_inr_false_iff, givesUp]
  split
  · rename_i allocation wait waitCount hcall
    simp [hcall]
  · rename_i hother
    simp only [Bool.false_eq_true, false_iff]
    intro h
    obtain ⟨allocation, _, hcall, wait, waitCount, rfl, _⟩ := h
    exact hother allocation wait waitCount hcall

/-- The last operation of a `Free` call that gives up leaves its buffer outside. -/
theorem outside_of_givesUp {s : PoolState Caller β} {c : Caller} (hgives : s.givesUp c = true)
    (ht : ∀ type, s.ledger.Tracked type) :
    ∃ call b, (s.callers c).call = some call ∧ (s.advance c call).ledger.Owned b .outside := by
  obtain ⟨allocation, stage, hcall, hfalse⟩ := (s.givesUp_iff c).mp hgives
  have hrel : s.ledger.releasing c = some (allocation.type, allocation.address) := by
    simp [ledger, hcall, Call.releasing]
  refine ⟨_, (allocation.type, allocation.address), hcall, ?_⟩
  obtain ⟨owner, howned⟩ := ht allocation.type allocation.address
  obtain rfl := (howned.releasing c).mp hrel
  have hsame : (PoolManager.freeStep allocation stage s.manager).2 = s.manager := by
    rcases PoolManager.freeStep_cases allocation stage s.manager with ⟨hres, _⟩ | ⟨_, hsame⟩
    · rw [hfalse] at hres
      exact absurd hres (by simp)
    · exact hsame
  have hadvance : s.advance c (.free allocation stage) =
      s.setCaller c ⟨none, (s.callers c).held⟩ := by
    rcases hstep : PoolManager.freeStep allocation stage s.manager with ⟨result, manager⟩
    rw [hstep] at hfalse hsame
    obtain rfl : result = .inr false := hfalse
    obtain rfl : manager = s.manager := hsame
    simp [advance, hstep]
  rw [hadvance, ledger_setCaller]
  refine ⟨by simpa using howned.used, ?_, ?_, by simpa using howned.requested,
    by simpa using howned.reclaiming⟩
  · intro d
    have hheld : Function.update s.ledger.held c (s.callers c).held = s.ledger.held :=
      Function.update_eq_self c s.ledger.held
    simp only [hheld]
    simpa using howned.held d
  · refine Ledger.releasing_update howned.releasing (by simp) ?_
    intro d hd
    simp [Ne.symm hd]

/-- A call in progress ends, or goes on, by its own caller's operations only. -/
theorem advance_callers_of_ne (s : PoolState Caller β) {c d : Caller} (hcd : c ≠ d)
    (call : Call) : (s.advance d call).callers c = s.callers c := by
  cases call with
  | allocate type stage =>
    simp only [advance]
    split <;> exact Function.update_of_ne hcd _ _
  | free allocation stage =>
    simp only [advance]
    split <;> exact Function.update_of_ne hcd _ _

variable [Zero β]

omit [DecidableEq Caller] in
theorem processAllocation_callers {os : Allocator} {s s' : PoolState Caller β}
    {answer : Option Pvoid} (h : s.processAllocation os answer = some s') :
    s'.callers = s.callers := by
  unfold processAllocation at h
  split at h
  · split at h
    · rw [← Option.some.inj h]
    · rw [← Option.some.inj h]
  · split at h
    · rw [← Option.some.inj h]
    · exact absurd h (by simp)

omit [DecidableEq Caller] in
theorem processFree_callers (s : PoolState Caller β) : s.processFree.callers = s.callers := by
  unfold processFree
  split
  · split <;> rfl
  · split <;> rfl

theorem step_call_of_ne {os : Allocator} {s s' : PoolState Caller β}
    {action : PoolAction Caller β} (h : step os s action = some s') {c : Caller} {call : Call}
    (hcall : (s.callers c).call = some call) (hne : ∀ d, action = .advance d → c ≠ d) :
    (s'.callers c).call = some call := by
  have hset : ∀ d state, (s.callers d).call = none →
      ((s.setCaller d state).callers c).call = some call := by
    intro d state hidle
    have hcd : c ≠ d := by
      intro heq
      subst heq
      simp [hcall] at hidle
    rwa [show (s.setCaller d state).callers c = s.callers c from Function.update_of_ne hcd _ _]
  cases action with
  | allocate d type =>
    simp only [step] at h
    split at h
    · rename_i hidle
      rw [← Option.some.inj h]
      exact hset d _ hidle
    · exact absurd h (by simp)
  | free d buffer =>
    obtain ⟨type, address⟩ := buffer
    simp only [step] at h
    split at h
    · rename_i hidle
      split at h
      · split at h
        · rwa [← Option.some.inj h]
        · rw [← Option.some.inj h]
          exact hset d _ hidle
      · exact absurd h (by simp)
    · exact absurd h (by simp)
  | advance d =>
    simp only [step, Option.map_eq_some_iff] at h
    obtain ⟨other, _, rfl⟩ := h
    rw [advance_callers_of_ne s (hne d rfl)]
    exact hcall
  | write d buffer content =>
    simp only [step] at h
    split at h
    · rwa [← Option.some.inj h]
    · exact absurd h (by simp)
  | processAllocation answer =>
    rw [processAllocation_callers h]
    exact hcall
  | processFree =>
    rw [← Option.some.inj h, processFree_callers]
    exact hcall

omit [Zero β] in
/-- An operation of a `Free` call that does not give up still knows its buffer. -/
theorem not_outside_of_advance {s : PoolState Caller β} {c : Caller} {allocation : PoolAllocation}
    {stage : PoolManager.FreeStage} (hcall : (s.callers c).call = some (.free allocation stage))
    (hgives : s.givesUp c = false) :
    ¬ (s.advance c (.free allocation stage)).ledger.Owned
      (allocation.type, allocation.address) .outside := by
  intro houtside
  have hreturns : (PoolManager.freeStep allocation stage s.manager).1 ≠ .inr false := by
    intro hfalse
    rw [(s.givesUp_iff c).mpr ⟨allocation, stage, hcall, hfalse⟩] at hgives
    exact absurd hgives (by decide)
  have hcases := PoolManager.freeStep_cases allocation stage s.manager
  simp only [advance] at houtside
  rcases hstep : PoolManager.freeStep allocation stage s.manager with ⟨result, manager⟩
  rw [hstep] at hcases hreturns houtside
  rcases result with stage' | _ | _
  · have hrel := (houtside.releasing c).mp
    simp only [ledger_setCaller, Function.update_self] at hrel
    exact absurd (hrel rfl) (by simp)
  · exact absurd rfl hreturns
  · obtain ⟨_, hperm, _⟩ | ⟨hne, _⟩ := hcases
    · have hnone : manager.requested allocation.type allocation.address = 0 := houtside.requested
      simp only at hperm
      simp [PoolManager.requested, hperm.countP_eq] at hnone
    · exact absurd rfl hne

/-- A step leaks no slot as long as no `Free` call gives up. -/
theorem step_noLeak {os : Allocator} {s s' : PoolState Caller β} {action : PoolAction Caller β}
    (h : step os s action = some s') (hs : s.Safe os) (ht : ∀ type, s.ledger.Tracked type)
    (hleak : s.NoLeak) (hguard : s.FreeInTime action) : s'.NoLeak := by
  rw [noLeak_iff fun type => step_tracked h hs (ht type)]
  intro b houtside
  obtain ⟨owner, howned⟩ : ∃ owner, s.ledger.Owned b owner := ht b.1 b.2
  obtain ⟨owner', howned', hmoves⟩ := (step_effect h hs.wellFormed).1.owned hs.sound howned
  obtain rfl := houtside.eq_outside howned'
  cases hmoves with
  | stay => exact (noLeak_iff ht).mp hleak b howned
  | abandon c =>
    have hrel := (howned.releasing c).mpr rfl
    have hgone : s'.ledger.releasing c ≠ some b :=
      fun heq => absurd ((houtside.releasing c).mp heq) (by simp)
    obtain ⟨call, hcall, hreleasing⟩ := Option.bind_eq_some_iff.mp hrel
    -- the call that knew the buffer is over, so this was its own operation
    obtain rfl : action = .advance c := by
      by_contra hne
      have hkept := step_call_of_ne h hcall fun d hd hcd => hne (hcd ▸ hd)
      exact hgone (by simp [ledger, hkept, hreleasing])
    cases call with
    | allocate type stage => exact absurd hreleasing (by simp [Call.releasing])
    | free allocation stage =>
      obtain rfl := Option.some.inj hreleasing
      simp only [step, hcall, Option.map_some, Option.some.injEq] at h
      subst h
      exact not_outside_of_advance hcall hguard houtside

/-- In a run whose `Free` calls never give up no slot is leaked, and the next step
leaks one exactly when a `Free` call gives up in it. -/
theorem noLeak_of_freeInTime {os : Allocator} (memory : Pvoid → β)
    (buffers : PoolManager.InitialBuffers os) {actions : List (PoolAction Caller β)}
    {s : PoolState Caller β}
    (hrun : GuardedRun (step os) FreeInTime (initial memory buffers) actions s) :
    s.NoLeak ∧ ∀ action s', step os s action = some s' → (s'.NoLeak ↔ s.FreeInTime action) := by
  have hinv : s.Safe os ∧ (∀ type, s.ledger.Tracked type) ∧ s.NoLeak := by
    refine GuardedRun.invariant
      (I := fun s => s.Safe os ∧ (∀ type, s.ledger.Tracked type) ∧ s.NoLeak) ?_ hrun
      ⟨initial_safe memory buffers, initial_tracked memory buffers, ?_⟩
    · intro s action s' hs hguard hstep
      obtain ⟨hsafe, ht, hleak⟩ := hs
      exact ⟨step_safe hstep hsafe, fun type => step_tracked hstep hsafe (ht type),
        step_noLeak hstep hsafe ht hleak hguard⟩
    · obtain ⟨_, hunused, _⟩ := PoolManager.construct_spec memory buffers
      exact fun b hused => absurd hused (hunused b.1 b.2)
  obtain ⟨hsafe, ht, hleak⟩ := hinv
  refine ⟨hleak, ?_⟩
  intro action s' hstep
  constructor
  · intro hleak'
    by_contra hguard
    cases action with
    | advance c =>
      have hgives : s.givesUp c = true := by simpa [FreeInTime] using hguard
      obtain ⟨call, b, hcall, houtside⟩ := outside_of_givesUp hgives ht
      have ht' := fun type => step_tracked hstep hsafe (ht type)
      simp only [step, hcall, Option.map_some, Option.some.injEq] at hstep
      subst hstep
      exact (noLeak_iff ht').mp hleak' b houtside
    | allocate c type => exact hguard trivial
    | free c buffer => exact hguard trivial
    | write c buffer content => exact hguard trivial
    | processAllocation answer => exact hguard trivial
    | processFree => exact hguard trivial
  · exact step_noLeak hstep hsafe ht hleak

/-- One caller takes a fresh buffer and starts to free it; the free worker sleeps. -/
def takeAndFree (address : Pvoid) : List (PoolAction Unit ℕ) :=
  [.allocate () .eptHookPage, .advance (), .advance (), .processAllocation none,
    .processAllocation (some address), .advance (), .free () (.eptHookPage, address), .advance ()]

def releaseBurst (n : ℕ) : List (PoolAction Unit ℕ) :=
  (List.range n).flatMap fun k => takeAndFree (BitVec.ofNat 64 (4096 * (k + 1)))

def noBuffers : PoolManager.InitialBuffers flatOs.toAllocator :=
  ⟨fun _ _ => none, by simp, by simp⟩

/-- Three releases are queued, and one of them is served. -/
theorem noLeak_of_freeInTime_three :
    let s : PoolState Unit ℕ := execute (step flatOs.toAllocator) (initial (fun _ => 0) noBuffers)
      (releaseBurst 3 ++ [.processFree, .processFree])
    s.manager.freeRequests.itemsCount = 2 ∧ s.NoLeak := by
  intro s
  have hallowed : allowed (step flatOs.toAllocator) FreeInTime
      (initial (fun _ => 0) noBuffers : PoolState Unit ℕ)
      (releaseBurst 3 ++ [.processFree, .processFree]) = true := by decide +kernel
  exact ⟨by decide +kernel,
    (noLeak_of_freeInTime (fun _ => 0) noBuffers (guardedRun_of_allowed hallowed)).1⟩

/-- The pool after a hundred queued releases and one that found the queue full. -/
def burstState : PoolState Unit ℕ :=
  execute (step flatOs.toAllocator) (initial (fun _ => 0) noBuffers)
    (releaseBurst 101 ++ List.replicate 25 (.advance ()))

theorem burstState_lost :
    burstState.manager.Used .eptHookPage 0x65000#64 ∧
      (∀ c, (burstState.callers c).held = [] ∧ (burstState.callers c).call.isNone) ∧
      burstState.pendingRequests (.eptHookPage, 0x65000#64) = 0 := by
  unfold PoolManager.Used
  decide +kernel

/-- The buffer of the last release is lost. -/
theorem releaseBurst_leaks :
    (∃ actions, Run (step flatOs.toAllocator)
      (initial (fun _ => 0) noBuffers) actions burstState) ∧ ¬ burstState.NoLeak := by
  refine ⟨exists_run_execute _ _ _, ?_⟩
  obtain ⟨hused, hcallers, hpending⟩ := burstState_lost
  exact leak_of_lost (s := burstState) (b := (.eptHookPage, 0x65000#64)) hused hcallers
    hpending

end PoolState

end NovaHypervisor

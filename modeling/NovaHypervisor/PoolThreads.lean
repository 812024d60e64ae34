import NovaHypervisor.General.Run
import NovaHypervisor.PoolLedger
import NovaHypervisor.PoolManager

/-!
The pool among its parties: any number of callers inside `Allocate` or `Free`,
and the two worker threads. A step is one lock-protected operation of one
party. A caller frees what it holds, with the type it was allocated with, and
writes only to what it holds; a worker that popped a request processes it
before it pops another one.
-/
namespace NovaHypervisor

open General

inductive Call where
  | allocate (type : AllocationType) (stage : PoolManager.AllocateStage)
  | free (allocation : PoolAllocation) (stage : PoolManager.FreeStage)

/-- The buffer that a `Free` call is about to queue. -/
def Call.releasing : Call → Option Buffer
  | .allocate _ _ => none
  | .free allocation _ => some (allocation.type, allocation.address)

structure CallerState where
  call : Option Call
  held : List Buffer

structure PoolState (Caller β : Type*) where
  manager : PoolManager
  memory : Pvoid → β
  callers : Caller → CallerState
  allocationWorker : Option AllocationType
  freeWorker : Option PoolAllocation

inductive PoolAction (Caller β : Type*) where
  | allocate (c : Caller) (type : AllocationType)
  | free (c : Caller) (buffer : Buffer)
  | advance (c : Caller)
  | write (c : Caller) (buffer : Buffer) (content : β)
  | processAllocation (answer : Option Pvoid)
  | processFree

namespace PoolState

variable {Caller β : Type*} [DecidableEq Caller] [Zero β]

def setCaller (s : PoolState Caller β) (c : Caller) (state : CallerState) : PoolState Caller β :=
  { s with callers := Function.update s.callers c state }

/-- The next lock-protected operation of the call that a caller is in. -/
def advance (s : PoolState Caller β) (c : Caller) : Call → PoolState Caller β
  | .allocate type stage =>
    let held := (s.callers c).held
    match PoolManager.allocateStep type stage s.manager with
    | (.inl stage', manager) =>
      { s with manager := manager }.setCaller c ⟨some (.allocate type stage'), held⟩
    | (.inr none, manager) => { s with manager := manager }.setCaller c ⟨none, held⟩
    | (.inr (some address), manager) =>
      { s with manager := manager }.setCaller c ⟨none, (type, address) :: held⟩
  | .free allocation stage =>
    let held := (s.callers c).held
    match PoolManager.freeStep allocation stage s.manager with
    | (.inl stage', manager) =>
      { s with manager := manager }.setCaller c ⟨some (.free allocation stage'), held⟩
    | (.inr _, manager) => { s with manager := manager }.setCaller c ⟨none, held⟩

omit [Zero β] in
theorem advance_memory (s : PoolState Caller β) (c : Caller) (call : Call) :
    (s.advance c call).memory = s.memory := by
  cases call with
  | allocate type stage =>
    simp only [advance]
    split <;> rfl
  | free allocation stage =>
    simp only [advance]
    split <;> rfl

/-- A turn of the allocation worker's loop up to the pop, or the rest of it. The
kernel allocator answers with an address it grants and that is not in use. -/
def processAllocation (os : Allocator) (s : PoolState Caller β) (answer : Option Pvoid) :
    Option (PoolState Caller β) :=
  match s.allocationWorker with
  | none =>
    if s.manager.allocationRequests.getListSize = 0 then some s
    else
      let (type, requests) := s.manager.allocationRequests.pop
      some { s with
        manager := { s.manager with allocationRequests := requests }
        allocationWorker := some type }
  | some type =>
    if answer.all fun a => os.grants type a &&
        decide (∀ other ∈ [AllocationType.split2mbPagingTo4kbPage, .eptHookPage],
          a ∉ s.manager.addresses other) then
      let (_, manager, memory) := s.manager.allocateInternal s.memory type answer
      some { s with manager := manager, memory := memory, allocationWorker := none }
    else none

def processFree (s : PoolState Caller β) : PoolState Caller β :=
  match s.freeWorker with
  | none =>
    if s.manager.freeRequests.getListSize = 0 then s
    else
      let (allocation, requests) := s.manager.freeRequests.pop
      { s with
        manager := { s.manager with freeRequests := requests }
        freeWorker := some allocation }
  | some allocation =>
    if allocation.address = null then { s with freeWorker := none }
    else
      let (manager, memory) :=
        s.manager.freeInternal s.memory allocation.address allocation.type
      { s with manager := manager, memory := memory, freeWorker := none }

def step (os : Allocator) (s : PoolState Caller β) :
    PoolAction Caller β → Option (PoolState Caller β)
  | .allocate c type =>
    match (s.callers c).call with
    | none => some (s.setCaller c ⟨some (.allocate type .find), (s.callers c).held⟩)
    | some _ => none
  | .free c (type, address) =>
    match (s.callers c).call with
    | none =>
      if (type, address) ∈ (s.callers c).held then
        -- `Free` returns at once on a null address
        if address = null then some s
        else some (s.setCaller c ⟨some (.free ⟨address, false, type⟩ .insert),
          (s.callers c).held.erase (type, address)⟩)
      else none
    | some _ => none
  | .advance c => (s.callers c).call.map (s.advance c)
  | .write c buffer content =>
    if buffer ∈ (s.callers c).held then
      some { s with memory := Function.update s.memory buffer.2 content }
    else none
  | .processAllocation answer => s.processAllocation os answer
  | .processFree => some s.processFree

/-- The pool after its constructor, with every caller idle. -/
def initial {os : Allocator} (memory : Pvoid → β) (buffers : PoolManager.InitialBuffers os) :
    PoolState Caller β where
  manager := (PoolManager.construct memory buffers).1
  memory := (PoolManager.construct memory buffers).2
  callers := fun _ => ⟨none, []⟩
  allocationWorker := none
  freeWorker := none

def ledger (s : PoolState Caller β) : Ledger Caller β where
  slot b := b.2 ∈ s.manager.addresses b.1
  used b := s.manager.Used b.1 b.2
  held c := (s.callers c).held
  releasing c := (s.callers c).call.bind Call.releasing
  requested b := s.manager.requested b.1 b.2
  reclaiming := s.freeWorker.map fun allocation => (allocation.type, allocation.address)
  memory := s.memory

section Views

omit [Zero β]

theorem ledger_setCaller (s : PoolState Caller β) (c : Caller) (state : CallerState) :
    (s.setCaller c state).ledger = { s.ledger with
      held := Function.update s.ledger.held c state.held
      releasing := Function.update s.ledger.releasing c (state.call.bind Call.releasing) } := by
  have happly : ∀ d, (s.setCaller c state).callers d = if d = c then state else s.callers d :=
    fun d => Function.update_apply _ _ _ _
  apply Ledger.ext <;> try rfl
  · funext d
    by_cases hd : d = c
    · simp [ledger, happly, hd]
    · simp [ledger, happly, hd]
  · funext d
    by_cases hd : d = c
    · simp [ledger, happly, hd]
    · simp [ledger, happly, hd]

/-- Changing only the stage of a call that frees the same buffer keeps the ledger. -/
theorem ledger_setCaller_same (s : PoolState Caller β) (c : Caller) (call : Option Call)
    (h : call.bind Call.releasing = s.ledger.releasing c) :
    (s.setCaller c ⟨call, (s.callers c).held⟩).ledger = s.ledger := by
  have hheld : Function.update s.ledger.held c (s.callers c).held = s.ledger.held :=
    Function.update_eq_self c s.ledger.held
  rw [ledger_setCaller, h, hheld, Function.update_eq_self]

omit [DecidableEq Caller]

/-- A manager with the same slots gives a ledger that differs in the requests alone. -/
theorem ledger_setManager (s : PoolState Caller β) {manager : PoolManager}
    (hslots : ∀ type, manager.allocations type = s.manager.allocations type) :
    ({ s with manager := manager } : PoolState Caller β).ledger =
      { s.ledger with requested := fun b => manager.requested b.1 b.2 } := by
  simp only [ledger, PoolManager.addresses, PoolManager.Used, hslots]

theorem ledger_setManager_same (s : PoolState Caller β) {manager : PoolManager}
    (hslots : ∀ type, manager.allocations type = s.manager.allocations type)
    (hrequests : manager.freeRequests = s.manager.freeRequests) :
    ({ s with manager := manager } : PoolState Caller β).ledger = s.ledger := by
  rw [ledger_setManager s hslots]
  simp only [PoolManager.requested, hrequests, ledger]

end Views

private theorem wellFormed_of_slots {os : Allocator} {p q : PoolManager} (hp : p.WellFormed os)
    (h : ∀ type, q.allocations type = p.allocations type) : q.WellFormed os :=
  hp.of_addresses fun type => by simp only [PoolManager.addresses, h]

private theorem eq_pair_iff (x : Buffer) (type : AllocationType) (a : Pvoid) :
    x.1 = type ∧ x.2 = a ↔ x = (type, a) := by
  rw [Prod.ext_iff]

private theorem requested_congr {p q : PoolManager} (h : q.freeRequests = p.freeRequests) :
    (fun b : Buffer => q.requested b.1 b.2) = fun b : Buffer => p.requested b.1 b.2 := by
  simp only [PoolManager.requested, h]

/-- Queueing a request raises the count of its buffer alone. -/
private theorem requested_cons {p q : PoolManager} {allocation : PoolAllocation}
    (h : q.freeRequests.pending.Perm (allocation :: p.freeRequests.pending)) (b : Buffer) :
    q.requested b.1 b.2 = p.requested b.1 b.2 +
      if b = (allocation.type, allocation.address) then 1 else 0 := by
  have hiff : (allocation.address = b.2 ∧ allocation.type = b.1) ↔
      b = (allocation.type, allocation.address) := by
    rw [← eq_pair_iff]
    exact ⟨fun h => ⟨h.2.symm, h.1.symm⟩, fun h => ⟨h.2.symm, h.1.symm⟩⟩
  simp only [PoolManager.requested, h.countP_eq, List.countP_cons, hiff, decide_eq_true_eq]

omit [DecidableEq Caller] [Zero β] in
/-- Taking the first unused slot claims its buffer and changes nothing else. -/
theorem ledger_findFreeSlot {os : Allocator} {s : PoolState Caller β} {type : AllocationType}
    {address : Pvoid} {manager : PoolManager} (hs : s.manager.WellFormed os)
    (h : s.manager.findFreeSlot type = (some address, manager)) :
    ({ s with manager := manager } : PoolState Caller β).ledger =
      s.ledger.claim (type, address) := by
  obtain ⟨_, _, haddresses, hused, hreq⟩ :=
    PoolManager.findFreeSlot_some (congrArg Prod.fst h) (hs.nodup type)
  simp only [h] at haddresses hused hreq
  apply Ledger.ext <;> try rfl
  · funext x
    exact congrArg (x.2 ∈ ·) (haddresses x.1)
  · funext x
    exact propext ((hused x.1 x.2).trans (or_congr Iff.rfl (eq_pair_iff x _ _)))
  · exact requested_congr hreq

omit [DecidableEq Caller] [Zero β] in
theorem ledger_request (s : PoolState Caller β) {allocation : PoolAllocation}
    {manager : PoolManager}
    (hperm : manager.freeRequests.pending.Perm (allocation :: s.manager.freeRequests.pending))
    (hslots : ∀ type, manager.allocations type = s.manager.allocations type) :
    ({ s with manager := manager } : PoolState Caller β).ledger =
      s.ledger.request (allocation.type, allocation.address) := by
  rw [ledger_setManager s hslots]
  apply Ledger.ext <;> try rfl
  funext x
  exact requested_cons hperm x

/-- A call's operation takes a free slot, queues a release, gives one up, or changes
nothing that the ledger records. -/
theorem advance_effect {os : Allocator} {s : PoolState Caller β} {c : Caller} {call : Call}
    (hcall : (s.callers c).call = some call) (hs : s.manager.WellFormed os) :
    Ledger.Effect os s.ledger (s.advance c call).ledger ∧
      (s.advance c call).manager.WellFormed os := by
  have hrel : s.ledger.releasing c = call.releasing := by simp [ledger, hcall]
  cases call with
  | allocate type stage =>
    have hcases := PoolManager.allocateStep_cases type stage s.manager
    simp only [advance]
    rcases hstep : PoolManager.allocateStep type stage s.manager with ⟨result, manager⟩
    rw [hstep] at hcases
    rcases hcases with ⟨address, hfind, hres⟩ | ⟨hres, hslots, hrequests⟩
    · obtain rfl : result = .inr (some address) := hres
      obtain ⟨hmem, hfree, haddresses, _⟩ :=
        PoolManager.findFreeSlot_some (congrArg Prod.fst hfind) (hs.nodup type)
      simp only [hfind] at haddresses
      refine ⟨?_, hs.of_addresses haddresses⟩
      have hreleasing : Function.update (s.ledger.claim (type, address)).releasing c none =
          s.ledger.releasing := Function.update_eq_self_iff.mpr hrel.symm
      rw [ledger_setCaller, ledger_findFreeSlot hs hfind,
        show (none : Option Call).bind Call.releasing = none from rfl, hreleasing]
      exact .take _ c (type, address) hmem hfree
    · have hledger := ledger_setManager_same s hslots hrequests
      have hwf := wellFormed_of_slots hs hslots
      have hquiet : ∀ call : Option Call, call.bind Call.releasing = none →
          Ledger.Effect os s.ledger
            ({ s with manager := manager }.setCaller c ⟨call, (s.callers c).held⟩).ledger := by
        intro call hnone
        have hsame := ledger_setCaller_same { s with manager := manager } c call
          (by rw [hnone, hledger, hrel]; rfl)
        rw [hsame, hledger]
        exact .quiet _
      rcases result with stage' | _ | address
      · exact ⟨hquiet _ rfl, hwf⟩
      · exact ⟨hquiet _ rfl, hwf⟩
      · exact absurd rfl (hres address)
  | free allocation stage =>
    have hcases := PoolManager.freeStep_cases allocation stage s.manager
    simp only [advance]
    rcases hstep : PoolManager.freeStep allocation stage s.manager with ⟨result, manager⟩
    rw [hstep] at hcases
    rcases hcases with ⟨hres, hperm, hslots⟩ | ⟨hres, hsame⟩
    · obtain rfl : result = .inr true := hres
      refine ⟨?_, wellFormed_of_slots hs hslots⟩
      have hheld : Function.update (s.ledger.request (allocation.type, allocation.address)).held c
          (s.callers c).held = s.ledger.held := Function.update_eq_self c s.ledger.held
      rw [ledger_setCaller, ledger_request s hperm hslots, hheld]
      exact .enqueue _ c _ hrel
    · obtain rfl : manager = s.manager := hsame
      rcases result with stage' | _ | _
      · refine ⟨?_, hs⟩
        have hsame := ledger_setCaller_same s c (some (.free allocation stage')) hrel.symm
        rw [show ({ s with manager := s.manager } : PoolState Caller β) = s from rfl, hsame]
        exact .quiet _
      · refine ⟨?_, hs⟩
        have hledger := ledger_setCaller s c ⟨none, (s.callers c).held⟩
        rw [show Function.update s.ledger.held c (s.callers c).held = s.ledger.held from
          Function.update_eq_self c s.ledger.held] at hledger
        rw [show ({ s with manager := s.manager } : PoolState Caller β) = s from rfl, hledger]
        exact .abandon _ c _ hrel
      · exact absurd rfl hres

theorem processAllocation_effect {os : Allocator} {s s' : PoolState Caller β}
    {answer : Option Pvoid} (h : s.processAllocation os answer = some s')
    (hs : s.manager.WellFormed os) :
    Ledger.Effect os s.ledger s'.ledger ∧ s'.manager.WellFormed os := by
  unfold processAllocation at h
  split at h
  · split at h
    · obtain rfl := Option.some.inj h
      exact ⟨.quiet _, hs⟩
    · obtain rfl := Option.some.inj h
      exact ⟨.quiet _, hs.of_addresses fun type => by cases type <;> rfl⟩
  · rename_i type htype
    split at h
    · rename_i hanswer
      obtain rfl := Option.some.inj h
      cases answer with
      | none => exact ⟨.quiet _, hs⟩
      | some address =>
        simp only [Option.all_some, List.mem_cons, List.not_mem_nil, or_false, forall_eq_or_imp,
          forall_eq, Bool.decide_and, Bool.and_eq_true, decide_eq_true_eq] at hanswer
        obtain ⟨hgrant, hpaging, hhook⟩ := hanswer
        have hfresh : ∀ other, address ∉ s.manager.addresses other := by
          intro other
          cases other with
          | split2mbPagingTo4kbPage => exact hpaging
          | eptHookPage => exact hhook
        obtain ⟨haddresses, hused, hreq⟩ :=
          PoolManager.allocateInternal_some s.manager s.memory type address
        refine ⟨?_, hs.allocateInternal_some s.memory hgrant hfresh⟩
        have hgrow : Ledger.Effect os s.ledger _ := .grow s.ledger (type, address) hgrant hfresh
        convert hgrow using 1
        apply Ledger.ext <;> try rfl
        · funext x
          exact propext ((haddresses x.1 x.2).trans (or_congr Iff.rfl (eq_pair_iff x _ _)))
        · funext x
          exact propext (hused x.1 x.2)
        · exact requested_congr hreq
    · exact absurd h (by simp)

theorem processFree_effect {os : Allocator} {s : PoolState Caller β}
    (hs : s.manager.WellFormed os) :
    Ledger.Effect os s.ledger s.processFree.ledger ∧ s.processFree.manager.WellFormed os := by
  unfold processFree
  split
  · rename_i hidle
    split
    · exact ⟨.quiet _, hs⟩
    · rename_i hsize
      have hperm := s.manager.freeRequests.pending_pop hsize
      refine ⟨?_, hs.of_addresses fun type => by cases type <;> rfl⟩
      apply Ledger.Effect.pop s.ledger _ _ (by simp [ledger, hidle])
      exact requested_cons (p := { s.manager with
        freeRequests := s.manager.freeRequests.pop.2 }) hperm
  · rename_i allocation hworker
    have hrec : s.ledger.reclaiming = some (allocation.type, allocation.address) := by
      simp [ledger, hworker]
    split
    · rename_i hnull
      refine ⟨.discard _ _ hrec ?_, hs⟩
      intro hslot
      exact os.grants_nonnull _ _ (hs.granted _ _ hslot) hnull
    · obtain ⟨haddresses, hused, hreq, hmem, hnot⟩ :=
        PoolManager.freeInternal_spec s.memory allocation.address (hs.nodup allocation.type)
      refine ⟨?_, hs.of_addresses haddresses⟩
      by_cases hslot : allocation.address ∈ s.manager.addresses allocation.type
      · have hreclaim : Ledger.Effect os s.ledger _ := .reclaim s.ledger _ hrec hslot
        convert hreclaim using 1
        apply Ledger.ext <;> try rfl
        · funext x
          exact congrArg (x.2 ∈ ·) (haddresses x.1)
        · funext x
          exact propext ((hused x.1 x.2).trans (and_congr Iff.rfl (not_congr (eq_pair_iff x _ _))))
        · exact requested_congr hreq
        · exact hmem hslot
      · have hdiscard : Ledger.Effect os s.ledger _ := .discard s.ledger _ hrec hslot
        convert hdiscard using 1
        apply Ledger.ext <;> try rfl
        · funext x
          exact congrArg (x.2 ∈ ·) (haddresses x.1)
        · funext x
          refine propext ((hused x.1 x.2).trans ⟨And.left, fun h => ⟨h, ?_⟩⟩)
          intro hsame
          obtain ⟨htype, haddress⟩ := hsame
          exact hslot (htype ▸ haddress ▸ h.mem_addresses)
        · exact requested_congr hreq
        · exact hnot hslot

/-- Every step of the parties has an effect on the ledger and keeps the pool well formed. -/
theorem step_effect {os : Allocator} {s s' : PoolState Caller β} {action : PoolAction Caller β}
    (h : step os s action = some s') (hs : s.manager.WellFormed os) :
    Ledger.Effect os s.ledger s'.ledger ∧ s'.manager.WellFormed os := by
  cases action with
  | allocate c type =>
    simp only [step] at h
    split at h
    · rename_i hidle
      obtain rfl := Option.some.inj h
      rw [ledger_setCaller_same s c _ (by simp [ledger, hidle, Call.releasing])]
      exact ⟨.quiet _, hs⟩
    · exact absurd h (by simp)
  | free c buffer =>
    obtain ⟨type, address⟩ := buffer
    simp only [step] at h
    split at h
    · rename_i hidle
      split at h
      · rename_i hmem
        split at h
        · obtain rfl := Option.some.inj h
          exact ⟨.quiet _, hs⟩
        · obtain rfl := Option.some.inj h
          rw [ledger_setCaller]
          exact ⟨.release _ c (type, address) hmem (by simp [ledger, hidle]), hs⟩
      · exact absurd h (by simp)
    · exact absurd h (by simp)
  | advance c =>
    simp only [step, Option.map_eq_some_iff] at h
    obtain ⟨call, hcall, rfl⟩ := h
    exact advance_effect hcall hs
  | write c buffer content =>
    simp only [step] at h
    split at h
    · rename_i hmem
      obtain rfl := Option.some.inj h
      exact ⟨.write _ c buffer content hmem, hs⟩
    · exact absurd h (by simp)
  | processAllocation answer => exact processAllocation_effect h hs
  | processFree =>
    obtain rfl := Option.some.inj h
    exact processFree_effect hs

structure Safe (os : Allocator) (s : PoolState Caller β) : Prop where
  wellFormed : s.manager.WellFormed os
  sound : s.ledger.Sound

theorem step_safe {os : Allocator} {s s' : PoolState Caller β} {action : PoolAction Caller β}
    (h : step os s action = some s') (hs : s.Safe os) : s'.Safe os := by
  obtain ⟨heffect, hwf⟩ := step_effect h hs.wellFormed
  exact ⟨hwf, heffect.sound hs.sound⟩

theorem step_tracked {os : Allocator} {s s' : PoolState Caller β} {action : PoolAction Caller β}
    (h : step os s action = some s') (hs : s.Safe os) {type : AllocationType}
    (ht : s.ledger.Tracked type) : s'.ledger.Tracked type :=
  (step_effect h hs.wellFormed).1.tracked hs.sound ht

omit [DecidableEq Caller] in
theorem initial_safe {os : Allocator} (memory : Pvoid → β)
    (buffers : PoolManager.InitialBuffers os) :
    (initial memory buffers : PoolState Caller β).Safe os := by
  obtain ⟨hwf, _, _, _⟩ := PoolManager.construct_spec memory buffers
  exact ⟨hwf, ⟨fun b hb => hb.mem_addresses, by simp [ledger, initial],
    fun type other a h h' => hwf.disjoint type other a h h'⟩⟩

theorem step_zeroed {os : Allocator} {s s' : PoolState Caller β} {action : PoolAction Caller β}
    (h : step os s action = some s') (hs : s.Safe os) {type : AllocationType}
    (ht : s.ledger.Tracked type) (hz : s.ledger.Zeroed type) : s'.ledger.Zeroed type :=
  (step_effect h hs.wellFormed).1.zeroed hs.sound ht hz

theorem initial_tracked {os : Allocator} (memory : Pvoid → β)
    (buffers : PoolManager.InitialBuffers os) (type : AllocationType) :
    (initial memory buffers : PoolState Caller β).ledger.Tracked type := by
  obtain ⟨_, hunused, hrequests, _⟩ := PoolManager.construct_spec memory buffers
  intro a
  refine ⟨.idle, ?_, ?_, ?_, ?_, ?_⟩
  · simpa [ledger, initial] using hunused type a
  · simp [ledger, initial]
  · simp [ledger, initial]
  · simp [ledger, initial, PoolManager.requested, hrequests]
  · simp [ledger, initial]

omit [DecidableEq Caller] in
theorem initial_zeroed {os : Allocator} (memory : Pvoid → β)
    (buffers : PoolManager.InitialBuffers os) (type : AllocationType) :
    (initial memory buffers : PoolState Caller β).ledger.Zeroed type := by
  obtain ⟨_, _, _, hzeroed⟩ := PoolManager.construct_spec memory buffers
  exact fun a hslot _ => hzeroed type a hslot

/-- Each address is in one hand, once, and a buffer is zero when `Allocate` returns it. -/
structure Exclusive (os : Allocator) (s : PoolState Caller β) : Prop where
  one_holder : ∀ c d b e, b ∈ (s.callers c).held → e ∈ (s.callers d).held → b.2 = e.2 →
    c = d ∧ b = e
  once : ∀ c, ((s.callers c).held.map Prod.snd).Nodup
  zero_at_return : ∀ c type stage address s', (s.callers c).call = some (.allocate type stage) →
    (PoolManager.allocateStep type stage s.manager).1 = .inr (some address) →
    step os s (.advance c) = some s' → s'.memory address = 0

theorem exclusive_of_run {os : Allocator} (memory : Pvoid → β)
    (buffers : PoolManager.InitialBuffers os) {actions : List (PoolAction Caller β)}
    {s : PoolState Caller β} (hrun : Run (step os) (initial memory buffers) actions s) :
    s.Exclusive os := by
  have hinv : s.Safe os ∧ ∀ type, s.ledger.Tracked type ∧ s.ledger.Zeroed type := by
    refine GuardedRun.invariant
      (I := fun s => s.Safe os ∧ ∀ type, s.ledger.Tracked type ∧ s.ledger.Zeroed type) ?_ hrun
      ⟨initial_safe memory buffers,
        fun type => ⟨initial_tracked memory buffers type, initial_zeroed memory buffers type⟩⟩
    intro s action s' hs _ hstep
    refine ⟨step_safe hstep hs.1, fun type => ?_⟩
    exact ⟨step_tracked hstep hs.1 (hs.2 type).1,
      step_zeroed hstep hs.1 (hs.2 type).1 (hs.2 type).2⟩
  obtain ⟨hsafe, htype⟩ := hinv
  have htracked := fun type => (htype type).1
  have hsame : ∀ c d b e, b ∈ (s.callers c).held → e ∈ (s.callers d).held → b.2 = e.2 →
      c = d ∧ b = e := by
    intro c d b e hb he heq
    obtain rfl := hsafe.sound.eq_of_address (hsafe.sound.held_slot c b hb)
      (hsafe.sound.held_slot d e he) heq
    obtain ⟨owner, howned⟩ := htracked b.1 b.2
    have hc := howned.of_mem_held (c := c) hb
    have hd := howned.of_mem_held (c := d) he
    exact ⟨Owner.held.inj (hc.symm.trans hd), rfl⟩
  refine ⟨hsame, ?_, ?_⟩
  · intro c
    apply List.Nodup.map_on
    · intro b hb e he heq
      exact (hsame c c b e hb he heq).2
    · rw [List.nodup_iff_count_le_one]
      intro b
      obtain ⟨owner, howned⟩ := htracked b.1 b.2
      have hcount := howned.held c
      split at hcount
      · exact Nat.le_of_eq hcount
      · exact Nat.le_trans (Nat.le_of_eq hcount) (by decide)
  · intro c type stage address s' hcall hreturn hstep
    simp only [step, hcall, Option.map_some, Option.some.injEq] at hstep
    subst hstep
    obtain ⟨hslot, hfree⟩ := PoolManager.allocateStep_some hreturn (hsafe.wellFormed.nodup type)
    rw [advance_memory]
    exact (htype type).2 address hslot hfree

/-- A caller writes to the buffer it got, frees it, and another caller gets it back. -/
theorem exclusive_of_run_reuse :
    let os : Allocator := ⟨fun _ a => decide (a ≠ null), by simp⟩
    let buffers : PoolManager.InitialBuffers os :=
      ⟨fun i type => if i = 0 ∧ type = .eptHookPage then some 0x1000#64 else none,
        by simp [os, null], by aesop⟩
    let s : PoolState Bool ℕ := execute (step os) (initial (fun _ => 0) buffers)
      [.allocate true .eptHookPage, .advance true, .write true (.eptHookPage, 0x1000#64) 7,
        .free true (.eptHookPage, 0x1000#64), .advance true, .processFree, .processFree,
        .allocate false .eptHookPage, .advance false]
    (s.callers false).held = [(.eptHookPage, 0x1000#64)] ∧ s.Exclusive os := by
  intro os buffers s
  obtain ⟨actions, hrun⟩ := exists_run_execute (step os) (initial (fun _ => 0) buffers)
    [.allocate true .eptHookPage, .advance true, .write true (.eptHookPage, 0x1000#64) 7,
      .free true (.eptHookPage, 0x1000#64), .advance true, .processFree, .processFree,
      .allocate false .eptHookPage, .advance false]
  exact ⟨by decide +kernel, exclusive_of_run (fun _ => 0) buffers hrun⟩

end PoolState

end NovaHypervisor

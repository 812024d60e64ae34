import NovaHypervisor.PoolThreads

/-!
`Allocate` and `Free` as one processor runs them to their end, while the other
parties of the pool take any steps before each of its lock-protected
operations. The loops run on fuel; the measure below shows that it suffices.
-/
namespace NovaHypervisor

open General

namespace PoolManager

/-- An upper bound on the turns left in a loop that waits. -/
def waitsLeft (wait waitCount : ℕ) : ℕ := (16 - Nat.log2 wait) + (maxWaitIterations - waitCount)

def AllocateStage.turns : AllocateStage → ℕ
  | .find => 57
  | .insert => 56
  | .insertRetry wait waitCount => 28 + waitsLeft wait waitCount
  | .poll wait waitCount => 1 + waitsLeft wait waitCount

def FreeStage.turns : FreeStage → ℕ
  | .insert => 28
  | .retry wait waitCount => 1 + waitsLeft wait waitCount

/-- The values that the wait and its counter take before the last turn. -/
def Waiting (wait waitCount : ℕ) : Prop :=
  (∃ k ≤ 16, wait = 2 ^ k) ∧ waitCount < maxWaitIterations

theorem waiting_one : Waiting 1 0 := ⟨⟨0, by decide, rfl⟩, by decide⟩

private theorem nextWait_of_lt {k : ℕ} (hk : k < 16) : nextWait (2 ^ k) = 2 ^ (k + 1) := by
  have hpow : 2 ^ k ≤ 2 ^ 15 := Nat.pow_le_pow_right (by decide) (by omega)
  rw [nextWait, if_neg, Nat.pow_succ]
  simp only [maxWait]
  omega

/-- Another turn is nearer to the end: the wait doubles, or the counter grows. -/
theorem Waiting.next {wait waitCount : ℕ} (h : Waiting wait waitCount)
    (hcount : nextWaitCount wait waitCount < maxWaitIterations) :
    Waiting (nextWait wait) (nextWaitCount wait waitCount) ∧
      waitsLeft (nextWait wait) (nextWaitCount wait waitCount) < waitsLeft wait waitCount := by
  obtain ⟨⟨k, hk, rfl⟩, hw⟩ := h
  have hgrows : waitCount ≤ nextWaitCount (2 ^ k) waitCount := by
    unfold nextWaitCount
    split <;> omega
  rcases Nat.lt_or_ge k 16 with hlt | hge
  · rw [nextWait_of_lt hlt]
    refine ⟨⟨⟨k + 1, hlt, rfl⟩, hcount⟩, ?_⟩
    simp only [waitsLeft, Nat.log2_two_pow]
    omega
  · obtain rfl : k = 16 := by omega
    have hwait : nextWait (2 ^ 16) = 2 ^ 16 := by decide
    have hsucc : nextWaitCount (2 ^ 16) waitCount = waitCount + 1 := if_pos (by decide)
    rw [hwait, hsucc] at *
    refine ⟨⟨⟨16, hk, rfl⟩, hcount⟩, ?_⟩
    simp only [waitsLeft]
    omega

/-- The stages that `Allocate` goes through. -/
def AllocateStage.Reached : AllocateStage → Prop
  | .find => True
  | .insert => True
  | .insertRetry wait waitCount => Waiting wait waitCount
  | .poll wait waitCount => Waiting wait waitCount

def FreeStage.Reached : FreeStage → Prop
  | .insert => True
  | .retry wait waitCount => Waiting wait waitCount

/-- An operation of `Allocate` that does not return leaves fewer turns. -/
theorem allocateStep_turns {type : AllocationType} {stage stage' : AllocateStage}
    {p : PoolManager} (hstage : stage.Reached)
    (h : (allocateStep type stage p).1 = .inl stage') :
    stage'.Reached ∧ stage'.turns < stage.turns := by
  cases stage with
  | find =>
    simp only [allocateStep] at h
    split at h
    · exact absurd h (by simp)
    · obtain rfl := Sum.inl.inj h
      exact ⟨trivial, by decide⟩
  | insert =>
    simp only [allocateStep] at h
    split at h
    · obtain rfl := Sum.inl.inj h
      exact ⟨waiting_one, by decide⟩
    · obtain rfl := Sum.inl.inj h
      exact ⟨waiting_one, by decide⟩
  | insertRetry wait waitCount =>
    simp only [allocateStep] at h
    split at h
    · rename_i hmore
      simp only [Bool.and_eq_true, decide_eq_true_eq] at hmore
      obtain ⟨hnext, hlt⟩ := hstage.next hmore.2
      obtain rfl := Sum.inl.inj h
      refine ⟨hnext, ?_⟩
      simp only [AllocateStage.turns]
      omega
    · split at h
      · exact absurd h (by simp)
      · obtain rfl := Sum.inl.inj h
        refine ⟨waiting_one, ?_⟩
        simp only [AllocateStage.turns]
        have : waitsLeft 1 0 = 26 := by decide
        omega
  | poll wait waitCount =>
    simp only [allocateStep] at h
    split at h
    · rename_i hmore
      simp only [Bool.and_eq_true, decide_eq_true_eq] at hmore
      obtain ⟨hnext, hlt⟩ := hstage.next hmore.2
      obtain rfl := Sum.inl.inj h
      refine ⟨hnext, ?_⟩
      simp only [AllocateStage.turns]
      omega
    · exact absurd h (by simp)

theorem freeStep_turns {allocation : PoolAllocation} {stage stage' : FreeStage}
    {p : PoolManager} (hstage : stage.Reached)
    (h : (freeStep allocation stage p).1 = .inl stage') :
    stage'.Reached ∧ stage'.turns < stage.turns := by
  cases stage with
  | insert =>
    simp only [freeStep] at h
    split at h
    · exact absurd h (by simp)
    · obtain rfl := Sum.inl.inj h
      exact ⟨waiting_one, by decide⟩
  | retry wait waitCount =>
    simp only [freeStep] at h
    split at h
    · rename_i hmore
      simp only [Bool.and_eq_true, decide_eq_true_eq] at hmore
      obtain ⟨hnext, hlt⟩ := hstage.next hmore.2
      obtain rfl := Sum.inl.inj h
      refine ⟨hnext, ?_⟩
      simp only [FreeStage.turns]
      omega
    · exact absurd h (by simp)

end PoolManager

/-- The pool as one processor's calls see it. Each list of `upcoming` is what the
other parties do before the next of the processor's operations. -/
structure SharedPool (Caller β : Type*) where
  state : PoolState Caller β
  upcoming : List (List (PoolAction Caller β))

namespace SharedPool

variable {Caller β : Type*} [DecidableEq Caller] [Zero β]

def interrupt (os : Allocator) (p : SharedPool Caller β) : SharedPool Caller β :=
  ⟨execute (PoolState.step os) p.state (p.upcoming.headD []), p.upcoming.tail⟩

def setManager (p : SharedPool Caller β) (manager : PoolManager) : SharedPool Caller β :=
  { p with state := { p.state with manager := manager } }

def allocateFrom (os : Allocator) (type : AllocationType) :
    ℕ → PoolManager.AllocateStage → SharedPool Caller β → Option Pvoid × SharedPool Caller β
  | 0, _, p => (none, p)
  | fuel + 1, stage, p =>
    let p := p.interrupt os
    match PoolManager.allocateStep type stage p.state.manager with
    | (.inl stage', manager) => allocateFrom os type fuel stage' (p.setManager manager)
    | (.inr result, manager) => (result, p.setManager manager)

def allocate (os : Allocator) (type : AllocationType) (p : SharedPool Caller β) :
    Option Pvoid × SharedPool Caller β :=
  allocateFrom os type (PoolManager.AllocateStage.find.turns + 1) .find p

def freeFrom (os : Allocator) (allocation : PoolAllocation) :
    ℕ → PoolManager.FreeStage → SharedPool Caller β → SharedPool Caller β
  | 0, _, p => p
  | fuel + 1, stage, p =>
    let p := p.interrupt os
    match PoolManager.freeStep allocation stage p.state.manager with
    | (.inl stage', manager) => freeFrom os allocation fuel stage' (p.setManager manager)
    | (.inr _, manager) => p.setManager manager

def free (os : Allocator) (address : Pvoid) (type : AllocationType) (p : SharedPool Caller β) :
    SharedPool Caller β :=
  if address = null then p
  else freeFrom os ⟨address, false, type⟩ (PoolManager.FreeStage.insert.turns + 1) .insert p

/-- More fuel than the turns left changes nothing, so the loop ends by its own test. -/
theorem allocateFrom_fuel (os : Allocator) (type : AllocationType) {fuel : ℕ}
    {stage : PoolManager.AllocateStage} (hstage : stage.Reached) (hfuel : stage.turns < fuel)
    (extra : ℕ) (p : SharedPool Caller β) :
    allocateFrom os type (fuel + extra) stage p = allocateFrom os type fuel stage p := by
  induction fuel generalizing stage p with
  | zero => omega
  | succ fuel ih =>
    rw [Nat.succ_add]
    simp only [allocateFrom]
    rcases hstep : PoolManager.allocateStep type stage (p.interrupt os).state.manager with
      ⟨stage' | result, manager⟩
    · obtain ⟨hreached, hlt⟩ := PoolManager.allocateStep_turns hstage (congrArg Prod.fst hstep)
      exact ih hreached (by omega) _
    · rfl

theorem freeFrom_fuel (os : Allocator) (allocation : PoolAllocation) {fuel : ℕ}
    {stage : PoolManager.FreeStage} (hstage : stage.Reached) (hfuel : stage.turns < fuel)
    (extra : ℕ) (p : SharedPool Caller β) :
    freeFrom os allocation (fuel + extra) stage p = freeFrom os allocation fuel stage p := by
  induction fuel generalizing stage p with
  | zero => omega
  | succ fuel ih =>
    rw [Nat.succ_add]
    simp only [freeFrom]
    rcases hstep : PoolManager.freeStep allocation stage (p.interrupt os).state.manager with
      ⟨stage' | result, manager⟩
    · obtain ⟨hreached, hlt⟩ := PoolManager.freeStep_turns hstage (congrArg Prod.fst hstep)
      exact ih hreached (by omega) _
    · rfl

/-- The other parties keep the pool's laws and the processor's own buffers. -/
structure Evolves (os : Allocator) (s s' : PoolState Caller β) : Prop where
  safe : s'.Safe os
  slot : ∀ b, s.ledger.slot b → s'.ledger.slot b
  tracked : ∀ type, s.ledger.Tracked type → s'.ledger.Tracked type
  outside : ∀ b, s.ledger.Owned b .outside →
    s'.ledger.Owned b .outside ∧ s'.memory b.2 = s.memory b.2

omit [Zero β] in
theorem Evolves.refl {os : Allocator} {s : PoolState Caller β} (hs : s.Safe os) :
    Evolves os s s :=
  ⟨hs, fun _ h => h, fun _ h => h, fun _ h => ⟨h, rfl⟩⟩

omit [Zero β] in
theorem Evolves.trans {os : Allocator} {s t u : PoolState Caller β} (h : Evolves os s t)
    (h' : Evolves os t u) : Evolves os s u := by
  refine ⟨h'.safe, fun b hb => h'.slot b (h.slot b hb),
    fun type ht => h'.tracked type (h.tracked type ht), ?_⟩
  intro b hb
  obtain ⟨hmid, hmem⟩ := h.outside b hb
  obtain ⟨hend, hmem'⟩ := h'.outside b hmid
  exact ⟨hend, hmem'.trans hmem⟩

theorem evolves_of_step {os : Allocator} {s s' : PoolState Caller β}
    {action : PoolAction Caller β} (h : PoolState.step os s action = some s') (hs : s.Safe os) :
    Evolves os s s' := by
  obtain ⟨heffect, hwf⟩ := PoolState.step_effect h hs.wellFormed
  exact ⟨⟨hwf, heffect.sound hs.sound⟩, fun b hb => heffect.slot hb,
    fun type ht => heffect.tracked hs.sound ht, fun b hb => heffect.outside hs.sound hb⟩

theorem evolves_execute {os : Allocator} (actions : List (PoolAction Caller β))
    {s : PoolState Caller β} (hs : s.Safe os) :
    Evolves os s (execute (PoolState.step os) s actions) := by
  induction actions generalizing s with
  | nil => exact Evolves.refl hs
  | cons action actions ih =>
    rw [execute_cons]
    cases hstep : PoolState.step os s action with
    | none => exact ih hs
    | some s' =>
      have hfirst := evolves_of_step hstep hs
      exact hfirst.trans (ih hfirst.safe)

theorem evolves_interrupt (os : Allocator) {p : SharedPool Caller β} (hp : p.state.Safe os) :
    Evolves os p.state (p.interrupt os).state :=
  evolves_execute _ hp

omit [Zero β] in
/-- A manager with the same slots and free requests is the same pool to everyone. -/
theorem evolves_setManager {os : Allocator} {p : SharedPool Caller β} (hp : p.state.Safe os)
    {manager : PoolManager}
    (hslots : ∀ type, manager.allocations type = p.state.manager.allocations type)
    (hrequests : manager.freeRequests = p.state.manager.freeRequests) :
    Evolves os p.state (p.setManager manager).state := by
  have hledger : (p.setManager manager).state.ledger = p.state.ledger :=
    PoolState.ledger_setManager_same p.state hslots hrequests
  refine ⟨⟨?_, hledger ▸ hp.sound⟩, ?_, ?_, ?_⟩
  · refine hp.wellFormed.of_addresses fun type => ?_
    simp only [PoolManager.addresses, setManager, hslots]
  · exact fun b hb => hledger ▸ hb
  · exact fun type ht => hledger ▸ ht
  · exact fun b hb => ⟨hledger ▸ hb, rfl⟩

/-- A call of `Allocate` that returned an address. -/
structure Allocated (os : Allocator) (type : AllocationType) (address : Pvoid)
    (s s' : PoolState Caller β) : Prop extends Evolves os s s' where
  granted : os.grants type address = true
  taken : s'.ledger.slot (type, address)
  fresh : ¬ s.ledger.Owned (type, address) .outside
  owned : s.ledger.Tracked type → s'.ledger.Owned (type, address) .outside

omit [Zero β] in
theorem allocated_claim {os : Allocator} {type : AllocationType} {address : Pvoid}
    {p : SharedPool Caller β} (hp : p.state.Safe os) {manager : PoolManager}
    (h : p.state.manager.findFreeSlot type = (some address, manager)) :
    Allocated os type address p.state (p.setManager manager).state := by
  obtain ⟨hslot, hfree, haddresses, _⟩ :=
    PoolManager.findFreeSlot_some (congrArg Prod.fst h) (hp.wellFormed.nodup type)
  simp only [h] at haddresses
  have hunused : ¬ p.state.ledger.used (type, address) := hfree
  have hledger : (p.setManager manager).state.ledger = p.state.ledger.claim (type, address) :=
    PoolState.ledger_findFreeSlot hp.wellFormed h
  constructor
  · refine ⟨⟨hp.wellFormed.of_addresses haddresses, ?_⟩, ?_, ?_, ?_⟩
    · rw [hledger]
      exact Ledger.claim_sound hp.sound hslot
    · intro b hb
      rw [hledger]
      exact hb
    · intro other ht
      rw [hledger]
      exact Ledger.claim_tracked hunused ht
    · intro b hb
      rw [hledger]
      exact ⟨Ledger.claim_outside hunused hb, rfl⟩
  · exact hp.wellFormed.granted type address hslot
  · rw [hledger]
    exact hslot
  · intro houtside
    exact hunused (houtside.used.mpr (by simp))
  · intro ht
    obtain ⟨owner, howned⟩ := ht address
    have hclaimed := Ledger.claim_owned hunused howned
    rw [if_pos rfl] at hclaimed
    rw [hledger]
    exact hclaimed

omit [Zero β] in
theorem Evolves.allocated {os : Allocator} {type : AllocationType} {address : Pvoid}
    {s t u : PoolState Caller β} (h : Evolves os s t) (h' : Allocated os type address t u) :
    Allocated os type address s u := by
  refine ⟨h.trans h'.toEvolves, h'.granted, h'.taken, ?_, fun ht => h'.owned (h.tracked type ht)⟩
  intro houtside
  exact h'.fresh (h.outside _ houtside).1

theorem allocateFrom_spec {os : Allocator} {type : AllocationType} {fuel : ℕ}
    {stage : PoolManager.AllocateStage} {p p' : SharedPool Caller β} {result : Option Pvoid}
    (hp : p.state.Safe os) (h : allocateFrom os type fuel stage p = (result, p')) :
    (result = none ∧ Evolves os p.state p'.state) ∨
      ∃ address, result = some address ∧ Allocated os type address p.state p'.state := by
  induction fuel generalizing stage p with
  | zero =>
    obtain ⟨rfl, rfl⟩ := Prod.mk.inj h
    exact Or.inl ⟨rfl, Evolves.refl hp⟩
  | succ fuel ih =>
    have hturn := evolves_interrupt os hp
    have hcases := PoolManager.allocateStep_cases type stage (p.interrupt os).state.manager
    simp only [allocateFrom] at h
    rcases hstep : PoolManager.allocateStep type stage (p.interrupt os).state.manager with
      ⟨next, manager⟩
    rw [hstep] at h hcases
    rcases hcases with ⟨address, hfind, hres⟩ | ⟨hres, hslots, hrequests⟩
    · obtain rfl : next = .inr (some address) := hres
      obtain ⟨rfl, rfl⟩ := Prod.mk.inj h
      exact Or.inr ⟨address, rfl, hturn.allocated (allocated_claim hturn.safe hfind)⟩
    · have hquiet := hturn.trans (evolves_setManager hturn.safe hslots hrequests)
      rcases next with stage' | _ | address
      · rcases ih hquiet.safe h with ⟨hnone, hlast⟩ | ⟨address, hsome, hlast⟩
        · exact Or.inl ⟨hnone, hquiet.trans hlast⟩
        · exact Or.inr ⟨address, hsome, hquiet.allocated hlast⟩
      · obtain ⟨rfl, rfl⟩ := Prod.mk.inj h
        exact Or.inl ⟨rfl, hquiet⟩
      · exact absurd rfl (hres address)

theorem allocate_none {os : Allocator} {type : AllocationType} {p p' : SharedPool Caller β}
    (hp : p.state.Safe os) (h : allocate os type p = (none, p')) :
    Evolves os p.state p'.state := by
  rcases allocateFrom_spec hp h with ⟨_, hevolves⟩ | ⟨address, hsome, _⟩
  · exact hevolves
  · exact absurd hsome (by simp)

theorem allocate_some {os : Allocator} {type : AllocationType} {p p' : SharedPool Caller β}
    {address : Pvoid} (hp : p.state.Safe os) (h : allocate os type p = (some address, p')) :
    Allocated os type address p.state p'.state := by
  rcases allocateFrom_spec hp h with ⟨hnone, _⟩ | ⟨found, hsome, hallocated⟩
  · exact absurd hnone (by simp)
  · obtain rfl := Option.some.inj hsome
    exact hallocated

/-- A call of `Free`: the buffer is queued, or its release is given up. -/
structure Freed (os : Allocator) (type : AllocationType) (address : Pvoid)
    (s s' : PoolState Caller β) : Prop where
  safe : s'.Safe os
  slot : ∀ b, s.ledger.slot b → s'.ledger.slot b
  tracked : ∀ other, (other = type → s.ledger.Owned (type, address) .outside) →
    s.ledger.Tracked other → s'.ledger.Tracked other
  outside : ∀ b, b ≠ (type, address) → s.ledger.Owned b .outside →
    s'.ledger.Owned b .outside ∧ s'.memory b.2 = s.memory b.2

omit [Zero β] in
theorem Evolves.freed {os : Allocator} {type : AllocationType} {address : Pvoid}
    {s t u : PoolState Caller β} (h : Evolves os s t) (h' : Freed os type address t u) :
    Freed os type address s u := by
  refine ⟨h'.safe, fun b hb => h'.slot b (h.slot b hb), ?_, ?_⟩
  · intro other howned ht
    exact h'.tracked other (fun heq => (h.outside _ (howned heq)).1) (h.tracked other ht)
  · intro b hne hb
    obtain ⟨hmid, hmem⟩ := h.outside b hb
    obtain ⟨hend, hmem'⟩ := h'.outside b hne hmid
    exact ⟨hend, hmem'.trans hmem⟩

omit [Zero β] in
theorem Evolves.to_freed {os : Allocator} (type : AllocationType) (address : Pvoid)
    {s s' : PoolState Caller β} (h : Evolves os s s') : Freed os type address s s' :=
  ⟨h.safe, h.slot, fun other _ ht => h.tracked other ht, fun b _ hb => h.outside b hb⟩

theorem freeFrom_spec {os : Allocator} (allocation : PoolAllocation) {fuel : ℕ}
    {stage : PoolManager.FreeStage} {p : SharedPool Caller β} (hp : p.state.Safe os) :
    Freed os allocation.type allocation.address p.state
      (freeFrom os allocation fuel stage p).state := by
  induction fuel generalizing stage p with
  | zero => exact (Evolves.refl hp).to_freed _ _
  | succ fuel ih =>
    have hturn := evolves_interrupt os hp
    have hcases := PoolManager.freeStep_cases allocation stage (p.interrupt os).state.manager
    simp only [freeFrom]
    rcases hstep : PoolManager.freeStep allocation stage (p.interrupt os).state.manager with
      ⟨next, manager⟩
    rw [hstep] at hcases
    rcases hcases with ⟨hres, hperm, hslots⟩ | ⟨hres, hsame⟩
    · obtain rfl : next = .inr true := hres
      refine hturn.freed ?_
      have hledger : ((p.interrupt os).setManager manager).state.ledger =
          (p.interrupt os).state.ledger.request (allocation.type, allocation.address) :=
        PoolState.ledger_request _ hperm hslots
      refine ⟨⟨?_, ?_⟩, ?_, ?_, ?_⟩
      · exact hturn.safe.wellFormed.of_addresses fun type => by
          simp only [PoolManager.addresses, setManager, hslots]
      · rw [hledger]
        exact ⟨hturn.safe.sound.used_slot, hturn.safe.sound.held_slot, hturn.safe.sound.disjoint⟩
      · intro b hb
        rw [hledger]
        exact hb
      · intro other howned ht
        rw [hledger]
        exact Ledger.request_tracked (fun heq => howned heq.symm) ht
      · intro b hne hb
        rw [hledger]
        exact ⟨Ledger.request_owned_of_ne hne hb, rfl⟩
    · obtain rfl : manager = (p.interrupt os).state.manager := hsame
      rcases next with stage' | queued
      · exact hturn.freed (ih hturn.safe)
      · exact hturn.to_freed _ _

theorem free_spec (os : Allocator) (type : AllocationType) (address : Pvoid)
    {p : SharedPool Caller β} (hp : p.state.Safe os) :
    Freed os type address p.state (free os address type p).state := by
  unfold free
  split
  · exact (Evolves.refl hp).to_freed _ _
  · exact freeFrom_spec ⟨address, false, type⟩ hp

theorem allocateFrom_quiet (os : Allocator) (type : AllocationType) (fuel : ℕ)
    (stage : PoolManager.AllocateStage) {p : SharedPool Caller β} (h : p.upcoming = []) :
    (allocateFrom os type fuel stage p).2.state.memory = p.state.memory ∧
      (allocateFrom os type fuel stage p).2.upcoming = [] := by
  induction fuel generalizing stage p with
  | zero => exact ⟨rfl, h⟩
  | succ fuel ih =>
    obtain ⟨state, upcoming⟩ := p
    obtain rfl : upcoming = [] := h
    simp only [allocateFrom]
    rcases PoolManager.allocateStep type stage (interrupt os ⟨state, []⟩).state.manager with
      ⟨stage' | result, manager⟩
    · exact ih stage' rfl
    · exact ⟨rfl, rfl⟩

theorem allocate_quiet (os : Allocator) (type : AllocationType) {p : SharedPool Caller β}
    (h : p.upcoming = []) : (allocate os type p).2.state.memory = p.state.memory ∧
      (allocate os type p).2.upcoming = [] :=
  allocateFrom_quiet os type _ _ h

theorem freeFrom_quiet (os : Allocator) (allocation : PoolAllocation) (fuel : ℕ)
    (stage : PoolManager.FreeStage) {p : SharedPool Caller β} (h : p.upcoming = []) :
    (freeFrom os allocation fuel stage p).state.memory = p.state.memory ∧
      (freeFrom os allocation fuel stage p).upcoming = [] := by
  induction fuel generalizing stage p with
  | zero => exact ⟨rfl, h⟩
  | succ fuel ih =>
    obtain ⟨state, upcoming⟩ := p
    obtain rfl : upcoming = [] := h
    simp only [freeFrom]
    rcases PoolManager.freeStep allocation stage (interrupt os ⟨state, []⟩).state.manager with
      ⟨stage' | queued, manager⟩
    · exact ih stage' rfl
    · exact ⟨rfl, rfl⟩

theorem free_quiet (os : Allocator) (address : Pvoid) (type : AllocationType)
    {p : SharedPool Caller β} (h : p.upcoming = []) :
    (free os address type p).state.memory = p.state.memory ∧
      (free os address type p).upcoming = [] := by
  unfold free
  split
  · exact ⟨rfl, h⟩
  · exact freeFrom_quiet os _ _ _ h

end SharedPool

end NovaHypervisor

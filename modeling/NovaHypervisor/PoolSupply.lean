import NovaHypervisor.PoolCalls

/-!
The free slots of the pool. While its workers and the other callers rest, a call
of `Allocate` succeeds exactly when its type has a free slot, and takes it; a
call of `Free` only queues its request, so that no slot becomes free again.
-/
namespace NovaHypervisor

open General

namespace PoolManager

def freeSlots (p : PoolManager) (type : AllocationType) : ℕ :=
  (p.allocations type).countP fun x => !x.isUsed

theorem freeSlots_eq_zero_iff (p : PoolManager) (type : AllocationType) :
    p.freeSlots type = 0 ↔ ∀ x ∈ p.allocations type, x.isUsed = true := by
  simp [freeSlots, List.countP_eq_zero]

/-- The slots of two pools agree: the requests and the stages of calls may differ. -/
def SameSlots (p q : PoolManager) : Prop := ∀ type, q.allocations type = p.allocations type

theorem SameSlots.freeSlots {p q : PoolManager} (h : p.SameSlots q) (type : AllocationType) :
    q.freeSlots type = p.freeSlots type := by
  rw [PoolManager.freeSlots, PoolManager.freeSlots, h]

theorem SameSlots.used {p q : PoolManager} (h : p.SameSlots q) (type : AllocationType)
    (address : Pvoid) : q.Used type address ↔ p.Used type address := by
  rw [Used, Used, h]

theorem SameSlots.wellFormed {os : Allocator} {p q : PoolManager} (h : p.SameSlots q)
    (hp : p.WellFormed os) : q.WellFormed os :=
  hp.of_addresses fun type => by rw [addresses, addresses, h]

/-- A slot of one type has been taken: it was unused, and no other slot changed. -/
structure Took (os : Allocator) (type : AllocationType) (address : Pvoid)
    (p q : PoolManager) : Prop where
  granted : os.grants type address = true
  fresh : ¬ p.Used type address
  used : ∀ other b, q.Used other b ↔ p.Used other b ∨ (other = type ∧ b = address)
  wellFormed : q.WellFormed os
  freeSlots : q.freeSlots type + 1 = p.freeSlots type
  freeSlots_of_ne : ∀ other, other ≠ type → q.freeSlots other = p.freeSlots other

theorem findFreeSlot_took {os : Allocator} {p : PoolManager} (hp : p.WellFormed os)
    {type : AllocationType} {address : Pvoid} {q : PoolManager}
    (h : p.findFreeSlot type = (some address, q)) : Took os type address p q := by
  obtain ⟨hmem, hfresh, haddresses, hused, _⟩ :=
    findFreeSlot_some (congrArg Prod.fst h) (hp.nodup type)
  simp only [h] at haddresses hused
  rcases p.findFreeSlot_ends type with ⟨heq, _⟩ | ⟨x, slots, hupdate, heq⟩
  · simp [h] at heq
  obtain ⟨_, rfl⟩ := Prod.mk.inj (h.symm.trans heq)
  refine ⟨hp.granted type address hmem, hfresh, hused, hp.of_addresses haddresses, ?_, ?_⟩
  · have hcount := countP_updateFirst hupdate fun x => !x.isUsed
    have hunused := (updateFirst_mem hupdate).2
    simp only [hunused, Bool.not_true, Bool.false_eq_true, if_true, if_false] at hcount
    simpa [freeSlots] using hcount
  · intro other hother
    rw [PoolManager.freeSlots, PoolManager.freeSlots, allocations_setAllocations_of_ne p hother]

/-- A free slot is found as long as there is one. -/
theorem findFreeSlot_of_free {p : PoolManager} {type : AllocationType}
    (h : 0 < p.freeSlots type) : ∃ address q, p.findFreeSlot type = (some address, q) := by
  rcases hfind : p.findFreeSlot type with ⟨_ | address, q⟩
  · have hall := (findFreeSlot_none (congrArg Prod.fst hfind)).2
    have hzero := (p.freeSlots_eq_zero_iff type).mpr hall
    omega
  · exact ⟨address, q, rfl⟩

/-- Without a free slot no operation of `Allocate` finds one or changes one. -/
theorem allocateStep_of_none_free (type : AllocationType) (stage : AllocateStage)
    {p : PoolManager} (h : p.freeSlots type = 0) :
    (∀ address, (allocateStep type stage p).1 ≠ .inr (some address)) ∧
      p.SameSlots (allocateStep type stage p).2 := by
  rcases allocateStep_cases type stage p with ⟨address, hfind, _⟩ | ⟨hres, hslots, _⟩
  · rcases p.findFreeSlot_ends type with ⟨heq, _⟩ | ⟨x, slots, hupdate, _⟩
    · simp [hfind] at heq
    · obtain ⟨hmem, hunused⟩ := updateFirst_mem hupdate
      have hused := (p.freeSlots_eq_zero_iff type).mp h x hmem
      simp [hused] at hunused
  · exact ⟨hres, hslots⟩

end PoolManager

namespace SharedPool

variable {Caller β : Type*} [DecidableEq Caller] [Zero β] {os : Allocator}

/-- A call that returns at its first operation. -/
theorem allocate_of_free {type : AllocationType} {p : SharedPool Caller β}
    (hquiet : p.upcoming = []) (hwf : p.state.manager.WellFormed os)
    (h : 0 < p.state.manager.freeSlots type) :
    ∃ address p', allocate os type p = (some address, p') ∧
      PoolManager.Took os type address p.state.manager p'.state.manager := by
  obtain ⟨state, upcoming⟩ := p
  obtain rfl : upcoming = [] := hquiet
  obtain ⟨address, q, hfind⟩ := PoolManager.findFreeSlot_of_free h
  refine ⟨address, (interrupt os ⟨state, []⟩).setManager q, ?_,
    PoolManager.findFreeSlot_took hwf hfind⟩
  have hstep : PoolManager.allocateStep type .find (interrupt os ⟨state, []⟩).state.manager =
      (.inr (some address), q) := by
    change PoolManager.allocateStep type .find state.manager = _
    simp [PoolManager.allocateStep, hfind]
  simp only [allocate, allocateFrom, hstep]

/-- A call that queues its request and polls to the end of its patience. -/
theorem allocateFrom_of_none_free (os : Allocator) {type : AllocationType} (fuel : ℕ)
    (stage : PoolManager.AllocateStage) {p : SharedPool Caller β} (hquiet : p.upcoming = [])
    (h : p.state.manager.freeSlots type = 0) :
    (allocateFrom os type fuel stage p).1 = none ∧
      p.state.manager.SameSlots (allocateFrom os type fuel stage p).2.state.manager := by
  induction fuel generalizing stage p with
  | zero => exact ⟨rfl, fun _ => rfl⟩
  | succ fuel ih =>
    obtain ⟨state, upcoming⟩ := p
    obtain rfl : upcoming = [] := hquiet
    obtain ⟨hnone, hslots⟩ := PoolManager.allocateStep_of_none_free type stage
      (p := (interrupt os ⟨state, []⟩).state.manager) h
    simp only [allocateFrom]
    rcases hstep : PoolManager.allocateStep type stage (interrupt os ⟨state, []⟩).state.manager
      with ⟨stage' | _ | address, manager⟩
    · rw [hstep] at hslots
      have hfree : manager.freeSlots type = 0 := (hslots.freeSlots type).trans h
      obtain ⟨hrest, hrest'⟩ :=
        ih stage' (p := (interrupt os ⟨state, []⟩).setManager manager) rfl hfree
      exact ⟨hrest, fun other => (hrest' other).trans (hslots other)⟩
    · rw [hstep] at hslots
      exact ⟨rfl, hslots⟩
    · rw [hstep] at hnone
      exact absurd rfl (hnone address)

theorem allocate_of_none_free {type : AllocationType} {p : SharedPool Caller β}
    (hquiet : p.upcoming = []) (h : p.state.manager.freeSlots type = 0) :
    ∃ p', allocate os type p = (none, p') ∧ p.state.manager.SameSlots p'.state.manager := by
  obtain ⟨hnone, hslots⟩ := allocateFrom_of_none_free os
    (PoolManager.AllocateStage.find.turns + 1) .find hquiet h
  exact ⟨(allocate os type p).2, Prod.ext hnone rfl, hslots⟩

theorem freeFrom_sameSlots (os : Allocator) (allocation : PoolAllocation) (fuel : ℕ)
    (stage : PoolManager.FreeStage) {p : SharedPool Caller β} (hquiet : p.upcoming = []) :
    p.state.manager.SameSlots (freeFrom os allocation fuel stage p).state.manager := by
  induction fuel generalizing stage p with
  | zero => exact fun _ => rfl
  | succ fuel ih =>
    obtain ⟨state, upcoming⟩ := p
    obtain rfl : upcoming = [] := hquiet
    have hslots : state.manager.SameSlots
        (PoolManager.freeStep allocation stage (interrupt os ⟨state, []⟩).state.manager).2 := by
      rcases PoolManager.freeStep_cases allocation stage (interrupt os ⟨state, []⟩).state.manager
        with ⟨_, _, hslots⟩ | ⟨_, hsame⟩
      · exact hslots
      · rw [hsame]
        exact fun _ => rfl
    simp only [freeFrom]
    rcases hstep : PoolManager.freeStep allocation stage (interrupt os ⟨state, []⟩).state.manager
      with ⟨stage' | queued, manager⟩
    · rw [hstep] at hslots
      have hrest := ih stage' (p := (interrupt os ⟨state, []⟩).setManager manager) rfl
      exact fun other => (hrest other).trans (hslots other)
    · rw [hstep] at hslots
      exact hslots

theorem free_sameSlots (os : Allocator) (address : Pvoid) (type : AllocationType)
    {p : SharedPool Caller β} (hquiet : p.upcoming = []) :
    p.state.manager.SameSlots (free os address type p).state.manager := by
  unfold free
  split
  · exact fun _ => rfl
  · exact freeFrom_sameSlots os _ _ _ hquiet

end SharedPool

end NovaHypervisor

import NovaHypervisor.Definitions
import NovaHypervisor.RequestList
import Mathlib.Data.List.Nodup

/-!
The pool's two slot lists and its lock-protected operations. `Allocate` and
`Free` are loops of such operations: each stage below is the point where the
call stands between two of them, and the local counters are the loop's own.
-/
namespace NovaHypervisor

open General

structure PoolAllocation where
  address : Pvoid
  isUsed : Bool
  type : AllocationType
  deriving DecidableEq

instance : Inhabited PoolAllocation := ⟨⟨null, false, .split2mbPagingTo4kbPage⟩⟩

structure PoolManager where
  pagingAllocations : List PoolAllocation
  eptHookAllocations : List PoolAllocation
  allocationRequests : RequestList AllocationType
  freeRequests : RequestList PoolAllocation

namespace PoolManager

def allocations (p : PoolManager) : AllocationType → List PoolAllocation
  | .split2mbPagingTo4kbPage => p.pagingAllocations
  | .eptHookPage => p.eptHookAllocations

def setAllocations (p : PoolManager) (type : AllocationType) (slots : List PoolAllocation) :
    PoolManager :=
  match type with
  | .split2mbPagingTo4kbPage => { p with pagingAllocations := slots }
  | .eptHookPage => { p with eptHookAllocations := slots }

@[simp] theorem allocations_setAllocations_self (p : PoolManager) (type : AllocationType)
    (slots : List PoolAllocation) : (p.setAllocations type slots).allocations type = slots := by
  cases type <;> rfl

theorem allocations_setAllocations_of_ne (p : PoolManager) {type other : AllocationType}
    (h : other ≠ type) (slots : List PoolAllocation) :
    (p.setAllocations type slots).allocations other = p.allocations other := by
  cases type <;> cases other <;> first | rfl | exact absurd rfl h

@[simp] theorem freeRequests_setAllocations (p : PoolManager) (type : AllocationType)
    (slots : List PoolAllocation) :
    (p.setAllocations type slots).freeRequests = p.freeRequests := by
  cases type <;> rfl

/-- Take the first unused slot. -/
def findFreeSlot (p : PoolManager) (type : AllocationType) : Option Pvoid × PoolManager :=
  match updateFirst (fun x => !x.isUsed) (fun x => { x with isUsed := true })
      (p.allocations type) with
  | none => (none, p)
  | some (x, slots) => (some x.address, p.setAllocations type slots)

/-- `buffer` is the answer of the kernel's allocator for the new slot. No answer
stands for the failure of either of the two allocations. -/
def allocateInternal {β : Type*} [Zero β] (p : PoolManager) (memory : Pvoid → β)
    (type : AllocationType) (buffer : Option Pvoid) : Bool × PoolManager × (Pvoid → β) :=
  match buffer with
  | none => (false, p, memory)
  | some address =>
    (true, p.setAllocations type (p.allocations type ++ [⟨address, false, type⟩]),
      Function.update memory address 0)

/-- Zero the buffer and mark its slot unused; an unknown address is ignored. -/
def freeInternal {β : Type*} [Zero β] (p : PoolManager) (memory : Pvoid → β)
    (address : Pvoid) (type : AllocationType) : PoolManager × (Pvoid → β) :=
  match updateFirst (fun x => decide (x.address = address)) (fun x => { x with isUsed := false })
      (p.allocations type) with
  | none => (p, memory)
  | some (x, slots) => (p.setAllocations type slots, Function.update memory x.address 0)

def addresses (p : PoolManager) (type : AllocationType) : List Pvoid :=
  (p.allocations type).map PoolAllocation.address

def Used (p : PoolManager) (type : AllocationType) (address : Pvoid) : Prop :=
  ∃ x ∈ p.allocations type, x.address = address ∧ x.isUsed = true

/-- How many pending free requests name a buffer. -/
def requested (p : PoolManager) (type : AllocationType) (address : Pvoid) : ℕ :=
  p.freeRequests.pending.countP fun r => decide (r.address = address ∧ r.type = type)

structure WellFormed (os : Allocator) (p : PoolManager) : Prop where
  nodup : ∀ type, (p.addresses type).Nodup
  disjoint : ∀ type other address,
    address ∈ p.addresses type → address ∈ p.addresses other → type = other
  granted : ∀ type address, address ∈ p.addresses type → os.grants type address = true

theorem Used.mem_addresses {p : PoolManager} {type : AllocationType} {address : Pvoid}
    (h : p.Used type address) : address ∈ p.addresses type := by
  obtain ⟨x, hx, rfl, _⟩ := h
  exact List.mem_map_of_mem hx

/-- A rewritten slot list keeps every address, so the pool stays well formed. -/
theorem addresses_setAllocations {p : PoolManager} {type : AllocationType}
    {slots : List PoolAllocation} (h : slots.map PoolAllocation.address = p.addresses type)
    (other : AllocationType) :
    (p.setAllocations type slots).addresses other = p.addresses other := by
  by_cases hother : other = type
  · subst hother
    rw [addresses, allocations_setAllocations_self, h]
  · rw [addresses, allocations_setAllocations_of_ne p hother, addresses]

theorem WellFormed.of_addresses {os : Allocator} {p q : PoolManager} (hp : p.WellFormed os)
    (h : ∀ type, q.addresses type = p.addresses type) : q.WellFormed os := by
  constructor
  · intro type
    rw [h]
    exact hp.nodup type
  · intro type other address hmem hmem'
    rw [h] at hmem hmem'
    exact hp.disjoint type other address hmem hmem'
  · intro type address hmem
    rw [h] at hmem
    exact hp.granted type address hmem

theorem findFreeSlot_ends (p : PoolManager) (type : AllocationType) :
    (p.findFreeSlot type = (none, p) ∧ ∀ x ∈ p.allocations type, x.isUsed = true) ∨
    ∃ x slots, updateFirst (fun x => !x.isUsed) (fun x => { x with isUsed := true })
        (p.allocations type) = some (x, slots) ∧
      p.findFreeSlot type = (some x.address, p.setAllocations type slots) := by
  unfold findFreeSlot
  split
  · rename_i hnone
    refine Or.inl ⟨rfl, fun x hx => ?_⟩
    simpa using (updateFirst_eq_none _ _ _).mp hnone x hx
  · rename_i x slots hupdate
    exact Or.inr ⟨x, slots, hupdate, rfl⟩

theorem findFreeSlot_none {p : PoolManager} {type : AllocationType}
    (h : (p.findFreeSlot type).1 = none) :
    (p.findFreeSlot type).2 = p ∧ ∀ x ∈ p.allocations type, x.isUsed = true := by
  rcases p.findFreeSlot_ends type with ⟨heq, hall⟩ | ⟨x, slots, _, heq⟩
  · exact ⟨congrArg Prod.snd heq, hall⟩
  · simp [heq] at h

/-- The slot found was unused and is the only one whose mark changes. -/
theorem findFreeSlot_some {p : PoolManager} {type : AllocationType} {address : Pvoid}
    (h : (p.findFreeSlot type).1 = some address) (hnd : (p.addresses type).Nodup) :
    address ∈ p.addresses type ∧ ¬ p.Used type address ∧
      (∀ other, (p.findFreeSlot type).2.addresses other = p.addresses other) ∧
      (∀ other b, (p.findFreeSlot type).2.Used other b ↔
        p.Used other b ∨ (other = type ∧ b = address)) ∧
      (p.findFreeSlot type).2.freeRequests = p.freeRequests := by
  rcases p.findFreeSlot_ends type with ⟨heq, _⟩ | ⟨x, slots, hupdate, heq⟩
  · simp [heq] at h
  · rw [heq] at h ⊢
    obtain rfl : x.address = address := by simpa using h
    have hmem := updateFirst_mem hupdate
    have hunused : x.isUsed = false := by simpa using hmem.2
    have hiff := mem_updateFirst_of_nodup hupdate PoolAllocation.address rfl hnd
    have hfree : ¬ p.Used type x.address := by
      intro hused
      obtain ⟨y, hy, hyx, hused⟩ := hused
      obtain rfl : y = x := List.inj_on_of_nodup_map hnd hy hmem.1 hyx
      simp [hunused] at hused
    refine ⟨List.mem_map_of_mem hmem.1, hfree,
      addresses_setAllocations (updateFirst_map hupdate _ rfl), ?_, by simp⟩
    intro other b
    by_cases hother : other = type
    · subst hother
      simp only [Used, allocations_setAllocations_self, true_and]
      constructor
      · intro hused
        obtain ⟨y, hy, rfl, hused⟩ := hused
        rcases (hiff y).mp hy with rfl | ⟨hold, _⟩
        · exact Or.inr rfl
        · exact Or.inl ⟨y, hold, rfl, hused⟩
      · intro hused
        rcases hused with ⟨y, hy, rfl, hused⟩ | rfl
        · by_cases hyx : y.address = x.address
          · exact ⟨_, (hiff _).mpr (Or.inl rfl), hyx.symm, rfl⟩
          · exact ⟨y, (hiff y).mpr (Or.inr ⟨hy, hyx⟩), rfl, hused⟩
        · exact ⟨_, (hiff _).mpr (Or.inl rfl), rfl, rfl⟩
    · simp [Used, allocations_setAllocations_of_ne p hother, hother]

/-- A fresh slot is appended unused; an allocator failure changes nothing. -/
theorem allocateInternal_some {β : Type*} [Zero β] (p : PoolManager) (memory : Pvoid → β)
    (type : AllocationType) (address : Pvoid) :
    let q := (p.allocateInternal memory type (some address)).2.1
    (∀ other b, b ∈ q.addresses other ↔ b ∈ p.addresses other ∨ (other = type ∧ b = address)) ∧
      (∀ other b, q.Used other b ↔ p.Used other b) ∧ q.freeRequests = p.freeRequests := by
  refine ⟨?_, ?_, by simp [allocateInternal]⟩
  · intro other b
    by_cases hother : other = type
    · subst hother
      simp [addresses, allocateInternal, eq_comm]
    · simp [addresses, allocateInternal, allocations_setAllocations_of_ne p hother, hother]
  · intro other b
    by_cases hother : other = type
    · subst hother
      simp only [Used, allocateInternal, allocations_setAllocations_self, List.mem_append,
        List.mem_singleton]
      constructor
      · intro hused
        obtain ⟨x, hx | rfl, hb, hused⟩ := hused
        · exact ⟨x, hx, hb, hused⟩
        · simp at hused
      · intro hused
        obtain ⟨x, hx, hb, hused⟩ := hused
        exact ⟨x, Or.inl hx, hb, hused⟩
    · simp [Used, allocateInternal, allocations_setAllocations_of_ne p hother]

theorem WellFormed.allocateInternal_some {β : Type*} [Zero β] {os : Allocator} {p : PoolManager}
    (hp : p.WellFormed os) (memory : Pvoid → β) {type : AllocationType} {address : Pvoid}
    (hgrant : os.grants type address = true) (hfresh : ∀ other, address ∉ p.addresses other) :
    (p.allocateInternal memory type (some address)).2.1.WellFormed os := by
  have hmem := (PoolManager.allocateInternal_some p memory type address).1
  constructor
  · intro other
    by_cases hother : other = type
    · subst hother
      simp only [addresses, allocateInternal, allocations_setAllocations_self, List.map_append,
        List.map_cons, List.map_nil]
      apply List.Nodup.append (hp.nodup other) (List.nodup_singleton _)
      simpa using hfresh other
    · simpa [addresses, allocateInternal, allocations_setAllocations_of_ne p hother]
        using hp.nodup other
  · intro one other b h1 h2
    rcases (hmem one b).mp h1 with h1 | ⟨hone, rfl⟩ <;>
      rcases (hmem other b).mp h2 with h2 | ⟨hother, hb⟩
    · exact hp.disjoint one other b h1 h2
    · exact absurd (hb ▸ h1) (hfresh one)
    · exact absurd h2 (hfresh other)
    · rw [hone, hother]
  · intro other b hb
    rcases (hmem other b).mp hb with hb | ⟨rfl, rfl⟩
    · exact hp.granted other b hb
    · exact hgrant

/-- Freeing clears the mark of the named slot alone and zeroes its buffer alone. -/
theorem freeInternal_spec {β : Type*} [Zero β] {p : PoolManager} (memory : Pvoid → β)
    {type : AllocationType} (address : Pvoid) (hnd : (p.addresses type).Nodup) :
    let q := p.freeInternal memory address type
    (∀ other, q.1.addresses other = p.addresses other) ∧
      (∀ other b, q.1.Used other b ↔ p.Used other b ∧ ¬ (other = type ∧ b = address)) ∧
      q.1.freeRequests = p.freeRequests ∧
      (address ∈ p.addresses type → q.2 = Function.update memory address 0) ∧
      (address ∉ p.addresses type → q.2 = memory) := by
  simp only [freeInternal]
  split
  · rename_i hnone
    have hnot : address ∉ p.addresses type := by
      intro hmem
      obtain ⟨x, hx, hxa⟩ := List.mem_map.mp hmem
      have := (updateFirst_eq_none _ _ _).mp hnone x hx
      simp [hxa] at this
    refine ⟨fun _ => rfl, ?_, rfl, fun h => absurd h hnot, fun _ => rfl⟩
    intro other b
    constructor
    · intro hused
      refine ⟨hused, ?_⟩
      intro hsame
      obtain ⟨rfl, rfl⟩ := hsame
      exact hnot hused.mem_addresses
    · exact fun h => h.1
  · rename_i x slots hupdate
    have hmem := updateFirst_mem hupdate
    obtain rfl : x.address = address := by simpa using hmem.2
    have hiff := mem_updateFirst_of_nodup hupdate PoolAllocation.address rfl hnd
    refine ⟨addresses_setAllocations (updateFirst_map hupdate _ rfl), ?_, by simp, fun _ => rfl,
      fun h => absurd (List.mem_map_of_mem hmem.1) h⟩
    intro other b
    by_cases hother : other = type
    · subst hother
      simp only [Used, allocations_setAllocations_self, true_and]
      constructor
      · intro hused
        obtain ⟨y, hy, rfl, hused⟩ := hused
        rcases (hiff y).mp hy with rfl | ⟨hold, hne⟩
        · simp at hused
        · exact ⟨⟨y, hold, rfl, hused⟩, hne⟩
      · intro hused
        obtain ⟨⟨y, hy, rfl, hused⟩, hne⟩ := hused
        exact ⟨y, (hiff y).mpr (Or.inr ⟨hy, hne⟩), rfl, hused⟩
    · simp [Used, allocations_setAllocations_of_ne p hother, hother]

def maxInitialAllocations : ℕ := 10

/-- The kernel allocator's answers to the constructor's requests. The addresses are
distinct, as they stay allocated. -/
structure InitialBuffers (os : Allocator) where
  answer : ℕ → AllocationType → Option Pvoid
  granted : ∀ i type a, answer i type = some a → os.grants type a = true
  distinct : ∀ i j type other a,
    answer i type = some a → answer j other = some a → i = j ∧ type = other

/-- Some slots of each type, at fixed addresses. -/
def flatBuffers (paging hooks : ℕ) : InitialBuffers flatOs.toAllocator where
  answer i
    | .split2mbPagingTo4kbPage =>
      if i < min paging maxInitialAllocations then some (BitVec.ofNat 64 (4096 * (i + 1)))
      else none
    | .eptHookPage =>
      if i < min hooks maxInitialAllocations then some (BitVec.ofNat 64 (4096 * (i + 32)))
      else none
  granted := by
    intro i type a h
    have hmax : maxInitialAllocations = 10 := rfl
    cases type <;> simp only [Option.ite_none_right_eq_some, Option.some.injEq] at h <;>
      obtain ⟨hi, rfl⟩ := h <;>
      simp only [flatOs, Bool.and_eq_true, decide_eq_true_eq, BitVec.toNat_ofNat] <;> omega
  distinct := by
    intro i j type other a h h'
    have hmax : maxInitialAllocations = 10 := rfl
    cases type <;> cases other <;>
      simp only [Option.ite_none_right_eq_some, Option.some.injEq, BitVec.toNat_eq,
        BitVec.toNat_ofNat, and_true, reduceCtorEq, and_false] at h h' ⊢ <;> omega

/-- The lists that the constructor builds. -/
def construct {β : Type*} [Zero β] {os : Allocator} (memory : Pvoid → β)
    (buffers : InitialBuffers os) : PoolManager × (Pvoid → β) :=
  (List.range maxInitialAllocations).foldl
    (fun state i =>
      let paging := (state.1.allocateInternal state.2 .split2mbPagingTo4kbPage
        (buffers.answer i .split2mbPagingTo4kbPage)).2
      (paging.1.allocateInternal paging.2 .eptHookPage (buffers.answer i .eptHookPage)).2)
    (⟨[], [], RequestList.empty, RequestList.empty⟩, memory)

/-- The lists after some of the constructor's requests. -/
private structure Built {β : Type*} [Zero β] {os : Allocator} (buffers : InitialBuffers os)
    (done : ℕ → AllocationType → Prop) (state : PoolManager × (Pvoid → β)) : Prop where
  wellFormed : state.1.WellFormed os
  unused : ∀ type a, ¬ state.1.Used type a
  requests : state.1.freeRequests = RequestList.empty
  zeroed : ∀ type a, a ∈ state.1.addresses type → state.2 a = 0
  answered : ∀ type a, a ∈ state.1.addresses type → ∃ i u, done i u ∧ buffers.answer i u = some a

private theorem Built.allocate {β : Type*} [Zero β] {os : Allocator} {buffers : InitialBuffers os}
    {done : ℕ → AllocationType → Prop} {state : PoolManager × (Pvoid → β)}
    (h : Built buffers done state) (i : ℕ) (type : AllocationType) (hnew : ¬ done i type) :
    Built buffers (fun j u => done j u ∨ (j = i ∧ u = type))
      (state.1.allocateInternal state.2 type (buffers.answer i type)).2 := by
  cases hanswer : buffers.answer i type with
  | none =>
    refine ⟨h.wellFormed, h.unused, h.requests, h.zeroed, ?_⟩
    intro u a hmem
    obtain ⟨j, v, hdone, hjv⟩ := h.answered u a hmem
    exact ⟨j, v, Or.inl hdone, hjv⟩
  | some address =>
    have hfresh : ∀ other, address ∉ state.1.addresses other := by
      intro other hmem
      obtain ⟨j, v, hdone, hjv⟩ := h.answered other address hmem
      obtain ⟨rfl, rfl⟩ := buffers.distinct j i v type address hjv hanswer
      exact hnew hdone
    obtain ⟨haddresses, hused, hrequests⟩ := allocateInternal_some state.1 state.2 type address
    refine ⟨h.wellFormed.allocateInternal_some state.2 (buffers.granted i type address hanswer)
      hfresh, ?_, hrequests.trans h.requests, ?_, ?_⟩
    · intro u a hu
      exact h.unused u a ((hused u a).mp hu)
    · intro u a hmem
      by_cases ha : a = address
      · subst ha
        exact Function.update_self _ _ _
      · have hold := (haddresses u a).mp hmem
        simp only [ha, and_false, or_false] at hold
        exact (Function.update_of_ne ha _ _).trans (h.zeroed u a hold)
    · intro u a hmem
      rcases (haddresses u a).mp hmem with hold | ⟨rfl, rfl⟩
      · obtain ⟨j, v, hdone, hjv⟩ := h.answered u a hold
        exact ⟨j, v, Or.inl hdone, hjv⟩
      · exact ⟨i, u, Or.inr ⟨rfl, rfl⟩, hanswer⟩

/-- The constructed pool is well formed, unused, without requests, and zero. -/
theorem construct_spec {β : Type*} [Zero β] {os : Allocator} (memory : Pvoid → β)
    (buffers : InitialBuffers os) :
    let p := construct memory buffers
    p.1.WellFormed os ∧ (∀ type a, ¬ p.1.Used type a) ∧ p.1.freeRequests = RequestList.empty ∧
      ∀ type a, a ∈ p.1.addresses type → p.2 a = 0 := by
  have hbuilt : ∀ n, Built buffers (fun i _ => i < n)
      ((List.range n).foldl
        (fun state i =>
          let paging := (state.1.allocateInternal state.2 .split2mbPagingTo4kbPage
            (buffers.answer i .split2mbPagingTo4kbPage)).2
          (paging.1.allocateInternal paging.2 .eptHookPage (buffers.answer i .eptHookPage)).2)
        (⟨[], [], RequestList.empty, RequestList.empty⟩, memory)) := by
    intro n
    induction n with
    | zero =>
      have hnone : ∀ type, (⟨[], [], RequestList.empty, RequestList.empty⟩ :
          PoolManager).allocations type = [] := fun type => by cases type <;> rfl
      constructor
      · constructor <;> simp [addresses, hnone]
      · simp [Used, hnone]
      · rfl
      · simp [addresses, hnone]
      · simp [addresses, hnone]
    | succ n ih =>
      rw [List.range_succ, List.foldl_append]
      have hpaging := ih.allocate n .split2mbPagingTo4kbPage (by simp)
      have hhook := hpaging.allocate n .eptHookPage (by simp)
      refine ⟨hhook.wellFormed, hhook.unused, hhook.requests, hhook.zeroed, ?_⟩
      intro type a hmem
      obtain ⟨i, u, hdone, hanswer⟩ := hhook.answered type a hmem
      refine ⟨i, u, ?_, hanswer⟩
      omega
  have h := hbuilt maxInitialAllocations
  exact ⟨h.wellFormed, h.unused, h.requests, h.zeroed⟩

def maxWait : ℕ := 65536

def maxWaitIterations : ℕ := 10

def nextWait (wait : ℕ) : ℕ := if wait * 2 > maxWait then maxWait else wait * 2

def nextWaitCount (wait waitCount : ℕ) : ℕ :=
  if nextWait wait = maxWait then waitCount + 1 else waitCount

inductive AllocateStage where
  | find
  | insert
  | insertRetry (wait waitCount : ℕ)
  | poll (wait waitCount : ℕ)
  deriving DecidableEq

/-- One lock-protected operation of `Allocate`: the stage it goes on to, or its result. -/
def allocateStep (type : AllocationType) :
    AllocateStage → PoolManager → (AllocateStage ⊕ Option Pvoid) × PoolManager
  | .find, p =>
    let (allocation, p) := p.findFreeSlot type
    (if allocation.isSome then .inr allocation else .inl .insert, p)
  | .insert, p =>
    let (queued, requests) := p.allocationRequests.insert type
    (if queued then .inl (.poll 1 0) else .inl (.insertRetry 1 0),
      { p with allocationRequests := requests })
  | .insertRetry wait waitCount, p =>
    let (queued, requests) := p.allocationRequests.insert type
    let waitCount' := nextWaitCount wait waitCount
    (if !queued && waitCount' < maxWaitIterations then
        .inl (.insertRetry (nextWait wait) waitCount')
      else if waitCount' = maxWaitIterations then .inr none
      else .inl (.poll 1 0),
      { p with allocationRequests := requests })
  | .poll wait waitCount, p =>
    let (allocation, p) := p.findFreeSlot type
    let waitCount' := nextWaitCount wait waitCount
    (if allocation.isNone && waitCount' < maxWaitIterations then
        .inl (.poll (nextWait wait) waitCount')
      else .inr allocation, p)

inductive FreeStage where
  | insert
  | retry (wait waitCount : ℕ)
  deriving DecidableEq

/-- One lock-protected operation of `Free`. It returns with `queued` true or, after
the bounded wait, false. -/
def freeStep (allocation : PoolAllocation) :
    FreeStage → PoolManager → (FreeStage ⊕ Bool) × PoolManager
  | .insert, p =>
    let (queued, requests) := p.freeRequests.insert allocation
    (if queued then .inr true else .inl (.retry 1 0), { p with freeRequests := requests })
  | .retry wait waitCount, p =>
    let (queued, requests) := p.freeRequests.insert allocation
    let waitCount' := nextWaitCount wait waitCount
    (if !queued && waitCount' < maxWaitIterations then .inl (.retry (nextWait wait) waitCount')
      else .inr queued, { p with freeRequests := requests })

/-- An operation of `Allocate` returns a buffer exactly when it takes a free slot;
otherwise it leaves the slots and the free requests alone. -/
theorem allocateStep_cases (type : AllocationType) (stage : AllocateStage) (p : PoolManager) :
    (∃ address, p.findFreeSlot type = (some address, (allocateStep type stage p).2) ∧
      (allocateStep type stage p).1 = .inr (some address)) ∨
    ((∀ address, (allocateStep type stage p).1 ≠ .inr (some address)) ∧
      (∀ other, (allocateStep type stage p).2.allocations other = p.allocations other) ∧
      (allocateStep type stage p).2.freeRequests = p.freeRequests) := by
  have hfind : (∃ address, p.findFreeSlot type = (some address, (p.findFreeSlot type).2) ∧
      (p.findFreeSlot type).1 = some address) ∨
      ((p.findFreeSlot type).1 = none ∧ (p.findFreeSlot type).2 = p) := by
    cases hfound : (p.findFreeSlot type).1 with
    | none => exact Or.inr ⟨rfl, (findFreeSlot_none hfound).1⟩
    | some address => exact Or.inl ⟨address, by rw [← hfound], rfl⟩
  cases stage with
  | find =>
    rcases hfind with ⟨address, heq, hfound⟩ | ⟨hfound, hsame⟩
    · exact Or.inl ⟨address, by simpa [allocateStep] using heq, by simp [allocateStep, hfound]⟩
    · exact Or.inr ⟨by simp [allocateStep, hfound], by simp [allocateStep, hsame],
        by simp [allocateStep, hsame]⟩
  | poll wait waitCount =>
    rcases hfind with ⟨address, heq, hfound⟩ | ⟨hfound, hsame⟩
    · exact Or.inl ⟨address, by simpa [allocateStep] using heq, by simp [allocateStep, hfound]⟩
    · refine Or.inr ⟨?_, by simp [allocateStep, hsame], by simp [allocateStep, hsame]⟩
      intro address
      simp only [allocateStep, hfound, Option.isNone_none, Bool.true_and]
      split <;> simp
  | insert =>
    refine Or.inr ⟨?_, fun other => by cases other <;> rfl, rfl⟩
    intro address
    simp only [allocateStep]
    split <;> simp
  | insertRetry wait waitCount =>
    refine Or.inr ⟨?_, fun other => by cases other <;> rfl, rfl⟩
    intro address
    simp only [allocateStep]
    split
    · simp
    · split <;> simp

/-- A buffer that `Allocate` returns was a slot that nobody used. -/
theorem allocateStep_some {type : AllocationType} {stage : AllocateStage} {p : PoolManager}
    {address : Pvoid} (h : (allocateStep type stage p).1 = .inr (some address))
    (hnd : (p.addresses type).Nodup) : address ∈ p.addresses type ∧ ¬ p.Used type address := by
  rcases allocateStep_cases type stage p with ⟨found, hfind, hres⟩ | ⟨hres, _, _⟩
  · obtain rfl : found = address := by simpa using hres.symm.trans h
    obtain ⟨hmem, hfree, _⟩ := findFreeSlot_some (congrArg Prod.fst hfind) hnd
    exact ⟨hmem, hfree⟩
  · exact absurd h (hres address)

/-- An operation of `Free` either queues the request or changes nothing. -/
theorem freeStep_cases (allocation : PoolAllocation) (stage : FreeStage) (p : PoolManager) :
    ((freeStep allocation stage p).1 = .inr true ∧
      (freeStep allocation stage p).2.freeRequests.pending.Perm
        (allocation :: p.freeRequests.pending) ∧
      ∀ type, (freeStep allocation stage p).2.allocations type = p.allocations type) ∨
    ((freeStep allocation stage p).1 ≠ .inr true ∧ (freeStep allocation stage p).2 = p) := by
  cases hqueued : (p.freeRequests.insert allocation).1 with
  | true =>
    have hperm := p.freeRequests.pending_insert allocation hqueued
    cases stage with
    | insert =>
      exact Or.inl ⟨by simp [freeStep, hqueued], hperm, fun type => by cases type <;> rfl⟩
    | retry wait waitCount =>
      exact Or.inl ⟨by simp [freeStep, hqueued], hperm, fun type => by cases type <;> rfl⟩
  | false =>
    have hsame := p.freeRequests.insert_of_false allocation hqueued
    cases stage with
    | insert => exact Or.inr ⟨by simp [freeStep, hqueued], by simp [freeStep, hsame]⟩
    | retry wait waitCount =>
      refine Or.inr ⟨?_, by simp [freeStep, hsame]⟩
      simp only [freeStep, hqueued, Bool.not_false, Bool.true_and]
      split <;> simp

end PoolManager

end NovaHypervisor

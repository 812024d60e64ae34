import NovaHypervisor.PoolCalls

/-!
A law on the contents of the pool's buffers. The pool itself only zeroes a buffer,
so a law that zero meets holds of every buffer as long as each party writes only
contents that meet it.
-/
namespace NovaHypervisor

open General

variable {Caller β : Type*}

/-- What the action writes to a buffer, if it writes at all, meets the law. -/
def PoolAction.Writes (law : β → Prop) : PoolAction Caller β → Prop
  | .write _ _ content => law content
  | _ => True

instance (law : β → Prop) [DecidablePred law] :
    (action : PoolAction Caller β) → Decidable (action.Writes law)
  | .write _ _ content => inferInstanceAs (Decidable (law content))
  | .allocate _ _ => inferInstanceAs (Decidable True)
  | .free _ _ => inferInstanceAs (Decidable True)
  | .advance _ => inferInstanceAs (Decidable True)
  | .processAllocation _ => inferInstanceAs (Decidable True)
  | .processFree => inferInstanceAs (Decidable True)

namespace PoolState

variable [DecidableEq Caller] [Zero β]

/-- The content of every slot's buffer meets the law. -/
def Contents (law : β → Prop) (s : PoolState Caller β) : Prop :=
  ∀ b, s.ledger.slot b → law (s.memory b.2)

/-- A step writes what its action says, or zeroes at most one buffer. -/
theorem step_memory {os : Allocator} {s s' : PoolState Caller β} {action : PoolAction Caller β}
    (h : step os s action = some s') :
    (∃ c b content, action = .write c b content ∧
      s' = { s with memory := Function.update s.memory b.2 content }) ∨
    ∀ a, s'.memory a = s.memory a ∨ s'.memory a = 0 := by
  cases action with
  | allocate c type =>
    simp only [step] at h
    split at h
    · obtain rfl := Option.some.inj h
      exact Or.inr fun a => Or.inl rfl
    · exact absurd h (by simp)
  | free c b =>
    simp only [step] at h
    split at h
    · split at h
      · split at h
        · obtain rfl := Option.some.inj h
          exact Or.inr fun a => Or.inl rfl
        · obtain rfl := Option.some.inj h
          exact Or.inr fun a => Or.inl rfl
      · exact absurd h (by simp)
    · exact absurd h (by simp)
  | advance c =>
    obtain ⟨call, _, rfl⟩ := Option.map_eq_some_iff.mp h
    exact Or.inr fun a => Or.inl (congrFun (advance_memory s c call) a)
  | write c b content =>
    simp only [step] at h
    split at h
    · exact Or.inl ⟨c, b, content, rfl, (Option.some.inj h).symm⟩
    · exact absurd h (by simp)
  | processAllocation answer =>
    right
    intro a
    simp only [step, processAllocation] at h
    split at h
    · split at h
      · obtain rfl := Option.some.inj h
        exact Or.inl rfl
      · obtain rfl := Option.some.inj h
        exact Or.inl rfl
    · split at h
      · obtain rfl := Option.some.inj h
        rcases answer with _ | address
        · exact Or.inl rfl
        · simp only [PoolManager.allocateInternal]
          rcases eq_or_ne a address with rfl | hne
          · exact Or.inr (Function.update_self _ _ _)
          · exact Or.inl (Function.update_of_ne hne _ _)
      · exact absurd h (by simp)
  | processFree =>
    right
    intro a
    obtain rfl := Option.some.inj h
    unfold processFree
    split
    · split
      · exact Or.inl rfl
      · exact Or.inl rfl
    · split
      · exact Or.inl rfl
      · simp only [PoolManager.freeInternal]
        split
        · exact Or.inl rfl
        · rename_i x slots _
          rcases eq_or_ne a x.address with rfl | hne
          · exact Or.inr (Function.update_self _ _ _)
          · exact Or.inl (Function.update_of_ne hne _ _)

end PoolState

/-- A slot that a step adds is zeroed by it. -/
theorem Ledger.Effect.slot_added [DecidableEq Caller] [Zero β] {os : Allocator}
    {l l' : Ledger Caller β} (h : Ledger.Effect os l l') {b : Buffer} (hb : l'.slot b) :
    l.slot b ∨ l'.memory b.2 = 0 := by
  cases h with
  | grow x hgrant hfresh =>
    rcases hb with hb | rfl
    · exact Or.inl hb
    · exact Or.inr (Function.update_self _ _ _)
  | quiet => exact Or.inl hb
  | take c x hslot hfree => exact Or.inl hb
  | release c x hmem hnone => exact Or.inl hb
  | enqueue c x hrel => exact Or.inl hb
  | abandon c x hrel => exact Or.inl hb
  | write c x content hmem => exact Or.inl hb
  | pop x requested hnone hreq => exact Or.inl hb
  | reclaim x hrec hslot => exact Or.inl hb
  | discard x hrec hslot => exact Or.inl hb

namespace PoolState

variable [DecidableEq Caller] [Zero β] {law : β → Prop}

theorem step_contents {os : Allocator} (hzero : law 0) {s s' : PoolState Caller β}
    {action : PoolAction Caller β} (h : step os s action = some s') (hs : s.Safe os)
    (hwrites : action.Writes law) (hcontents : s.Contents law) : s'.Contents law := by
  intro b hb
  rcases step_memory h with ⟨c, x, content, rfl, rfl⟩ | hmemory
  · have hold := hcontents b hb
    simp only [Function.update_apply]
    split
    · exact hwrites
    · exact hold
  · rcases (step_effect h hs.wellFormed).1.slot_added hb with hold | hnew
    · rcases hmemory b.2 with hsame | hclear
      · rw [hsame]
        exact hcontents b hold
      · rw [hclear]
        exact hzero
    · have hclear : s'.memory b.2 = 0 := hnew
      rw [hclear]
      exact hzero

omit [DecidableEq Caller] in
theorem initial_contents {os : Allocator} (hzero : law 0) (memory : Pvoid → β)
    (buffers : PoolManager.InitialBuffers os) :
    (initial memory buffers : PoolState Caller β).Contents law := by
  obtain ⟨_, _, _, hzeroed⟩ := PoolManager.construct_spec memory buffers
  intro b hb
  have hclear : (initial memory buffers : PoolState Caller β).memory b.2 = 0 :=
    hzeroed b.1 b.2 hb
  rw [hclear]
  exact hzero

/-- The law holds of every buffer as long as only such contents are written. -/
theorem contents_of_run {os : Allocator} (hzero : law 0) {memory : Pvoid → β}
    {buffers : PoolManager.InitialBuffers os} {actions : List (PoolAction Caller β)}
    {s : PoolState Caller β}
    (hrun : GuardedRun (step os) (fun _ action => action.Writes law)
      (initial memory buffers) actions s) : s.Contents law := by
  have hinv : s.Safe os ∧ s.Contents law := by
    refine hrun.invariant (I := fun s => s.Safe os ∧ s.Contents law) ?_
      ⟨initial_safe memory buffers, initial_contents hzero memory buffers⟩
    intro s action s' hs hwrites hstep
    exact ⟨step_safe hstep hs.1, step_contents hzero hstep hs.1 hwrites hs.2⟩
  exact hinv.2

end PoolState

namespace SharedPool

variable [DecidableEq Caller] [Zero β] {law : β → Prop}

/-- Every buffer meets the law, and so does all that the other parties are to write. -/
structure Lawful (law : β → Prop) (p : SharedPool Caller β) : Prop where
  contents : p.state.Contents law
  upcoming : ∀ actions ∈ p.upcoming, ∀ action ∈ actions, action.Writes law

theorem execute_contents {os : Allocator} (hzero : law 0) {actions : List (PoolAction Caller β)}
    (hwrites : ∀ action ∈ actions, action.Writes law) {s : PoolState Caller β} (hs : s.Safe os)
    (hcontents : s.Contents law) : (execute (PoolState.step os) s actions).Contents law := by
  induction actions generalizing s with
  | nil => exact hcontents
  | cons action actions ih =>
    rw [execute_cons]
    have htail : ∀ later ∈ actions, later.Writes law :=
      fun later hlater => hwrites later (List.mem_cons_of_mem action hlater)
    cases hstep : PoolState.step os s action with
    | none => exact ih htail hs hcontents
    | some s' =>
      exact ih htail (PoolState.step_safe hstep hs)
        (PoolState.step_contents hzero hstep hs (hwrites action List.mem_cons_self) hcontents)

theorem Lawful.interrupt (hzero : law 0) (os : Allocator) {p : SharedPool Caller β}
    (h : p.Lawful law) (hp : p.state.Safe os) : (p.interrupt os).Lawful law := by
  refine ⟨execute_contents hzero ?_ hp h.contents, ?_⟩
  · rcases hupcoming : p.upcoming with _ | ⟨actions, rest⟩
    · simp
    · exact h.upcoming actions (by simp [hupcoming])
  · intro actions hmem
    exact h.upcoming actions (List.mem_of_mem_tail hmem)

omit [DecidableEq Caller] [Zero β] in
/-- A manager with the same buffers in its slots does not touch what they hold. -/
theorem Lawful.setManager {p : SharedPool Caller β} (h : p.Lawful law) {manager : PoolManager}
    (haddresses : ∀ type, manager.addresses type = p.state.manager.addresses type) :
    (p.setManager manager).Lawful law := by
  refine ⟨?_, h.upcoming⟩
  intro b hb
  have hslot : b.2 ∈ manager.addresses b.1 := hb
  rw [haddresses] at hslot
  exact h.contents b hslot

omit [DecidableEq Caller] [Zero β] in
theorem allocateStep_addresses {os : Allocator} (type : AllocationType)
    (stage : PoolManager.AllocateStage) {p : PoolManager} (hp : p.WellFormed os)
    (other : AllocationType) :
    (PoolManager.allocateStep type stage p).2.addresses other = p.addresses other := by
  rcases PoolManager.allocateStep_cases type stage p with ⟨address, hfind, _⟩ | ⟨_, hslots, _⟩
  · obtain ⟨_, _, haddresses, _⟩ :=
      PoolManager.findFreeSlot_some (congrArg Prod.fst hfind) (hp.nodup type)
    simp only [hfind] at haddresses
    exact haddresses other
  · simp only [PoolManager.addresses, hslots]

theorem Lawful.allocateFrom (hzero : law 0) {os : Allocator} {type : AllocationType} {fuel : ℕ}
    {stage : PoolManager.AllocateStage} {p : SharedPool Caller β} (h : p.Lawful law)
    (hp : p.state.Safe os) : (allocateFrom os type fuel stage p).2.Lawful law := by
  induction fuel generalizing stage p with
  | zero => exact h
  | succ fuel ih =>
    have hturn := h.interrupt hzero os hp
    have hsafe := (evolves_interrupt os hp).safe
    have haddresses := allocateStep_addresses type stage hsafe.wellFormed
    have hcases := PoolManager.allocateStep_cases type stage (p.interrupt os).state.manager
    simp only [SharedPool.allocateFrom]
    rcases hstep : PoolManager.allocateStep type stage (p.interrupt os).state.manager with
      ⟨stage' | result, manager⟩
    · rw [hstep] at hcases haddresses
      rcases hcases with ⟨address, _, hres⟩ | ⟨_, hslots, hrequests⟩
      · exact absurd hres (by simp)
      · exact ih (hturn.setManager haddresses)
          (evolves_setManager hsafe hslots hrequests).safe
    · rw [hstep] at haddresses
      exact hturn.setManager haddresses

theorem Lawful.allocate (hzero : law 0) {os : Allocator} (type : AllocationType)
    {p : SharedPool Caller β} (h : p.Lawful law) (hp : p.state.Safe os) :
    (allocate os type p).2.Lawful law :=
  h.allocateFrom hzero hp

theorem Lawful.freeFrom (hzero : law 0) {os : Allocator} {allocation : PoolAllocation} {fuel : ℕ}
    {stage : PoolManager.FreeStage} {p : SharedPool Caller β} (h : p.Lawful law)
    (hp : p.state.Safe os) : (freeFrom os allocation fuel stage p).Lawful law := by
  induction fuel generalizing stage p with
  | zero => exact h
  | succ fuel ih =>
    have hturn := h.interrupt hzero os hp
    have hsafe := (evolves_interrupt os hp).safe
    have hcases := PoolManager.freeStep_cases allocation stage (p.interrupt os).state.manager
    simp only [SharedPool.freeFrom]
    rcases hstep : PoolManager.freeStep allocation stage (p.interrupt os).state.manager with
      ⟨next, manager⟩
    rw [hstep] at hcases
    rcases hcases with ⟨hres, _, hslots⟩ | ⟨_, hsame⟩
    · obtain rfl : next = .inr true := hres
      exact hturn.setManager fun other => by simp only [PoolManager.addresses, hslots]
    · obtain rfl : manager = (p.interrupt os).state.manager := hsame
      rcases next with stage' | queued
      · exact ih hturn hsafe
      · exact hturn

theorem Lawful.free (hzero : law 0) {os : Allocator} (address : Pvoid) (type : AllocationType)
    {p : SharedPool Caller β} (h : p.Lawful law) (hp : p.state.Safe os) :
    (free os address type p).Lawful law := by
  unfold SharedPool.free
  split
  · exact h
  · exact h.freeFrom hzero hp

end SharedPool

end NovaHypervisor

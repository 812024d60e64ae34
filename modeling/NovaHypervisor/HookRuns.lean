import NovaHypervisor.HookSteps

/-!
Runs of the hook operations on one processor. Between them, and at every pool
operation inside them, the other parties of the pool take any steps. The table
maps every page to itself as long as no hook is denied its record: such a hook
frees the table that it has just put in use.
-/
namespace NovaHypervisor

open General

inductive HookAction (Caller : Type*) where
  | hook (targetFunc : Pvoid) (permissions : BitVec 8)
  | unhook (guestVirtualAddress : Word)
  | unhookAll
  | others (action : PoolAction Caller PoolBuffer)
  | guest (isOnVmxRoot isLaunched : Bool)

namespace Machine

variable {Caller : Type*} [DecidableEq Caller]

def othersStep (os : Os) (m : Machine Caller) (action : PoolAction Caller PoolBuffer) :
    Option (Machine Caller) :=
  (PoolState.step os.toAllocator m.pool.state action).map fun state =>
    { m with pool := { m.pool with state := state } }

def hookStep (os : Os) (m : Machine Caller) : HookAction Caller → Option (Machine Caller)
  | .hook targetFunc permissions => (m.rootModePageHook os targetFunc permissions).map Prod.snd
  | .unhook guestVirtualAddress => some (m.pageUnhookVmcall os guestVirtualAddress).2
  | .unhookAll => some (m.unhookAllPagesVmcall os).2
  | .others action => m.othersStep os action
  | .guest isOnVmxRoot isLaunched =>
    some { m with guest := { m.guest with isOnVmxRoot := isOnVmxRoot, isLaunched := isLaunched } }

/-- The hook of the action, if it is one, is not denied its record. -/
def NotDenied (os : Os) (m : Machine Caller) : HookAction Caller → Prop
  | .hook targetFunc permissions => m.recordDenied os targetFunc permissions = false
  | _ => True

instance (os : Os) (m : Machine Caller) :
    (action : HookAction Caller) → Decidable (m.NotDenied os action)
  | .hook _ _ => inferInstanceAs (Decidable (_ = _))
  | .unhook _ => inferInstanceAs (Decidable True)
  | .unhookAll => inferInstanceAs (Decidable True)
  | .others _ => inferInstanceAs (Decidable True)
  | .guest _ _ => inferInstanceAs (Decidable True)

def translation (os : Os) (m : Machine Caller) (x : Word) : Option Translation :=
  m.ept.eptPageTable.map fun pageTable => m.translate os pageTable x

/-- Every page below 512GB whose leaf is present translates to itself. -/
def IdentityMapped (os : Os) (m : Machine Caller) : Prop :=
  ∀ x : Word, x.toNat < 2 ^ 39 → ∃ t, m.translation os x = some t ∧
    (t.Present → t.frame = x.toNat / 4096)

/-- A pool that has run for a while, the identity table of RWX 2MB entries, no hook. -/
structure Started (os : Os) (pageTable : VmmEptPageTable) (m : Machine Caller) : Prop where
  pool : ∃ memory, ∃ buffers : PoolManager.InitialBuffers os.toAllocator, ∃ actions,
    Run (PoolState.step os.toAllocator) (PoolState.initial memory buffers) actions m.pool.state
  pageTable_eq : m.ept.eptPageTable = some pageTable
  large : ∀ e, ¬ IsSplit pageTable e ∧ LargeIdentity e (pageTable.pml2 e)
  hookedPages : m.ept.hookedPages = []

theorem Started.coherent {os : Os} {pageTable : VmmEptPageTable} {m : Machine Caller}
    (h : Started os pageTable m) : m.Coherent os pageTable := by
  obtain ⟨memory, buffers, actions, hrun⟩ := h.pool
  have hpool : m.pool.state.Safe os.toAllocator ∧ ∀ type, m.pool.state.ledger.Tracked type := by
    refine GuardedRun.invariant
      (I := fun s => s.Safe os.toAllocator ∧ ∀ type, s.ledger.Tracked type) ?_ hrun
      ⟨PoolState.initial_safe memory buffers, PoolState.initial_tracked memory buffers⟩
    intro s action s' hs _ hstep
    exact ⟨PoolState.step_safe hstep hs.1,
      fun type => PoolState.step_tracked hstep hs.1 (hs.2 type)⟩
  refine ⟨hpool.1, hpool.2, h.pageTable_eq, ?_, fun e he => absurd he (h.large e).1,
    fun e f he => absurd he (h.large e).1, fun e _ => (h.large e).2,
    fun e he => absurd he (h.large e).1, by simp [h.hookedPages], by simp [h.hookedPages]⟩
  intro b hrefers
  rcases hrefers with ⟨e, he, _⟩ | ⟨r, hr, _⟩
  · exact absurd he (h.large e).1
  · simp [h.hookedPages] at hr

theorem Coherent.identityMapped {os : Os} {pageTable : VmmEptPageTable} {m : Machine Caller}
    (h : m.Coherent os pageTable) : m.IdentityMapped os := by
  intro x hx
  refine ⟨m.translate os pageTable x, ?_, fun _ => h.walk_frame hx⟩
  rw [translation, h.pageTable_eq, Option.map_some]

theorem Coherent.withGuest {os : Os} {pageTable : VmmEptPageTable} {m : Machine Caller}
    (h : m.Coherent os pageTable) (guest : VmState) :
    ({ m with guest := guest } : Machine Caller).Coherent os pageTable :=
  h.keep rfl h.safe h.tracked fun b hb => ⟨h.owned b hb, rfl⟩

theorem Coherent.othersStep {os : Os} {pageTable : VmmEptPageTable} {m m' : Machine Caller}
    (h : m.Coherent os pageTable) {action : PoolAction Caller PoolBuffer}
    (hstep : m.othersStep os action = some m') : Extends os pageTable m pageTable m' := by
  simp only [Machine.othersStep, Option.map_eq_some_iff] at hstep
  obtain ⟨state, hstate, rfl⟩ := hstep
  exact h.extends_of_evolves rfl rfl (SharedPool.evolves_of_step hstate h.safe)

/-- Unhooking all releases the records from the head of the list to its end. -/
theorem Coherent.unhookAll {os : Os} {pageTable : VmmEptPageTable} {m : Machine Caller}
    (h : m.Coherent os pageTable) :
    (m.ept.hookedPages.foldl (fun m r => m.releaseHook os r) m).Coherent os pageTable := by
  generalize hl : m.ept.hookedPages = l
  induction l generalizing m with
  | nil => exact h
  | cons r l ih =>
    have hr : r ∈ m.ept.hookedPages := by simp [hl]
    have hunhooked := h.releaseHook hr
    exact ih hunhooked.coherent (by rw [hunhooked.hookedPages, hl, List.erase_cons_head])

/-- Every action that is not a denied hook keeps the law, and none faults. -/
theorem hookStep_coherent {os : Os} {pageTable : VmmEptPageTable} {m : Machine Caller}
    (h : m.Coherent os pageTable) {action : HookAction Caller} {m' : Machine Caller}
    (hguard : m.NotDenied os action) (hstep : m.hookStep os action = some m') :
    ∃ pageTable', m'.Coherent os pageTable' := by
  cases action with
  | hook targetFunc permissions =>
    simp only [hookStep, Option.map_eq_some_iff] at hstep
    obtain ⟨⟨status, m1⟩, hcall, rfl⟩ := hstep
    rcases rootModePageHook_returned h hcall with
      hdone | ⟨hdenied, _⟩ | ⟨_, a, pageTable', m2, r, hhooked⟩
    · exact ⟨pageTable, hdone.coherent⟩
    · exact absurd hguard (by simp [NotDenied, hdenied])
    · exact ⟨pageTable', hhooked.installed.coherent⟩
  | unhook guestVirtualAddress =>
    obtain rfl := Option.some.inj hstep
    refine ⟨pageTable, ?_⟩
    rcases pageUnhookVmcall_ends os guestVirtualAddress m with heq | ⟨r, hr, _, heq⟩
    · exact heq ▸ h
    · exact heq ▸ (h.releaseHook hr).coherent
  | unhookAll =>
    obtain rfl := Option.some.inj hstep
    refine ⟨pageTable, ?_⟩
    rcases unhookAllPagesVmcall_ends os m with heq | heq
    · exact heq ▸ h
    · exact heq ▸ h.unhookAll
  | others action => exact ⟨pageTable, (h.othersStep hstep).coherent⟩
  | guest isOnVmxRoot isLaunched =>
    obtain rfl := Option.some.inj hstep
    exact ⟨pageTable, h.withGuest _⟩

theorem coherent_of_run {os : Os} {pageTable : VmmEptPageTable} {m m' : Machine Caller}
    {actions : List (HookAction Caller)} (hstart : Started os pageTable m)
    (hrun : GuardedRun (hookStep os) (NotDenied os) m actions m') :
    ∃ pageTable', m'.Coherent os pageTable' := by
  refine GuardedRun.invariant (I := fun m => ∃ pageTable', m.Coherent os pageTable') ?_ hrun
    ⟨pageTable, hstart.coherent⟩
  intro s action s' hinv hguard hstep
  obtain ⟨pageTable', hs⟩ := hinv
  exact hookStep_coherent hs hguard hstep

/-- In root mode after the launch, with some slots of each type. -/
def flatMachine (paging hooks : ℕ) : Machine Unit where
  pool := ⟨PoolState.initial (fun _ => 0) (PoolManager.flatBuffers paging hooks), []⟩
  ept := ⟨[], memoryTypeWriteBack, some flatTable, []⟩
  guest := ⟨true, true, none, 0, none⟩
  history := []

theorem flatMachine_started (paging hooks : ℕ) :
    Started flatOs flatTable (flatMachine paging hooks) :=
  ⟨⟨_, _, [], GuardedRun.nil _⟩, rfl, flatTable_large, rfl⟩

theorem identityMapped_of_run {os : Os} {pageTable : VmmEptPageTable} {m m' : Machine Caller}
    {actions : List (HookAction Caller)} (hstart : Started os pageTable m)
    (hrun : GuardedRun (hookStep os) (NotDenied os) m actions m') : m'.IdentityMapped os := by
  obtain ⟨pageTable', h⟩ := coherent_of_run hstart hrun
  exact h.identityMapped

/-- A hook, a step of the free worker and the unhook. -/
theorem identityMapped_of_run_hook :
    (execute (hookStep flatOs) (flatMachine 1 1) [.hook 0x200000#64 1, .others .processFree,
      .unhook 0x200000#64]).IdentityMapped flatOs :=
  identityMapped_of_run (flatMachine_started 1 1) (guardedRun_of_allowed (by decide +kernel))

/-- A denied hook of one region frees the table in use. The free worker zeroes it, and
a hook of another region fills it with that region's frames. -/
theorem not_identityMapped_of_denied :
    ¬ ∀ (os : Os) (pageTable : VmmEptPageTable) (m m' : Machine Unit)
      (actions : List (HookAction Unit)), Started os pageTable m →
        Run (hookStep os) m actions m' → m'.IdentityMapped os := by
  intro h
  obtain ⟨actions, hrun⟩ := exists_run_execute (hookStep flatOs) (flatMachine 1 0)
    [.hook 0x200000#64 4, .others .processFree, .others .processFree,
      .others (.processAllocation none), .others (.processAllocation (some 0x30000#64)),
      .hook 0x400000#64 4]
  obtain ⟨t, ht, hframe⟩ := h flatOs flatTable _ _ actions (flatMachine_started 1 0) hrun
    0x201000#64 (by decide)
  have hother : t = ⟨1025, 1, 1, 1, 6⟩ := by
    refine Option.some.inj (ht.symm.trans ?_)
    decide +kernel
  subst hother
  exact absurd (hframe (Or.inl (by decide))) (by decide)

end Machine

end NovaHypervisor

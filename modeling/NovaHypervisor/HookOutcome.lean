import NovaHypervisor.HookList

/-!
What one call of `RootModePageHook` leaves behind. A call that returns true
should grant the permissions that were asked for, on that page alone. A call
that returns false should leave every page, the hook list and the pool's buffers
as they were, also after the other parties of the pool have gone on.
-/
namespace NovaHypervisor

open General

namespace Machine

variable {Caller : Type*} [DecidableEq Caller]

theorem prepareHook_ready {os : Os} {m m1 : Machine Caller} {targetFunc : Pvoid}
    {permissions : BitVec 8} {a : Pvoid} {entry : PeptPml1Entry} {changedEntry : Word}
    (h : m.prepareHook os targetFunc permissions = some (.ready a entry changedEntry, m1)) :
    ∃ m0, m.allocate os .split2mbPagingTo4kbPage = (some a, m0) ∧
      m0.splitLargePage os a (hookAddress os targetFunc) = some (true, m1) ∧
      m1.getPml1Entry os (hookAddress os targetFunc) = some (some entry) ∧
      changedEntry = changeAccess (m1.pml1 entry) permissions := by
  rcases prepareHook_ends h with ⟨_, status, hdone, _⟩ | ⟨_, hdone⟩ |
    ⟨b, m0, m2, status, halloc, hsplit, ⟨_, hdone⟩ | ⟨rfl, rfl, found, hleaf, hready⟩⟩
  · simp at hdone
  · simp at hdone
  · simp at hdone
  · obtain ⟨rfl, rfl, rfl⟩ := HookPreparation.ready.inj hready
    exact ⟨m0, halloc, hsplit, hleaf, rfl⟩

omit [DecidableEq Caller] in
theorem getPml1Entry_some {os : Os} {m : Machine Caller} {x : Word} {entry : PeptPml1Entry}
    (h : m.getPml1Entry os x = some (some entry)) : ∃ pageTable,
      m.ept.eptPageTable = some pageTable ∧ IsSplit pageTable (pml2Key x) ∧
        entry = leafPointer os pageTable x := by
  unfold getPml1Entry at h
  split at h
  · simp at h
  · obtain ⟨pageTable, htable, heq⟩ := Option.map_eq_some_iff.mp h
    refine ⟨pageTable, htable, ?_⟩
    simp only at heq
    split at heq
    · simp at heq
    · rename_i hsplit
      split at heq
      · simp at heq
      · exact ⟨not_not.mp hsplit, (Option.some.inj heq).symm⟩

/-- The three rights of a leaf are the bits of the permissions. -/
def GrantsExactly (flags : Word) (permissions : BitVec 8) : Prop :=
  (Epte.readAccess.get flags = 1 ↔ permissions.getLsbD 0 = true) ∧
    (Epte.writeAccess.get flags = 1 ↔ permissions.getLsbD 1 = true) ∧
    (Epte.executeAccess.get flags = 1 ↔ permissions.getLsbD 2 = true)

/-- The page has exactly the permissions, and no other page has changed. -/
structure Granted (os : Os) (targetFunc : Pvoid) (permissions : BitVec 8)
    (m m' : Machine Caller) : Prop where
  record : ∃ r, m'.ept.hookedPages = r :: m.ept.hookedPages ∧
    (m'.detail r).virtualAddress = pageAlign targetFunc ∧
    m'.ept.eptPageTable.map (fun pageTable =>
      m'.leaf os pageTable (hookAddress os targetFunc)) = some (m'.detail r).changedEntry ∧
    GrantsExactly (m'.detail r).changedEntry permissions ∧
    ∀ pageTable, m.ept.eptPageTable = some pageTable → ∀ i, 3 ≤ i →
      (m'.detail r).changedEntry.getLsbD i =
        (m.leafBefore os pageTable (hookAddress os targetFunc)).getLsbD i
  other : ∀ x : Word, x.toNat < 2 ^ 39 →
    x.toNat / 4096 ≠ (hookAddress os targetFunc).toNat / 4096 →
    ∃ t t', m.translation os x = some t ∧ m'.translation os x = some t' ∧ t'.SameAccess t

/-- Writing and executing are never granted, so nothing but reading can be asked for. -/
theorem grantsExactly_iff (flags : Word) (permissions : BitVec 8) :
    GrantsExactly (changeAccess flags permissions) permissions ↔ permissions &&& 6 = 0 := by
  obtain ⟨hread, hwrite, hexecute⟩ := changeAccess_access flags permissions
  rw [GrantsExactly, hread, hwrite, hexecute]
  clear hread hwrite hexecute
  revert permissions
  decide +kernel

theorem prepareHook_done_true {os : Os} {m m1 : Machine Caller} {targetFunc : Pvoid}
    {permissions : BitVec 8}
    (h : m.prepareHook os targetFunc permissions = some (.done true, m1)) :
    m.isHookExists (pageAlign targetFunc) = true := by
  rcases prepareHook_ends h with ⟨_, status, hdone, hexists⟩ | ⟨_, hdone⟩ |
    ⟨_, _, _, _, _, _, ⟨_, hdone⟩ | ⟨_, _, _, _, hready⟩⟩
  · obtain rfl := HookPreparation.done.inj hdone
    exact hexists rfl
  · simp at hdone
  · simp at hdone
  · simp at hready

theorem rootModePageHook_true {os : Os} {m m' : Machine Caller} {targetFunc : Pvoid}
    {permissions : BitVec 8} (hnew : m.isHookExists (pageAlign targetFunc) = false)
    (h : m.rootModePageHook os targetFunc permissions = some (true, m')) :
    ∃ flags, m'.ept.eptPageTable.map (fun pageTable =>
      m'.leaf os pageTable (hookAddress os targetFunc)) =
        some (changeAccess flags permissions) := by
  rcases rootModePageHook_ends h with hprep | ⟨a, entry, changedEntry, m1, hprep, hend⟩
  · rw [prepareHook_done_true hprep] at hnew
    exact absurd hnew (by simp)
  obtain ⟨m0, _, _, hleaf, rfl⟩ := prepareHook_ready hprep
  obtain ⟨pageTable, htable, _, rfl⟩ := getPml1Entry_some hleaf
  rcases hend with ⟨_, _, hfalse, _⟩ | ⟨r, m2, halloc, _, rfl⟩
  · simp at hfalse
  · have hept : m2.ept = m1.ept := (congrArg (fun p => p.2.ept) halloc).symm
    refine ⟨m1.pml1 (leafPointer os pageTable (hookAddress os targetFunc)), ?_⟩
    have htable' : (m2.installHook os targetFunc
        (leafPointer os pageTable (hookAddress os targetFunc))
        (changeAccess (m1.pml1 (leafPointer os pageTable (hookAddress os targetFunc)))
          permissions) r).ept.eptPageTable = some pageTable := by
      rw [← htable, ← hept]
      rfl
    rw [htable', Option.map_some]
    exact congrArg some (pml1_setPml1_self _ _ _)

theorem Granted.only_read {os : Os} {m m' : Machine Caller} {targetFunc : Pvoid}
    {permissions : BitVec 8} (hgranted : Granted os targetFunc permissions m m')
    (hnew : m.isHookExists (pageAlign targetFunc) = false)
    (hcall : m.rootModePageHook os targetFunc permissions = some (true, m')) :
    permissions &&& 6 = 0 := by
  obtain ⟨r, _, _, hleaf, hexact, _⟩ := hgranted.record
  obtain ⟨flags, hchanged⟩ := rootModePageHook_true hnew hcall
  have hflags : (m'.detail r).changedEntry = changeAccess flags permissions :=
    Option.some.inj (hleaf.symm.trans hchanged)
  rw [hflags] at hexact
  exact (grantsExactly_iff flags permissions).mp hexact

/-- In a state that no denied hook has led to, a hook that returns true grants what was
asked for exactly when only reading was asked for. In no state does it grant more. -/
theorem granted_iff {os : Os} {pageTable : VmmEptPageTable} {m0 m m' : Machine Caller}
    {targetFunc : Pvoid} {permissions : BitVec 8} (hstart : Started os pageTable m0)
    (hnew : m.isHookExists (pageAlign targetFunc) = false)
    (hcall : m.rootModePageHook os targetFunc permissions = some (true, m')) :
    (Granted os targetFunc permissions m m' → permissions &&& 6 = 0) ∧
      ((∃ actions, GuardedRun (hookStep os) (NotDenied os) m0 actions m) →
        (Granted os targetFunc permissions m m' ↔ permissions &&& 6 = 0)) := by
  refine ⟨fun h => h.only_read hnew hcall, ?_⟩
  intro hreached
  obtain ⟨actions, hclean⟩ := hreached
  refine ⟨fun h => h.only_read hnew hcall, ?_⟩
  intro hread
  obtain ⟨pageTable', hcoherent⟩ := coherent_of_run hstart hclean
  rcases rootModePageHook_returned hcoherent hcall with
    hdone | ⟨_, hstatus⟩ | ⟨_, a, pageTable1, m1, r, hhooked⟩
  · have hexists := hdone.status_iff rfl
    rw [hnew] at hexists
    exact absurd hexists (by simp)
  · exact absurd hstatus (by simp)
  · have hinstalled := hhooked.installed
    have htable := hinstalled.coherent.pageTable_eq
    have hrecord := hinstalled.record
    refine ⟨⟨r, ?_, ?_, ?_, ?_, ?_⟩, ?_⟩
    · rw [hinstalled.hookedPages, hhooked.hookedPages]
    · rw [hrecord]
      rfl
    · rw [htable, Option.map_some, hinstalled.leafSet.leaf, hrecord]
      rfl
    · rw [hrecord]
      exact (grantsExactly_iff _ _).mpr hread
    · intro table htable0 i hi
      obtain rfl := Option.some.inj (hcoherent.pageTable_eq.symm.trans htable0)
      rw [hrecord, ← hhooked.leaf]
      exact changeAccess_other _ _ hi
    · intro x hx hpage
      refine ⟨m.translate os pageTable' x, m'.translate os pageTable1 x, ?_, ?_, ?_⟩
      · rw [translation, hcoherent.pageTable_eq, Option.map_some]
      · rw [translation, htable, Option.map_some]
      · have hother : ¬ SamePage x (hookAddress os targetFunc) := fun hsame =>
          hpage (frame_injective hx hhooked.low hsame.1 hsame.2)
        rw [hinstalled.leafSet.translate_other hother]
        exact hhooked.access x

theorem granted_iff_read : ∃ m', (flatMachine 1 1).rootModePageHook flatOs 0x200000#64 1 =
    some (true, m') ∧ Granted flatOs 0x200000#64 1 (flatMachine 1 1) m' := by
  obtain ⟨⟨_, m'⟩, hcall, rfl⟩ := Option.map_eq_some_iff.mp (show
    ((flatMachine 1 1).rootModePageHook flatOs 0x200000#64 1).map Prod.fst = some true by
      decide +kernel)
  exact ⟨m', hcall, ((granted_iff (flatMachine_started 1 1) (by decide +kernel) hcall).2
    ⟨[], GuardedRun.nil _⟩).mpr (by decide)⟩

/-- Reading and writing are asked for, and the live leaf cannot be written. -/
theorem not_granted_of_write :
    ¬ ∀ (os : Os) (pageTable : VmmEptPageTable) (m0 m m' : Machine Unit)
      (actions : List (HookAction Unit)) (targetFunc : Pvoid) (permissions : BitVec 8),
      Started os pageTable m0 → Run (hookStep os) m0 actions m →
        m.isHookExists (pageAlign targetFunc) = false → permissionsAccepted permissions = true →
        m.rootModePageHook os targetFunc permissions = some (true, m') →
        Granted os targetFunc permissions m m' := by
  intro h
  obtain ⟨⟨_, m'⟩, hcall, rfl⟩ := Option.map_eq_some_iff.mp (show
    ((flatMachine 1 1).rootModePageHook flatOs 0x200000#64 3).map Prod.fst = some true by
      decide +kernel)
  have hnew : (flatMachine 1 1).isHookExists (pageAlign 0x200000#64) = false := by
    decide +kernel
  have hgranted := h flatOs flatTable _ _ m' [] 0x200000#64 3 (flatMachine_started 1 1)
    (GuardedRun.nil _) hnew (by decide) hcall
  exact absurd (hgranted.only_read hnew hcall) (by decide)

/-- The call's pool events, latest first: no table in use has been released, and what
was taken has been released once or is a table in use. -/
structure Returned (os : Os) (pageTable : VmmEptPageTable) (events : List PoolEvent) : Prop where
  table : ∀ e, IsSplit pageTable e →
    .freed (.split2mbPagingTo4kbPage, tableOf os pageTable e) ∉ events
  taken : ∀ b, .allocated b ∈ events → events.count (.freed b) = 1 ∨
    events.count (.freed b) = 0 ∧ ∃ e, IsSplit pageTable e ∧
      b = (.split2mbPagingTo4kbPage, tableOf os pageTable e)

/-- Every page keeps its frame and its rights, and the hook list its records. -/
structure Unchanged (os : Os) (m m' : Machine Caller) : Prop where
  page : ∀ x : Word, x.toNat < 2 ^ 39 →
    ∃ t t', m.translation os x = some t ∧ m'.translation os x = some t' ∧ t'.SameAccess t
  hookedPages : m'.ept.hookedPages = m.ept.hookedPages
  detail : ∀ r ∈ m.ept.hookedPages, m'.detail r = m.detail r

structure Intact (os : Os) (m m' : Machine Caller) : Prop where
  unchanged : ∀ actions m'', Run (othersStep os) m' actions m'' → Unchanged os m m''
  returned : ∃ events, m'.history = events ++ m.history ∧
    ∃ pageTable', m'.ept.eptPageTable = some pageTable' ∧ Returned os pageTable' events

theorem Coherent.othersRun {os : Os} {pageTable : VmmEptPageTable} {m m' : Machine Caller}
    {actions : List (PoolAction Caller PoolBuffer)} (h : m.Coherent os pageTable)
    (hrun : Run (Machine.othersStep os) m actions m') : Extends os pageTable m pageTable m' := by
  refine GuardedRun.invariant (I := fun s => Extends os pageTable m pageTable s) ?_ hrun
    (h.extends_of_evolves rfl rfl (SharedPool.Evolves.refl h.safe))
  intro s action s' hs _ hstep
  exact hs.trans (hs.coherent.othersStep hstep)

theorem Extends.unchanged {os : Os} {pageTable pageTable' : VmmEptPageTable}
    {m m' : Machine Caller} (h : Extends os pageTable m pageTable' m')
    (htable : m.ept.eptPageTable = some pageTable) : Unchanged os m m' := by
  refine ⟨?_, h.hookedPages, h.detail⟩
  intro x _
  refine ⟨m.translate os pageTable x, m'.translate os pageTable' x, ?_, ?_, h.access x⟩
  · rw [translation, htable, Option.map_some]
  · rw [translation, h.coherent.pageTable_eq, Option.map_some]

theorem Done.intact {os : Os} {pageTable : VmmEptPageTable} {m m' : Machine Caller}
    {targetFunc : Pvoid} {status : Bool} (h : m.Coherent os pageTable)
    (hdone : Done os targetFunc pageTable m status m') : Intact os m m' := by
  have htable := hdone.coherent.pageTable_eq
  refine ⟨?_, ?_⟩
  · intro actions m'' hrun
    exact (hdone.toExtends.trans (hdone.coherent.othersRun hrun)).unchanged h.pageTable_eq
  · rcases hdone.history with hsame | ⟨a, hunused, hback⟩
    · exact ⟨[], hsame, pageTable, htable, by simp, by simp⟩
    · refine ⟨[.freed (.split2mbPagingTo4kbPage, a), .allocated (.split2mbPagingTo4kbPage, a)],
        hback, pageTable, htable, ?_, ?_⟩
      · intro e he hmem
        obtain heq : tableOf os pageTable e = a := by simpa using hmem
        exact hunused (Or.inl ⟨e, he, by rw [heq]⟩)
      · intro b hb
        obtain rfl : b = (.split2mbPagingTo4kbPage, a) := by simpa using hb
        exact Or.inl (by simp)

/-- In any state, a denied call frees the one buffer that it took either twice or after
pointing an entry to it. -/
theorem recordDenied_history {os : Os} {m m' : Machine Caller} {targetFunc : Pvoid}
    {permissions : BitVec 8} {status : Bool} (hsafe : m.pool.state.Safe os.toAllocator)
    (hdenied : m.recordDenied os targetFunc permissions = true)
    (hcall : m.rootModePageHook os targetFunc permissions = some (status, m')) :
    ∃ a events, m'.history = events ++ m.history ∧
      .allocated (.split2mbPagingTo4kbPage, a) ∈ events ∧
      (events.count (.freed (.split2mbPagingTo4kbPage, a)) = 2 ∨
        .freed (.split2mbPagingTo4kbPage, a) ∈ events ∧ ∃ pageTable e,
          m'.ept.eptPageTable = some pageTable ∧ IsSplit pageTable e ∧
            tableOf os pageTable e = a) := by
  unfold recordDenied at hdenied
  split at hdenied
  · rename_i a entry changedEntry m1 hprep
    obtain ⟨m0, halloc, hsplit, _, _⟩ := prepareHook_ready hprep
    obtain ⟨hpool, _, _, hhistory⟩ := allocate_some hsafe halloc
    rcases hhook : m1.allocate os .eptHookPage with ⟨_ | r, m2⟩
    · have hept : m2.ept = m1.ept := (congrArg (fun p => p.2.ept) hhook).symm
      have hhistory2 : m2.history = m1.history := by
        simp only [allocate, Prod.mk.injEq] at hhook
        rw [← hhook.2, hhook.1]
        rfl
      obtain rfl : m2.free os a .split2mbPagingTo4kbPage = m' := by
        simp only [rootModePageHook, hprep, Option.map_some, hhook, Option.some.injEq,
          Prod.mk.injEq] at hcall
        exact hcall.2
      obtain ⟨pageTable, e, _, rfl | ⟨_, rfl⟩⟩ :=
        ((splitLargePage_ends hsplit).resolve_left (by simp)).2
      · refine ⟨a, [.freed (.split2mbPagingTo4kbPage, a), .freed (.split2mbPagingTo4kbPage, a),
          .allocated (.split2mbPagingTo4kbPage, a)], ?_, by simp, Or.inl (by simp)⟩
        change _ :: m2.history = _
        rw [hhistory2]
        change _ :: _ :: m0.history = _
        rw [hhistory]
        rfl
      · refine ⟨a, [.freed (.split2mbPagingTo4kbPage, a),
          .allocated (.split2mbPagingTo4kbPage, a)], ?_, by simp, Or.inr ⟨by simp, _, e,
            congrArg Ept.eptPageTable hept, ?_, ?_⟩⟩
        · change _ :: m2.history = _
          rw [hhistory2]
          change _ :: m0.history = _
          rw [hhistory]
          rfl
        · exact isSplit_wired os a pageTable e
        · exact tableOf_wired hpool.granted pageTable e
    · simp [hhook] at hdenied
  · simp at hdenied

theorem Intact.not_denied {os : Os} {m m' : Machine Caller} {targetFunc : Pvoid}
    {permissions : BitVec 8} {status : Bool} (hintact : Intact os m m')
    (hsafe : m.pool.state.Safe os.toAllocator)
    (hcall : m.rootModePageHook os targetFunc permissions = some (status, m')) :
    m.recordDenied os targetFunc permissions = false := by
  rw [← Bool.not_eq_true]
  intro hdenied
  obtain ⟨a, events, hhistory, htaken, hfreed⟩ := recordDenied_history hsafe hdenied hcall
  obtain ⟨events', hhistory', pageTable, htable, hreturned⟩ := hintact.returned
  obtain rfl := List.append_cancel_right (hhistory'.symm.trans hhistory)
  rcases hfreed with htwice | ⟨hmem, pageTable', e, htable', he, heq⟩
  · rcases hreturned.taken _ htaken with hone | ⟨hnone, _⟩
    · omega
    · omega
  · obtain rfl := Option.some.inj (htable.symm.trans htable')
    exact hreturned.table e he (heq ▸ hmem)

/-- A hook that returns false leaves everything intact exactly when it is not denied its
record, in a state that no denied hook has led to. In no state does a denied hook. -/
theorem intact_iff {os : Os} {pageTable : VmmEptPageTable} {m0 m m' : Machine Caller}
    {actions : List (HookAction Caller)} {targetFunc : Pvoid} {permissions : BitVec 8}
    (hstart : Started os pageTable m0) (hrun : Run (hookStep os) m0 actions m)
    (hcall : m.rootModePageHook os targetFunc permissions = some (false, m')) :
    (Intact os m m' → m.recordDenied os targetFunc permissions = false) ∧
      (GuardedRun (hookStep os) (NotDenied os) m0 actions m →
        (Intact os m m' ↔ m.recordDenied os targetFunc permissions = false)) := by
  have hsafe := (listed_of_run hstart hrun).safe
  refine ⟨fun h => h.not_denied hsafe hcall, fun hclean => ⟨fun h => h.not_denied hsafe hcall, ?_⟩⟩
  intro hnot
  obtain ⟨pageTable', hcoherent⟩ := coherent_of_run hstart hclean
  rcases rootModePageHook_returned hcoherent hcall with hdone | ⟨hdenied, _⟩ | ⟨hstatus, _⟩
  · exact hdone.intact hcoherent
  · rw [hnot] at hdenied
    exact absurd hdenied (by simp)
  · exact absurd hstatus (by simp)

theorem intact_iff_empty : ∃ m', (flatMachine 0 0).rootModePageHook flatOs 0x200000#64 1 =
    some (false, m') ∧ Intact flatOs (flatMachine 0 0) m' := by
  obtain ⟨⟨_, m'⟩, hcall, rfl⟩ := Option.map_eq_some_iff.mp (show
    ((flatMachine 0 0).rootModePageHook flatOs 0x200000#64 1).map Prod.fst = some false by
      decide +kernel)
  exact ⟨m', hcall, ((intact_iff (flatMachine_started 0 0) (GuardedRun.nil _) hcall).2
    (GuardedRun.nil _)).mpr (by decide +kernel)⟩

/-- A hook that is given a table and no record frees the table that it has wired. -/
theorem not_intact_of_denied :
    ¬ ∀ (os : Os) (pageTable : VmmEptPageTable) (m0 m m' : Machine Unit)
      (actions : List (HookAction Unit)) (targetFunc : Pvoid) (permissions : BitVec 8),
      Started os pageTable m0 → Run (hookStep os) m0 actions m →
        m.rootModePageHook os targetFunc permissions = some (false, m') → Intact os m m' := by
  intro h
  obtain ⟨⟨_, m'⟩, hcall, rfl⟩ := Option.map_eq_some_iff.mp (show
    ((flatMachine 1 0).rootModePageHook flatOs 0x200000#64 4).map Prod.fst = some false by
      decide +kernel)
  have hstart := flatMachine_started 1 0
  have hintact := h flatOs flatTable _ _ m' [] 0x200000#64 4 hstart (GuardedRun.nil _) hcall
  have hnot := hintact.not_denied hstart.coherent.safe hcall
  exact absurd hnot (by decide +kernel)

end Machine

end NovaHypervisor

import NovaHypervisor.DeviceControl
import NovaHypervisor.ExitRuns
import NovaHypervisor.General.Supplies
import NovaHypervisor.QuietHook

/-!
A request to protect a page on every processor. Each processor that lacks a record
claims a table and a record from the pool, whatever the order in which they run, so
the request protects the page on all of them or on none exactly when the pool
suffices for all, or for none and the processor that reports is one that lacks.
-/
namespace NovaHypervisor

open General

namespace Machine

variable {Caller : Type*}

theorem HookOutcome.kept {os : Os} {targetFunc : Pvoid} {m m' : Machine Caller} {status : Bool}
    (h : HookOutcome os targetFunc m status m') : m'.HookReady os ∧ m'.guest = m.guest ∧
      ∀ r, m.pool.state.manager.Used .eptHookPage r →
        m'.pool.state.manager.Used .eptHookPage r ∧ m'.detail r = m.detail r := by
  cases h with
  | found _ hkept _ => exact ⟨hkept.ready, hkept.guest, hkept.record⟩
  | refused _ hkept _ _ => exact ⟨hkept.ready, hkept.guest, hkept.record⟩
  | denied _ hkept _ _ => exact ⟨hkept.ready, hkept.guest, hkept.record⟩
  | hooked _ hready hguest hrecord _ _ _ _ _ => exact ⟨hready, hguest, hrecord⟩

/-- A hook succeeds exactly when the processor holds the page afterwards. -/
theorem HookOutcome.status_eq {os : Os} {targetFunc : Pvoid} {m m' : Machine Caller}
    {status : Bool} (h : HookOutcome os targetFunc m status m') (hm : m.HookReady os) :
    m'.isHookExists (pageAlign targetFunc) = status := by
  cases h with
  | found hexists hkept _ => rw [hkept.isHookExists hm, hexists]
  | refused hexists hkept _ _ => rw [hkept.isHookExists hm, hexists]
  | denied hexists hkept _ _ => rw [hkept.isHookExists hm, hexists]
  | hooked _ _ _ _ _ _ _ _ hexists' => exact hexists'

/-- Each way out is a claim of the supplies, where the processor is served if it holds
the page. -/
theorem HookOutcome.claim {os : Os} {targetFunc : Pvoid} {m m' : Machine Caller} {status : Bool}
    (h : HookOutcome os targetFunc m status m') {ι : Type*} [DecidableEq ι]
    {s t : Supplies ι} {i : ι} (hfirst : s.first = m.usableTables os targetFunc)
    (hsecond : s.second = m.freeRecords)
    (hserved : s.served i = m.isHookExists (pageAlign targetFunc))
    (hfirst' : t.first = m'.usableTables os targetFunc) (hsecond' : t.second = m'.freeRecords)
    (hserved' : t.served = Function.update s.served i status) : t = s.claim i := by
  have hsame : s.served i = status → t.served = s.served := by
    intro heq
    rw [hserved', ← heq, Function.update_eq_self]
  cases h with
  | found hexists hkept htables =>
    have hi : s.served i = true := hserved.trans hexists
    rw [Supplies.claim, if_pos (Or.inl hi)]
    exact Supplies.ext (by omega) (by rw [hsecond', hkept.freeRecords, hsecond]) (hsame hi)
  | refused hexists hkept hnone hnone' =>
    have hi : s.served i = false := hserved.trans hexists
    rw [Supplies.claim, if_pos (Or.inr (hfirst.trans hnone))]
    exact Supplies.ext (by omega) (by rw [hsecond', hkept.freeRecords, hsecond]) (hsame hi)
  | denied hexists hkept htables hempty =>
    have hi : s.served i = false := hserved.trans hexists
    have hsome : ¬ (s.served i = true ∨ s.first = 0) := by
      rw [hi]
      simp only [Bool.false_eq_true, false_or]
      omega
    rw [Supplies.claim, if_neg hsome, if_pos (hsecond.trans hempty)]
    refine Supplies.ext ?_ (by rw [hsecond', hkept.freeRecords, hsecond]) (hsame hi)
    change t.first = s.first - 1
    omega
  | hooked hexists _ _ _ htables hrecords _ _ _ =>
    have hi : s.served i = false := hserved.trans hexists
    have hsome : ¬ (s.served i = true ∨ s.first = 0) := by
      rw [hi]
      simp only [Bool.false_eq_true, false_or]
      omega
    have hsecond0 : ¬ s.second = 0 := by omega
    rw [Supplies.claim, if_neg hsome, if_neg hsecond0]
    refine Supplies.ext ?_ ?_ hserved'
    · change t.first = s.first - 1
      omega
    · change t.second = s.second - 1
      omega

/-- The list keeps its records, or gains one for a page that it did not hold. -/
def ListGains (targetFunc : Pvoid) (m m' : Machine Caller) : Prop :=
  (m'.isHookExists (pageAlign targetFunc) = m.isHookExists (pageAlign targetFunc) ∧
    m'.ept.hookedPages = m.ept.hookedPages) ∨
  (m.isHookExists (pageAlign targetFunc) = false ∧
    m'.isHookExists (pageAlign targetFunc) = true ∧
    ∃ r, r ∉ m.ept.hookedPages ∧ m'.ept.hookedPages = r :: m.ept.hookedPages)

theorem HookOutcome.listGains {os : Os} {targetFunc : Pvoid} {m m' : Machine Caller}
    {status : Bool} (h : HookOutcome os targetFunc m status m') (hm : m.HookReady os) :
    ListGains targetFunc m m' := by
  cases h with
  | found _ hkept _ => exact Or.inl ⟨hkept.isHookExists hm targetFunc, hkept.hookedPages⟩
  | refused _ hkept _ _ => exact Or.inl ⟨hkept.isHookExists hm targetFunc, hkept.hookedPages⟩
  | denied _ hkept _ _ => exact Or.inl ⟨hkept.isHookExists hm targetFunc, hkept.hookedPages⟩
  | hooked hexists _ _ _ _ _ hnew hlist hexists' =>
    exact Or.inr ⟨hexists, hexists', _, hnew, hlist⟩

theorem ListGains.trans {targetFunc : Pvoid} {m m' m'' : Machine Caller}
    (h : ListGains targetFunc m m') (h' : ListGains targetFunc m' m'') :
    ListGains targetFunc m m'' := by
  rcases h with ⟨hsame, hlist⟩ | ⟨hlacks, hholds, r, hnew, hlist⟩
  · rw [ListGains, ← hsame, ← hlist]
    exact h'
  · rcases h' with ⟨hsame', hlist'⟩ | ⟨hlacks', _⟩
    · exact Or.inr ⟨hlacks, hsame'.trans hholds, r, hnew, hlist'.trans hlist⟩
    · rw [hholds] at hlacks'
      exact absurd hlacks' (by simp)

variable [DecidableEq Caller]

/-- The worker on a launched processor runs the hook in root mode. -/
theorem hookPageByVmcall_quiet {os : Os} (kernelBaseInfo : KernelBaseInfo)
    {m : Machine Caller} (h : m.HookReady os) (hlaunched : m.guest.isLaunched = true)
    {hookedPage : HookedPage} (haddress : hookedPage.address ≠ 0)
    (hperm : permissionsAccepted hookedPage.permissions = true) :
    ∃ status m', m.hookPageByVmcall os kernelBaseInfo (some hookedPage) =
        some (if status then statusSuccess else statusUnsuccessful, m'.leaveRoot) ∧
      HookOutcome os hookedPage.address m.enterRoot status m' := by
  obtain ⟨status, m', hcall, houtcome⟩ := rootModePageHook_quiet (m := m.enterRoot)
    ⟨h.quiet, h.wellFormed, h.table, h.used⟩ hlaunched hookedPage.address hperm
  refine ⟨status, m', ?_, houtcome⟩
  have hwidth : (hookedPage.permissions.setWidth 64).setWidth 8 = hookedPage.permissions := by
    simp
  have hhandler : m.enterRoot.vmcallHandler os vmcallExecHookPage hookedPage.address
      (hookedPage.permissions.setWidth 64) =
        some (if status then statusSuccess else statusUnsuccessful, m') := by
    change (if hookedPage.address = 0 then _ else _) = _
    rw [if_neg haddress, hwidth, hcall]
    rfl
  simp only [hookPageByVmcall, asmVmxVmcall, hlaunched, if_true, vmexitHandler, hhandler,
    Option.map_some, Option.bind_some]

end Machine

namespace System

variable {Caller : Type*} {n : ℕ}

/-- Every processor is launched and its records and tables are the pool's. -/
structure Ready (os : Os) (s : System Caller n) : Prop where
  machine : ∀ i, (s.machine i).HookReady os
  launched : ∀ i, (s.processors i).guest.isLaunched = true

def holds (address : Word) (s : System Caller n) (i : Fin n) : Bool :=
  (s.machine i).isHookExists (pageAlign address)

/-- What the processors compete for, and which of them hold the page. -/
def supplies (os : Os) (address : Word) (s : System Caller n) : Supplies (Fin n) where
  first := s.pool.manager.usableTables os address
  second := s.pool.manager.freeSlots .eptHookPage
  served := s.holds address

theorem machine_setMachine_self (s : System Caller n) (i : Fin n) (m : Machine Caller) :
    (s.setMachine i m).machine i = ⟨⟨m.pool.state, []⟩, m.ept, m.guest, []⟩ := by
  simp [machine, setMachine]

theorem machine_setMachine_of_ne (s : System Caller n) {i j : Fin n} (h : j ≠ i)
    (m : Machine Caller) : (s.setMachine i m).machine j =
      ⟨⟨m.pool.state, []⟩, (s.processors j).ept, (s.processors j).guest, []⟩ := by
  simp [machine, setMachine, h]

/-- A processor that does not run the worker keeps its list and its records. -/
theorem Ready.other {os : Os} {s : System Caller n} (h : s.Ready os) {i j : Fin n} (hj : j ≠ i)
    {m : Machine Caller} (hm : m.HookReady os)
    (hrecord : ∀ r, s.pool.manager.Used .eptHookPage r →
      m.pool.state.manager.Used .eptHookPage r ∧ m.detail r = (s.machine i).detail r)
    (address : Word) :
    ((s.setMachine i m).machine j).HookReady os ∧
      (s.setMachine i m).holds address j = s.holds address j ∧
      ((s.setMachine i m).machine j).ept.hookedPages = (s.machine j).ept.hookedPages := by
  have hold := h.machine j
  rw [holds, machine_setMachine_of_ne s hj m]
  have hdetail : ∀ r ∈ (s.machine j).ept.hookedPages,
      (⟨⟨m.pool.state, []⟩, (s.processors j).ept, (s.processors j).guest, []⟩ :
        Machine Caller).detail r = (s.machine j).detail r :=
    fun r hr => (hrecord r (hold.used r hr)).2
  refine ⟨⟨rfl, hm.wellFormed, hold.table, fun r hr => (hrecord r (hold.used r hr)).1⟩, ?_, rfl⟩
  rw [holds]
  apply Machine.isHookExists_congr
  · rfl
  · exact hdetail

variable [DecidableEq Caller]

/-- A processor's turn is its claim, and its result tells whether it holds the page. -/
theorem Ready.claims {os : Os} {s : System Caller n} (h : s.Ready os)
    (kernelBaseInfo : KernelBaseInfo) {hookedPage : HookedPage} (haddress : hookedPage.address ≠ 0)
    (hperm : permissionsAccepted hookedPage.permissions = true) (i : Fin n) :
    ∃ status m, (s.machine i).hookPageByVmcall os kernelBaseInfo (some hookedPage) =
        some (status, m) ∧ (s.setMachine i m).Ready os ∧
      (s.setMachine i m).supplies os hookedPage.address =
        (s.supplies os hookedPage.address).claim i ∧
      ntSuccess status = (s.setMachine i m).holds hookedPage.address i ∧
      ∀ j, Machine.ListGains hookedPage.address (s.machine j)
        ((s.setMachine i m).machine j) := by
  have hm := h.machine i
  have henter : (s.machine i).enterRoot.HookReady os :=
    ⟨hm.quiet, hm.wellFormed, hm.table, hm.used⟩
  obtain ⟨status, m, hcall, houtcome⟩ :=
    Machine.hookPageByVmcall_quiet kernelBaseInfo hm (h.launched i) haddress hperm
  obtain ⟨hready, hguest, hrecord⟩ := houtcome.kept
  have hleave : m.leaveRoot.HookReady os :=
    ⟨hready.quiet, hready.wellFormed, hready.table, hready.used⟩
  have hself : (s.setMachine i m.leaveRoot).holds hookedPage.address i = status := by
    rw [holds, machine_setMachine_self]
    exact houtcome.status_eq henter
  have hother : ∀ j, j ≠ i → _ := fun j hj => h.other hj hleave hrecord hookedPage.address
  refine ⟨_, m.leaveRoot, hcall, ⟨?_, ?_⟩, ?_, ?_, ?_⟩
  · intro j
    by_cases hj : j = i
    · subst hj
      rw [machine_setMachine_self]
      exact ⟨rfl, hready.wellFormed, hready.table, hready.used⟩
    · exact (hother j hj).1
  · intro j
    by_cases hj : j = i
    · subst hj
      have hlaunched : m.guest.isLaunched = true := by
        rw [hguest]
        exact h.launched j
      simpa [setMachine, Machine.leaveRoot] using hlaunched
    · simpa [setMachine, hj] using h.launched j
  · refine houtcome.claim rfl rfl rfl rfl rfl ?_
    funext j
    by_cases hj : j = i
    · subst hj
      rw [Function.update_self]
      exact hself
    · rw [Function.update_of_ne hj]
      exact (hother j hj).2.1
  · rw [hself]
    cases status <;> rfl
  · intro j
    by_cases hj : j = i
    · subst hj
      rw [machine_setMachine_self]
      exact houtcome.listGains henter
    · exact Or.inl ⟨(hother j hj).2.1, (hother j hj).2.2⟩

/-- The broadcast is a run of claims, in the order of the processors. -/
theorem Ready.broadcast {os : Os} {s : System Caller n} (h : s.Ready os)
    (kernelBaseInfo : KernelBaseInfo) {hookedPage : HookedPage} (haddress : hookedPage.address ≠ 0)
    (hperm : permissionsAccepted hookedPage.permissions = true) {order : List (Fin n)}
    (hnd : order.Nodup) (results : Fin n → Ntstatus) :
    ∃ results' s', System.broadcast
        (fun m => m.hookPageByVmcall os kernelBaseInfo (some hookedPage)) order results s =
          some (results', s') ∧
      s'.supplies os hookedPage.address = (s.supplies os hookedPage.address).run order ∧
      (∀ i ∈ order, ntSuccess (results' i) = s'.holds hookedPage.address i) ∧
      (∀ i, i ∉ order → results' i = results i) ∧
      ∀ i, Machine.ListGains hookedPage.address (s.machine i) (s'.machine i) := by
  induction order generalizing s results with
  | nil => exact ⟨results, s, rfl, rfl, by simp, fun _ _ => rfl, fun _ => Or.inl ⟨rfl, rfl⟩⟩
  | cons i order ih =>
    obtain ⟨hi, hnd⟩ := List.nodup_cons.mp hnd
    obtain ⟨status, m, hcall, hready, hclaim, hstatus, hgains⟩ :=
      h.claims kernelBaseInfo haddress hperm i
    obtain ⟨results', s', hrest, hrun, hresult, hkept, hgains'⟩ :=
      ih hready hnd (Function.update results i status)
    refine ⟨results', s', ?_, ?_, ?_, ?_, fun j => (hgains j).trans (hgains' j)⟩
    · simp only [System.broadcast, hcall, Option.bind_some, hrest]
    · rw [hrun, hclaim, Supplies.run_cons]
    · intro j hj
      rcases List.mem_cons.mp hj with rfl | hj
      · have hafter : s'.holds hookedPage.address j =
            (s.setMachine j m).holds hookedPage.address j := by
          have hserved := congrArg (fun t => t.served j) hrun
          exact hserved.trans (Supplies.served_run_of_notMem _ hi)
        rw [hkept j hi, Function.update_self, hstatus, hafter]
      · exact hresult j hj
    · intro j hj
      rw [List.mem_cons, not_or] at hj
      rw [hkept j hj.2, Function.update_of_ne hj.1]

/-- On success every processor holds the page; on failure no list has a new record. -/
structure AllOrNothing (address : Word) (status : Ntstatus) (s s' : System Caller n) : Prop where
  all : ntSuccess status = true → ∀ i, s'.holds address i = true
  nothing : ntSuccess status = false → ∀ i, ∀ r ∈ (s'.processors i).ept.hookedPages,
    r ∈ (s.processors i).ept.hookedPages

/-- How many processors do not hold the page. -/
def lacking (address : Word) (s : System Caller n) : ℕ :=
  (List.finRange n).countP fun i => !s.holds address i

/-- The free buffers suffice for every processor that lacks the page, or for no hook at
all while the initiator is one that lacks it. -/
def Suffices (os : Os) (address : Word) (initiator : Fin n) (s : System Caller n) : Prop :=
  let hooks := min (s.pool.manager.usableTables os address)
    (s.pool.manager.freeSlots .eptHookPage)
  s.lacking address ≤ hooks ∨ (hooks = 0 ∧ s.holds address initiator = false)

instance (os : Os) (address : Word) (initiator : Fin n) (s : System Caller n) :
    Decidable (s.Suffices os address initiator) :=
  inferInstanceAs (Decidable (_ ∨ (_ ∧ _)))

omit [DecidableEq Caller] in
theorem lacking_eq (os : Os) (address : Word) (s : System Caller n) (order : IpiOrder n) :
    (s.supplies os address).lacking order.processors = s.lacking address := by
  have hperm : order.processors.Perm (List.finRange n) :=
    (List.perm_ext_iff_of_nodup order.nodup (List.nodup_finRange n)).mpr fun i =>
      iff_of_true (order.complete i) (List.mem_finRange i)
  exact hperm.countP_eq _

omit [DecidableEq Caller] in
/-- No list has a new record just where every processor that holds the page held it before. -/
theorem nothing_new_iff {address : Word} {s s' : System Caller n}
    (hgains : ∀ i, Machine.ListGains address (s.machine i) (s'.machine i)) :
    (∀ i, ∀ r ∈ (s'.processors i).ept.hookedPages, r ∈ (s.processors i).ept.hookedPages) ↔
      ∀ i, s'.holds address i = true → s.holds address i = true := by
  refine forall_congr' fun i => ?_
  rcases hgains i with ⟨hsame, hlist⟩ | ⟨hlacks, hholds, r, hnew, hlist⟩
  · refine iff_of_true (fun r hr => ?_) fun hi => ?_
    · exact hlist ▸ hr
    · exact hsame.symm.trans hi
  · refine iff_of_false (fun hbad => ?_) fun hbad => ?_
    · refine hnew (hbad r ?_)
      change r ∈ (s'.machine i).ept.hookedPages
      rw [hlist]
      exact List.mem_cons_self
    · have hi := hbad hholds
      exact absurd (hlacks.symm.trans hi) (by simp)

/-- In a state that keeps the law the request completes, and it is all or nothing exactly
when the free buffers suffice. -/
theorem Ready.novaDeviceControl {os : Os} {s : System Caller n} (h : s.Ready os)
    (kernelBaseInfo : KernelBaseInfo) {mmIsNonPagedSystemAddressValid : Pvoid → Bool} {irp : Irp}
    (hvalid : irp.Valid mmIsNonPagedSystemAddressValid) (order : IpiOrder n) (initiator : Fin n) :
    ∃ status s', s.novaDeviceControl os kernelBaseInfo mmIsNonPagedSystemAddressValid order
        initiator irp = some (status, s') ∧
      (AllOrNothing irp.hookedPage.address status s s' ↔
        s.Suffices os irp.hookedPage.address initiator) := by
  have haddress : irp.hookedPage.address ≠ 0 := by
    intro hzero
    have hvalidAddress := hvalid.address
    rw [hzero] at hvalidAddress
    exact absurd hvalidAddress (by decide)
  obtain ⟨results, s', hcall, hrun, hresult, _, hgains⟩ := h.broadcast kernelBaseInfo haddress
    hvalid.permissions order.nodup fun _ => statusSuccess
  refine ⟨results initiator, s', ?_, ?_⟩
  · rw [novaDeviceControl_of_valid os kernelBaseInfo order initiator hvalid]
    simp only [keIpiGenericCall, hcall, Option.map_some]
  have hserved : ∀ i, ((s.supplies os irp.hookedPage.address).run order.processors).served i =
      s'.holds irp.hookedPage.address i := fun i => by rw [← hrun]; rfl
  have hall := (s.supplies os irp.hookedPage.address).all_served_iff order.nodup
  have hnone := (s.supplies os irp.hookedPage.address).none_served_iff order.nodup
  rw [lacking_eq] at hall hnone
  simp only [hserved, order.complete, true_implies] at hall hnone
  have hnothing := nothing_new_iff hgains
  have hstatus := hresult initiator (order.complete initiator)
  constructor
  · intro hboth
    obtain ⟨hsuccess, hfailure⟩ := hboth
    cases hinitiator : s'.holds irp.hookedPage.address initiator with
    | true => exact Or.inl (hall.mp (hsuccess (hstatus.trans hinitiator)))
    | false =>
      have hnew := hnothing.mp (hfailure (hstatus.trans hinitiator))
      rcases hnone.mp hnew with hzero | hempty
      · exact Or.inl (hzero ▸ Nat.zero_le _)
      · refine Or.inr ⟨hempty, ?_⟩
        by_contra hheld
        simp only [Bool.not_eq_false] at hheld
        have hstill := Supplies.served_run_of_served (s.supplies os irp.hookedPage.address)
          order.processors hheld
        rw [hserved, hinitiator] at hstill
        exact absurd hstill (by simp)
  · intro hcondition
    rcases hcondition with hle | ⟨hempty, hlacks⟩
    · have hevery := hall.mpr hle
      refine ⟨fun _ => hevery, fun hfailed => ?_⟩
      rw [hstatus, hevery initiator] at hfailed
      exact absurd hfailed (by simp)
    · have hnew := hnone.mpr (Or.inr hempty)
      refine ⟨fun hsucceeded => ?_, fun _ => hnothing.mpr hnew⟩
      have hheld := hnew initiator (hstatus.symm.trans hsucceeded)
      exact absurd (hheld.symm.trans hlacks) (by simp)

/-- Every processor is where a run of its exits ends, in which the rest of the system
acts as the other parties of the pool. -/
def Reached (os : Os) (kernelBaseInfo : KernelBaseInfo) (s : System Caller n) : Prop :=
  ∀ i, ∃ (pageTable : VmmEptPageTable) (m m' : Machine Caller)
    (actions : List (ExitAction Caller)), Machine.Started os pageTable m ∧
      Run (Machine.exitStep os kernelBaseInfo) m actions m' ∧
      m'.ept = (s.processors i).ept ∧ m'.guest = (s.processors i).guest ∧
      m'.pool.state.manager = s.pool.manager ∧ m'.pool.state.memory = s.pool.memory

theorem Reached.ready {os : Os} {kernelBaseInfo : KernelBaseInfo} {s : System Caller n}
    (h : s.Reached os kernelBaseInfo)
    (hlaunched : ∀ i, (s.processors i).guest.isLaunched = true) : s.Ready os := by
  refine ⟨fun i => ?_, hlaunched⟩
  obtain ⟨pageTable, m, m', actions, hstart, hrun, hept, _, hmanager, _⟩ := h i
  obtain ⟨hlisted, htables⟩ := Machine.tables_of_run hstart hrun
  refine ⟨rfl, ?_, ?_, fun r hr => ?_⟩
  · change s.pool.manager.WellFormed os.toAllocator
    rw [← hmanager]
    exact hlisted.safe.wellFormed
  · change (s.processors i).ept.TablesGranted os
    rw [← hept]
    exact htables
  · change r ∈ (s.processors i).ept.hookedPages at hr
    change s.pool.manager.Used .eptHookPage r
    rw [← hept] at hr
    rw [← hmanager]
    exact (hlisted.owned r hr).used.mpr (by simp)

/-- From whatever the processors have done before, the request is all or nothing exactly
when the free buffers suffice. -/
theorem allOrNothing_iff {os : Os} {kernelBaseInfo : KernelBaseInfo}
    {mmIsNonPagedSystemAddressValid : Pvoid → Bool} {s : System Caller n}
    (hreached : s.Reached os kernelBaseInfo)
    (hlaunched : ∀ i, (s.processors i).guest.isLaunched = true) {irp : Irp}
    (hvalid : irp.Valid mmIsNonPagedSystemAddressValid) (order : IpiOrder n) (initiator : Fin n) :
    ∃ status s', s.novaDeviceControl os kernelBaseInfo mmIsNonPagedSystemAddressValid order
        initiator irp = some (status, s') ∧
      (AllOrNothing irp.hookedPage.address status s s' ↔
        s.Suffices os irp.hookedPage.address initiator) :=
  (hreached.ready hlaunched).novaDeviceControl kernelBaseInfo hvalid order initiator

/-- Processors that have just been launched, and a pool with some slots of each type. -/
def flat (n : ℕ) (paging hooks : ℕ) : System Unit n where
  pool := (Machine.flatMachine paging hooks).pool.state
  processors := fun _ =>
    ⟨(Machine.flatMachine paging hooks).ept, (Machine.flatMachine paging hooks).guest⟩

theorem flat_reached (n : ℕ) (paging hooks : ℕ) :
    (flat n paging hooks).Reached flatOs Machine.flatKernel := by
  intro i
  exact ⟨flatTable, Machine.flatMachine paging hooks, Machine.flatMachine paging hooks, [],
    Machine.flatMachine_started paging hooks, GuardedRun.nil _, rfl, rfl, rfl, rfl⟩

/-- A request to leave a page its read right. -/
def protectIrp : Irp := ⟨ioctlProtectAddressRange, sizeofHookedPage, (1, 0xFFFFF80000200000#64)⟩

theorem protectIrp_valid : protectIrp.Valid fun _ => true :=
  ⟨rfl, rfl, by decide, by decide, rfl⟩

def downward : IpiOrder 2 := ⟨[1, 0], by decide, by decide⟩

/-- Two processors and two buffers of each type. -/
theorem allOrNothing_iff_two : ∃ status s', (flat 2 2 2).novaDeviceControl flatOs
    Machine.flatKernel (fun _ => true) downward 0 protectIrp = some (status, s') ∧
    AllOrNothing protectIrp.hookedPage.address status (flat 2 2 2) s' := by
  obtain ⟨status, s', hcall, hiff⟩ := allOrNothing_iff (flat_reached 2 2 2) (fun _ => rfl)
    protectIrp_valid downward 0
  exact ⟨status, s', hcall, hiff.mpr (by decide +kernel)⟩

/-- Two processors and one buffer of each type: the first one succeeds and reports. -/
theorem not_allOrNothing_of_one :
    ¬ ∀ (n : ℕ) (os : Os) (kernelBaseInfo : KernelBaseInfo)
      (mmIsNonPagedSystemAddressValid : Pvoid → Bool) (s s' : System Unit n) (irp : Irp)
      (order : IpiOrder n) (initiator : Fin n) (status : Ntstatus),
      s.Reached os kernelBaseInfo → (∀ i, (s.processors i).guest.isLaunched = true) →
        irp.Valid mmIsNonPagedSystemAddressValid →
        s.novaDeviceControl os kernelBaseInfo mmIsNonPagedSystemAddressValid order initiator
          irp = some (status, s') →
        AllOrNothing irp.hookedPage.address status s s' := by
  intro h
  have hrun : ((flat 2 1 1).novaDeviceControl flatOs Machine.flatKernel (fun _ => true)
      downward 1 protectIrp).map (fun result =>
        (ntSuccess result.1, result.2.holds protectIrp.hookedPage.address 0)) =
      some (true, false) := by
    decide +kernel
  obtain ⟨⟨status, s'⟩, hcall, hresult⟩ := Option.map_eq_some_iff.mp hrun
  obtain ⟨hsuccess, hlacks⟩ := Prod.mk.inj hresult
  have hall := (h 2 flatOs Machine.flatKernel (fun _ => true) (flat 2 1 1) s' protectIrp _ 1 status
    (flat_reached 2 1 1) (fun _ => rfl) protectIrp_valid hcall).all hsuccess 0
  exact absurd (hall.symm.trans hlacks) (by simp)

end System

end NovaHypervisor

import NovaHypervisor.VmxResources

/-!
The start of the driver, with what it acquires before VMX and how it gives that back. A
start that fails is clean if everything acquired on the way is released once and nothing
is used after its release. It is clean just when the failure lies before the pool, or in
the support of VMX, the array of guest states or the test of the guest.
-/
namespace NovaHypervisor

open General

def statusAbandoned : Ntstatus := 0x00000080#32
def statusAccessViolation : Ntstatus := 0xC0000005#32

structure DriverEnvironment extends Environment where
  rtlGetVersion : Ntstatus
  cr3 : Word
  findKernelBaseAddress : Ntstatus
  poolManagerAllocated : Bool
  createAllocationThread : Ntstatus
  createFreeThread : Ntstatus
  ioCreateDevice : Ntstatus
  ioCreateSymbolicLink : Ntstatus

namespace DriverEnvironment

open DriverEvent DriverResource

variable (env : DriverEnvironment)

def hostDirectoryTableBase : Word := env.cr3 &&& ~~~0xFFF#64

/-- The code of an exception, if the constructor ends with one, and its trace. Without
memory the constructor writes through a null pointer. -/
def newPoolManager : Option Ntstatus × List DriverEvent :=
  if !env.poolManagerAllocated then (some statusAccessViolation, [])
  else
    let events := [acquire poolManager, access poolManager]
    if !ntSuccess env.createAllocationThread then (some env.createAllocationThread, events)
    else
      let events := events ++ [acquire allocationThread, access poolManager]
      if !ntSuccess env.createFreeThread then (some env.createFreeThread, events)
      else (none, events ++ [acquire freeThread])

/-- The threads are stopped before the lists are freed. -/
def deletePoolManager : List DriverEvent :=
  [access poolManager, release allocationThread, access poolManager, release freeThread,
    access poolManager, release poolManager]

/-- The status, if the call returns, and the trace. -/
def driverEntry : Option Ntstatus × List DriverEvent :=
  if !ntSuccess env.rtlGetVersion then (some statusAbandoned, [])
  else if env.hostDirectoryTableBase = 0 then (some statusUnsuccessful, [])
  else if !ntSuccess env.findKernelBaseAddress then (some env.findKernelBaseAddress, [])
  else
    match env.newPoolManager with
    | (some code, events) => (some code, events)
    | (none, events) =>
      if !ntSuccess env.ioCreateDevice then (some env.ioCreateDevice, events)
      else
        let events := events ++ [acquire deviceObject]
        if !ntSuccess env.ioCreateSymbolicLink then
          (some env.ioCreateSymbolicLink, events ++ [release deviceObject])
        else
          let events := events ++ [acquire symbolicLink]
          match env.vmxInitialize with
          | (none, _, vmxEvents) => (none, events ++ vmxEvents)
          | (some initialized, state, vmxEvents) =>
            let status := if initialized then statusSuccess else statusUnsuccessful
            if !ntSuccess status then
              (some status, events ++ vmxEvents ++ env.terminateVmx state ++
                deletePoolManager ++ [release symbolicLink, release deviceObject])
            else (some status, events ++ vmxEvents)

end DriverEnvironment

/-- Whatever is acquired is released, once, and nothing is used before or after. -/
def Clean (events : List DriverEvent) : Prop :=
  ∀ r, ∃ status, observe (resourceMonitor r) .fresh events = some status ∧ status ≠ .live

namespace DriverEnvironment

open DriverEvent

variable (env : DriverEnvironment)

def StartsAcquiring : Prop :=
  ntSuccess env.rtlGetVersion = true ∧ env.hostDirectoryTableBase ≠ 0 ∧
    ntSuccess env.findKernelBaseAddress = true ∧ env.poolManagerAllocated = true

def CreatesObjects : Prop :=
  ntSuccess env.createAllocationThread = true ∧ ntSuccess env.createFreeThread = true ∧
    ntSuccess env.ioCreateDevice = true ∧ ntSuccess env.ioCreateSymbolicLink = true

theorem driverEntry_of_not_startsAcquiring (h : ¬ env.StartsAcquiring) :
    env.driverEntry.2 = [] := by
  unfold driverEntry
  by_cases hversion : ntSuccess env.rtlGetVersion = true
  swap
  · rw [if_pos (by simpa using hversion)]
  rw [hversion, Bool.not_true, if_neg Bool.false_ne_true]
  by_cases hbase : env.hostDirectoryTableBase = 0
  · rw [if_pos hbase]
  rw [if_neg hbase]
  by_cases hkernel : ntSuccess env.findKernelBaseAddress = true
  swap
  · rw [if_pos (by simpa using hkernel)]
  rw [hkernel, Bool.not_true, if_neg Bool.false_ne_true, newPoolManager]
  by_cases hpool : env.poolManagerAllocated = true
  swap
  · rw [if_pos (by simpa using hpool)]
  exact absurd ⟨hversion, hbase, hkernel, hpool⟩ h

theorem observe_poolManager_of_not_createsObjects (hstarts : env.StartsAcquiring)
    (h : ¬ env.CreatesObjects) :
    observe (resourceMonitor .poolManager) .fresh env.driverEntry.2 = some .live := by
  obtain ⟨hversion, hbase, hkernel, hpool⟩ := hstarts
  unfold driverEntry newPoolManager
  rw [hversion, hkernel, hpool, if_neg hbase]
  simp only [Bool.not_true, Bool.false_eq_true, if_false]
  by_cases hallocation : ntSuccess env.createAllocationThread = true
  swap
  · simp [hallocation]
  by_cases hfree : ntSuccess env.createFreeThread = true
  swap
  · simp [hallocation, hfree]
  by_cases hdevice : ntSuccess env.ioCreateDevice = true
  swap
  · simp [hallocation, hfree, hdevice]
  by_cases hlink : ntSuccess env.ioCreateSymbolicLink = true
  swap
  · simp [hallocation, hfree, hdevice, hlink]
  exact absurd ⟨hallocation, hfree, hdevice, hlink⟩ h

/-- A failure after the link is the one of VMX, and everything is given back after it. -/
theorem driverEntry_of_createsObjects (hstarts : env.StartsAcquiring)
    (hcreates : env.CreatesObjects) {status : Ntstatus}
    (hreturns : env.driverEntry.1 = some status) (hfails : ntSuccess status = false) :
    env.vmxInitialize.1 = some false ∧ env.driverEntry.2 =
      env.newPoolManager.2 ++ [acquire .deviceObject, acquire .symbolicLink] ++
        env.vmxLifetime ++ deletePoolManager ++ [release .symbolicLink, release .deviceObject] := by
  obtain ⟨hversion, hbase, hkernel, hpool⟩ := hstarts
  obtain ⟨hallocation, hfree, hdevice, hlink⟩ := hcreates
  unfold driverEntry at hreturns ⊢
  unfold newPoolManager at hreturns ⊢
  rw [hversion, hkernel, hpool, if_neg hbase, hallocation, hfree] at hreturns ⊢
  simp only [Bool.not_true, Bool.false_eq_true, if_false, hdevice, hlink] at hreturns ⊢
  rcases hvmx : env.vmxInitialize with ⟨_ | initialized, state, events⟩
  · rw [hvmx] at hreturns
    exact absurd hreturns (Option.some_ne_none status).symm
  · rw [hvmx] at hreturns
    rw [Environment.vmxLifetime, hvmx]
    dsimp only at hreturns ⊢
    cases initialized with
    | true =>
      have hsuccess : ntSuccess statusSuccess = true := by decide
      rw [if_pos rfl, hsuccess, Bool.not_true, if_neg Bool.false_ne_true] at hreturns
      rw [← Option.some.inj hreturns, hsuccess] at hfails
      exact absurd hfails Bool.noConfusion
    | false =>
      have hfailure : ntSuccess statusUnsuccessful = false := by decide
      rw [if_neg Bool.false_ne_true, hfailure, Bool.not_false, if_pos rfl]
      refine ⟨rfl, ?_⟩
      simp only [List.append_assoc, List.cons_append, List.nil_append]

/-- Around a contained part the driver gives back what it has acquired itself. -/
theorem clean_of_contained (hstarts : env.StartsAcquiring) (hcreates : env.CreatesObjects)
    {events : List DriverEvent} (h : Contained events) :
    Clean (env.newPoolManager.2 ++ [acquire .deviceObject, acquire .symbolicLink] ++
      events ++ deletePoolManager ++ [release .symbolicLink, release .deviceObject]) := by
  have hpool : env.newPoolManager.2 = [acquire .poolManager, access .poolManager,
      acquire .allocationThread, access .poolManager, acquire .freeThread] := by
    simp [newPoolManager, hstarts.2.2.2, hcreates.1, hcreates.2.1]
  rw [hpool, deletePoolManager]
  intro r
  have hown := h.own r
  have hother := h.other r .live
  cases r with
  | poolManager | allocationThread | freeThread | deviceObject | symbolicLink =>
    have hlive := hother DriverResource.noConfusion rfl fun _ => rfl
    exact ⟨.released, by simp [observe_append, hlive], ResourceStatus.noConfusion⟩
  | guestState | eptInstance i | vmxonRegion i | vmcsRegion i | vmmStack i | msrBitmap i =>
    obtain ⟨status, hobserve, hlive⟩ := hown (by simp)
    exact ⟨status, by simp [observe_append, hobserve], hlive⟩

/-- A start that fails is clean just when the failure is not one of the pool's threads, of
the device or its link, or of an instance of the tables. -/
theorem clean_driverEntry_iff {status : Ntstatus} (hreturns : env.driverEntry.1 = some status)
    (hfails : ntSuccess status = false) :
    Clean env.driverEntry.2 ↔ (env.StartsAcquiring →
      env.CreatesObjects ∧ (env.ReachesConstruction → env.ConstructsEpts)) := by
  by_cases hstarts : env.StartsAcquiring
  swap
  · rw [env.driverEntry_of_not_startsAcquiring hstarts]
    exact iff_of_true (fun _ => ⟨.fresh, rfl, ResourceStatus.noConfusion⟩) fun h => absurd h hstarts
  by_cases hcreates : env.CreatesObjects
  swap
  · refine iff_of_false (fun hclean => ?_) fun h => hcreates (h hstarts).1
    obtain ⟨_, hobserve, hlive⟩ := hclean .poolManager
    rw [env.observe_poolManager_of_not_createsObjects hstarts hcreates] at hobserve
    exact hlive (Option.some.inj hobserve).symm
  have hclean := @env.clean_of_contained hstarts hcreates
  have hpool : observe (resourceMonitor .guestState) .fresh (env.newPoolManager.2 ++
      [acquire .deviceObject, acquire .symbolicLink]) = some .fresh := by
    simp [newPoolManager, hstarts.2.2.2, hcreates.1, hcreates.2.1]
  obtain ⟨hinitialized, htrace⟩ :=
    env.driverEntry_of_createsObjects hstarts hcreates hreturns hfails
  rw [htrace]
  rcases env.vmxInitializer_ends with ⟨hnot, hinitializer⟩ |
    ⟨hconstruction, hnot, hinitializer⟩ | ⟨_, hconstructs, returns, hreturned, hinitializer⟩
  · exact iff_of_true (hclean (env.contained_of_not_construction hinitializer))
      fun _ => ⟨hcreates, fun h => absurd h hnot⟩
  · refine iff_of_false (fun h => ?_) fun h => hnot ((h hstarts).2 hconstruction)
    obtain ⟨_, hobserve, _⟩ := h .guestState
    rw [observe_append, observe_append, observe_append, hpool, Option.bind_some,
      env.observe_vmxLifetime_guestState_of_failure hnot hinitializer] at hobserve
    exact (Option.some_ne_none _).symm hobserve
  · rcases hreturned with ⟨rfl, _⟩ | ⟨rfl, _⟩
    · rw [env.vmxLifetime_of_launch hconstructs hinitializer]
      exact iff_of_true (hclean env.contained_launchedLifetime)
        fun _ => ⟨hcreates, fun _ => hconstructs⟩
    · rw [Environment.vmxInitialize, hinitializer] at hinitialized
      exact absurd hinitialized (Option.some_ne_none false).symm

end DriverEnvironment

/-- A start whose link is there already. The rest would succeed. -/
def DriverEnvironment.nameCollision : DriverEnvironment where
  toEnvironment := Environment.willing
  rtlGetVersion := statusSuccess
  cr3 := 0x1AD000#64
  findKernelBaseAddress := statusSuccess
  poolManagerAllocated := true
  createAllocationThread := statusSuccess
  createFreeThread := statusSuccess
  ioCreateDevice := statusSuccess
  ioCreateSymbolicLink := 0xC0000035#32

/-- A start that succeeds up to the test of the guest, so everything is acquired. -/
def DriverEnvironment.failedTest : DriverEnvironment :=
  { DriverEnvironment.nameCollision with
    ioCreateSymbolicLink := statusSuccess
    testVmcall := statusUnsuccessful }

theorem clean_driverEntry_iff_failedTest :
    DriverEnvironment.failedTest.driverEntry.1 = some statusUnsuccessful ∧
      observe (resourceMonitor (.eptInstance 0)) .fresh
        DriverEnvironment.failedTest.driverEntry.2 = some .released ∧
      Clean DriverEnvironment.failedTest.driverEntry.2 := by
  have hreturns : DriverEnvironment.failedTest.driverEntry.1 = some statusUnsuccessful := by decide
  have hiff := DriverEnvironment.failedTest.clean_driverEntry_iff hreturns (by decide)
  refine ⟨hreturns, by decide +kernel, hiff.mpr fun _ => ⟨?_, ?_⟩⟩
  · exact ⟨by decide, by decide, by decide, by decide⟩
  · intro _ i _
    rfl

/-- The pool and its threads stay. -/
theorem not_clean_of_nameCollision :
    ¬ ∀ (env : DriverEnvironment) (status : Ntstatus), env.driverEntry.1 = some status →
      ntSuccess status = false → Clean env.driverEntry.2 := by
  intro h
  have hclean := h DriverEnvironment.nameCollision 0xC0000035#32 (by decide) (by decide)
  obtain ⟨status, hobserve, hlive⟩ := hclean .poolManager
  have hlives : observe (resourceMonitor .poolManager) .fresh
      DriverEnvironment.nameCollision.driverEntry.2 = some .live := by decide
  exact hlive (Option.some.inj (hobserve.symm.trans hlives))

end NovaHypervisor

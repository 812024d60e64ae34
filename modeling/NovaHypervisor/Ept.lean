import NovaHypervisor.Mtrr
import NovaHypervisor.PoolCalls

/-!
One processor's extended page table, its hook list and its guest state, with the
operations that VMX root mode runs on them. The pool and its buffers are shared
with the other processors. Logging, the TLB invalidations and the hook list's
lock, which only this processor takes, have no state here. An operation is
`none` where the source reads through a null page table.
-/
namespace NovaHypervisor

open General

structure Ept where
  memoryRanges : List MtrrRangeDescriptor
  defaultMemoryType : MemoryType
  eptPageTable : Option VmmEptPageTable
  /-- The addresses of the hook records, in list order. -/
  hookedPages : List Pvoid

/-- The fields of `VmState` and of the VMCS that the operations use. -/
structure VmState where
  isOnVmxRoot : Bool
  isLaunched : Bool
  hookedPage : Option Pvoid
  cpuBasedVmExecControl : Word
  /-- The injected page fault's address and error code. -/
  pendingInjection : Option (Word × BitVec 32)

/-- A call of `Allocate` that returned a buffer, or a call of `Free`. -/
inductive PoolEvent where
  | allocated (buffer : Buffer)
  | freed (buffer : Buffer)
  deriving DecidableEq

structure Machine (Caller : Type*) where
  pool : SharedPool Caller PoolBuffer
  ept : Ept
  guest : VmState
  /-- The processor's pool calls, latest first. No operation reads it. -/
  history : List PoolEvent

namespace Machine

variable {Caller : Type*}

def buffer (m : Machine Caller) (address : Pvoid) : PoolBuffer := m.pool.state.memory address

def setBuffer (m : Machine Caller) (address : Pvoid) (content : PoolBuffer) : Machine Caller :=
  { m with pool := { m.pool with state := { m.pool.state with
      memory := Function.update m.pool.state.memory address content } } }

def detail (m : Machine Caller) (hookedEntry : Pvoid) : EptHookedPageDetail :=
  (m.buffer hookedEntry).detail

def pml1 (m : Machine Caller) (entry : PeptPml1Entry) : Word :=
  (m.buffer entry.table).split.pml1 entry.index

def setPml1 (m : Machine Caller) (entry : PeptPml1Entry) (value : Word) : Machine Caller :=
  m.setBuffer entry.table { m.buffer entry.table with
    split := { (m.buffer entry.table).split with
      pml1 := Function.update (m.buffer entry.table).split.pml1 entry.index value } }

variable [DecidableEq Caller]

def allocate (os : Os) (type : AllocationType) (m : Machine Caller) :
    Option Pvoid × Machine Caller :=
  let (allocation, pool) := m.pool.allocate os.toAllocator type
  (allocation, { m with
    pool := pool
    history := (allocation.map fun a => PoolEvent.allocated (type, a)).toList ++ m.history })

def free (os : Os) (address : Pvoid) (type : AllocationType) (m : Machine Caller) :
    Machine Caller :=
  { m with
    pool := m.pool.free os.toAllocator address type
    history := .freed (type, address) :: m.history }

end Machine

namespace Ept

def getPml2Entry (physicalAddress : Word) : Option PeptPml2Entry :=
  if addrmaskEptPml4Index physicalAddress > 0 then none
  else some (pml3Index physicalAddress, pml2Index physicalAddress)

/-- Entry `entryIndex` of the table that a large page is split into. -/
def splitPml1Entry (ept : Ept) (pml2Entry : Word) (entryIndex : Fin 512) : Word :=
  let pml1Template := Epte.readAccess.set 0 1
  let pml1Template := Epte.writeAccess.set pml1Template 1
  let pml1Template := Epte.executeAccess.set pml1Template 1
  let pml1Template := Epte.memoryType.set pml1Template (Epde2mb.memoryType.get pml2Entry)
  let pml1Template := Epte.ignorePat.set pml1Template (Epde2mb.ignorePat.get pml2Entry)
  let pml1Template := Epte.suppressVe.set pml1Template (Epde2mb.suppressVe.get pml2Entry)
  let entry := Epte.pageFrameNumber.set pml1Template
    (Epde2mb.pageFrameNumber.get pml2Entry * size2mb / pageSize + BitVec.ofNat 64 entryIndex)
  Epte.memoryType.set entry
    ((getMemoryType ept.memoryRanges ept.defaultMemoryType
      (Epte.pageFrameNumber.get entry) false).setWidth 64)

/-- The pointer to the table in `buffer` that replaces the large page's entry. -/
def newSplitPtr (os : Os) (buffer : Pvoid) : Word :=
  let newSplitPtr := Epde.writeAccess.set 0 1
  let newSplitPtr := Epde.readAccess.set newSplitPtr 1
  let newSplitPtr := Epde.executeAccess.set newSplitPtr 1
  Epde.pageFrameNumber.set newSplitPtr (os.mmGetPhysicalAddress buffer / pageSize)

end Ept

def VmmEptPageTable.setPml2 (pageTable : VmmEptPageTable) (pml2Entry : PeptPml2Entry)
    (value : Word) : VmmEptPageTable :=
  { pageTable with pml2 := Function.update pageTable.pml2 pml2Entry value }

/-- The pointer that `GetPml1OrPml2Entry` returns. -/
inductive PmlEntry where
  | pml1 (entry : PeptPml1Entry)
  | pml2 (entry : PeptPml2Entry)
  deriving DecidableEq

namespace Machine

variable {Caller : Type*}

/-- Build the table of a large page in `buffer` and point the page's entry to it. -/
def wireSplit (os : Os) (buffer : Pvoid) (eptPageTable : VmmEptPageTable)
    (pml2Entry : PeptPml2Entry) (m : Machine Caller) : Machine Caller :=
  let newSplit : VmmEptDynamicSplit :=
    ⟨m.ept.splitPml1Entry (eptPageTable.pml2 pml2Entry), some pml2Entry⟩
  let m := m.setBuffer buffer { m.buffer buffer with split := newSplit }
  { m with ept := { m.ept with
    eptPageTable := some (eptPageTable.setPml2 pml2Entry (Ept.newSplitPtr os buffer)) } }

variable [DecidableEq Caller]

def splitLargePage (os : Os) (buffer : Pvoid) (physicalAddress : Word) (m : Machine Caller) :
    Option (Bool × Machine Caller) :=
  if buffer = null then some (false, m)
  else
    match Ept.getPml2Entry physicalAddress with
    | none => some (false, m)
    | some pml2Entry =>
      m.ept.eptPageTable.map fun eptPageTable =>
        -- already split: the buffer goes back to the pool
        if Epde2mb.largePage.get (eptPageTable.pml2 pml2Entry) = 0 then
          (true, m.free os buffer .split2mbPagingTo4kbPage)
        else (true, m.wireSplit os buffer eptPageTable pml2Entry)

omit [DecidableEq Caller]

def getPml1Entry (os : Os) (physicalAddress : Word) (m : Machine Caller) :
    Option (Option PeptPml1Entry) :=
  if addrmaskEptPml4Index physicalAddress > 0 then some none
  else
    m.ept.eptPageTable.map fun eptPageTable =>
      let pml2 := eptPageTable.pml2 (pml3Index physicalAddress, pml2Index physicalAddress)
      if Epde2mb.largePage.get pml2 ≠ 0 then none
      else
        let pml1 := os.mmGetVirtualForPhysical (Epde.pageFrameNumber.get pml2 * pageSize)
        if pml1 = null then none else some ⟨pml1, pml1Index physicalAddress⟩

/-- The entry, and `isLargePage` as the call leaves it. -/
def getPml1OrPml2Entry (os : Os) (physicalAddress : Word) (isLargePage : Bool)
    (m : Machine Caller) : Option (Option PmlEntry × Bool) :=
  if addrmaskEptPml4Index physicalAddress > 0 then some (none, isLargePage)
  else
    m.ept.eptPageTable.map fun eptPageTable =>
      let pml2 := (pml3Index physicalAddress, pml2Index physicalAddress)
      if Epde2mb.largePage.get (eptPageTable.pml2 pml2) ≠ 0 then (some (.pml2 pml2), true)
      else
        let pml1 := os.mmGetVirtualForPhysical
          (Epde.pageFrameNumber.get (eptPageTable.pml2 pml2) * pageSize)
        if pml1 = null then (none, isLargePage)
        else (some (.pml1 ⟨pml1, pml1Index physicalAddress⟩), false)

def getHookedPage (guestVirtualAddress : Word) (m : Machine Caller) : Option Pvoid :=
  m.ept.hookedPages.find? fun hookedEntry =>
    (m.detail hookedEntry).virtualAddress = pageAlign guestVirtualAddress

def isHookExists (guestVirtualAddress : Word) (m : Machine Caller) : Bool :=
  (m.getHookedPage (pageAlign guestVirtualAddress)).isSome

end Machine

def eptPageRead : BitVec 8 := 1
def eptPageWrite : BitVec 8 := 2
def eptPageExecute : BitVec 8 := 4

def eptMaxPagePermissions : BitVec 8 := 7

/-- The permissions that pass the checks of `NovaDeviceControl`. -/
def permissionsAccepted (permissions : BitVec 8) : Bool :=
  !(permissions = 0 || permissions > eptMaxPagePermissions ||
    permissions &&& eptPageWrite ≠ 0 && permissions &&& eptPageRead = 0)

/-- A leaf with the permissions stored in its three one-bit fields. -/
def changeAccess (flags : Word) (permissions : BitVec 8) : Word :=
  let changedEntry := Epte.readAccess.set flags ((permissions &&& eptPageRead).setWidth 64)
  let changedEntry :=
    Epte.writeAccess.set changedEntry ((permissions &&& eptPageWrite).setWidth 64)
  Epte.executeAccess.set changedEntry ((permissions &&& eptPageExecute).setWidth 64)

/-- Where `RootModePageHook` stands before it allocates the record. -/
inductive HookPreparation where
  | done (status : Bool)
  | ready (targetBuffer : Pvoid) (pml1Entry : PeptPml1Entry) (changedEntry : Word)

namespace Machine

variable {Caller : Type*} [DecidableEq Caller]

/-- `RootModePageHook` up to the allocation of the record. -/
def prepareHook (os : Os) (targetFunc : Pvoid) (permissions : BitVec 8) (m : Machine Caller) :
    Option (HookPreparation × Machine Caller) :=
  if m.guest.isOnVmxRoot ∧ ¬ m.guest.isLaunched then some (.done false, m)
  else if permissions &&& eptPageWrite ≠ 0 ∧ permissions &&& eptPageRead = 0 then
    some (.done false, m)
  else
    let virtualFuncAddress := pageAlign targetFunc
    if m.isHookExists virtualFuncAddress then some (.done true, m)
    else
      let physicalFuncAddress := os.mmGetPhysicalAddress virtualFuncAddress
      if physicalFuncAddress = 0 then some (.done false, m)
      else
        match m.allocate os .split2mbPagingTo4kbPage with
        | (none, m) => some (.done false, m)
        | (some targetBuffer, m) =>
          match m.splitLargePage os targetBuffer physicalFuncAddress with
          | none => none
          | some (false, m) =>
            some (.done false, m.free os targetBuffer .split2mbPagingTo4kbPage)
          | some (true, m) =>
            (m.getPml1Entry os physicalFuncAddress).map fun pml1Entry =>
              match pml1Entry with
              | none => (.done false, m.free os targetBuffer .split2mbPagingTo4kbPage)
              | some pml1Entry =>
                (.ready targetBuffer pml1Entry (changeAccess (m.pml1 pml1Entry) permissions), m)

/-- What `RootModePageHook` writes to the record. -/
def hookRecord (os : Os) (targetFunc : Pvoid) (pml1Entry : PeptPml1Entry)
    (originalEntry changedEntry : Word) : EptHookedPageDetail :=
  let virtualFuncAddress := pageAlign targetFunc
  let physicalFuncAddress := os.mmGetPhysicalAddress virtualFuncAddress
  { virtualAddress := virtualFuncAddress
    physicalAddress := physicalFuncAddress
    physicalBaseAddress := pageAlign physicalFuncAddress
    entryAddress := pml1Entry
    originalEntry := originalEntry
    changedEntry := changedEntry
    isExecutionHook := false }

/-- Fill a record and put it at the head of the list. -/
def addRecord (hookedEntry : Pvoid) (d : EptHookedPageDetail) (m : Machine Caller) :
    Machine Caller :=
  { m.setBuffer hookedEntry { m.buffer hookedEntry with detail := d } with
    ept := { m.ept with hookedPages := hookedEntry :: m.ept.hookedPages } }

/-- The end of `RootModePageHook`, with a record. -/
def installHook (os : Os) (targetFunc : Pvoid) (pml1Entry : PeptPml1Entry) (changedEntry : Word)
    (hookedEntry : Pvoid) (m : Machine Caller) : Machine Caller :=
  (m.addRecord hookedEntry
    (hookRecord os targetFunc pml1Entry (m.pml1 pml1Entry) changedEntry)).setPml1
      pml1Entry changedEntry

def rootModePageHook (os : Os) (targetFunc : Pvoid) (permissions : BitVec 8)
    (m : Machine Caller) : Option (Bool × Machine Caller) :=
  (m.prepareHook os targetFunc permissions).map fun
    | (.done status, m) => (status, m)
    | (.ready targetBuffer pml1Entry changedEntry, m) =>
      match m.allocate os .eptHookPage with
      | (none, m) => (false, m.free os targetBuffer .split2mbPagingTo4kbPage)
      | (some hookedEntry, m) =>
        (true, m.installHook os targetFunc pml1Entry changedEntry hookedEntry)

/-- Restore a record's leaf, take the record out of the list and free it. -/
def releaseHook (os : Os) (hookedEntry : Pvoid) (m : Machine Caller) : Machine Caller :=
  let m := m.setPml1 (m.detail hookedEntry).entryAddress (m.detail hookedEntry).originalEntry
  let m := { m with ept := { m.ept with
    hookedPages := m.ept.hookedPages.erase hookedEntry } }
  m.free os hookedEntry .eptHookPage

def pageUnhookVmcall (os : Os) (guestVirtualAddress : Word) (m : Machine Caller) :
    Bool × Machine Caller :=
  if ¬ m.guest.isOnVmxRoot then (false, m)
  else
    match m.getHookedPage guestVirtualAddress with
    | none => (false, m)
    | some hookedEntry => (true, m.releaseHook os hookedEntry)

def unhookAllPagesVmcall (os : Os) (m : Machine Caller) : Bool × Machine Caller :=
  if ¬ m.guest.isOnVmxRoot then (false, m)
  else (true, m.ept.hookedPages.foldl (fun m hookedEntry => m.releaseHook os hookedEntry) m)

end Machine

end NovaHypervisor

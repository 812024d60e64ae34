import NovaHypervisor.GrantedTables
import NovaHypervisor.SplitLargePage

/-!
Which entry of the table the lookups find. An entry covers the page of its place in the
table, and the lookups index the table by bits 12 to 38 of the address. They reject by bits
39 to 47 only, so an address above all of these is taken for one below 512GB.
-/
namespace NovaHypervisor

open General

/-- The address is in the page of a number. -/
def InPage (size number : ℕ) (address : Word) : Prop :=
  number * size ≤ address.toNat ∧ address.toNat < (number + 1) * size

/-- A large entry covers its 2MB page, and an entry of the table behind a split one a 4KB page. -/
def PmlEntry.Covers (os : Os) (pageTable : VmmEptPageTable) (address : Word) : PmlEntry → Prop
  | .pml2 e => ¬ IsSplit pageTable e ∧ InPage (2 ^ 21) (pml2Number e) address
  | .pml1 entry => ∃ e, IsSplit pageTable e ∧ entry.table = tableOf os pageTable e ∧
      InPage (2 ^ 12) (pml2Number e * 512 + entry.index) address

def PmlEntry.isLargePage : PmlEntry → Bool
  | .pml1 _ => false
  | .pml2 _ => true

/-- The range of `GetPml2Entry`: null from 512GB on, and below it the entry of the page. -/
structure Pml2Lookup (a : Word) : Prop where
  null : Ept.getPml2Entry a = none ↔ 2 ^ 39 ≤ a.toNat
  covers : a.toNat < 2 ^ 39 → ∃ e, Ept.getPml2Entry a = some e ∧
    ∀ f, InPage (2 ^ 21) (pml2Number f) a ↔ f = e
  distinct : ∀ b : Word, a.toNat < 2 ^ 39 → b.toNat < 2 ^ 39 →
    ¬ SameRegion a b → Ept.getPml2Entry a ≠ Ept.getPml2Entry b

namespace Machine

variable {Caller : Type*}

def returnedEntry (os : Os) (physicalAddress : Word) (isLargePage : Bool) (m : Machine Caller) :
    Option (Option PmlEntry) :=
  (m.getPml1OrPml2Entry os physicalAddress isLargePage).map Prod.fst

/-- The range of `GetPml1OrPml2Entry`, whatever its flag was before. -/
structure Pml1OrPml2Lookup (os : Os) (pageTable : VmmEptPageTable) (m : Machine Caller)
    (a : Word) : Prop where
  null : ∀ isLargePage, m.returnedEntry os a isLargePage = some none ↔ 2 ^ 39 ≤ a.toNat
  covers : a.toNat < 2 ^ 39 → ∃ entry,
    (∀ isLargePage,
      m.getPml1OrPml2Entry os a isLargePage = some (some entry, entry.isLargePage)) ∧
    ∀ other : PmlEntry, other.Covers os pageTable a ↔ other = entry
  distinct : ∀ b : Word, a.toNat < 2 ^ 39 → b.toNat < 2 ^ 39 →
    ¬ SameRegion a b → ∀ isLargePage,
      m.returnedEntry os a isLargePage ≠ m.returnedEntry os b isLargePage

/-- The range of both lookups in a state whose table is built. -/
def EntryLookup (os : Os) (m : Machine Caller) (a : Word) : Prop :=
  Pml2Lookup a ∧ ∃ pageTable, m.ept.eptPageTable = some pageTable ∧
    m.Pml1OrPml2Lookup os pageTable a

/-- The table behind a split entry is also behind another one. -/
def SharesTable (os : Os) (m : Machine Caller) (e : PeptPml2Entry) : Prop :=
  ∃ pageTable, m.ept.eptPageTable = some pageTable ∧ IsSplit pageTable e ∧
    ∃ f, f ≠ e ∧ IsSplit pageTable f ∧ tableOf os pageTable f = tableOf os pageTable e

end Machine

theorem inPage_iff {size : ℕ} (hsize : 0 < size) (number : ℕ) (a : Word) :
    InPage size number a ↔ a.toNat / size = number := by
  rw [InPage, Nat.div_eq_iff hsize]
  constructor
  · intro h
    rw [Nat.add_mul] at h
    omega
  · intro h
    rw [Nat.add_mul]
    omega

theorem inPage_pml2_iff {a : Word} (h : a.toNat < 2 ^ 39) (e : PeptPml2Entry) :
    InPage (2 ^ 21) (pml2Number e) a ↔ e = pml2Key a := by
  rw [inPage_iff (Nat.two_pow_pos 21), ← pml2Number_pml2Key h]
  constructor
  · intro heq
    exact (pml2Number_injective heq).symm
  · rintro rfl
    rfl

/-- A 4KB page has one place in the table. -/
theorem inPage_pml1_iff {a : Word} (h : a.toNat < 2 ^ 39) (e : PeptPml2Entry) (i : Fin 512) :
    InPage (2 ^ 12) (pml2Number e * 512 + i) a ↔ e = pml2Key a ∧ i = pml1Index a := by
  rw [inPage_iff (Nat.two_pow_pos 12)]
  have hframe := frame_eq h
  constructor
  · intro heq
    have hnumber : pml2Number e = pml2Number (pml2Key a) := by omega
    exact ⟨pml2Number_injective hnumber, by omega⟩
  · rintro ⟨rfl, rfl⟩
    omega

/-- The address is below 512GB, or one of the bits that are checked is set. -/
def Checked (a : Word) : Prop := a.toNat < 2 ^ 39 ∨ a.toNat / 2 ^ 39 % 512 ≠ 0

/-- The PML2 lookup needs nothing of the state. -/
theorem pml2Lookup_iff (a : Word) : Pml2Lookup a ↔ Checked a := by
  constructor
  · intro h
    by_contra hnot
    obtain ⟨hhigh, hindex⟩ := not_or.mp hnot
    have hnone := h.null.mpr (Nat.not_lt.mp hhigh)
    rw [Ept.getPml2Entry, if_neg (mt (pml4Index_pos_iff_div a).mp hindex)] at hnone
    exact Option.some_ne_none _ hnone
  · intro h
    by_cases hlow : a.toNat < 2 ^ 39
    · refine ⟨?_, ?_, ?_⟩
      · rw [getPml2Entry_of_lt hlow]
        exact iff_of_false (Option.some_ne_none _) (by omega)
      · intro _
        exact ⟨_, getPml2Entry_of_lt hlow, inPage_pml2_iff hlow⟩
      · intro b _ hb hne heq
        rw [getPml2Entry_of_lt hlow, getPml2Entry_of_lt hb] at heq
        exact hne ((pml2Key_eq_iff hlow hb).mp (Option.some.inj heq))
    · have hindex := h.resolve_left hlow
      have hnone : Ept.getPml2Entry a = none := by
        rw [Ept.getPml2Entry, if_pos ((pml4Index_pos_iff_div a).mpr hindex)]
      exact ⟨iff_of_true hnone (Nat.not_lt.mp hlow), fun h => absurd h hlow,
        fun b h => absurd h hlow⟩

namespace Machine

variable {Caller : Type*} {os : Os} {pageTable : VmmEptPageTable} {m : Machine Caller} {a : Word}

theorem getPml1OrPml2Entry_of_index (h : addrmaskEptPml4Index a > 0) (isLargePage : Bool) :
    m.getPml1OrPml2Entry os a isLargePage = some (none, isLargePage) := by
  rw [getPml1OrPml2Entry, if_pos h]

theorem getPml1OrPml2Entry_of_large (hindex : ¬ addrmaskEptPml4Index a > 0)
    (htable : m.ept.eptPageTable = some pageTable) (hlarge : ¬ IsSplit pageTable (pml2Key a))
    (isLargePage : Bool) :
    m.getPml1OrPml2Entry os a isLargePage = some (some (.pml2 (pml2Key a)), true) := by
  rw [getPml1OrPml2Entry, if_neg hindex, htable, Option.map_some]
  exact congrArg some (if_pos hlarge)

theorem getPml1OrPml2Entry_of_split (hindex : ¬ addrmaskEptPml4Index a > 0)
    (htable : m.ept.eptPageTable = some pageTable) (hsplit : IsSplit pageTable (pml2Key a))
    (hgrants : os.grants .split2mbPagingTo4kbPage (tableOf os pageTable (pml2Key a)) = true)
    (isLargePage : Bool) :
    m.getPml1OrPml2Entry os a isLargePage =
      some (some (.pml1 (leafPointer os pageTable a)), false) := by
  have hnull : tableOf os pageTable (pml2Key a) ≠ null := os.grants_nonnull _ _ hgrants
  rw [getPml1OrPml2Entry, if_neg hindex, htable, Option.map_some]
  exact congrArg some ((if_neg (not_not_intro hsplit)).trans (if_neg hnull))

/-- The entry that a walk of the table ends at. -/
def leafEntry (os : Os) (pageTable : VmmEptPageTable) (a : Word) : PmlEntry :=
  if IsSplit pageTable (pml2Key a) then .pml1 (leafPointer os pageTable a) else .pml2 (pml2Key a)

theorem leafEntry_of_split (h : IsSplit pageTable (pml2Key a)) :
    leafEntry os pageTable a = .pml1 (leafPointer os pageTable a) := if_pos h

theorem leafEntry_of_large (h : ¬ IsSplit pageTable (pml2Key a)) :
    leafEntry os pageTable a = .pml2 (pml2Key a) := if_neg h

/-- Below 512GB this is the only entry that covers the address. -/
theorem covers_iff_leafEntry (ha : a.toNat < 2 ^ 39) (other : PmlEntry) :
    other.Covers os pageTable a ↔ other = leafEntry os pageTable a := by
  by_cases hsplit : IsSplit pageTable (pml2Key a)
  · rw [leafEntry_of_split hsplit]
    cases other with
    | pml1 entry =>
      obtain ⟨table, index⟩ := entry
      constructor
      · rintro ⟨e, _, htable, hpage⟩
        obtain ⟨rfl, hindex⟩ := (inPage_pml1_iff ha e index).mp hpage
        exact congrArg PmlEntry.pml1 (congrArg₂ PeptPml1Entry.mk htable hindex)
      · intro heq
        obtain ⟨htable, hindex⟩ := PeptPml1Entry.mk.inj (PmlEntry.pml1.inj heq)
        exact ⟨pml2Key a, hsplit, htable, (inPage_pml1_iff ha _ index).mpr ⟨rfl, hindex⟩⟩
    | pml2 e =>
      refine iff_of_false ?_ (by simp)
      rintro ⟨hlarge, hpage⟩
      exact hlarge ((inPage_pml2_iff ha e).mp hpage ▸ hsplit)
  · rw [leafEntry_of_large hsplit]
    cases other with
    | pml1 entry =>
      refine iff_of_false ?_ (by simp)
      rintro ⟨e, he, _, hpage⟩
      exact hsplit (((inPage_pml1_iff ha e entry.index).mp hpage).1 ▸ he)
    | pml2 e =>
      rw [PmlEntry.Covers, inPage_pml2_iff ha, PmlEntry.pml2.injEq]
      constructor
      · exact fun h => h.2
      · rintro rfl
        exact ⟨hsplit, rfl⟩

/-- Two regions have one leaf only if they have one table. -/
theorem sharesTable_of_leafEntry (htable : m.ept.eptPageTable = some pageTable) {b : Word}
    (ha : a.toNat < 2 ^ 39) (hb : b.toNat < 2 ^ 39) (hne : ¬ SameRegion a b)
    (heq : leafEntry os pageTable a = leafEntry os pageTable b) : m.SharesTable os (pml2Key a) := by
  have hkey : pml2Key b ≠ pml2Key a := fun h => hne ((pml2Key_eq_iff ha hb).mp h.symm)
  by_cases hsplit : IsSplit pageTable (pml2Key a)
  · rw [leafEntry_of_split hsplit] at heq
    by_cases hsplit' : IsSplit pageTable (pml2Key b)
    · rw [leafEntry_of_split hsplit'] at heq
      obtain ⟨hsame, _⟩ := PeptPml1Entry.mk.inj (PmlEntry.pml1.inj heq)
      exact ⟨pageTable, htable, hsplit, pml2Key b, hkey, hsplit', hsame.symm⟩
    · rw [leafEntry_of_large hsplit'] at heq
      exact absurd heq (by simp)
  · rw [leafEntry_of_large hsplit] at heq
    by_cases hsplit' : IsSplit pageTable (pml2Key b)
    · rw [leafEntry_of_split hsplit'] at heq
      exact absurd heq (by simp)
    · rw [leafEntry_of_large hsplit'] at heq
      exact absurd (PmlEntry.pml2.inj heq).symm hkey

/-- One table for two regions makes one leaf for two pages. -/
theorem exists_leafEntry_of_sharesTable (htable : m.ept.eptPageTable = some pageTable)
    (ha : a.toNat < 2 ^ 39) (h : m.SharesTable os (pml2Key a)) :
    ∃ b : Word, b.toNat < 2 ^ 39 ∧ ¬ SameRegion a b ∧
      leafEntry os pageTable b = leafEntry os pageTable a := by
  obtain ⟨pageTable', htable', hsplit, f, hf, hfsplit, hsame⟩ := h
  obtain rfl : pageTable' = pageTable := Option.some.inj (htable'.symm.trans htable)
  have hnumber := pml2Number_lt f
  have hindex := (pml1Index a).isLt
  obtain ⟨b, hb⟩ : ∃ b : Word, b.toNat = (pml2Number f * 512 + pml1Index a) * 4096 := by
    refine ⟨BitVec.ofNat 64 ((pml2Number f * 512 + pml1Index a) * 4096), ?_⟩
    rw [BitVec.toNat_ofNat, Nat.mod_eq_of_lt (by omega)]
  have hlow : b.toNat < 2 ^ 39 := by omega
  have hpage : InPage (2 ^ 12) (pml2Number f * 512 + pml1Index a) b := by
    rw [inPage_iff (Nat.two_pow_pos 12)]
    omega
  obtain ⟨rfl, hindex'⟩ := (inPage_pml1_iff hlow f (pml1Index a)).mp hpage
  refine ⟨b, hlow, fun h => hf ((pml2Key_eq_iff ha hlow).mpr h).symm, ?_⟩
  rw [leafEntry_of_split hsplit, leafEntry_of_split hfsplit]
  exact congrArg PmlEntry.pml1 (congrArg₂ PeptPml1Entry.mk hsame hindex'.symm)

section Granted

variable (htable : m.ept.eptPageTable = some pageTable)
  (hgrants : ∀ e, IsSplit pageTable e →
    os.grants .split2mbPagingTo4kbPage (tableOf os pageTable e) = true)
include htable hgrants

/-- The lookup finds the entry of the index bits. -/
theorem getPml1OrPml2Entry_eq (hindex : ¬ addrmaskEptPml4Index a > 0) (isLargePage : Bool) :
    m.getPml1OrPml2Entry os a isLargePage =
      some (some (leafEntry os pageTable a), (leafEntry os pageTable a).isLargePage) := by
  by_cases hsplit : IsSplit pageTable (pml2Key a)
  · rw [leafEntry_of_split hsplit]
    exact getPml1OrPml2Entry_of_split hindex htable hsplit (hgrants _ hsplit) isLargePage
  · rw [leafEntry_of_large hsplit]
    exact getPml1OrPml2Entry_of_large hindex htable hsplit isLargePage

theorem returnedEntry_eq (hindex : ¬ addrmaskEptPml4Index a > 0) (isLargePage : Bool) :
    m.returnedEntry os a isLargePage = some (some (leafEntry os pageTable a)) := by
  rw [returnedEntry, getPml1OrPml2Entry_eq htable hgrants hindex]
  rfl

theorem returnedEntry_of_lt (ha : a.toNat < 2 ^ 39) (isLargePage : Bool) :
    m.returnedEntry os a isLargePage = some (some (leafEntry os pageTable a)) :=
  returnedEntry_eq htable hgrants (not_pml4Index_pos ha) isLargePage

/-- Below 512GB only a table in common spoils the range. -/
theorem pml1OrPml2Lookup_of_lt (ha : a.toNat < 2 ^ 39)
    (hshares : ¬ m.SharesTable os (pml2Key a)) : m.Pml1OrPml2Lookup os pageTable a := by
  refine ⟨?_, ?_, ?_⟩
  · intro isLargePage
    rw [returnedEntry_of_lt htable hgrants ha]
    exact iff_of_false (by simp) (by omega)
  · intro _
    exact ⟨leafEntry os pageTable a,
      getPml1OrPml2Entry_eq htable hgrants (not_pml4Index_pos ha), covers_iff_leafEntry ha⟩
  · intro b _ hb hne isLargePage heq
    rw [returnedEntry_of_lt htable hgrants ha, returnedEntry_of_lt htable hgrants hb] at heq
    have hleaf := Option.some.inj (Option.some.inj heq)
    exact hshares (sharesTable_of_leafEntry htable ha hb hne hleaf)

/-- The lookup has its range unless the address passes the check from above or two split
entries share a table. -/
theorem pml1OrPml2Lookup_iff :
    m.Pml1OrPml2Lookup os pageTable a ↔
      Checked a ∧ (a.toNat < 2 ^ 39 → ¬ m.SharesTable os (pml2Key a)) := by
  constructor
  · intro h
    refine ⟨?_, ?_⟩
    · by_contra hnot
      obtain ⟨hhigh, hindex⟩ := not_or.mp hnot
      have hnone := (h.null false).mpr (Nat.not_lt.mp hhigh)
      rw [returnedEntry_eq htable hgrants (mt (pml4Index_pos_iff_div a).mp hindex)] at hnone
      exact absurd hnone (by simp)
    · intro ha hshares
      obtain ⟨b, hb, hne, hleaf⟩ := exists_leafEntry_of_sharesTable htable ha hshares
      apply h.distinct b ha hb hne false
      rw [returnedEntry_of_lt htable hgrants ha, returnedEntry_of_lt htable hgrants hb, hleaf]
  · rintro ⟨hchecked, hshares⟩
    by_cases ha : a.toNat < 2 ^ 39
    · exact pml1OrPml2Lookup_of_lt htable hgrants ha (hshares ha)
    · have hindex := (pml4Index_pos_iff_div a).mpr (hchecked.resolve_left ha)
      refine ⟨?_, fun h => absurd h ha, fun b h => absurd h ha⟩
      intro isLargePage
      rw [returnedEntry, getPml1OrPml2Entry_of_index hindex]
      exact iff_of_true rfl (Nat.not_lt.mp ha)

end Granted

/-- The frame of a 4KB page, as the entry has it. -/
def entryFrame (pageTable : VmmEptPageTable) (m : Machine Caller) (address : Word) :
    PmlEntry → ℕ
  | .pml1 entry => (Epte.pageFrameNumber.get (m.pml1 entry)).toNat
  | .pml2 e => (Epde2mb.pageFrameNumber.get (pageTable.pml2 e)).toNat * 512 + pml1Index address

/-- The processor's walk ends at the entry that is looked up. -/
theorem translate_frame (os : Os) (pageTable : VmmEptPageTable) (m : Machine Caller) (a : Word) :
    (m.translate os pageTable a).frame =
      m.entryFrame pageTable a (leafEntry os pageTable a) := by
  rw [translate]
  by_cases hsplit : IsSplit pageTable (pml2Key a)
  · rw [walk_of_split hsplit, leafEntry_of_split hsplit]
    rfl
  · rw [walk_of_large hsplit, leafEntry_of_large hsplit]
    rfl

/-- The entry that is found below 512GB holds the frame of the address. -/
def FrameFound (os : Os) (m : Machine Caller) (a : Word) : Prop :=
  a.toNat < 2 ^ 39 → ∃ pageTable entry, m.ept.eptPageTable = some pageTable ∧
    (∀ isLargePage, m.returnedEntry os a isLargePage = some (some entry)) ∧
      m.entryFrame pageTable a entry = a.toNat / 4096

variable [DecidableEq Caller]

theorem entryLookup_of_run {kernelBaseInfo : KernelBaseInfo} {m' : Machine Caller}
    {actions : List (ExitAction Caller)} (hstart : Started os pageTable m)
    (hrun : Run (exitStep os kernelBaseInfo) m actions m') (a : Word) :
    m'.EntryLookup os a ↔
      Checked a ∧ (a.toNat < 2 ^ 39 → ¬ m'.SharesTable os (pml2Key a)) := by
  obtain ⟨_, pageTable', htable, hgrants⟩ := tables_of_run hstart hrun
  constructor
  · rintro ⟨_, pageTable'', htable', hlookup⟩
    obtain rfl : pageTable'' = pageTable' := Option.some.inj (htable'.symm.trans htable)
    exact (pml1OrPml2Lookup_iff htable hgrants).mp hlookup
  · intro h
    exact ⟨(pml2Lookup_iff a).mpr h.1, pageTable', htable,
      (pml1OrPml2Lookup_iff htable hgrants).mpr h⟩

namespace Coherent

/-- In a state that keeps the law no table is shared. -/
theorem not_sharesTable (h : m.Coherent os pageTable) (e : PeptPml2Entry) :
    ¬ m.SharesTable os e := by
  rintro ⟨pageTable', htable, hsplit, f, hf, hfsplit, hsame⟩
  obtain rfl : pageTable' = pageTable := Option.some.inj (htable.symm.trans h.pageTable_eq)
  exact hf (h.distinct f e hfsplit hsplit hsame)

theorem granted_table (h : m.Coherent os pageTable) {e : PeptPml2Entry}
    (he : IsSplit pageTable e) :
    os.grants .split2mbPagingTo4kbPage (tableOf os pageTable e) = true :=
  (h.owned_table he).granted h.safe

theorem frameFound (h : m.Coherent os pageTable) (a : Word) : m.FrameFound os a := by
  intro ha
  refine ⟨pageTable, leafEntry os pageTable a, h.pageTable_eq, ?_, ?_⟩
  · intro isLargePage
    exact returnedEntry_of_lt h.pageTable_eq (fun e he => h.granted_table he) ha isLargePage
  · rw [← translate_frame, translate, h.walk_frame ha]

theorem entryLookup_iff_checked (h : m.Coherent os pageTable) (a : Word) :
    m.EntryLookup os a ↔ Checked a := by
  have hiff := pml1OrPml2Lookup_iff (a := a) h.pageTable_eq fun e he => h.granted_table he
  constructor
  · intro hlookup
    exact (pml2Lookup_iff a).mp hlookup.1
  · intro hchecked
    exact ⟨(pml2Lookup_iff a).mpr hchecked, pageTable, h.pageTable_eq,
      hiff.mpr ⟨hchecked, fun _ => h.not_sharesTable _⟩⟩

end Coherent

/-- In every state that exits reach, the lookups of an address have their range exactly if
it is below 512GB or rejected by the bits that are checked, and its region has no table in
common with another one. As long as no hook was denied its record no table is shared, and
what is found holds the frame of the address. -/
theorem entryLookup_iff (hstart : Started os pageTable m) (a : Word) :
    (∀ kernelBaseInfo actions m', Run (exitStep os kernelBaseInfo) m actions m' →
      (m'.EntryLookup os a ↔
        Checked a ∧ (a.toNat < 2 ^ 39 → ¬ m'.SharesTable os (pml2Key a)))) ∧
    (∀ actions m', GuardedRun (hookStep os) (NotDenied os) m actions m' →
      (m'.EntryLookup os a ∧ m'.FrameFound os a ↔ Checked a)) := by
  refine ⟨fun _ _ _ hrun => entryLookup_of_run hstart hrun a, ?_⟩
  intro actions m' hrun
  obtain ⟨_, h⟩ := coherent_of_run hstart hrun
  rw [h.entryLookup_iff_checked a]
  exact and_iff_left (h.frameFound a)

/-- One 4KB page is hooked, and the 2MB page next to it is looked up; before the hook its
frame is found. -/
theorem entryLookup_iff_hook : (execute (exitStep flatOs flatKernel) (flatMachine 1 1)
    [.exit (.vmcall 3 0x200000#64 1)]).EntryLookup flatOs 0x400000#64 ∧
      (flatMachine 1 1).FrameFound flatOs 0x400000#64 := by
  obtain ⟨hexits, hhooks⟩ := entryLookup_iff (flatMachine_started 1 1) 0x400000#64
  obtain ⟨actions, hrun⟩ := exists_run_execute (exitStep flatOs flatKernel) (flatMachine 1 1)
    [.exit (.vmcall 3 0x200000#64 1)]
  refine ⟨(hexits _ _ _ hrun).mpr ⟨Or.inl (by decide), ?_⟩,
    ((hhooks [] _ (GuardedRun.nil _)).mpr (Or.inl (by decide))).2⟩
  rintro _ ⟨pageTable, htable, hsplit, _⟩
  have hlarge : ((execute (exitStep flatOs flatKernel) (flatMachine 1 1)
      [.exit (.vmcall 3 0x200000#64 1)]).ept.eptPageTable.map fun pageTable =>
        decide (IsSplit pageTable (pml2Key 0x400000#64))) = some false := by decide +kernel
  rw [htable] at hlarge
  exact of_decide_eq_false (Option.some.inj hlarge) hsplit

/-- An address with bit 48 set is taken for the one without it. -/
theorem not_entryLookup_bit48 :
    ¬ (flatMachine 1 1).EntryLookup flatOs 0x1000000200000#64 := by
  rintro ⟨hlookup, _⟩
  have hnull := hlookup.null.mpr (by decide)
  exact absurd hnull (by decide)

end Machine

end NovaHypervisor

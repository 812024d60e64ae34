import NovaHypervisor.HookRuns

/-!
Several virtual pages of one physical page. A record saves the leaf that it finds,
which may be another record's changed entry, and its unhook puts that back. The
leaf of a page stays one of its records' as long as an unhook that leaves other
records behind takes out neither the first record of the page, whose saved entry
is the open one, nor one whose saved entry none of them wants.
-/
namespace NovaHypervisor

open General

/-- The rights of an entry that nothing protects. -/
structure FullAccess (flags : Word) : Prop where
  read : Epte.readAccess.get flags = 1
  write : Epte.writeAccess.get flags = 1
  execute : Epte.executeAccess.get flags = 1

/-- A leaf without the rights that no changed entry ever has. -/
structure ReadOnly (flags : Word) : Prop where
  write : Epte.writeAccess.get flags = 0
  execute : Epte.executeAccess.get flags = 0

theorem ReadOnly.not_full {flags : Word} (h : ReadOnly flags) : ¬ FullAccess flags := by
  intro hfull
  have hwrite := h.write.symm.trans hfull.write
  exact absurd hwrite (by decide)

/-- The bits above the three rights. -/
def SameHigh (x y : Word) : Prop := ∀ i, 3 ≤ i → x.getLsbD i = y.getLsbD i

theorem SameHigh.trans {x y z : Word} (h : SameHigh x y) (h' : SameHigh y z) : SameHigh x z :=
  fun i hi => (h i hi).trans (h' i hi)

theorem SameHigh.symm {x y : Word} (h : SameHigh x y) : SameHigh y x := fun i hi => (h i hi).symm

/-- Two read-only leaves that agree above the rights differ in the read right at most. -/
theorem eq_of_readOnly {x y : Word} (hx : ReadOnly x) (hy : ReadOnly y)
    (hread : Epte.readAccess.get x = Epte.readAccess.get y) (hhigh : SameHigh x y) : x = y := by
  have hbit : ∀ f : BitField 64, f.width = 1 → f.get x = f.get y →
      x.getLsbD f.offset = y.getLsbD f.offset := by
    intro f hf hget
    have hlow : (f.get x).getLsbD 0 = (f.get y).getLsbD 0 := by rw [hget]
    rw [BitField.getLsbD_get, BitField.getLsbD_get, hf] at hlow
    simpa using hlow
  apply BitVec.eq_of_getLsbD_eq
  intro i _
  by_cases hi : 3 ≤ i
  · exact hhigh i hi
  · have hcases : i = 0 ∨ i = 1 ∨ i = 2 := by omega
    rcases hcases with rfl | rfl | rfl
    · exact hbit Epte.readAccess rfl hread
    · exact hbit Epte.writeAccess rfl (hx.write.trans hy.write.symm)
    · exact hbit Epte.executeAccess rfl (hx.execute.trans hy.execute.symm)

theorem changeAccess_readOnly (flags : Word) (permissions : BitVec 8) :
    ReadOnly (changeAccess flags permissions) :=
  ⟨(changeAccess_access flags permissions).2.1, (changeAccess_access flags permissions).2.2⟩

namespace Machine

variable {Caller : Type*} [DecidableEq Caller]

/-- The record is about the physical page of the address. -/
def About (m : Machine Caller) (r : Pvoid) (x : Word) : Prop :=
  (m.detail r).physicalAddress.toNat / 4096 = x.toNat / 4096

instance (m : Machine Caller) (r : Pvoid) (x : Word) : Decidable (m.About r x) :=
  inferInstanceAs (Decidable (_ = _))

/-- The other records of the physical page of a record. -/
def aliases (m : Machine Caller) (r : Pvoid) : List Pvoid :=
  m.ept.hookedPages.filter fun q => q ≠ r ∧ m.About q (m.detail r).physicalAddress

/-- The leaf of a page with records is the changed entry of one of them, and every other
page grants all three rights. -/
def AliasProtected (os : Os) (m : Machine Caller) : Prop :=
  ∃ pageTable, m.ept.eptPageTable = some pageTable ∧ ∀ x : Word, x.toNat < 2 ^ 39 →
    ((∃ r ∈ m.ept.hookedPages, m.About r x) → IsSplit pageTable (pml2Key x) ∧
      ∃ q ∈ m.ept.hookedPages, m.About q x ∧ m.leaf os pageTable x = (m.detail q).changedEntry) ∧
    ((∀ r ∈ m.ept.hookedPages, ¬ m.About r x) →
      (m.translate os pageTable x).read = 1 ∧ (m.translate os pageTable x).write = 1 ∧
        (m.translate os pageTable x).execute = 1)

/-- A call that returns true. -/
def Succeeds (os : Os) (m : Machine Caller) : HookAction Caller → Prop
  | .hook targetFunc permissions =>
    (m.rootModePageHook os targetFunc permissions).map Prod.fst = some true
  | .unhook guestVirtualAddress => (m.pageUnhookVmcall os guestVirtualAddress).1 = true
  | .unhookAll => False
  | _ => True

/-- If an unhook leaves other records of its page behind, its saved entry has no write
right, and the read right that one of them has. -/
def AliasKept (m : Machine Caller) : HookAction Caller → Prop
  | .unhook guestVirtualAddress =>
    match m.getHookedPage guestVirtualAddress with
    | none => True
    | some r => m.aliases r = [] ∨
        Epte.writeAccess.get (m.detail r).originalEntry = 0 ∧ ∃ q ∈ m.aliases r,
          Epte.readAccess.get (m.detail r).originalEntry =
            Epte.readAccess.get (m.detail q).changedEntry
  | _ => True

instance (os : Os) (m : Machine Caller) :
    (action : HookAction Caller) → Decidable (m.Succeeds os action)
  | .hook _ _ => inferInstanceAs (Decidable (_ = _))
  | .unhook _ => inferInstanceAs (Decidable (_ = _))
  | .unhookAll => inferInstanceAs (Decidable False)
  | .others _ => inferInstanceAs (Decidable True)
  | .guest _ _ => inferInstanceAs (Decidable True)

omit [DecidableEq Caller] in
theorem aliasKept_unhook {m : Machine Caller} {guestVirtualAddress : Word} {r : Pvoid}
    (hfound : m.getHookedPage guestVirtualAddress = some r) :
    m.AliasKept (.unhook guestVirtualAddress) ↔ m.aliases r = [] ∨
      Epte.writeAccess.get (m.detail r).originalEntry = 0 ∧ ∃ q ∈ m.aliases r,
        Epte.readAccess.get (m.detail r).originalEntry =
          Epte.readAccess.get (m.detail q).changedEntry := by
  rw [AliasKept, hfound]

instance (m : Machine Caller) : (action : HookAction Caller) → Decidable (m.AliasKept action)
  | .unhook guestVirtualAddress =>
    match h : m.getHookedPage guestVirtualAddress with
    | none => isTrue (by simp [AliasKept, h])
    | some _ =>
      @decidable_of_iff _ _ (aliasKept_unhook h).symm
        (@instDecidableOr _ _ (inferInstanceAs (Decidable (_ = _)))
          (@instDecidableAnd _ _ (inferInstanceAs (Decidable (_ = _))) (List.decidableBEx _ _)))
  | .hook _ _ => inferInstanceAs (Decidable True)
  | .unhookAll => inferInstanceAs (Decidable True)
  | .others _ => inferInstanceAs (Decidable True)
  | .guest _ _ => inferInstanceAs (Decidable True)

omit [DecidableEq Caller] in
/-- Which page a record is about is read from the record alone. -/
theorem about_congr {m m' : Machine Caller} {r : Pvoid} (h : m'.detail r = m.detail r) (x : Word) :
    m'.About r x ↔ m.About r x := by
  rw [About, About, h]

omit [DecidableEq Caller] in
theorem mem_aliases {m : Machine Caller} {r q : Pvoid} : q ∈ m.aliases r ↔
    q ∈ m.ept.hookedPages ∧ q ≠ r ∧ m.About q (m.detail r).physicalAddress := by
  simp [aliases]

/-- What the records know of their page. -/
structure Aliased (os : Os) (pageTable : VmmEptPageTable) (m : Machine Caller) : Prop where
  coherent : m.Coherent os pageTable
  high : ∀ r ∈ m.ept.hookedPages,
    SameHigh (m.detail r).originalEntry (m.leaf os pageTable (m.detail r).physicalAddress) ∧
      SameHigh (m.detail r).changedEntry (m.leaf os pageTable (m.detail r).physicalAddress)
  changed : ∀ r ∈ m.ept.hookedPages, ReadOnly (m.detail r).changedEntry
  original : ∀ r ∈ m.ept.hookedPages,
    FullAccess (m.detail r).originalEntry ∨ ReadOnly (m.detail r).originalEntry
  first : ∀ r ∈ m.ept.hookedPages, ∃ q ∈ m.ept.hookedPages,
    m.About q (m.detail r).physicalAddress ∧ FullAccess (m.detail q).originalEntry
  kept : ∀ r ∈ m.ept.hookedPages, ∃ q ∈ m.ept.hookedPages,
    m.About q (m.detail r).physicalAddress ∧
      m.leaf os pageTable (m.detail r).physicalAddress = (m.detail q).changedEntry
  free : ∀ x : Word, x.toNat < 2 ^ 39 → (∀ r ∈ m.ept.hookedPages, ¬ m.About r x) →
    (m.translate os pageTable x).read = 1 ∧ (m.translate os pageTable x).write = 1 ∧
      (m.translate os pageTable x).execute = 1

/-- Two addresses below 512GB are on one page when they share the entry and the index. -/
theorem samePage_iff {x y : Word} (hx : x.toNat < 2 ^ 39) (hy : y.toNat < 2 ^ 39) :
    SamePage x y ↔ x.toNat / 4096 = y.toNat / 4096 := by
  constructor
  · intro hsame
    obtain ⟨hkey, hindex⟩ := hsame
    exact frame_injective hx hy hkey hindex
  · intro hframe
    rw [← frame_eq hx, ← frame_eq hy] at hframe
    have hi := (pml1Index x).isLt
    have hj := (pml1Index y).isLt
    refine ⟨pml2Number_injective ?_, Fin.ext ?_⟩
    · omega
    · omega

omit [DecidableEq Caller] in
theorem leaf_congr {os : Os} {pageTable : VmmEptPageTable} (m : Machine Caller) {x y : Word}
    (h : SamePage x y) : m.leaf os pageTable x = m.leaf os pageTable y := by
  obtain ⟨hkey, hindex⟩ := h
  rw [leaf, leaf, leafPointer, leafPointer, hkey, hindex]

/-- In a state that keeps the law, a split page grants what its leaf grants. -/
theorem Coherent.translate_access {os : Os} {pageTable : VmmEptPageTable} {m : Machine Caller}
    (h : m.Coherent os pageTable) {x : Word} (hx : IsSplit pageTable (pml2Key x)) :
    FullAccess (m.leaf os pageTable x) ↔ (m.translate os pageTable x).read = 1 ∧
      (m.translate os pageTable x).write = 1 ∧ (m.translate os pageTable x).execute = 1 := by
  obtain ⟨hread, hwrite, hexecute⟩ := newSplitPtr_access os (tableOf os pageTable (pml2Key x))
  have hone : ∀ f : BitField 64, f.width = 1 → ∀ y, 1 &&& f.get y = f.get y := by
    intro f hf y
    rcases BitField.get_eq_zero_or_one f hf y with hzero | hone
    · rw [hzero]
      decide
    · rw [hone]
      decide
  rw [translate, walk_of_split hx]
  simp only [h.pointer _ hx, hread, hwrite, hexecute, hone Epte.readAccess rfl,
    hone Epte.writeAccess rfl, hone Epte.executeAccess rfl]
  exact ⟨fun hfull => ⟨hfull.read, hfull.write, hfull.execute⟩,
    fun hall => ⟨hall.1, hall.2.1, hall.2.2⟩⟩

namespace Aliased

variable {os : Os} {pageTable : VmmEptPageTable} {m m' : Machine Caller}

theorem extend (h : m.Aliased os pageTable) {pageTable' : VmmEptPageTable}
    (hext : Extends os pageTable m pageTable' m') : m'.Aliased os pageTable' := by
  have hleaf : ∀ r ∈ m.ept.hookedPages, m'.leaf os pageTable' (m.detail r).physicalAddress =
      m.leaf os pageTable (m.detail r).physicalAddress := fun r hr =>
    hext.leaf_eq (h.coherent.record r hr).split
  have habout : ∀ r ∈ m.ept.hookedPages, ∀ x, m'.About r x ↔ m.About r x :=
    fun r hr => about_congr (hext.detail r hr)
  refine ⟨hext.coherent, ?_, ?_, ?_, ?_, ?_, ?_⟩
  · intro r hr
    rw [hext.hookedPages] at hr
    rw [hext.detail r hr, hleaf r hr]
    exact h.high r hr
  · intro r hr
    rw [hext.hookedPages] at hr
    rw [hext.detail r hr]
    exact h.changed r hr
  · intro r hr
    rw [hext.hookedPages] at hr
    rw [hext.detail r hr]
    exact h.original r hr
  · intro r hr
    rw [hext.hookedPages] at hr ⊢
    rw [hext.detail r hr]
    obtain ⟨q, hq, hpage, hfull⟩ := h.first r hr
    refine ⟨q, hq, (habout q hq _).mpr hpage, ?_⟩
    rw [hext.detail q hq]
    exact hfull
  · intro r hr
    rw [hext.hookedPages] at hr ⊢
    rw [hext.detail r hr, hleaf r hr]
    obtain ⟨q, hq, hpage, hchanged⟩ := h.kept r hr
    refine ⟨q, hq, (habout q hq _).mpr hpage, ?_⟩
    rw [hext.detail q hq]
    exact hchanged
  · intro x hx hnone
    rw [hext.hookedPages] at hnone
    obtain ⟨_, hread, hwrite, hexecute⟩ := hext.access x
    rw [hread, hwrite, hexecute]
    exact h.free x hx fun r hr hpage => hnone r hr ((habout r hr x).mpr hpage)

theorem samePage_of_about (h : m.Aliased os pageTable) {q : Pvoid} (hq : q ∈ m.ept.hookedPages)
    {x : Word} (hx : x.toNat < 2 ^ 39) (hpage : m.About q x) :
    SamePage (m.detail q).physicalAddress x :=
  (samePage_iff (h.coherent.record q hq).low hx).mpr hpage

/-- A record of another page keeps its leaf. -/
theorem leaf_other (h : m.Aliased os pageTable) {x value : Word}
    (hset : LeafSet os pageTable x value m m') (hx : x.toNat < 2 ^ 39) {q : Pvoid}
    (hq : q ∈ m.ept.hookedPages) (hpage : ¬ m.About q x) :
    m'.leaf os pageTable (m.detail q).physicalAddress =
      m.leaf os pageTable (m.detail q).physicalAddress := by
  have hrecord := h.coherent.record q hq
  refine hset.other _ hrecord.split ?_
  rw [samePage_iff hrecord.low hx]
  exact hpage

/-- A leaf that keeps its high bits keeps them equal to those of its records' entries. -/
theorem high_leafSet (h : m.Aliased os pageTable) {x value : Word}
    (hset : LeafSet os pageTable x value m m') (hx : x.toNat < 2 ^ 39)
    (hvalue : SameHigh (m.leaf os pageTable x) value) {q : Pvoid} (hq : q ∈ m.ept.hookedPages) :
    SameHigh (m.detail q).originalEntry (m'.leaf os pageTable (m.detail q).physicalAddress) ∧
      SameHigh (m.detail q).changedEntry
        (m'.leaf os pageTable (m.detail q).physicalAddress) := by
  obtain ⟨horiginal, hchanged⟩ := h.high q hq
  by_cases hpage : m.About q x
  · have hsame := h.samePage_of_about hq hx hpage
    rw [leaf_congr m' hsame, hset.leaf]
    rw [leaf_congr m hsame] at horiginal hchanged
    exact ⟨horiginal.trans hvalue, hchanged.trans hvalue⟩
  · rw [h.leaf_other hset hx hq hpage]
    exact ⟨horiginal, hchanged⟩

/-- The leaf that a hook finds: open on a page without records, else a record's. -/
theorem leaf_cases (h : m.Aliased os pageTable) {x : Word} (hx : x.toNat < 2 ^ 39)
    (hsplit : IsSplit pageTable (pml2Key x)) :
    (FullAccess (m.leaf os pageTable x) ∧ ∀ r ∈ m.ept.hookedPages, ¬ m.About r x) ∨
      (ReadOnly (m.leaf os pageTable x) ∧ ∃ r ∈ m.ept.hookedPages, m.About r x ∧
        FullAccess (m.detail r).originalEntry) := by
  by_cases hsome : ∃ r ∈ m.ept.hookedPages, m.About r x
  · obtain ⟨r, hr, hpage⟩ := hsome
    have hsame := h.samePage_of_about hr hx hpage
    obtain ⟨q, hq, _, hleaf⟩ := h.kept r hr
    obtain ⟨p, hp, hfirst, hfull⟩ := h.first r hr
    refine Or.inr ⟨?_, p, hp, hfirst.trans hpage, hfull⟩
    rw [← leaf_congr m hsame, hleaf]
    exact h.changed q hq
  · have hnone : ∀ r ∈ m.ept.hookedPages, ¬ m.About r x := fun r hr hpage => hsome ⟨r, hr, hpage⟩
    exact Or.inl ⟨(h.coherent.translate_access hsplit).mpr (h.free x hx hnone), hnone⟩

section Installed

variable (h : m.Aliased os pageTable) {targetFunc : Pvoid} {permissions : BitVec 8} {r : Pvoid}
  (hlow : (hookAddress os targetFunc).toNat < 2 ^ 39)
  (hwired : IsSplit pageTable (pml2Key (hookAddress os targetFunc)))
  (hinstalled : Installed os targetFunc pageTable
    (changeAccess (m.leaf os pageTable (hookAddress os targetFunc)) permissions) m r m')
include hinstalled

theorem mem_installed (q : Pvoid) :
    q ∈ m'.ept.hookedPages ↔ q = r ∨ q ∈ m.ept.hookedPages := by
  rw [hinstalled.hookedPages, List.mem_cons]

theorem about_installed_self : m'.About r (hookAddress os targetFunc) := by
  rw [About, hinstalled.record]
  rfl

/-- The older records of a page are still there, and say the same. -/
theorem about_installed {p q : Pvoid} (hp : p ∈ m.ept.hookedPages) (hq : q ∈ m.ept.hookedPages)
    (hpage : m.About p (m.detail q).physicalAddress) :
    p ∈ m'.ept.hookedPages ∧ m'.About p (m'.detail q).physicalAddress := by
  refine ⟨(mem_installed hinstalled p).mpr (Or.inr hp), ?_⟩
  rw [about_congr (hinstalled.detail p hp), hinstalled.detail q hq]
  exact hpage

include h hlow

/-- The new record saves the open entry, or an older record of its page has saved it. -/
theorem first_installed (hwired : IsSplit pageTable (pml2Key (hookAddress os targetFunc)))
    {q : Pvoid} (hq : q ∈ m'.ept.hookedPages) : ∃ p ∈ m'.ept.hookedPages,
      m'.About p (m'.detail q).physicalAddress ∧ FullAccess (m'.detail p).originalEntry := by
  rcases (mem_installed hinstalled q).mp hq with rfl | hold
  · rcases h.leaf_cases hlow hwired with ⟨hfull, _⟩ | ⟨_, p, hp, hpage, hfull⟩
    · refine ⟨q, hq, rfl, ?_⟩
      rw [hinstalled.record]
      exact hfull
    · refine ⟨p, (mem_installed hinstalled p).mpr (Or.inr hp), ?_, ?_⟩
      · rw [about_congr (hinstalled.detail p hp), hinstalled.record]
        exact hpage
      · rw [hinstalled.detail p hp]
        exact hfull
  · obtain ⟨p, hp, hpage, hfull⟩ := h.first q hold
    obtain ⟨hp', hpage'⟩ := about_installed hinstalled hp hold hpage
    refine ⟨p, hp', hpage', ?_⟩
    rw [hinstalled.detail p hp]
    exact hfull

/-- The new record's changed entry is the leaf of its page. -/
theorem kept_installed {q : Pvoid} (hq : q ∈ m'.ept.hookedPages) : ∃ p ∈ m'.ept.hookedPages,
    m'.About p (m'.detail q).physicalAddress ∧
      m'.leaf os pageTable (m'.detail q).physicalAddress = (m'.detail p).changedEntry := by
  have hself := about_installed_self hinstalled
  by_cases hpage : m'.About q (hookAddress os targetFunc)
  · have hleafq : m'.leaf os pageTable (m'.detail q).physicalAddress =
        m'.leaf os pageTable (hookAddress os targetFunc) := by
      refine leaf_congr m' ((samePage_iff ?_ hlow).mpr hpage)
      exact (hinstalled.coherent.record q hq).low
    refine ⟨r, (mem_installed hinstalled r).mpr (Or.inl rfl), hself.trans (Eq.symm hpage), ?_⟩
    rw [hleafq, hinstalled.leafSet.leaf, hinstalled.record]
    rfl
  · rcases (mem_installed hinstalled q).mp hq with rfl | hold
    · exact absurd hself hpage
    · rw [about_congr (hinstalled.detail q hold)] at hpage
      obtain ⟨p, hp, hpq, hchanged⟩ := h.kept q hold
      obtain ⟨hp', hpage'⟩ := about_installed hinstalled hp hold hpq
      refine ⟨p, hp', hpage', ?_⟩
      rw [hinstalled.detail q hold, h.leaf_other hinstalled.leafSet hlow hold hpage,
        hinstalled.detail p hp]
      exact hchanged

theorem free_installed {x : Word} (hx : x.toNat < 2 ^ 39)
    (hnone : ∀ q ∈ m'.ept.hookedPages, ¬ m'.About q x) :
    (m'.translate os pageTable x).read = 1 ∧ (m'.translate os pageTable x).write = 1 ∧
      (m'.translate os pageTable x).execute = 1 := by
  have hpage : ¬ SamePage x (hookAddress os targetFunc) := by
    rw [samePage_iff hx hlow]
    intro heq
    exact hnone r ((mem_installed hinstalled r).mpr (Or.inl rfl))
      ((about_installed_self hinstalled).trans heq.symm)
  rw [hinstalled.leafSet.translate_other hpage]
  refine h.free x hx fun q hq hq' => ?_
  exact hnone q ((mem_installed hinstalled q).mpr (Or.inr hq))
    ((about_congr (hinstalled.detail q hq) x).mpr hq')

include hwired

theorem installed : m'.Aliased os pageTable := by
  have hhigh : SameHigh (m.leaf os pageTable (hookAddress os targetFunc))
      (changeAccess (m.leaf os pageTable (hookAddress os targetFunc)) permissions) :=
    fun i hi => (changeAccess_other _ _ hi).symm
  refine ⟨hinstalled.coherent, ?_, ?_, ?_, fun q hq => h.first_installed hlow hinstalled hwired hq,
    fun q hq => h.kept_installed hlow hinstalled hq,
    fun x hx hnone => h.free_installed hlow hinstalled hx hnone⟩
  · intro q hq
    rcases (mem_installed hinstalled q).mp hq with rfl | hq
    · rw [hinstalled.record]
      change SameHigh (m.leaf os pageTable (hookAddress os targetFunc))
        (m'.leaf os pageTable (hookAddress os targetFunc)) ∧ SameHigh (changeAccess _ _)
          (m'.leaf os pageTable (hookAddress os targetFunc))
      rw [hinstalled.leafSet.leaf]
      exact ⟨hhigh, fun i _ => rfl⟩
    · rw [hinstalled.detail q hq]
      exact h.high_leafSet hinstalled.leafSet hlow hhigh hq
  · intro q hq
    rcases (mem_installed hinstalled q).mp hq with rfl | hq
    · rw [hinstalled.record]
      exact changeAccess_readOnly _ _
    · rw [hinstalled.detail q hq]
      exact h.changed q hq
  · intro q hq
    rcases (mem_installed hinstalled q).mp hq with rfl | hq
    · rw [hinstalled.record]
      rcases h.leaf_cases hlow hwired with ⟨hfull, _⟩ | ⟨hread, _⟩
      · exact Or.inl hfull
      · exact Or.inr hread
    · rw [hinstalled.detail q hq]
      exact h.original q hq

end Installed

/-- With an alias left, the entry that a record saved is that of a remaining record. -/
theorem saved_of_alias (h : m.Aliased os pageTable) {r q : Pvoid} (hr : r ∈ m.ept.hookedPages)
    (hkept : m.aliases r = [] ∨ Epte.writeAccess.get (m.detail r).originalEntry = 0 ∧
      ∃ q ∈ m.aliases r, Epte.readAccess.get (m.detail r).originalEntry =
        Epte.readAccess.get (m.detail q).changedEntry)
    (hq : q ∈ m.ept.hookedPages) (hqr : q ≠ r)
    (hpage : m.About q (m.detail r).physicalAddress) :
    ReadOnly (m.detail r).originalEntry ∧ ∃ p ∈ m.ept.hookedPages, p ≠ r ∧
      m.About p (m.detail r).physicalAddress ∧
        (m.detail r).originalEntry = (m.detail p).changedEntry := by
  have hlow := (h.coherent.record r hr).low
  rcases hkept with hnone | ⟨hwrite, p, hp, hread⟩
  · have halias : q ∈ m.aliases r := mem_aliases.mpr ⟨hq, hqr, hpage⟩
    rw [hnone] at halias
    simp at halias
  · obtain ⟨hplist, hpr, hppage⟩ := mem_aliases.mp hp
    have horiginal : ReadOnly (m.detail r).originalEntry := by
      rcases h.original r hr with hfull | hread
      · rw [hfull.write] at hwrite
        exact absurd hwrite (by decide)
      · exact hread
    refine ⟨horiginal, p, hplist, hpr, hppage, ?_⟩
    refine eq_of_readOnly horiginal (h.changed p hplist) hread ((h.high r hr).1.trans ?_)
    rw [← leaf_congr m (h.samePage_of_about hplist hlow hppage)]
    exact (h.high p hplist).2.symm

/-- A page that loses its only record gets the open entry back. -/
theorem free_of_last (h : m.Aliased os pageTable) {r : Pvoid} (hr : r ∈ m.ept.hookedPages)
    (hunhooked : Unhooked os pageTable r m m') {x : Word} (hx : x.toNat < 2 ^ 39)
    (hpage : m.About r x) (honly : ∀ q ∈ m.ept.hookedPages, q ≠ r → ¬ m.About q x) :
    (m'.translate os pageTable x).read = 1 ∧ (m'.translate os pageTable x).write = 1 ∧
      (m'.translate os pageTable x).execute = 1 := by
  have hrecord := h.coherent.record r hr
  have hsame := (samePage_iff hx hrecord.low).mpr hpage.symm
  have hsplit : IsSplit pageTable (pml2Key x) := by
    rw [hsame.1]
    exact hrecord.split
  obtain ⟨p, hp, hppage, hfull⟩ := h.first r hr
  have hpr : p = r := by
    by_contra hne
    exact honly p hp hne (hppage.trans hpage)
  rw [← hunhooked.coherent.translate_access hsplit, leaf_congr m' hsame,
    hunhooked.leafSet.leaf, ← hpr]
  exact hfull

/-- Records stay what they know unless they are the one that is taken out. -/
theorem unhooked (h : m.Aliased os pageTable) {r : Pvoid} (hr : r ∈ m.ept.hookedPages)
    (hkept : m.aliases r = [] ∨ Epte.writeAccess.get (m.detail r).originalEntry = 0 ∧
      ∃ q ∈ m.aliases r, Epte.readAccess.get (m.detail r).originalEntry =
        Epte.readAccess.get (m.detail q).changedEntry)
    (hunhooked : Unhooked os pageTable r m m') : m'.Aliased os pageTable := by
  have hlow := (h.coherent.record r hr).low
  have hleaf := hunhooked.leafSet.leaf
  have hmem : ∀ q, q ∈ m'.ept.hookedPages ↔ q ≠ r ∧ q ∈ m.ept.hookedPages := by
    intro q
    rw [hunhooked.hookedPages, h.coherent.nodup.mem_erase_iff]
  have hdetail : ∀ q ∈ m'.ept.hookedPages, m'.detail q = m.detail q := fun q hq =>
    hunhooked.detail q ((hmem q).mp hq).2 ((hmem q).mp hq).1
  have habout : ∀ q ∈ m'.ept.hookedPages, ∀ x, m'.About q x ↔ m.About q x :=
    fun q hq => about_congr (hdetail q hq)
  refine ⟨hunhooked.coherent, ?_, ?_, ?_, ?_, ?_, ?_⟩
  · intro q hq
    obtain ⟨hqr, hold⟩ := (hmem q).mp hq
    rw [hdetail q hq]
    exact h.high_leafSet hunhooked.leafSet hlow (h.high r hr).1.symm hold
  · intro q hq
    rw [hdetail q hq]
    exact h.changed q ((hmem q).mp hq).2
  · intro q hq
    rw [hdetail q hq]
    exact h.original q ((hmem q).mp hq).2
  · intro q hq
    obtain ⟨hqr, hold⟩ := (hmem q).mp hq
    obtain ⟨p, hp, hpage, hfull⟩ := h.first q hold
    have hpr : p ≠ r := by
      intro heq
      subst heq
      exact (h.saved_of_alias hr hkept hold hqr hpage.symm).1.not_full hfull
    have hp' := (hmem p).mpr ⟨hpr, hp⟩
    refine ⟨p, hp', ?_, ?_⟩
    · rw [habout p hp', hdetail q hq]
      exact hpage
    · rw [hdetail p hp']
      exact hfull
  · intro q hq
    obtain ⟨hqr, hold⟩ := (hmem q).mp hq
    rw [hdetail q hq]
    by_cases hpage : m.About q (m.detail r).physicalAddress
    · obtain ⟨_, p, hplist, hpr, hppage, heq⟩ := h.saved_of_alias hr hkept hold hqr hpage
      have hp := (hmem p).mpr ⟨hpr, hplist⟩
      refine ⟨p, hp, ?_, ?_⟩
      · rw [habout p hp]
        exact hppage.trans (Eq.symm hpage)
      · rw [leaf_congr m' (h.samePage_of_about hold hlow hpage), hleaf, hdetail p hp, heq]
    · obtain ⟨p, hp, hppage, hchanged⟩ := h.kept q hold
      have hpr : p ≠ r := by
        intro heq
        subst heq
        exact hpage hppage.symm
      have hp' := (hmem p).mpr ⟨hpr, hp⟩
      refine ⟨p, hp', (habout p hp' _).mpr hppage, ?_⟩
      rw [h.leaf_other hunhooked.leafSet hlow hold hpage, hdetail p hp']
      exact hchanged
  · intro x hx hnone
    have hold : ∀ q ∈ m.ept.hookedPages, q ≠ r → ¬ m.About q x := fun q hq hqr hpage =>
      hnone q ((hmem q).mpr ⟨hqr, hq⟩) ((habout q ((hmem q).mpr ⟨hqr, hq⟩) x).mpr hpage)
    by_cases hpage : m.About r x
    · exact h.free_of_last hr hunhooked hx hpage hold
    · have hother : ¬ SamePage x (m.detail r).physicalAddress := by
        rw [samePage_iff hx hlow]
        exact fun heq => hpage heq.symm
      rw [hunhooked.leafSet.translate_other hother]
      refine h.free x hx fun q hq hq' => ?_
      by_cases hqr : q = r
      · exact hpage (hqr ▸ hq')
      · exact hold q hq hqr hq'

theorem aliasProtected (h : m.Aliased os pageTable) : m.AliasProtected os := by
  refine ⟨pageTable, h.coherent.pageTable_eq, fun x hx => ⟨?_, h.free x hx⟩⟩
  intro hlisted
  obtain ⟨r, hr, hpage⟩ := hlisted
  have hsame := h.samePage_of_about hr hx hpage
  obtain ⟨q, hq, hqpage, hleaf⟩ := h.kept r hr
  refine ⟨?_, q, hq, hqpage.trans hpage, ?_⟩
  · rw [← hsame.1]
    exact (h.coherent.record r hr).split
  · rw [← leaf_congr m hsame, hleaf]

theorem withGuest (h : m.Aliased os pageTable) (guest : VmState) :
    ({ m with guest := guest } : Machine Caller).Aliased os pageTable :=
  ⟨h.coherent.withGuest guest, h.high, h.changed, h.original, h.first, h.kept, h.free⟩

end Aliased

theorem Started.aliased {os : Os} {pageTable : VmmEptPageTable} {m : Machine Caller}
    (h : Started os pageTable m) : m.Aliased os pageTable := by
  have hlist := h.hookedPages
  refine ⟨h.coherent, ?_, ?_, ?_, ?_, ?_, ?_⟩
  · simp [hlist]
  · simp [hlist]
  · simp [hlist]
  · simp [hlist]
  · simp [hlist]
  · intro x _ _
    obtain ⟨hsplit, hlarge⟩ := h.large (pml2Key x)
    rw [translate, walk_of_large hsplit]
    exact ⟨hlarge.read, hlarge.write, hlarge.execute⟩

/-- What a successful unhook has found and done. -/
theorem pageUnhookVmcall_true {os : Os} {m : Machine Caller} {guestVirtualAddress : Word}
    (h : (m.pageUnhookVmcall os guestVirtualAddress).1 = true) :
    ∃ r ∈ m.ept.hookedPages, m.getHookedPage guestVirtualAddress = some r ∧
      (m.pageUnhookVmcall os guestVirtualAddress).2 = m.releaseHook os r := by
  rcases pageUnhookVmcall_ends os guestVirtualAddress m with heq | ⟨r, hr, hfound, heq⟩
  · rw [heq] at h
    exact absurd h (by simp)
  · exact ⟨r, hr, hfound, congrArg Prod.snd heq⟩

/-- A successful call keeps what the records know when it is kept by the unhook. -/
theorem hookStep_aliased {os : Os} {pageTable : VmmEptPageTable} {m m' : Machine Caller}
    (h : m.Aliased os pageTable) {action : HookAction Caller} (hok : m.Succeeds os action)
    (hkept : m.AliasKept action) (hstep : m.hookStep os action = some m') :
    ∃ pageTable', m'.Aliased os pageTable' := by
  cases action with
  | hook targetFunc permissions =>
    simp only [hookStep, Option.map_eq_some_iff] at hstep
    obtain ⟨⟨status, m1⟩, hcall, rfl⟩ := hstep
    simp only [Succeeds, hcall, Option.map_some, Option.some.injEq] at hok
    rcases rootModePageHook_returned h.coherent hcall with
      hdone | ⟨_, hstatus⟩ | ⟨_, a, pageTable', m2, r, hhooked⟩
    · exact ⟨pageTable, h.extend hdone.toExtends⟩
    · rw [hok] at hstatus
      exact absurd hstatus (by simp)
    · exact ⟨pageTable', (h.extend hhooked.toExtends).installed hhooked.low hhooked.wired
        hhooked.installed⟩
  | unhook guestVirtualAddress =>
    obtain rfl := Option.some.inj hstep
    obtain ⟨r, hr, hfound, hresult⟩ := pageUnhookVmcall_true hok
    rw [aliasKept_unhook hfound] at hkept
    refine ⟨pageTable, ?_⟩
    rw [hresult]
    exact h.unhooked hr hkept (h.coherent.releaseHook hr)
  | unhookAll => exact hok.elim
  | others action => exact ⟨pageTable, h.extend (h.coherent.othersStep hstep)⟩
  | guest isOnVmxRoot isLaunched =>
    obtain rfl := Option.some.inj hstep
    exact ⟨pageTable, h.withGuest _⟩

/-- A call that does not keep it leaves a page whose leaf is none of its records'. -/
theorem aliasKept_of_protected {os : Os} {pageTable : VmmEptPageTable} {m m' : Machine Caller}
    (h : m.Aliased os pageTable) {action : HookAction Caller} (hok : m.Succeeds os action)
    (hstep : m.hookStep os action = some m') (hprotected : m'.AliasProtected os) :
    m.AliasKept action := by
  cases action with
  | unhook guestVirtualAddress =>
    obtain rfl := Option.some.inj hstep
    obtain ⟨r, hr, hfound, hresult⟩ := pageUnhookVmcall_true hok
    rw [hresult] at hprotected
    rw [aliasKept_unhook hfound]
    have hunhooked := h.coherent.releaseHook hr
    obtain ⟨table, htable, hpages⟩ := hprotected
    obtain rfl : pageTable = table :=
      Option.some.inj (hunhooked.coherent.pageTable_eq.symm.trans htable)
    have hmem : ∀ q, q ∈ (m.releaseHook os r).ept.hookedPages ↔
        q ≠ r ∧ q ∈ m.ept.hookedPages := by
      intro q
      rw [hunhooked.hookedPages, h.coherent.nodup.mem_erase_iff]
    have hdetail : ∀ q, q ≠ r → q ∈ m.ept.hookedPages →
        (m.releaseHook os r).detail q = m.detail q := fun q hqr hq =>
      hunhooked.detail q hq hqr
    rcases hlist : m.aliases r with _ | ⟨q, rest⟩
    · exact Or.inl rfl
    · refine Or.inr ?_
      obtain ⟨hq, hqr, hpage⟩ := mem_aliases.mp (show q ∈ m.aliases r by simp [hlist])
      have hsome : ∃ p ∈ (m.releaseHook os r).ept.hookedPages,
          (m.releaseHook os r).About p (m.detail r).physicalAddress := by
        refine ⟨q, (hmem q).mpr ⟨hqr, hq⟩, ?_⟩
        rw [About, hdetail q hqr hq]
        exact hpage
      obtain ⟨_, p, hp, hppage, hleaf⟩ :=
        (hpages (m.detail r).physicalAddress (h.coherent.record r hr).low).1 hsome
      obtain ⟨hpr, hplist⟩ := (hmem p).mp hp
      rw [hunhooked.leafSet.leaf, hdetail p hpr hplist] at hleaf
      rw [About, hdetail p hpr hplist] at hppage
      rw [← hlist, hleaf]
      exact ⟨(h.changed p hplist).write, p, mem_aliases.mpr ⟨hplist, hpr, hppage⟩, rfl⟩
  | _ => trivial

theorem aliased_of_run {os : Os} {pageTable : VmmEptPageTable} {m0 m : Machine Caller}
    {actions : List (HookAction Caller)} (hstart : Started os pageTable m0)
    (hrun : GuardedRun (hookStep os)
      (fun s action => s.Succeeds os action ∧ s.AliasKept action) m0 actions m) :
    ∃ pageTable', m.Aliased os pageTable' := by
  refine GuardedRun.invariant (I := fun s => ∃ pageTable', s.Aliased os pageTable') ?_ hrun
    ⟨pageTable, hstart.aliased⟩
  intro s action s' hinv hguard hstep
  obtain ⟨pageTable', h⟩ := hinv
  obtain ⟨hok, hkept⟩ := hguard
  exact hookStep_aliased h hok hkept hstep

/-- After every call of a run whose unhooks keep the aliases, the leaf of each page is
that of one of its records, or open; and the next call breaks it unless it keeps them. -/
theorem aliasProtected_of_run {os : Os} {pageTable : VmmEptPageTable} {m0 m : Machine Caller}
    {actions : List (HookAction Caller)} (hstart : Started os pageTable m0)
    (hrun : GuardedRun (hookStep os)
      (fun s action => s.Succeeds os action ∧ s.AliasKept action) m0 actions m) :
    m.AliasProtected os ∧ ∀ action m', m.Succeeds os action → m.hookStep os action = some m' →
      (m'.AliasProtected os ↔ m.AliasKept action) := by
  obtain ⟨pageTable', h⟩ := aliased_of_run hstart hrun
  refine ⟨h.aliasProtected, fun action m' hok hstep => ⟨?_, ?_⟩⟩
  · exact aliasKept_of_protected h hok hstep
  · intro hkept
    obtain ⟨pageTable1, h'⟩ := hookStep_aliased h hok hkept hstep
    exact h'.aliasProtected

/-- Two virtual pages of one physical page are hooked and unhooked in reverse order. -/
theorem aliasProtected_of_run_reverse : (execute (hookStep flatOs) (flatMachine 2 2)
    [.hook 0x200000#64 1, .hook 0x8000200000#64 5, .unhook 0x8000200000#64,
      .unhook 0x200000#64]).AliasProtected flatOs :=
  (aliasProtected_of_run (flatMachine_started 2 2) (guardedRun_of_allowed (by decide +kernel))).1

/-- Two hooked virtual pages of one physical page. -/
def twoAliases : Machine Unit :=
  execute (hookStep flatOs) (flatMachine 2 2) [.hook 0x200000#64 1, .hook 0x8000200000#64 1]

/-- Unhooking the page that was hooked first opens the other one. -/
theorem not_aliasProtected_of_first :
    ¬ ∀ (os : Os) (pageTable : VmmEptPageTable) (m m' : Machine Unit)
      (actions : List (HookAction Unit)), Started os pageTable m →
        GuardedRun (hookStep os) (Succeeds os) m actions m' → m'.AliasProtected os := by
  intro h
  have hrun : GuardedRun (hookStep flatOs) (fun s action => s.Succeeds flatOs action ∧
      s.AliasKept action) (flatMachine 2 2) [.hook 0x200000#64 1, .hook 0x8000200000#64 1]
      twoAliases := guardedRun_of_allowed (by decide +kernel)
  obtain ⟨pageTable, haliased⟩ := aliased_of_run (flatMachine_started 2 2) hrun
  have hok : twoAliases.Succeeds flatOs (.unhook 0x200000#64) := by decide +kernel
  have hprotected := h flatOs flatTable _ _ _ (flatMachine_started 2 2)
    ((hrun.mono fun _ _ hguard => hguard.1).snoc hok rfl)
  have hkept := aliasKept_of_protected haliased hok rfl hprotected
  exact absurd hkept (by decide +kernel)

end Machine

end NovaHypervisor

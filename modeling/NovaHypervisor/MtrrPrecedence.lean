import NovaHypervisor.Mtrr

/-!
Overlapping ranges. The architecture gives a page that several variable ranges cover
a type that does not depend on the order of the ranges. The lookup takes the type
after the first uncacheable range, or else the type of the last range.
-/
namespace NovaHypervisor

namespace MtrrRangeDescriptor

/-- The end of a range is its last byte. -/
def Covers (range : MtrrRangeDescriptor) (addressOfPage : Word) : Prop :=
  range.physicalBaseAddress ≤ addressOfPage ∧ addressOfPage ≤ range.physicalEndAddress

instance (range : MtrrRangeDescriptor) (addressOfPage : Word) :
    Decidable (range.Covers addressOfPage) :=
  inferInstanceAs (Decidable (_ ∧ _))

def PageAligned (range : MtrrRangeDescriptor) : Prop :=
  range.physicalBaseAddress.toNat % 4096 = 0 ∧ range.physicalEndAddress.toNat % 4096 = 4095

instance (range : MtrrRangeDescriptor) : Decidable range.PageAligned :=
  inferInstanceAs (Decidable (_ ∧ _))

/-- What the lookup tests: the last byte is left out. -/
def Holds (range : MtrrRangeDescriptor) (addressOfPage : Word) : Prop :=
  range.physicalBaseAddress ≤ addressOfPage ∧ addressOfPage < range.physicalEndAddress

instance (range : MtrrRangeDescriptor) (addressOfPage : Word) :
    Decidable (range.Holds addressOfPage) :=
  inferInstanceAs (Decidable (_ ∧ _))

/-- The last byte of a range begins no page. -/
theorem PageAligned.covers_iff {range : MtrrRangeDescriptor} (h : range.PageAligned)
    (pfn : Word) : range.Covers (pfn * pageSize) ↔ range.Holds (pfn * pageSize) := by
  have hpage : (pfn * pageSize).toNat % 4096 = 0 := by
    rw [BitVec.toNat_mul, show pageSize.toNat = 4096 from rfl]
    omega
  obtain ⟨_, hend⟩ := h
  simp only [Covers, Holds, BitVec.le_def, BitVec.lt_def]
  omega

end MtrrRangeDescriptor

/-- The types of the ranges that cover a page, in the order of the table. -/
def coveringTypes (memoryRanges : List MtrrRangeDescriptor) (addressOfPage : Word) :
    List MemoryType :=
  (memoryRanges.filter fun range => range.Covers addressOfPage).map
    MtrrRangeDescriptor.memoryType

/-- The types that the lookup meets, in the order of the table. -/
def heldTypes (memoryRanges : List MtrrRangeDescriptor) (addressOfPage : Word) :
    List MemoryType :=
  (memoryRanges.filter fun range => range.Holds addressOfPage).map
    MtrrRangeDescriptor.memoryType

/-- What the architecture says of the type of a page that several ranges cover. -/
structure Precedence (types : List MemoryType) (type : MemoryType) : Prop where
  uncacheable : memoryTypeUncacheable ∈ types → type = memoryTypeUncacheable
  writeThrough : (∀ t ∈ types, t = memoryTypeWriteThrough ∨ t = memoryTypeWriteBack) →
    memoryTypeWriteThrough ∈ types → memoryTypeWriteBack ∈ types → type = memoryTypeWriteThrough
  common : ∀ t, (∀ u ∈ types, u = t) → type = t

/-- No other type follows the first uncacheable one, and a mix of write-through and
write-back ends with write-through. -/
structure WellOrdered (types : List MemoryType) : Prop where
  uncacheable : ∀ pre type post, types = pre ++ memoryTypeUncacheable :: type :: post →
    memoryTypeUncacheable ∉ pre → type = memoryTypeUncacheable
  writeThrough : (∀ t ∈ types, t = memoryTypeWriteThrough ∨ t = memoryTypeWriteBack) →
    memoryTypeWriteThrough ∈ types → memoryTypeWriteBack ∈ types →
    types.getLast? = some memoryTypeWriteThrough

/-- The type after the first uncacheable one, or else the last one. -/
def lookupType (targetMemoryType : MemoryType) : List MemoryType → MemoryType
  | [] => targetMemoryType
  | type :: types =>
    if targetMemoryType = memoryTypeUncacheable then type else lookupType type types

/-- The branch of the lookup for write-through sets the type that the range has anyway. -/
theorem memoryTypeFrom_eq_heldTypes {addressOfPage : Word} {ranges : List MtrrRangeDescriptor}
    (hfixed : ∀ r ∈ ranges, r.fixedRange = true → ¬ r.Holds addressOfPage)
    (target : MemoryType) :
    memoryTypeFrom addressOfPage target ranges =
      lookupType target (heldTypes ranges addressOfPage) := by
  induction ranges generalizing target with
  | nil => rfl
  | cons r ranges ih =>
    have hrest := ih fun q hq => hfixed q (List.mem_cons_of_mem r hq)
    by_cases hr : r.Holds addressOfPage
    · have hvariable : r.fixedRange = false := by
        by_contra hne
        exact hfixed r List.mem_cons_self (by simpa using hne) hr
      have hcons : heldTypes (r :: ranges) addressOfPage =
          r.memoryType :: heldTypes ranges addressOfPage := by
        simp [heldTypes, hr]
      rw [MtrrRangeDescriptor.Holds] at hr
      rw [hcons, memoryTypeFrom, if_pos hr, hvariable, lookupType, hrest, hrest]
      simp only [Bool.false_eq_true, if_false]
      split
      · rfl
      · split
        · rename_i hmix
          obtain ⟨hthrough | hthrough, hback⟩ := hmix
          · exact absurd (hthrough.symm.trans hback) (by decide)
          · rw [hthrough]
        · rfl
    · have hcons : heldTypes (r :: ranges) addressOfPage = heldTypes ranges addressOfPage := by
        simp [heldTypes, hr]
      rw [MtrrRangeDescriptor.Holds] at hr
      rw [hcons, memoryTypeFrom, if_neg hr, hrest]

theorem coveringTypes_eq_heldTypes {pfn : Word} {ranges : List MtrrRangeDescriptor}
    (haligned : ∀ r ∈ ranges, r.PageAligned) :
    coveringTypes ranges (pfn * pageSize) = heldTypes ranges (pfn * pageSize) := by
  rw [coveringTypes, heldTypes]
  refine congrArg _ (List.filter_congr fun r hr => ?_)
  simp only [(haligned r hr).covers_iff pfn]

theorem lookupType_append {target : MemoryType} (htarget : target ≠ memoryTypeUncacheable)
    {pre : List MemoryType} (hpre : memoryTypeUncacheable ∉ pre) (post : List MemoryType) :
    lookupType target (pre ++ memoryTypeUncacheable :: post) =
      post.head?.getD memoryTypeUncacheable := by
  induction pre generalizing target with
  | nil =>
    rw [List.nil_append, lookupType, if_neg htarget]
    cases post with
    | nil => rfl
    | cons type post => rw [lookupType, if_pos rfl, List.head?_cons, Option.getD_some]
  | cons t pre ih =>
    rw [List.mem_cons, not_or] at hpre
    rw [List.cons_append, lookupType, if_neg htarget]
    exact ih (Ne.symm hpre.1) hpre.2

theorem lookupType_of_notMem {target : MemoryType} (htarget : target ≠ memoryTypeUncacheable)
    {types : List MemoryType} (htypes : memoryTypeUncacheable ∉ types) :
    lookupType target types = types.getLast?.getD target := by
  induction types generalizing target with
  | nil => rfl
  | cons t types ih =>
    rw [List.mem_cons, not_or] at htypes
    rw [lookupType, if_neg htarget, ih (Ne.symm htypes.1) htypes.2, List.getLast?_cons,
      Option.getD_some]

/-- The lookup keeps to the architecture's rule exactly when the order of the ranges suits it. -/
theorem precedence_lookupType_iff {target : MemoryType} (htarget : target ≠ memoryTypeUncacheable)
    {types : List MemoryType} (hne : types ≠ []) :
    Precedence types (lookupType target types) ↔ WellOrdered types := by
  constructor
  · intro hrule
    refine ⟨fun pre type post hsplit hpre => ?_, fun hmix hthrough hback => ?_⟩
    · have hlookup := hrule.uncacheable (by simp [hsplit])
      rwa [hsplit, lookupType_append htarget hpre] at hlookup
    · have hnone : memoryTypeUncacheable ∉ types :=
        fun hmem => absurd (hmix _ hmem) (by decide)
      have hlookup := hrule.writeThrough hmix hthrough hback
      rw [lookupType_of_notMem htarget hnone, List.getLast?_eq_some_getLast hne] at hlookup
      rw [List.getLast?_eq_some_getLast hne]
      exact congrArg some hlookup
  · intro hordered
    refine ⟨fun hmem => ?_, fun hmix hthrough hback => ?_, fun t hcommon => ?_⟩
    · obtain ⟨pre, post, hsplit, hpre⟩ := List.eq_append_cons_of_mem hmem
      rw [hsplit, lookupType_append htarget hpre]
      cases post with
      | nil => rfl
      | cons type post => exact hordered.uncacheable pre type post hsplit hpre
    · have hnone : memoryTypeUncacheable ∉ types :=
        fun hmem => absurd (hmix _ hmem) (by decide)
      rw [lookupType_of_notMem htarget hnone, hordered.writeThrough hmix hthrough hback,
        Option.getD_some]
    · by_cases hmem : memoryTypeUncacheable ∈ types
      · obtain ⟨pre, post, hsplit, hpre⟩ := List.eq_append_cons_of_mem hmem
        rw [hsplit, lookupType_append htarget hpre, ← hcommon _ hmem]
        cases post with
        | nil => rfl
        | cons type post =>
          exact (hcommon type (by simp [hsplit])).trans (hcommon _ hmem).symm
      · rw [lookupType_of_notMem htarget hmem, List.getLast?_eq_some_getLast hne]
        exact hcommon _ (List.getLast_mem hne)

theorem lookupType_mem (target : MemoryType) {types : List MemoryType} (hne : types ≠ [])
    (htarget : target ≠ memoryTypeUncacheable) : lookupType target types ∈ types := by
  by_cases hmem : memoryTypeUncacheable ∈ types
  · obtain ⟨pre, post, hsplit, hpre⟩ := List.eq_append_cons_of_mem hmem
    rw [hsplit, lookupType_append htarget hpre]
    cases post with
    | nil => simp
    | cons type post => simp
  · rw [lookupType_of_notMem htarget hmem, List.getLast?_eq_some_getLast hne]
    exact List.getLast_mem hne

/-- The type of a page that no fixed range holds, read off the ranges that hold it. -/
theorem getMemoryType_eq_heldTypes {ranges : List MtrrRangeDescriptor} {pfn : Word}
    (htypes : ∀ r ∈ ranges, IsMemoryType r.memoryType)
    (hfixed : ∀ r ∈ ranges, r.fixedRange = true → ¬ r.Holds (pfn * pageSize))
    (defaultMemoryType : MemoryType) :
    getMemoryType ranges defaultMemoryType pfn false =
      if heldTypes ranges (pfn * pageSize) = [] then defaultMemoryType
      else lookupType memoryTypeInvalid (heldTypes ranges (pfn * pageSize)) := by
  simp only [getMemoryType, Bool.false_eq_true, if_false, memoryTypeFrom_eq_heldTypes hfixed]
  by_cases hnone : heldTypes ranges (pfn * pageSize) = []
  · rw [hnone, if_pos rfl, lookupType, if_pos rfl]
  · rw [if_neg hnone]
    refine if_neg fun hinvalid => ?_
    have hmem := lookupType_mem memoryTypeInvalid hnone (by decide)
    rw [hinvalid] at hmem
    obtain ⟨r, hr, htype⟩ := List.mem_map.mp hmem
    have harch := htypes r (List.mem_filter.mp hr).1
    rw [htype] at harch
    exact absurd harch (by decide)

/-- The rule for overlapping ranges, and when the lookup keeps to it. -/
theorem getMemoryType_precedence_iff {ranges : List MtrrRangeDescriptor} {pfn : Word}
    (haligned : ∀ r ∈ ranges, r.PageAligned) (htypes : ∀ r ∈ ranges, IsMemoryType r.memoryType)
    (hfixed : ∀ r ∈ ranges, r.fixedRange = true → ¬ r.Covers (pfn * pageSize))
    (hcovered : ∃ r ∈ ranges, r.Covers (pfn * pageSize)) (defaultMemoryType : MemoryType) :
    Precedence (coveringTypes ranges (pfn * pageSize))
        (getMemoryType ranges defaultMemoryType pfn false) ↔
      WellOrdered (coveringTypes ranges (pfn * pageSize)) := by
  have hne : coveringTypes ranges (pfn * pageSize) ≠ [] := by
    obtain ⟨r, hr, hcovers⟩ := hcovered
    refine List.ne_nil_of_mem (a := r.memoryType) (List.mem_map.mpr ⟨r, ?_, rfl⟩)
    exact List.mem_filter.mpr ⟨hr, by simpa using hcovers⟩
  have hheld : ∀ r ∈ ranges, r.fixedRange = true → ¬ r.Holds (pfn * pageSize) :=
    fun r hr htrue hholds => hfixed r hr htrue (((haligned r hr).covers_iff pfn).mpr hholds)
  rw [coveringTypes_eq_heldTypes haligned] at hne ⊢
  rw [getMemoryType_eq_heldTypes htypes hheld, if_neg hne]
  exact precedence_lookupType_iff (by decide) hne

/-- An uncacheable window in the upper half of a write-through range, stored after it. -/
theorem getMemoryType_precedence_iff_window :
    Precedence (coveringTypes [⟨0x80000000#64, 0xFFFFFFFF#64, 4, false⟩,
        ⟨0xC0000000#64, 0xFFFFFFFF#64, 0, false⟩] (0xC0000#64 * pageSize))
        (getMemoryType [⟨0x80000000#64, 0xFFFFFFFF#64, 4, false⟩,
          ⟨0xC0000000#64, 0xFFFFFFFF#64, 0, false⟩] 6 0xC0000#64 false) ↔
      WellOrdered (coveringTypes [⟨0x80000000#64, 0xFFFFFFFF#64, 4, false⟩,
        ⟨0xC0000000#64, 0xFFFFFFFF#64, 0, false⟩] (0xC0000#64 * pageSize)) :=
  getMemoryType_precedence_iff (by decide) (by decide) (by decide) (by decide) 6

/-- The same two ranges, stored the other way round. -/
theorem not_precedence_of_uncacheable_first :
    ¬ ∀ (ranges : List MtrrRangeDescriptor) (pfn : Word) (defaultMemoryType : MemoryType),
      (∀ r ∈ ranges, r.PageAligned) → (∀ r ∈ ranges, IsMemoryType r.memoryType) →
        (∀ r ∈ ranges, r.fixedRange = true → ¬ r.Covers (pfn * pageSize)) →
        (∃ r ∈ ranges, r.Covers (pfn * pageSize)) →
        Precedence (coveringTypes ranges (pfn * pageSize))
          (getMemoryType ranges defaultMemoryType pfn false) := by
  intro h
  have hrule := h [⟨0xC0000000#64, 0xFFFFFFFF#64, 0, false⟩,
    ⟨0x80000000#64, 0xFFFFFFFF#64, 4, false⟩] 0xC0000#64 6 (by decide) (by decide) (by decide)
    (by decide)
  exact absurd (hrule.uncacheable (by decide)) (by decide)

end NovaHypervisor

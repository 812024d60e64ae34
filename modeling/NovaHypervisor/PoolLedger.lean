import NovaHypervisor.Definitions
import Mathlib.Logic.Function.Basic
import Mathlib.Data.List.Count
import Mathlib.Tactic.Simps.Basic

/-!
What the pool is for: every buffer has one owner. The ledger records where a
buffer is named (the used marks, the hands of the callers, the free requests,
the free worker), and an effect is one change of these records. The owner of a
buffer moves along a fixed cycle, and a buffer is zero while it has none.
-/
namespace NovaHypervisor

/-- A pool buffer: its type and its address. -/
abbrev Buffer := AllocationType × Pvoid

@[ext] structure Ledger (Caller β : Type*) where
  slot : Buffer → Prop
  used : Buffer → Prop
  held : Caller → List Buffer
  releasing : Caller → Option Buffer
  requested : Buffer → ℕ
  reclaiming : Option Buffer
  memory : Pvoid → β

/-- A buffer is outside when it is used and no party of the ledger knows it: it
was taken by a processor that is not a caller, or its release was given up. -/
inductive Owner (Caller : Type*) where
  | idle
  | held (c : Caller)
  | releasing (c : Caller)
  | queued
  | reclaiming
  | outside
  deriving DecidableEq

inductive Owner.Moves {Caller : Type*} : Owner Caller → Owner Caller → Prop
  | stay (o) : Moves o o
  | take (c) : Moves .idle (.held c)
  | release (c) : Moves (.held c) (.releasing c)
  | enqueue (c) : Moves (.releasing c) .queued
  | abandon (c) : Moves (.releasing c) .outside
  | pop : Moves .queued .reclaiming
  | reclaim : Moves .reclaiming .idle

namespace Ledger

variable {Caller β : Type*}

/-- A used or held buffer has a slot, and an address has slots of one type only. -/
structure Sound (l : Ledger Caller β) : Prop where
  used_slot : ∀ b, l.used b → l.slot b
  held_slot : ∀ c b, b ∈ l.held c → l.slot b
  disjoint : ∀ type other a, l.slot (type, a) → l.slot (other, a) → type = other

/-- Two buffers at one address are the same buffer. -/
theorem Sound.eq_of_address {l : Ledger Caller β} (hl : l.Sound) {x b : Buffer}
    (hx : l.slot x) (hb : l.slot b) (heq : x.2 = b.2) : x = b := by
  obtain ⟨t, a⟩ := x
  obtain ⟨u, e⟩ := b
  obtain rfl : a = e := heq
  rw [hl.disjoint t u a hx hb]

@[simps] def claim (l : Ledger Caller β) (b : Buffer) : Ledger Caller β :=
  { l with used := fun x => l.used x ∨ x = b }

@[simps] def request (l : Ledger Caller β) (b : Buffer) : Ledger Caller β :=
  { l with requested := fun x => l.requested x + if x = b then 1 else 0 }

variable [DecidableEq Caller]

/-- The records name a buffer exactly where its owner says. -/
structure Owned (l : Ledger Caller β) (b : Buffer) (owner : Owner Caller) : Prop where
  used : l.used b ↔ owner ≠ .idle
  held : ∀ c, (l.held c).count b = if owner = .held c then 1 else 0
  releasing : ∀ c, l.releasing c = some b ↔ owner = .releasing c
  requested : l.requested b = if owner = .queued then 1 else 0
  reclaiming : l.reclaiming = some b ↔ owner = .reclaiming

/-- The owner of a held buffer is its holder. -/
theorem Owned.of_mem_held {l : Ledger Caller β} {b : Buffer} {owner : Owner Caller}
    (h : l.Owned b owner) {c : Caller} (hmem : b ∈ l.held c) : owner = .held c := by
  by_contra hne
  have hcount := h.held c
  rw [if_neg hne, List.count_eq_zero] at hcount
  exact hcount hmem

/-- A ledger with the same records of a buffer gives it the same owner. -/
theorem Owned.congr {l l' : Ledger Caller β} {b : Buffer} {owner : Owner Caller}
    (h : l.Owned b owner) (hused : l'.used b ↔ l.used b)
    (hheld : ∀ c, (l'.held c).count b = (l.held c).count b)
    (hreleasing : ∀ c, l'.releasing c = some b ↔ l.releasing c = some b)
    (hrequested : l'.requested b = l.requested b)
    (hreclaiming : l'.reclaiming = some b ↔ l.reclaiming = some b) : l'.Owned b owner :=
  ⟨hused.trans h.used, fun c => (hheld c).trans (h.held c),
    fun c => (hreleasing c).trans (h.releasing c), hrequested.trans h.requested,
    hreclaiming.trans h.reclaiming⟩

variable [Zero β]

inductive Effect (os : Allocator) : Ledger Caller β → Ledger Caller β → Prop
  | quiet (l) : Effect os l l
  | take (l) (c) (b) : l.slot b → ¬ l.used b →
      Effect os l { l.claim b with held := Function.update l.held c (b :: l.held c) }
  | release (l) (c) (b) : b ∈ l.held c → l.releasing c = none →
      Effect os l { l with
        held := Function.update l.held c ((l.held c).erase b)
        releasing := Function.update l.releasing c (some b) }
  | enqueue (l) (c) (b) : l.releasing c = some b →
      Effect os l { l.request b with releasing := Function.update l.releasing c none }
  | abandon (l) (c) (b) : l.releasing c = some b →
      Effect os l { l with releasing := Function.update l.releasing c none }
  | write (l) (c) (b) (content) : b ∈ l.held c →
      Effect os l { l with memory := Function.update l.memory b.2 content }
  | grow (l) (b) : os.grants b.1 b.2 = true → (∀ type, ¬ l.slot (type, b.2)) →
      Effect os l { l with
        slot := fun x => l.slot x ∨ x = b
        memory := Function.update l.memory b.2 0 }
  | pop (l) (b) (requested) : l.reclaiming = none →
      (∀ x, l.requested x = requested x + if x = b then 1 else 0) →
      Effect os l { l with requested := requested, reclaiming := some b }
  | reclaim (l) (b) : l.reclaiming = some b → l.slot b →
      Effect os l { l with
        used := fun x => l.used x ∧ x ≠ b
        reclaiming := none
        memory := Function.update l.memory b.2 0 }
  | discard (l) (b) : l.reclaiming = some b → ¬ l.slot b →
      Effect os l { l with reclaiming := none }

/-- Slots are never removed. -/
theorem Effect.slot {os : Allocator} {l l' : Ledger Caller β} (h : Effect os l l')
    {b : Buffer} (hb : l.slot b) : l'.slot b := by
  cases h <;> first | exact hb | exact Or.inl hb

theorem Effect.sound {os : Allocator} {l l' : Ledger Caller β} (h : Effect os l l')
    (hl : l.Sound) : l'.Sound := by
  obtain ⟨hused, hheld, hdisjoint⟩ := hl
  cases h with
  | take c b hslot hfree =>
    refine ⟨?_, ?_, hdisjoint⟩
    · intro x hx
      rcases hx with hx | rfl
      · exact hused x hx
      · exact hslot
    · intro d x hmem
      by_cases hd : d = c
      · subst hd
        simp only [Function.update_self, List.mem_cons] at hmem
        rcases hmem with rfl | hmem
        · exact hslot
        · exact hheld d x hmem
      · simp only [ne_eq, hd, not_false_eq_true, Function.update_of_ne] at hmem
        exact hheld d x hmem
  | release c b hmem hnone =>
    refine ⟨hused, ?_, hdisjoint⟩
    intro d x hmem'
    by_cases hd : d = c
    · subst hd
      simp only [Function.update_self] at hmem'
      exact hheld d x (List.mem_of_mem_erase hmem')
    · simp only [ne_eq, hd, not_false_eq_true, Function.update_of_ne] at hmem'
      exact hheld d x hmem'
  | grow b hgrant hfresh =>
    refine ⟨fun x hx => Or.inl (hused x hx), fun d x hx => Or.inl (hheld d x hx), ?_⟩
    intro t u a ht hu
    rcases ht with ht | rfl <;> rcases hu with hu | hu
    · exact hdisjoint t u a ht hu
    · subst hu
      exact absurd ht (hfresh t)
    · exact absurd hu (hfresh u)
    · exact (congrArg Prod.fst hu).symm
  | reclaim b hrec hslot => exact ⟨fun x hx => hused x hx.1, hheld, hdisjoint⟩
  | quiet => exact ⟨hused, hheld, hdisjoint⟩
  | enqueue c b hrel => exact ⟨hused, hheld, hdisjoint⟩
  | abandon c b hrel => exact ⟨hused, hheld, hdisjoint⟩
  | write c b content hmem => exact ⟨hused, hheld, hdisjoint⟩
  | pop b requested hnone hreq => exact ⟨hused, hheld, hdisjoint⟩
  | discard b hrec hslot => exact ⟨hused, hheld, hdisjoint⟩

/-- One caller's new list names a buffer for its new owner. -/
theorem held_update {held : Caller → List Buffer} {x : Buffer} {owner owner' : Owner Caller}
    (h : ∀ d, (held d).count x = if owner = .held d then 1 else 0) {c : Caller}
    {buffers : List Buffer} (hself : buffers.count x = if owner' = .held c then 1 else 0)
    (hother : ∀ d, d ≠ c → (owner' = .held d ↔ owner = .held d)) (d : Caller) :
    (Function.update held c buffers d).count x = if owner' = .held d then 1 else 0 := by
  by_cases hd : d = c
  · subst hd
    rw [Function.update_self, hself]
  · simp only [Function.update_of_ne hd, h d, hother d hd]

theorem releasing_update {releasing : Caller → Option Buffer} {x : Buffer}
    {owner owner' : Owner Caller} (h : ∀ d, releasing d = some x ↔ owner = .releasing d)
    {c : Caller} {release : Option Buffer} (hself : release = some x ↔ owner' = .releasing c)
    (hother : ∀ d, d ≠ c → (owner' = .releasing d ↔ owner = .releasing d)) (d : Caller) :
    Function.update releasing c release d = some x ↔ owner' = .releasing d := by
  by_cases hd : d = c
  · subst hd
    rw [Function.update_self, hself]
  · rw [Function.update_of_ne hd, h d, hother d hd]

/-- A caller that is done with one buffer releases no other. -/
theorem releasing_done {releasing : Caller → Option Buffer} {x b : Buffer} {owner : Owner Caller}
    (h : ∀ d, releasing d = some x ↔ owner = .releasing d) {c : Caller}
    (hrel : releasing c = some b) (hx : x ≠ b) (d : Caller) :
    Function.update releasing c none d = some x ↔ owner = .releasing d := by
  refine releasing_update h ?_ (fun _ _ => Iff.rfl) d
  rw [← h c, hrel]
  simp [Ne.symm hx]

/-- An effect moves the owner of a buffer along the cycle. -/
theorem Effect.owned {os : Allocator} {l l' : Ledger Caller β} (h : Effect os l l')
    (hl : l.Sound) {x : Buffer} {owner : Owner Caller} (ho : l.Owned x owner) :
    ∃ owner', l'.Owned x owner' ∧ owner.Moves owner' := by
  have hsame : ∀ (c : Caller) d, d ≠ c → (owner = .held d ↔ owner = .held d) :=
    fun _ _ _ => Iff.rfl
  cases h with
  | quiet => exact ⟨owner, ho, .stay owner⟩
  | take c b hslot hfree =>
    by_cases hx : x = b
    · subst hx
      obtain rfl : owner = .idle := by
        by_contra hne
        exact hfree (ho.used.mpr hne)
      refine ⟨.held c, ⟨by simp, held_update ho.held ?_ ?_, by simpa using ho.releasing,
        by simpa using ho.requested, by simpa using ho.reclaiming⟩, .take c⟩
      · simpa using ho.held c
      · intro d hd
        simp [Ne.symm hd]
    · refine ⟨owner, ⟨by simpa [hx] using ho.used, held_update ho.held ?_ (hsame c),
        ho.releasing, ho.requested, ho.reclaiming⟩, .stay owner⟩
      rw [List.count_cons_of_ne (Ne.symm hx), ho.held c]
  | release c b hmem hnone =>
    by_cases hx : x = b
    · subst hx
      obtain rfl := ho.of_mem_held hmem
      refine ⟨.releasing c, ⟨by simpa using ho.used, held_update ho.held ?_ ?_,
        releasing_update ho.releasing ?_ ?_, by simpa using ho.requested,
        by simpa using ho.reclaiming⟩, .release c⟩
      · simp [ho.held c]
      · intro d hd
        simp [Ne.symm hd]
      · simp
      · intro d hd
        simp [Ne.symm hd]
    · refine ⟨owner, ⟨ho.used, held_update ho.held ?_ (hsame c),
        releasing_update ho.releasing ?_ fun _ _ => Iff.rfl, ho.requested, ho.reclaiming⟩,
        .stay owner⟩
      · rw [List.count_erase_of_ne hx, ho.held c]
      · rw [← ho.releasing c, hnone]
        simp [Ne.symm hx]
  | enqueue c b hrel =>
    by_cases hx : x = b
    · subst hx
      obtain rfl := (ho.releasing c).mp hrel
      refine ⟨.queued, ⟨by simpa using ho.used, by simpa using ho.held,
        releasing_update ho.releasing (by simp) ?_, by simpa using ho.requested,
        by simpa using ho.reclaiming⟩, .enqueue c⟩
      intro d hd
      simp [Ne.symm hd]
    · exact ⟨owner, ⟨ho.used, ho.held, releasing_done ho.releasing hrel hx,
        by simpa [hx] using ho.requested, ho.reclaiming⟩, .stay owner⟩
  | abandon c b hrel =>
    by_cases hx : x = b
    · subst hx
      obtain rfl := (ho.releasing c).mp hrel
      refine ⟨.outside, ⟨by simpa using ho.used, by simpa using ho.held,
        releasing_update ho.releasing (by simp) ?_, by simpa using ho.requested,
        by simpa using ho.reclaiming⟩, .abandon c⟩
      intro d hd
      simp [Ne.symm hd]
    · exact ⟨owner, ⟨ho.used, ho.held, releasing_done ho.releasing hrel hx, ho.requested,
        ho.reclaiming⟩, .stay owner⟩
  | write c b content hmem =>
    exact ⟨owner, ho.congr Iff.rfl (fun _ => rfl) (fun _ => Iff.rfl) rfl Iff.rfl, .stay owner⟩
  | grow b hgrant hfresh =>
    exact ⟨owner, ho.congr Iff.rfl (fun _ => rfl) (fun _ => Iff.rfl) rfl Iff.rfl, .stay owner⟩
  | pop b requested hnone hreq =>
    by_cases hx : x = b
    · subst hx
      have hold := ho.requested
      rw [hreq] at hold
      obtain rfl : owner = .queued := by
        by_contra hne
        simp [hne] at hold
      exact ⟨.reclaiming, ⟨by simpa using ho.used, by simpa using ho.held,
        by simpa using ho.releasing, by simpa using hold, by simp⟩, .pop⟩
    · exact ⟨owner, ho.congr Iff.rfl (fun _ => rfl) (fun _ => Iff.rfl) (by simp [hreq, hx])
        (by simp [hnone, Ne.symm hx]), .stay owner⟩
  | reclaim b hrec hslot =>
    by_cases hx : x = b
    · subst hx
      obtain rfl := ho.reclaiming.mp hrec
      exact ⟨.idle, ⟨by simp, by simpa using ho.held, by simpa using ho.releasing,
        by simpa using ho.requested, by simp⟩, .reclaim⟩
    · exact ⟨owner, ho.congr (by simp [hx]) (fun _ => rfl) (fun _ => Iff.rfl) rfl
        (by simp [hrec, Ne.symm hx]), .stay owner⟩
  | discard b hrec hslot =>
    have hx : x ≠ b := by
      intro heq
      subst heq
      -- a reclaimed buffer is used, so it has a slot
      have howner := ho.reclaiming.mp hrec
      exact hslot (hl.used_slot x (ho.used.mpr (by simp [howner])))
    exact ⟨owner, ho.congr Iff.rfl (fun _ => rfl) (fun _ => Iff.rfl) rfl
      (by simp [hrec, Ne.symm hx]), .stay owner⟩

/-- No effect takes a buffer from outside or changes its content. -/
theorem Effect.outside {os : Allocator} {l l' : Ledger Caller β} (h : Effect os l l')
    (hl : l.Sound) {x : Buffer} (hx : l.Owned x .outside) :
    l'.Owned x .outside ∧ l'.memory x.2 = l.memory x.2 := by
  obtain ⟨owner, howned, hmoves⟩ := h.owned hl hx
  have hslot := hl.used_slot x (hx.used.mpr (by simp))
  refine ⟨by cases hmoves; exact howned, ?_⟩
  cases h with
  | write c b content hmem =>
    have hne : x.2 ≠ b.2 := by
      intro heq
      obtain rfl := hl.eq_of_address hslot (hl.held_slot c b hmem) heq
      exact absurd (hx.of_mem_held hmem) (by simp)
    exact Function.update_of_ne hne _ _
  | grow b hgrant hfresh =>
    have hne : x.2 ≠ b.2 := by
      intro heq
      exact hfresh x.1 (heq ▸ hslot)
    exact Function.update_of_ne hne _ _
  | reclaim b hrec hslot' =>
    have hne : x.2 ≠ b.2 := by
      intro heq
      obtain rfl := hl.eq_of_address hslot hslot' heq
      exact absurd (hx.reclaiming.mp hrec) (by simp)
    exact Function.update_of_ne hne _ _
  | quiet => rfl
  | take c b hslot hfree => rfl
  | release c b hmem hnone => rfl
  | enqueue c b hrel => rfl
  | abandon c b hrel => rfl
  | pop b requested hnone hreq => rfl
  | discard b hrec hslot => rfl

/-- Every buffer of a type has an owner. -/
def Tracked (l : Ledger Caller β) (type : AllocationType) : Prop :=
  ∀ a, ∃ owner, l.Owned (type, a) owner

def Zeroed (l : Ledger Caller β) (type : AllocationType) : Prop :=
  ∀ a, l.slot (type, a) → ¬ l.used (type, a) → l.memory a = 0

theorem Effect.tracked {os : Allocator} {l l' : Ledger Caller β} (h : Effect os l l')
    (hl : l.Sound) {type : AllocationType} (ht : l.Tracked type) : l'.Tracked type := by
  intro a
  obtain ⟨owner, howned⟩ := ht a
  obtain ⟨owner', howned', _⟩ := h.owned hl howned
  exact ⟨owner', howned'⟩

/-- The unused buffers stay zero: a write needs a holder, and a holder's buffer is used. -/
theorem Effect.zeroed {os : Allocator} {l l' : Ledger Caller β} (h : Effect os l l')
    (hl : l.Sound) {type : AllocationType} (ht : l.Tracked type) (hz : l.Zeroed type) :
    l'.Zeroed type := by
  intro a hslot hfree
  cases h with
  | take c b hslot' hfree' => exact hz a hslot (fun hused => hfree (Or.inl hused))
  | write c b content hmem =>
    have hne : a ≠ b.2 := by
      intro heq
      obtain rfl := hl.eq_of_address hslot (hl.held_slot c b hmem) heq
      obtain ⟨owner, howned⟩ := ht a
      exact hfree (howned.used.mpr (by simp [howned.of_mem_held hmem]))
    exact (Function.update_of_ne hne _ _).trans (hz a hslot hfree)
  | grow b hgrant hfresh =>
    rcases hslot with hslot | heq
    · have hne : a ≠ b.2 := by
        intro heq
        subst heq
        exact hfresh type hslot
      exact (Function.update_of_ne hne _ _).trans (hz a hslot hfree)
    · exact (congrArg Prod.snd heq) ▸ Function.update_self _ _ _
  | reclaim b hrec hslot' =>
    by_cases heq : a = b.2
    · subst heq
      exact Function.update_self _ _ _
    · refine (Function.update_of_ne heq _ _).trans (hz a hslot ?_)
      intro hused
      exact hfree ⟨hused, fun hb => heq (congrArg Prod.snd hb)⟩
  | quiet => exact hz a hslot hfree
  | release c b hmem hnone => exact hz a hslot hfree
  | enqueue c b hrel => exact hz a hslot hfree
  | abandon c b hrel => exact hz a hslot hfree
  | pop b requested hnone hreq => exact hz a hslot hfree
  | discard b hrec hslot' => exact hz a hslot hfree

@[simps] def store (l : Ledger Caller β) (a : Pvoid) (content : β) : Ledger Caller β :=
  { l with memory := Function.update l.memory a content }

section Outside

omit [Zero β]

theorem claim_outside {l : Ledger Caller β} {b x : Buffer} (hfree : ¬ l.used b)
    (hx : l.Owned x .outside) : (l.claim b).Owned x .outside := by
  have hne : x ≠ b := by
    intro heq
    subst heq
    exact hfree (hx.used.mpr (by simp))
  exact hx.congr (by simp [claim, hne]) (fun _ => rfl) (fun _ => Iff.rfl) rfl Iff.rfl

/-- A claimed buffer that had no owner is outside. -/
theorem claim_owned {l : Ledger Caller β} {b x : Buffer} {owner : Owner Caller}
    (hfree : ¬ l.used b) (ho : l.Owned x owner) :
    (l.claim b).Owned x (if x = b then .outside else owner) := by
  by_cases hx : x = b
  · subst hx
    obtain rfl : owner = .idle := by
      by_contra hne
      exact hfree (ho.used.mpr hne)
    rw [if_pos rfl]
    exact ⟨by simp [claim], by simpa [claim] using ho.held, by simpa [claim] using ho.releasing,
      by simpa [claim] using ho.requested, by simpa [claim] using ho.reclaiming⟩
  · rw [if_neg hx]
    exact ho.congr (by simp [claim, hx]) (fun _ => rfl) (fun _ => Iff.rfl) rfl Iff.rfl

/-- A buffer from outside whose release is requested is queued. -/
theorem request_owned {l : Ledger Caller β} {b x : Buffer} {owner : Owner Caller}
    (hb : l.Owned b .outside) (ho : l.Owned x owner) :
    (l.request b).Owned x (if x = b then .queued else owner) := by
  by_cases hx : x = b
  · subst hx
    rw [if_pos rfl]
    exact ⟨by simpa [request] using hb.used, by simpa [request] using hb.held,
      by simpa [request] using hb.releasing, by simpa [request] using hb.requested,
      by simpa [request] using hb.reclaiming⟩
  · rw [if_neg hx]
    exact ho.congr Iff.rfl (fun _ => rfl) (fun _ => Iff.rfl) (by simp [request, hx]) Iff.rfl

theorem request_owned_of_ne {l : Ledger Caller β} {b x : Buffer} {owner : Owner Caller}
    (hx : x ≠ b) (ho : l.Owned x owner) : (l.request b).Owned x owner :=
  ho.congr Iff.rfl (fun _ => rfl) (fun _ => Iff.rfl) (by simp [request, hx]) Iff.rfl

theorem store_owned {l : Ledger Caller β} {a : Pvoid} {content : β} {x : Buffer}
    {owner : Owner Caller} (ho : l.Owned x owner) : (l.store a content).Owned x owner :=
  ho.congr Iff.rfl (fun _ => rfl) (fun _ => Iff.rfl) rfl Iff.rfl

end Outside

omit [DecidableEq Caller] [Zero β] in
theorem claim_sound {l : Ledger Caller β} (hl : l.Sound) {b : Buffer} (hb : l.slot b) :
    (l.claim b).Sound := by
  refine ⟨?_, hl.held_slot, hl.disjoint⟩
  intro x hx
  rcases hx with hx | rfl
  · exact hl.used_slot x hx
  · exact hb

omit [Zero β] in
theorem claim_tracked {l : Ledger Caller β} {b : Buffer} (hfree : ¬ l.used b)
    {type : AllocationType} (ht : l.Tracked type) : (l.claim b).Tracked type := by
  intro a
  obtain ⟨owner, howned⟩ := ht a
  exact ⟨_, claim_owned hfree howned⟩

omit [Zero β] in
theorem request_tracked {l : Ledger Caller β} {b : Buffer} {type : AllocationType}
    (hb : b.1 = type → l.Owned b .outside) (ht : l.Tracked type) :
    (l.request b).Tracked type := by
  intro a
  obtain ⟨owner, howned⟩ := ht a
  by_cases htype : b.1 = type
  · exact ⟨_, request_owned (hb htype) howned⟩
  · refine ⟨owner, request_owned_of_ne ?_ howned⟩
    intro heq
    subst heq
    exact htype rfl

end Ledger

end NovaHypervisor

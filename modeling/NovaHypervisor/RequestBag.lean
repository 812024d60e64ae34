import NovaHypervisor.RequestList
import Mathlib.Data.Multiset.AddSub

/-!
What the request queue is for: a bag of bounded size. Every call on the queue is a
step of the bag with the same reply, so over any sequence of calls the accepted
requests are the popped ones and the pending ones.
-/
namespace NovaHypervisor

inductive RequestCall (α : Type*) where
  | insert (item : α)
  | pop
  | getListSize

inductive RequestReply (α : Type*) where
  | inserted (accepted : Bool)
  | popped (item : α)
  | size (n : ℕ)

/-- A bag that refuses an item when it holds `bound` of them, and serves any of its
items, or `absent` when it has none. -/
inductive BagStep {α : Type*} (bound : ℕ) (absent : α) :
    Multiset α → RequestCall α → RequestReply α → Multiset α → Prop
  | refuse (m : Multiset α) (item : α) : m.card = bound →
      BagStep bound absent m (.insert item) (.inserted false) m
  | accept (m : Multiset α) (item : α) : m.card < bound →
      BagStep bound absent m (.insert item) (.inserted true) (item ::ₘ m)
  | serve (m : Multiset α) (item : α) :
      BagStep bound absent (item ::ₘ m) .pop (.popped item) m
  | serveEmpty : BagStep bound absent 0 .pop (.popped absent) 0
  | size (m : Multiset α) : BagStep bound absent m .getListSize (.size m.card) m

namespace RequestList

variable {α : Type*}

def call [Inhabited α] (l : RequestList α) : RequestCall α → RequestReply α × RequestList α
  | .insert item => (.inserted (l.insert item).1, (l.insert item).2)
  | .pop => (.popped l.pop.1, l.pop.2)
  | .getListSize => (.size l.getListSize, l)

def bag (l : RequestList α) : Multiset α := l.pending

theorem card_bag (l : RequestList α) : l.bag.card = l.itemsCount := by
  rw [bag, Multiset.coe_card, pending, List.length_map, l.count_eq, List.countP_eq_length_filter]

theorem itemsCount_le (l : RequestList α) : l.itemsCount ≤ maxAllocationRequests := by
  rw [l.count_eq, ← l.length_eq]
  exact List.countP_le_length

theorem bag_eq_zero_iff (l : RequestList α) : l.bag = 0 ↔ l.itemsCount = 0 := by
  rw [← Multiset.card_eq_zero, card_bag]

/-- Every call on the queue is a step of the bag. -/
theorem call_bagStep [Inhabited α] (l : RequestList α) (c : RequestCall α) :
    BagStep maxAllocationRequests default l.bag c (l.call c).1 (l.call c).2.bag := by
  cases c with
  | insert item =>
    cases haccepted : (l.insert item).1 with
    | false =>
      have hfull := (insert_eq_false_iff l item).mp haccepted
      simp only [call, haccepted, insert_of_false l item haccepted]
      exact .refuse l.bag item ((card_bag l).trans hfull)
    | true =>
      have hroom : l.itemsCount ≠ maxAllocationRequests := by
        intro hfull
        rw [(insert_eq_false_iff l item).mpr hfull] at haccepted
        exact absurd haccepted (by decide)
      have hbag : (l.insert item).2.bag = item ::ₘ l.bag :=
        Multiset.coe_eq_coe.mpr (pending_insert l item haccepted)
      simp only [call, haccepted, hbag]
      refine .accept l.bag item ?_
      rw [card_bag]
      exact lt_of_le_of_ne (itemsCount_le l) hroom
  | pop =>
    by_cases hempty : l.itemsCount = 0
    · have hpop : l.pop = (default, l) := if_pos hempty
      simp only [call, hpop, (bag_eq_zero_iff l).mpr hempty]
      exact .serveEmpty
    · have hbag : l.bag = l.pop.1 ::ₘ l.pop.2.bag :=
        Multiset.coe_eq_coe.mpr (pending_pop l hempty)
      rw [hbag]
      exact .serve l.pop.2.bag l.pop.1
  | getListSize =>
    have hsize : l.getListSize = l.bag.card := (card_bag l).symm
    simp only [call, hsize]
    exact .size l.bag

/-- A pop from a nonempty queue does not look at the default request. -/
theorem pop_congr (l : RequestList α) (h : l.itemsCount ≠ 0) (d d' : Inhabited α) :
    @pop α d l = @pop α d' l := by
  unfold pop
  rw [if_neg h, if_neg h]
  split
  · rename_i hnone
    obtain ⟨r, hr, hused⟩ := exists_used l h
    have := (General.updateFirst_eq_none _ _ _).mp hnone r hr
    simp [hused] at this
  · rfl

end RequestList

/-- A queue with what was accepted into it and what was popped while it had requests. -/
structure RequestHistory (α : Type*) where
  queue : RequestList α
  inserted : Multiset α
  popped : Multiset α

namespace RequestHistory

variable {α : Type*} [Inhabited α]

def initial : RequestHistory α := ⟨RequestList.empty, 0, 0⟩

def step (h : RequestHistory α) (c : RequestCall α) : RequestHistory α :=
  match c with
  | .insert item =>
    ⟨(h.queue.call c).2, if (h.queue.insert item).1 then item ::ₘ h.inserted else h.inserted,
      h.popped⟩
  | .pop =>
    ⟨(h.queue.call c).2, h.inserted,
      if h.queue.requests.any (·.isUsed) then h.queue.pop.1 ::ₘ h.popped else h.popped⟩
  | .getListSize => ⟨(h.queue.call c).2, h.inserted, h.popped⟩

def run (calls : List (RequestCall α)) : RequestHistory α := calls.foldl step initial

@[simp] theorem step_queue (h : RequestHistory α) (c : RequestCall α) :
    (h.step c).queue = (h.queue.call c).2 := by
  cases c <;> rfl

/-- A call adds to the history what it adds to the bag, or moves what it takes from it. -/
theorem step_inserted (h : RequestHistory α) (c : RequestCall α)
    (hh : h.inserted = h.popped + h.queue.bag) :
    (h.step c).inserted = (h.step c).popped + (h.step c).queue.bag := by
  cases c with
  | insert item =>
    rw [step_queue]
    simp only [step, RequestList.call]
    cases haccepted : (h.queue.insert item).1 with
    | false =>
      rw [RequestList.insert_of_false _ _ haccepted]
      exact hh
    | true =>
      have hbag : (h.queue.insert item).2.bag = item ::ₘ h.queue.bag :=
        Multiset.coe_eq_coe.mpr (RequestList.pending_insert _ item haccepted)
      rw [hbag, Multiset.add_cons, ← hh]
      rfl
  | pop =>
    rw [step_queue]
    simp only [step, RequestList.call]
    by_cases hempty : h.queue.itemsCount = 0
    · have hnone : h.queue.requests.any (·.isUsed) = false := by
        rw [h.queue.count_eq, List.countP_eq_zero] at hempty
        simpa using hempty
      have hpop : h.queue.pop = (default, h.queue) := if_pos hempty
      rw [hnone, hpop]
      exact hh
    · have hsome : h.queue.requests.any (·.isUsed) = true := by
        simpa using RequestList.exists_used _ hempty
      have hbag : h.queue.bag = h.queue.pop.1 ::ₘ h.queue.pop.2.bag :=
        Multiset.coe_eq_coe.mpr (RequestList.pending_pop _ hempty)
      rw [hsome, if_pos rfl, Multiset.cons_add, ← Multiset.add_cons, ← hbag]
      exact hh
  | getListSize => exact hh

theorem foldl_step_inserted (calls : List (RequestCall α)) (h : RequestHistory α)
    (hh : h.inserted = h.popped + h.queue.bag) :
    (calls.foldl step h).inserted =
      (calls.foldl step h).popped + (calls.foldl step h).queue.bag := by
  induction calls generalizing h with
  | nil => exact hh
  | cons c calls ih =>
    rw [List.foldl_cons]
    exact ih (h.step c) (step_inserted h c hh)

theorem run_inserted (calls : List (RequestCall α)) :
    (run calls).inserted = (run calls).popped + (run calls).queue.bag := by
  apply foldl_step_inserted
  simp [initial, RequestList.bag]

/-- The request queue is a bounded bag, whatever the calls on it were. -/
theorem run_isBoundedBag (calls : List (RequestCall α)) :
    let h := run calls
    h.queue.itemsCount = h.queue.requests.countP (·.isUsed) ∧
      h.queue.itemsCount ≤ maxAllocationRequests ∧
      (∀ item, (h.queue.insert item).1 = false ↔ h.queue.bag.card = maxAllocationRequests) ∧
      (∀ c, BagStep maxAllocationRequests default h.queue.bag c (h.queue.call c).1
        (h.step c).queue.bag) ∧
      h.inserted = h.popped + h.queue.bag ∧
      (h.queue.bag ≠ 0 → ∀ d d' : Inhabited α,
        @RequestList.pop α d h.queue = @RequestList.pop α d' h.queue) := by
  intro h
  refine ⟨h.queue.count_eq, h.queue.itemsCount_le, ?_, ?_, run_inserted calls, ?_⟩
  · intro item
    rw [RequestList.card_bag]
    exact RequestList.insert_eq_false_iff h.queue item
  · intro c
    rw [step_queue]
    exact h.queue.call_bagStep c
  · intro hpending d d'
    refine h.queue.pop_congr ?_ d d'
    rwa [ne_eq, ← RequestList.bag_eq_zero_iff]

end RequestHistory

end NovaHypervisor

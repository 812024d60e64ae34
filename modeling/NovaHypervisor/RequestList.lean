import NovaHypervisor.General.FirstMatch

/-!
The bounded request queue shared by the callers of the pool and its two worker
threads. A request goes to the first unused item and a pop takes the first used
one, so the queue is unordered. The length of the array and the meaning of the
item counter are carried by the type. Every operation holds the queue's lock.
-/
namespace NovaHypervisor

open General

def maxAllocationRequests : ℕ := 100

structure RequestItem (α : Type*) where
  data : α
  isUsed : Bool

structure RequestList (α : Type*) where
  requests : List (RequestItem α)
  itemsCount : ℕ
  length_eq : requests.length = maxAllocationRequests
  count_eq : itemsCount = requests.countP (·.isUsed)

namespace RequestList

variable {α : Type*}

/-- The constructor's zeroed array. -/
def empty [Inhabited α] : RequestList α where
  requests := List.replicate maxAllocationRequests ⟨default, false⟩
  itemsCount := 0
  length_eq := List.length_replicate
  count_eq := by simp [List.countP_replicate]

def insert (l : RequestList α) (item : α) : Bool × RequestList α :=
  if l.itemsCount = maxAllocationRequests then (false, l)
  else
    match h : updateFirst (fun r => !r.isUsed) (fun _ => ⟨item, true⟩) l.requests with
    | none => (false, l)
    | some (_, requests) =>
      (true,
        { requests := requests
          itemsCount := l.itemsCount + 1
          length_eq := (updateFirst_length h).trans l.length_eq
          count_eq := by
            have hcount := countP_updateFirst h (·.isUsed)
            have hfree := (updateFirst_mem h).2
            simp only [Bool.not_eq_eq_eq_not, Bool.not_true] at hfree
            simp only [hfree, Bool.false_eq_true, if_false, if_true] at hcount
            rw [l.count_eq]
            omega })

def pop [Inhabited α] (l : RequestList α) : α × RequestList α :=
  if l.itemsCount = 0 then (default, l)
  else
    match h : updateFirst (fun r => r.isUsed) (fun r => { r with isUsed := false })
        l.requests with
    | none => (default, l)
    | some (item, requests) =>
      (item.data,
        { requests := requests
          itemsCount := l.itemsCount - 1
          length_eq := (updateFirst_length h).trans l.length_eq
          count_eq := by
            have hcount := countP_updateFirst h (·.isUsed)
            have hused := (updateFirst_mem h).2
            simp only [hused, Bool.false_eq_true, if_false, if_true] at hcount
            rw [l.count_eq]
            omega })

def getListSize (l : RequestList α) : ℕ := l.itemsCount

/-- The requests inserted and not yet popped, in array order. -/
def pending (l : RequestList α) : List α :=
  (l.requests.filter (·.isUsed)).map RequestItem.data

@[simp] theorem pending_empty [Inhabited α] : (empty : RequestList α).pending = [] := by
  simp [pending, empty]

/-- A queue whose counter is below the array length has an unused item. -/
private theorem exists_unused (l : RequestList α) (h : l.itemsCount ≠ maxAllocationRequests) :
    ∃ r ∈ l.requests, r.isUsed = false := by
  by_contra hnone
  push Not at hnone
  have hall : l.requests.countP (·.isUsed) = l.requests.length := by
    rw [List.countP_eq_length]
    intro r hr
    simpa using hnone r hr
  rw [← l.count_eq, l.length_eq] at hall
  exact h hall

theorem exists_used (l : RequestList α) (h : l.itemsCount ≠ 0) :
    ∃ r ∈ l.requests, r.isUsed = true := by
  have hpos : 0 < l.requests.countP (·.isUsed) := by
    rw [← l.count_eq]
    omega
  simpa using List.countP_pos_iff.mp hpos

theorem insert_eq_false_iff (l : RequestList α) (item : α) :
    (l.insert item).1 = false ↔ l.itemsCount = maxAllocationRequests := by
  unfold insert
  by_cases hfull : l.itemsCount = maxAllocationRequests
  · simp [hfull]
  · rw [if_neg hfull]
    split
    · rename_i hnone
      obtain ⟨r, hr, hunused⟩ := exists_unused l hfull
      have := (updateFirst_eq_none _ _ _).mp hnone r hr
      simp [hunused] at this
    · simp [hfull]

theorem insert_of_false (l : RequestList α) (item : α) (h : (l.insert item).1 = false) :
    (l.insert item).2 = l := by
  rw [insert, if_pos ((insert_eq_false_iff l item).mp h)]

/-- An accepted request is added to the pending ones and changes no other. -/
theorem pending_insert (l : RequestList α) (item : α) (h : (l.insert item).1 = true) :
    (l.insert item).2.pending.Perm (item :: l.pending) := by
  unfold insert at h ⊢
  by_cases hfull : l.itemsCount = maxAllocationRequests
  · simp [hfull] at h
  · rw [if_neg hfull] at h ⊢
    split at h
    · simp at h
    · rename_i old requests hupdate
      obtain ⟨pre, post, hold, hnew, hunused, _⟩ := updateFirst_split hupdate
      have hunused' : old.isUsed = false := by simpa using hunused
      simp only [pending, hold, hnew, List.filter_append, List.filter_cons, hunused',
        Bool.false_eq_true, if_false, if_true, List.map_append, List.map_cons]
      exact List.perm_middle

/-- A pop from a nonempty queue removes exactly the request that it returns. -/
theorem pending_pop [Inhabited α] (l : RequestList α) (h : l.itemsCount ≠ 0) :
    l.pending.Perm (l.pop.1 :: l.pop.2.pending) := by
  unfold pop
  rw [if_neg h]
  split
  · rename_i hnone
    obtain ⟨r, hr, hused⟩ := exists_used l h
    have := (updateFirst_eq_none _ _ _).mp hnone r hr
    simp [hused] at this
  · rename_i item requests hupdate
    obtain ⟨pre, post, hold, hnew, hused, _⟩ := updateFirst_split hupdate
    simp only [pending, hold, hnew, List.filter_append, List.filter_cons, hused,
      Bool.false_eq_true, if_false, if_true, List.map_append, List.map_cons]
    exact List.perm_middle

end RequestList

end NovaHypervisor

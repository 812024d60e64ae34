import NovaHypervisor.General.Mutex
import NovaHypervisor.RequestBag

/-!
The request queue step by step. `Insert`, `Pop` and `GetListSize` read and write the
array and its counter one access at a time, between the lock and the unlock of a
spinlock that any number of processors share. Every reply is that of whole calls in
the order in which the calls end, whatever the processors' steps do to each other.
-/
namespace NovaHypervisor

open General

/-- The fields of a queue as they are between any two accesses. -/
structure RequestArray (α : Type*) where
  requests : List (RequestItem α)
  itemsCount : ℕ

def RequestList.array {α : Type*} (l : RequestList α) : RequestArray α :=
  ⟨l.requests, l.itemsCount⟩

/-- Where a call stands: before a test, at an index of its loop, or before an access. -/
inductive RequestPc (α : Type*) where
  | insert (item : α)
  | insertScan (item : α) (i : ℕ)
  | insertData (item : α) (i : ℕ)
  | insertUsed (i : ℕ)
  | insertCount
  | insertStore (count : ℕ)
  | inserted (accepted : Bool)
  | pop
  | popScan (i : ℕ)
  | popUsed (i : ℕ)
  | popCount (i : ℕ)
  | popStore (i count : ℕ)
  | popData (i : ℕ)
  | getListSize

namespace RequestPc

variable {α : Type*}

def start : RequestCall α → RequestPc α
  | .insert item => .insert item
  | .pop => .pop
  | .getListSize => .getListSize

/-- One access of the code; the index behind the array ends a loop. -/
def next [Inhabited α] (d : RequestArray α) :
    RequestPc α → (RequestPc α × RequestArray α) ⊕ RequestReply α
  | .insert item =>
    if d.itemsCount = maxAllocationRequests then .inl (.inserted false, d)
    else .inl (.insertScan item 0, d)
  | .insertScan item i =>
    match d.requests[i]? with
    | none => .inl (.inserted false, d)
    | some r =>
      if !r.isUsed then .inl (.insertData item i, d) else .inl (.insertScan item (i + 1), d)
  | .insertData item i =>
    .inl (.insertUsed i,
      { d with requests := d.requests.modify i fun r => { r with data := item } })
  | .insertUsed i =>
    .inl (.insertCount,
      { d with requests := d.requests.modify i fun r => { r with isUsed := true } })
  | .insertCount => .inl (.insertStore d.itemsCount, d)
  | .insertStore count => .inl (.inserted true, { d with itemsCount := count + 1 })
  | .inserted accepted => .inr (.inserted accepted)
  | .pop => if d.itemsCount = 0 then .inr (.popped default) else .inl (.popScan 0, d)
  | .popScan i =>
    match d.requests[i]? with
    | none => .inr (.popped default)
    | some r => if r.isUsed then .inl (.popUsed i, d) else .inl (.popScan (i + 1), d)
  | .popUsed i =>
    .inl (.popCount i,
      { d with requests := d.requests.modify i fun r => { r with isUsed := false } })
  | .popCount i => .inl (.popStore i d.itemsCount, d)
  | .popStore i count => .inl (.popData i, { d with itemsCount := count - 1 })
  | .popData i => .inr (.popped ((d.requests[i]?.map RequestItem.data).getD default))
  | .getListSize => .inr (.size d.itemsCount)

end RequestPc

def requestSection (α : Type*) [Inhabited α] :
    Section (RequestCall α) (RequestPc α) (RequestArray α) (RequestReply α) Unit where
  start := RequestPc.start
  next _ pc d := pc.next d

/-- `Lock` spins for ever, and `DoLock` reads the lock again after the exchange. -/
def spinlock : Mutex.Acquire := ⟨none, true⟩

theorem modify_at_length {α : Type*} (xs : List α) (x : α) (ys : List α) (f : α → α) :
    (xs ++ x :: ys).modify xs.length f = xs ++ f x :: ys := by
  induction xs with
  | nil => rfl
  | cons y xs ih => exact congrArg (y :: ·) ih

section Alone

variable {α : Type*} [Inhabited α] {d' : RequestArray α} {r : RequestReply α}

/-- The rest of `Insert`'s loop is the scan of the rest of the array. -/
theorem insertScan_ends {item : α} (xs : List (RequestItem α)) {ys : List (RequestItem α)}
    {count : ℕ}
    (h : (requestSection α).Ends (.insertScan item xs.length) ⟨xs ++ ys, count⟩ r d') :
    match updateFirst (fun r => !r.isUsed) (fun _ => ⟨item, true⟩) ys with
    | none => r = .inserted false ∧ d' = ⟨xs ++ ys, count⟩
    | some (_, zs) => r = .inserted true ∧ d' = ⟨xs ++ zs, count + 1⟩ := by
  induction ys generalizing xs with
  | nil =>
    have hscan : (requestSection α).next () (.insertScan item xs.length) ⟨xs ++ [], count⟩ =
        .inl (.inserted false, ⟨xs ++ [], count⟩) := by
      simp [requestSection, RequestPc.next]
    exact (h.of_inl hscan).of_inr (e := ()) rfl
  | cons y ys ih =>
    cases hused : y.isUsed with
    | true =>
      have hscan : (requestSection α).next () (.insertScan item xs.length) ⟨xs ++ y :: ys, count⟩ =
          .inl (.insertScan item (xs ++ [y]).length, ⟨(xs ++ [y]) ++ ys, count⟩) := by
        simp [requestSection, RequestPc.next, hused]
      have hrest := ih (xs ++ [y]) (h.of_inl hscan)
      simp only [updateFirst, hused, Bool.not_true, Bool.false_eq_true, if_false]
      rcases hfound : updateFirst (fun r => !r.isUsed) (fun _ => ⟨item, true⟩) ys with _ | ⟨z, zs⟩
      · simp only [hfound, List.append_assoc, List.singleton_append] at hrest
        simpa [hfound] using hrest
      · simp only [hfound, List.append_assoc, List.singleton_append] at hrest
        simpa [hfound] using hrest
    | false =>
      have hscan : (requestSection α).next () (.insertScan item xs.length) ⟨xs ++ y :: ys, count⟩ =
          .inl (.insertData item xs.length, ⟨xs ++ y :: ys, count⟩) := by
        simp [requestSection, RequestPc.next, hused]
      have hdata : (requestSection α).next () (.insertData item xs.length)
          ⟨xs ++ y :: ys, count⟩ =
          .inl (.insertUsed xs.length, ⟨xs ++ { y with data := item } :: ys, count⟩) := by
        simp [requestSection, RequestPc.next, modify_at_length]
      have hmark : (requestSection α).next () (.insertUsed xs.length)
          ⟨xs ++ { y with data := item } :: ys, count⟩ =
          .inl (.insertCount, ⟨xs ++ ⟨item, true⟩ :: ys, count⟩) := by
        simp [requestSection, RequestPc.next, modify_at_length]
      simp only [updateFirst, hused, Bool.not_false, if_true]
      have hends := (((h.of_inl hscan).of_inl hdata).of_inl hmark).of_inl (e := ()) rfl
      exact (hends.of_inl (e := ()) rfl).of_inr (e := ()) rfl

/-- The rest of `Pop`'s loop. -/
theorem popScan_ends (xs : List (RequestItem α)) {ys : List (RequestItem α)} {count : ℕ}
    (h : (requestSection α).Ends (.popScan xs.length) ⟨xs ++ ys, count⟩ r d') :
    match updateFirst (fun r => r.isUsed) (fun r => { r with isUsed := false }) ys with
    | none => r = .popped default ∧ d' = ⟨xs ++ ys, count⟩
    | some (z, zs) => r = .popped z.data ∧ d' = ⟨xs ++ zs, count - 1⟩ := by
  induction ys generalizing xs with
  | nil =>
    have hscan : (requestSection α).next () (.popScan xs.length) ⟨xs ++ [], count⟩ =
        .inr (.popped default) := by
      simp [requestSection, RequestPc.next]
    exact h.of_inr hscan
  | cons y ys ih =>
    cases hused : y.isUsed with
    | false =>
      have hscan : (requestSection α).next () (.popScan xs.length) ⟨xs ++ y :: ys, count⟩ =
          .inl (.popScan (xs ++ [y]).length, ⟨(xs ++ [y]) ++ ys, count⟩) := by
        simp [requestSection, RequestPc.next, hused]
      have hrest := ih (xs ++ [y]) (h.of_inl hscan)
      simp only [updateFirst, hused, Bool.false_eq_true, if_false]
      rcases hfound : updateFirst (fun r : RequestItem α => r.isUsed)
        (fun r => { r with isUsed := false }) ys with _ | ⟨z, zs⟩
      · simp only [hfound, List.append_assoc, List.singleton_append] at hrest
        simpa [hfound] using hrest
      · simp only [hfound, List.append_assoc, List.singleton_append] at hrest
        simpa [hfound] using hrest
    | true =>
      have hscan : (requestSection α).next () (.popScan xs.length) ⟨xs ++ y :: ys, count⟩ =
          .inl (.popUsed xs.length, ⟨xs ++ y :: ys, count⟩) := by
        simp [requestSection, RequestPc.next, hused]
      have hmark : (requestSection α).next () (.popUsed xs.length) ⟨xs ++ y :: ys, count⟩ =
          .inl (.popCount xs.length, ⟨xs ++ { y with isUsed := false } :: ys, count⟩) := by
        simp [requestSection, RequestPc.next, modify_at_length]
      have hdata : (requestSection α).next () (.popData xs.length)
          ⟨xs ++ { y with isUsed := false } :: ys, count - 1⟩ = .inr (.popped y.data) := by
        simp [requestSection, RequestPc.next]
      simp only [updateFirst, hused, if_true]
      have hends := ((h.of_inl hscan).of_inl hmark).of_inl (e := ()) rfl
      exact (hends.of_inl (e := ()) rfl).of_inr hdata

theorem call_ends {l : RequestList α} {c : RequestCall α}
    (h : (requestSection α).Ends (.start c) l.array r d') :
    r = (l.call c).1 ∧ d' = (l.call c).2.array := by
  cases c with
  | insert item =>
    by_cases hfull : l.itemsCount = maxAllocationRequests
    · have htest : (requestSection α).next () (.insert item) l.array =
          .inl (.inserted false, l.array) := if_pos hfull
      have hcall : l.insert item = (false, l) := if_pos hfull
      simp only [RequestList.call, hcall]
      exact (h.of_inl htest).of_inr (e := ()) rfl
    · have htest : (requestSection α).next () (.insert item) l.array =
          .inl (.insertScan item 0, l.array) := if_neg hfull
      have hends := insertScan_ends [] (h.of_inl htest)
      simp only [RequestList.call, RequestList.insert, if_neg hfull]
      split
      · rename_i hnone
        simp only [List.nil_append, hnone] at hends
        exact hends
      · rename_i y zs hsome
        simp only [List.nil_append, hsome] at hends
        exact hends
  | pop =>
    by_cases hempty : l.itemsCount = 0
    · have htest : (requestSection α).next () .pop l.array = .inr (.popped default) :=
        if_pos hempty
      have hcall : l.pop = (default, l) := if_pos hempty
      simp only [RequestList.call, hcall]
      exact h.of_inr htest
    · have htest : (requestSection α).next () .pop l.array = .inl (.popScan 0, l.array) :=
        if_neg hempty
      have hends := popScan_ends [] (h.of_inl htest)
      simp only [RequestList.call, RequestList.pop, if_neg hempty]
      split
      · rename_i hnone
        simp only [List.nil_append, hnone] at hends
        exact hends
      · rename_i y zs hsome
        simp only [List.nil_append, hsome] at hends
        exact hends
  | getListSize => exact h.of_inr (e := ()) rfl

end Alone

namespace RequestList

variable {α : Type*} [Inhabited α]

/-- The replies to a list of calls, and the queue behind them. -/
def replay (l : RequestList α) : List (RequestCall α) → List (RequestReply α) × RequestList α
  | [] => ([], l)
  | c :: calls => ((l.call c).1 :: ((l.call c).2.replay calls).1, ((l.call c).2.replay calls).2)

theorem replay_snoc (l : RequestList α) (calls : List (RequestCall α)) (c : RequestCall α) :
    l.replay (calls ++ [c]) = ((l.replay calls).1 ++ [((l.replay calls).2.call c).1],
      ((l.replay calls).2.call c).2) := by
  induction calls generalizing l with
  | nil => rfl
  | cons c' calls ih => simp only [List.cons_append, replay, ih]

theorem replay_of_serial {ι : Type*} {l : RequestList α}
    {log : List (ι × RequestCall α × RequestReply α)} {d : RequestArray α}
    (h : (requestSection α).Serial l.array log d) :
    log.map (fun entry => entry.2.2) = (l.replay (log.map fun entry => entry.2.1)).1 ∧
      d = (l.replay (log.map fun entry => entry.2.1)).2.array := by
  induction h with
  | nil => exact ⟨rfl, rfl⟩
  | snoc i c _ hends ih =>
    obtain ⟨hreplies, hdata⟩ := ih
    rw [hdata] at hends
    obtain ⟨hreply, hdata'⟩ := call_ends hends
    rw [List.map_append, List.map_append, List.map_singleton, List.map_singleton, replay_snoc,
      hreplies, hreply, hdata']
    exact ⟨rfl, rfl⟩

end RequestList

/-- Whatever the processors interleave, at most one of them is behind the lock, the replies
so far are those of the ended calls one after the other, and while the lock is free the
array is the one that these calls leave. -/
theorem queue_serial_of_run {ι α : Type*} [DecidableEq ι] [Inhabited α]
    {s : Mutex.State ι (RequestCall α) (RequestPc α) (RequestArray α) (RequestReply α)}
    {actions : List (Mutex.Action ι (RequestCall α) Unit)}
    (hrun : Run (Mutex.step spinlock (requestSection α))
      (Mutex.initial RequestList.empty.array) actions s) :
    (∀ i j, (s.phase i).Holds → (s.phase j).Holds → i = j) ∧
    s.log.map (fun entry => entry.2.2) =
      (RequestList.empty.replay (s.log.map fun entry => entry.2.1)).1 ∧
    (s.locked = false → s.data =
      (RequestList.empty.replay (s.log.map fun entry => entry.2.1)).2.array) := by
  have h := Mutex.exclusive_along_run hrun
  obtain ⟨d, hserial, _, hidle⟩ := h.serial
  obtain ⟨hreplies, hdata⟩ := RequestList.replay_of_serial hserial
  refine ⟨h.holder, hreplies, fun hfree => ?_⟩
  rw [← hdata]
  refine hidle fun i k l hinside => ?_
  have hlocked := h.locked i (Mutex.holds_of_inside hinside)
  rw [hfree] at hlocked
  exact absurd hlocked (by decide)

/-- One processor inserts while another one waits for the lock to pop. -/
def insertBesidePop : List (Mutex.Action Bool (RequestCall ℕ) Unit) :=
  [.call true (.insert 5), .call false .pop, .attempt true, .attempt false, .enter true,
    .step true (), .step true (), .attempt false, .step true (), .step true (), .step true (),
    .step true (), .step true (), .attempt false, .release true, .attempt false, .enter false,
    .step false (), .step false (), .step false (), .step false (), .step false (),
    .step false ()]

theorem queue_serial_of_run_insertBesidePop :
    let s := execute (Mutex.step spinlock (requestSection ℕ))
      (Mutex.initial RequestList.empty.array) insertBesidePop
    s.log.length = 2 ∧
    s.log.map (fun entry => entry.2.2) =
      (RequestList.empty.replay (s.log.map fun entry => entry.2.1)).1 :=
  ⟨by decide +kernel, (queue_serial_of_run (guardedRun_of_allowed (by decide +kernel))).2.1⟩

end NovaHypervisor

import Mathlib.Data.List.Nodup

/-!
Monitors of a trace of events. A monitor is a step function without a result for an event
that breaks its law. A trace that several parties wrote is observed for one of them where
the monitor ignores the others' events. The monitor of one resource lets it be acquired
once, used while it is live and released once.
-/
namespace General

variable {ε σ ι : Type*}

/-- The monitor's state after a trace that keeps its law. -/
def observe (step : σ → ε → Option σ) (s : σ) (events : List ε) : Option σ :=
  events.foldlM step s

section Observe

variable {step : σ → ε → Option σ}

@[simp] theorem observe_nil (s : σ) : observe step s [] = some s := rfl

@[simp] theorem observe_cons (s : σ) (e : ε) (events : List ε) :
    observe step s (e :: events) = (step s e).bind fun s' => observe step s' events := rfl

theorem observe_append (s : σ) (events events' : List ε) :
    observe step s (events ++ events') =
      (observe step s events).bind fun s' => observe step s' events' :=
  List.foldlM_append

theorem observe_ite (s : σ) (c : Prop) [Decidable c] (events events' : List ε) :
    observe step s (if c then events else events') =
      if c then observe step s events else observe step s events' :=
  apply_ite (observe step s) c events events'

/-- Events that leave the state alone can be skipped. -/
theorem observe_stays {s : σ} {events : List ε} (h : ∀ e ∈ events, step s e = some s) :
    observe step s events = some s := by
  induction events with
  | nil => rfl
  | cons e events ih =>
    rw [observe_cons, h e List.mem_cons_self]
    exact ih fun e' he' => h e' (List.mem_cons_of_mem e he')

theorem observe_flatMap_stays {s : σ} {l : List ι} {f : ι → List ε}
    (h : ∀ i ∈ l, observe step s (f i) = some s) :
    observe step s (l.flatMap f) = some s := by
  induction l with
  | nil => rfl
  | cons i l ih =>
    rw [List.flatMap_cons, observe_append, h i List.mem_cons_self]
    exact ih fun j hj => h j (List.mem_cons_of_mem i hj)

/-- Of the parts that several parties wrote, only the one that is watched counts. -/
theorem observe_flatMap_of_mem {s : σ} {l : List ι} (hl : l.Nodup) {f : ι → List ε} {i : ι}
    (hi : i ∈ l) (hother : ∀ j ∈ l, j ≠ i → ∀ s', observe step s' (f j) = some s') :
    observe step s (l.flatMap f) = observe step s (f i) := by
  induction l with
  | nil => exact absurd hi List.not_mem_nil
  | cons j l ih =>
    obtain ⟨hj, hl⟩ := List.nodup_cons.mp hl
    rw [List.flatMap_cons, observe_append]
    have htail : ∀ s', i ∉ l → observe step s' (l.flatMap f) = some s' := by
      intro s' hnot
      refine observe_flatMap_stays fun k hk => ?_
      exact hother k (List.mem_cons_of_mem j hk) (fun heq => hnot (heq ▸ hk)) s'
    by_cases heq : j = i
    · subst heq
      rcases observe step s (f j) with _ | s'
      · rfl
      · exact htail s' hj
    · have hmem : i ∈ l := (List.mem_cons.mp hi).resolve_left (fun h => heq h.symm)
      rw [hother j List.mem_cons_self heq s]
      exact ih hl hmem fun k hk => hother k (List.mem_cons_of_mem j hk)

end Observe

inductive ResourceEvent (R : Type*) where
  | acquire (r : R)
  | access (r : R)
  | release (r : R)

inductive ResourceStatus where
  | fresh
  | live
  | released
  deriving DecidableEq

section Resources

variable {R : Type*} [DecidableEq R]

/-- What an event does to one resource. -/
def resourceStep (r : R) (status : ResourceStatus) : ResourceEvent R → Option ResourceStatus
  | .acquire r' =>
    if r' = r then (if status = .fresh then some .live else none) else some status
  | .access r' => if r' = r then (if status = .live then some .live else none) else some status
  | .release r' =>
    if r' = r then (if status = .live then some .released else none) else some status

end Resources

end General

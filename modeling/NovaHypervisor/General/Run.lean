import Mathlib.Tactic.Common

/-!
Runs of a labelled transition system. A step function returns `none` where its
action is not enabled. A guarded run takes only steps that meet a guard on the
state before the step; a plain run is the guarded run of the trivial guard.
-/
namespace General

variable {σ α : Type*}

inductive GuardedRun (step : σ → α → Option σ) (guard : σ → α → Prop) :
    σ → List α → σ → Prop
  | nil (s : σ) : GuardedRun step guard s [] s
  | cons {s s' s'' : σ} {a : α} {as : List α} :
      guard s a → step s a = some s' → GuardedRun step guard s' as s'' →
        GuardedRun step guard s (a :: as) s''

abbrev Run (step : σ → α → Option σ) : σ → List α → σ → Prop :=
  GuardedRun step fun _ _ => True

namespace GuardedRun

variable {step : σ → α → Option σ} {guard : σ → α → Prop}

/-- What one guarded step preserves holds in every state a guarded run reaches. -/
theorem invariant {I : σ → Prop}
    (hstep : ∀ s a s', I s → guard s a → step s a = some s' → I s')
    {s s' : σ} {as : List α} (h : GuardedRun step guard s as s') (hs : I s) : I s' := by
  induction h with
  | nil s => exact hs
  | cons hg hst _ ih => exact ih (hstep _ _ _ hs hg hst)

theorem snoc {s s' s'' : σ} {a : α} {as : List α} (h : GuardedRun step guard s as s')
    (hg : guard s' a) (hst : step s' a = some s'') :
    GuardedRun step guard s (as ++ [a]) s'' := by
  induction h with
  | nil s => exact cons hg hst (nil _)
  | cons hg' hst' _ ih => exact cons hg' hst' (ih hg hst)

theorem append {s s' s'' : σ} {as bs : List α} (h : GuardedRun step guard s as s')
    (h' : GuardedRun step guard s' bs s'') : GuardedRun step guard s (as ++ bs) s'' := by
  induction h with
  | nil s => exact h'
  | cons hg hst _ ih => exact cons hg hst (ih h')

theorem mono {guard' : σ → α → Prop} (hle : ∀ s a, guard s a → guard' s a)
    {s s' : σ} {as : List α} (h : GuardedRun step guard s as s') :
    GuardedRun step guard' s as s' := by
  induction h with
  | nil s => exact nil s
  | cons hg hst _ ih => exact cons (hle _ _ hg) hst ih

end GuardedRun

/-- Take each action that is enabled and skip each one that is not. -/
def execute (step : σ → α → Option σ) (s : σ) (as : List α) : σ :=
  as.foldl (fun s a => (step s a).getD s) s

@[simp] theorem execute_nil (step : σ → α → Option σ) (s : σ) : execute step s [] = s := rfl

@[simp] theorem execute_cons (step : σ → α → Option σ) (s : σ) (a : α) (as : List α) :
    execute step s (a :: as) = execute step ((step s a).getD s) as := rfl

/-- Executing a list of actions is a run of the enabled ones. -/
theorem exists_run_execute (step : σ → α → Option σ) (s : σ) (as : List α) :
    ∃ taken, Run step s taken (execute step s as) := by
  induction as generalizing s with
  | nil => exact ⟨[], GuardedRun.nil s⟩
  | cons a as ih =>
    cases hst : step s a with
    | none =>
      rw [execute_cons, hst]
      exact ih s
    | some s' =>
      obtain ⟨taken, hrun⟩ := ih s'
      rw [execute_cons, hst]
      exact ⟨a :: taken, GuardedRun.cons trivial hst hrun⟩

/-- Every action is enabled and meets the guard where it is taken. -/
def allowed (step : σ → α → Option σ) (guard : σ → α → Prop) [∀ s a, Decidable (guard s a)]
    (s : σ) : List α → Bool
  | [] => true
  | a :: as =>
    match step s a with
    | none => false
    | some s' => decide (guard s a) && allowed step guard s' as

theorem guardedRun_of_allowed {step : σ → α → Option σ} {guard : σ → α → Prop}
    [∀ s a, Decidable (guard s a)] {s : σ} {as : List α} (h : allowed step guard s as = true) :
    GuardedRun step guard s as (execute step s as) := by
  induction as generalizing s with
  | nil => exact GuardedRun.nil s
  | cons a as ih =>
    rw [allowed] at h
    cases hst : step s a with
    | none => simp [hst] at h
    | some s' =>
      simp only [hst, Bool.and_eq_true, decide_eq_true_eq] at h
      rw [execute_cons, hst]
      exact GuardedRun.cons h.1 hst (ih h.2)

end General

import NovaHypervisor.General.Run
import Mathlib.Logic.Function.Basic

/-!
A test-and-set lock around shared data, with any number of threads. The code that holds
the lock is a section: a machine of small steps, each of which reads or writes the data
and may depend on an input. The threads' steps interleave in any way. Only one thread is
in its section at a time, and the results are those of the whole sections one after the
other, in the order in which they end.
-/
namespace General

/-- Code between the taking of a lock and its release: `next` is one step of it, or its end
with a result. -/
structure Section (κ ℓ δ ρ ε : Type*) where
  start : κ → ℓ
  next : ε → ℓ → δ → (ℓ × δ) ⊕ ρ

namespace Section

variable {κ ℓ δ ρ ε : Type*}

/-- What a section can come to without its end. -/
inductive Steps (S : Section κ ℓ δ ρ ε) : ℓ → δ → ℓ → δ → Prop
  | refl (l : ℓ) (d : δ) : Steps S l d l d
  | tail {l l' l'' : ℓ} {d d' d'' : δ} {e : ε} : Steps S l d l' d' →
      S.next e l' d' = .inl (l'', d'') → Steps S l d l'' d''

/-- A section from some point to its end. -/
inductive Ends (S : Section κ ℓ δ ρ ε) : ℓ → δ → ρ → δ → Prop
  | done {l : ℓ} {d : δ} {r : ρ} {e : ε} : S.next e l d = .inr r → Ends S l d r d
  | step {l l' : ℓ} {d d' d'' : δ} {r : ρ} {e : ε} : S.next e l d = .inl (l', d') →
      Ends S l' d' r d'' → Ends S l d r d''

theorem Steps.ends {S : Section κ ℓ δ ρ ε} {l l' : ℓ} {d d' d'' : δ} {r : ρ}
    (h : S.Steps l d l' d') (hends : S.Ends l' d' r d'') : S.Ends l d r d'' := by
  induction h with
  | refl => exact hends
  | tail _ hnext ih => exact ih (.step hnext hends)

/-- The section in an environment whose inputs have a property. -/
def restrict (S : Section κ ℓ δ ρ ε) (p : ε → Prop) : Section κ ℓ δ ρ { e // p e } where
  start := S.start
  next e := S.next e

/-- The section with a record of its steps and of what they read, which no step reads. -/
def traced (S : Section κ ℓ δ ρ ε) : Section κ ℓ (δ × List (ℓ × ε)) ρ ε where
  start := S.start
  next e l d :=
    match S.next e l d.1 with
    | .inl (l', d') => .inl (l', (d', d.2 ++ [(l, e)]))
    | .inr r => .inr r

theorem traced_next_inl {S : Section κ ℓ δ ρ ε} {e : ε} {l l' : ℓ} {d d' : δ × List (ℓ × ε)}
    (h : S.traced.next e l d = .inl (l', d')) :
    S.next e l d.1 = .inl (l', d'.1) ∧ d'.2 = d.2 ++ [(l, e)] := by
  simp only [traced] at h
  rcases hnext : S.next e l d.1 with ⟨l1, d1⟩ | r
  · rw [hnext] at h
    obtain ⟨rfl, rfl⟩ := Prod.mk.inj (Sum.inl.inj h)
    exact ⟨rfl, rfl⟩
  · rw [hnext] at h
    simp at h

theorem traced_next_inr {S : Section κ ℓ δ ρ ε} {e : ε} {l : ℓ} {d : δ × List (ℓ × ε)} {r : ρ}
    (h : S.traced.next e l d = .inr r) : S.next e l d.1 = .inr r := by
  simp only [traced] at h
  rcases hnext : S.next e l d.1 with ⟨l1, d1⟩ | r'
  · rw [hnext] at h
    simp at h
  · rw [hnext] at h
    exact congrArg _ (Sum.inr.inj h)

theorem Ends.of_inl [Subsingleton ε] {S : Section κ ℓ δ ρ ε} {e : ε} {l l' : ℓ} {d d' d'' : δ}
    {r : ρ} (h : S.Ends l d r d'') (hnext : S.next e l d = .inl (l', d')) :
    S.Ends l' d' r d'' := by
  cases h with
  | done hdone =>
    rw [Subsingleton.elim e _, hdone] at hnext
    simp at hnext
  | step hstep hends =>
    rw [Subsingleton.elim e _, hstep] at hnext
    obtain ⟨rfl, rfl⟩ := Prod.mk.inj (Sum.inl.inj hnext)
    exact hends

theorem Ends.of_inr [Subsingleton ε] {S : Section κ ℓ δ ρ ε} {e : ε} {l : ℓ} {d d'' : δ}
    {r r' : ρ} (h : S.Ends l d r d'') (hnext : S.next e l d = .inr r') : r = r' ∧ d'' = d := by
  cases h with
  | done hdone =>
    rw [Subsingleton.elim e _, hdone] at hnext
    exact ⟨Sum.inr.inj hnext, rfl⟩
  | step hstep _ =>
    rw [Subsingleton.elim e _, hstep] at hnext
    simp at hnext

/-- Whole sections one after the other, with the calls and the results of each. -/
inductive Serial {ι : Type*} (S : Section κ ℓ δ ρ ε) (d : δ) : List (ι × κ × ρ) → δ → Prop
  | nil : Serial S d [] d
  | snoc {log : List (ι × κ × ρ)} {d' d'' : δ} {r : ρ} (i : ι) (k : κ) :
      Serial S d log d' → S.Ends (S.start k) d' r d'' → Serial S d (log ++ [(i, k, r)]) d''

end Section

namespace Mutex

/-- How a thread takes the lock: how often it tries, if not for ever, and whether it reads
the lock again after it has taken it. -/
structure Acquire where
  limit : Option ℕ
  rereads : Bool

def Acquire.exhausted (A : Acquire) (attempts : ℕ) : Bool := A.limit.any (· ≤ attempts)

inductive Phase (κ ℓ : Type*) where
  | idle
  | waiting (k : κ) (attempts : ℕ)
  | taken (k : κ)
  | inside (k : κ) (l : ℓ)
  | leaving (k : κ)

/-- The phases in which a thread has the lock. -/
def Phase.Holds {κ ℓ : Type*} : Phase κ ℓ → Prop
  | .idle => False
  | .waiting _ _ => False
  | .taken _ => True
  | .inside _ _ => True
  | .leaving _ => True

theorem holds_of_inside {κ ℓ : Type*} {phase : Phase κ ℓ} {k : κ} {l : ℓ}
    (h : phase = .inside k l) : phase.Holds := by
  rw [h]
  trivial

structure State (ι κ ℓ δ ρ : Type*) where
  locked : Bool
  data : δ
  phase : ι → Phase κ ℓ
  /-- The sections that have ended, with their results. No step reads it. -/
  log : List (ι × κ × ρ)

inductive Action (ι κ ε : Type*) where
  | call (i : ι) (k : κ)
  | attempt (i : ι)
  | giveUp (i : ι)
  | enter (i : ι)
  | step (i : ι) (e : ε)
  | release (i : ι)

variable {ι κ ℓ δ ρ ε : Type*} [DecidableEq ι]

def State.setPhase (s : State ι κ ℓ δ ρ) (i : ι) (phase : Phase κ ℓ) : State ι κ ℓ δ ρ :=
  { s with phase := Function.update s.phase i phase }

def step (A : Acquire) (S : Section κ ℓ δ ρ ε) (s : State ι κ ℓ δ ρ) :
    Action ι κ ε → Option (State ι κ ℓ δ ρ)
  | .call i k =>
    match s.phase i with
    | .idle => some (s.setPhase i (.waiting k 0))
    | _ => none
  | .attempt i =>
    match s.phase i with
    | .waiting k attempts =>
      if A.exhausted attempts then none
      -- the exchange leaves a lock that was taken as it was
      else if s.locked then some (s.setPhase i (.waiting k (attempts + 1)))
      else some { s.setPhase i (.taken k) with locked := true }
    | _ => none
  | .giveUp i =>
    match s.phase i with
    | .waiting _ attempts => if A.exhausted attempts then some (s.setPhase i .idle) else none
    | _ => none
  | .enter i =>
    match s.phase i with
    | .taken k =>
      if A.rereads && !s.locked then some (s.setPhase i (.waiting k 0))
      else some (s.setPhase i (.inside k (S.start k)))
    | _ => none
  | .step i e =>
    match s.phase i with
    | .inside k l =>
      match S.next e l s.data with
      | .inl (l', data) => some { s.setPhase i (.inside k l') with data := data }
      | .inr r => some { s.setPhase i (.leaving k) with log := s.log ++ [(i, k, r)] }
    | _ => none
  | .release i =>
    match s.phase i with
    | .leaving _ => some { s.setPhase i .idle with locked := false }
    | _ => none

def initial (data : δ) : State ι κ ℓ δ ρ := ⟨false, data, fun _ => .idle, []⟩

/-- One thread holds the lock if it is taken, and the data is what the sections that have
ended made of it, with what the thread inside has done since. -/
structure Exclusive (S : Section κ ℓ δ ρ ε) (data : δ) (s : State ι κ ℓ δ ρ) : Prop where
  holder : ∀ i j, (s.phase i).Holds → (s.phase j).Holds → i = j
  locked : ∀ i, (s.phase i).Holds → s.locked = true
  free : s.locked = true → ∃ i, (s.phase i).Holds
  serial : ∃ d, S.Serial data s.log d ∧
    (∀ i k l, s.phase i = .inside k l → S.Steps (S.start k) d l s.data) ∧
    ((∀ i k l, s.phase i ≠ .inside k l) → s.data = d)

omit [DecidableEq ι] in
theorem exclusive_initial (S : Section κ ℓ δ ρ ε) (data : δ) :
    Exclusive S data (initial data : State ι κ ℓ δ ρ) := by
  refine ⟨fun i j h => h.elim, fun i h => h.elim, fun h => ?_, data, .nil, ?_, fun _ => rfl⟩
  · simp [initial] at h
  · intro i k l h
    simp [initial] at h

namespace Exclusive

variable {A : Acquire} {S : Section κ ℓ δ ρ ε} {data : δ} {s s' : State ι κ ℓ δ ρ}

/-- A thread that does not hold the lock moves between phases that do not. -/
theorem outside (h : Exclusive S data s) {i : ι} {phase : Phase κ ℓ}
    (hold : ¬ (s.phase i).Holds) (hnew : ¬ phase.Holds) :
    Exclusive S data (s.setPhase i phase) := by
  have hphase : ∀ j, ((s.setPhase i phase).phase j).Holds → (s.phase j).Holds := by
    intro j hj
    by_cases hji : j = i
    · subst hji
      simp only [State.setPhase, Function.update_self] at hj
      exact absurd hj hnew
    · simpa [State.setPhase, hji] using hj
  have hinside : ∀ j k l, (s.setPhase i phase).phase j = .inside k l ↔ s.phase j = .inside k l := by
    intro j k l
    by_cases hji : j = i
    · subst hji
      simp only [State.setPhase, Function.update_self]
      constructor
      · intro heq
        exact absurd (by rw [heq]; trivial) hnew
      · intro heq
        exact absurd (by rw [heq]; trivial) hold
    · simp [State.setPhase, hji]
  obtain ⟨d, hserial, hsteps, hidle⟩ := h.serial
  refine ⟨fun j k hj hk => h.holder j k (hphase j hj) (hphase k hk),
    fun j hj => h.locked j (hphase j hj), ?_, d, hserial, ?_, ?_⟩
  · intro hlocked
    obtain ⟨j, hj⟩ := h.free hlocked
    refine ⟨j, ?_⟩
    have hji : j ≠ i := fun heq => hold (heq ▸ hj)
    simpa [State.setPhase, hji] using hj
  · intro j k l hj
    exact hsteps j k l ((hinside j k l).mp hj)
  · intro hnone
    exact hidle fun j k l hj => hnone j k l ((hinside j k l).mpr hj)

/-- The thread that holds the lock moves between phases that do. -/
theorem inside (h : Exclusive S data s) {i : ι} (hold : (s.phase i).Holds) (phase : Phase κ ℓ)
    (data' : δ) (log : List (ι × κ × ρ)) (hnew : phase.Holds)
    (hserial : ∃ d, S.Serial data log d ∧
      (∀ k l, phase = .inside k l → S.Steps (S.start k) d l data') ∧
      ((∀ k l, phase ≠ .inside k l) → data' = d)) :
    Exclusive S data { s.setPhase i phase with data := data', log := log } := by
  have hother : ∀ j, j ≠ i → ¬ (s.phase j).Holds := fun j hji hj => hji (h.holder j i hj hold)
  have hholds : ∀ j, ((s.setPhase i phase).phase j).Holds → j = i := by
    intro j hj
    by_contra hji
    refine hother j hji ?_
    simpa [State.setPhase, hji] using hj
  have hself : (s.setPhase i phase).phase i = phase := by simp [State.setPhase]
  obtain ⟨d, hlog, hsteps, hidle⟩ := hserial
  refine ⟨fun j k hj hk => (hholds j hj).trans (hholds k hk).symm,
    fun _ _ => h.locked i hold, fun _ => ⟨i, ?_⟩, d, hlog, ?_, ?_⟩
  · exact hself.symm ▸ hnew
  · intro j k l hj
    have hji : j = i := hholds j (holds_of_inside hj)
    subst hji
    exact hsteps k l (hself.symm.trans hj)
  · intro hnone
    exact hidle fun k l hphase => hnone i k l (hself.trans hphase)

/-- A thread takes the lock that none has. -/
theorem acquire (h : Exclusive S data s) (hfree : ¬ s.locked = true) (i : ι) (k : κ) :
    Exclusive S data { s.setPhase i (.taken k) with locked := true } := by
  have hnone : ∀ j, ¬ (s.phase j).Holds := fun j hj => hfree (h.locked j hj)
  have hphases : ∀ j, ((s.setPhase i (.taken k)).phase j).Holds → j = i := by
    intro j hj
    by_contra hji
    refine hnone j ?_
    simpa [State.setPhase, hji] using hj
  obtain ⟨d, hserial, _, hidle⟩ := h.serial
  refine ⟨fun j l hj hl => (hphases j hj).trans (hphases l hl).symm, fun _ _ => rfl,
    fun _ => ⟨i, by simp [State.setPhase, Phase.Holds]⟩, d, hserial, ?_, ?_⟩
  · intro j k' l hj
    have hji : j = i := hphases j (holds_of_inside hj)
    subst hji
    simp [State.setPhase] at hj
  · intro _
    exact hidle fun j k' l hj => hnone j (holds_of_inside hj)

omit [DecidableEq ι] in
/-- While the holder of the lock is not inside, the data is that of the ended sections. -/
theorem serial_data (h : Exclusive S data s) {i : ι} (hold : (s.phase i).Holds)
    (hnot : ∀ k l, s.phase i ≠ .inside k l) : S.Serial data s.log s.data := by
  obtain ⟨d, hserial, _, hidle⟩ := h.serial
  have hdata : s.data = d := by
    refine hidle fun j k l hj => ?_
    have hji : j = i := h.holder j i (holds_of_inside hj) hold
    subst hji
    exact hnot k l hj
  rw [hdata]
  exact hserial

theorem enter (h : Exclusive S data s) {i : ι} {k : κ} (hphase : s.phase i = .taken k) :
    Exclusive S data (s.setPhase i (.inside k (S.start k))) := by
  have hold : (s.phase i).Holds := by
    rw [hphase]
    trivial
  have hserial := h.serial_data hold fun k' l hinside => by simp [hphase] at hinside
  refine h.inside hold (.inside k (S.start k)) s.data s.log trivial ⟨s.data, hserial, ?_, ?_⟩
  · intro k' l hinside
    obtain ⟨rfl, rfl⟩ := Phase.inside.inj hinside
    exact .refl _ _
  · intro _
    rfl

theorem advance (h : Exclusive S data s) {i : ι} {k : κ} {l l' : ℓ} {e : ε} {data' : δ}
    (hphase : s.phase i = .inside k l) (hnext : S.next e l s.data = .inl (l', data')) :
    Exclusive S data { s.setPhase i (.inside k l') with data := data' } := by
  obtain ⟨d, hserial, hsteps, _⟩ := h.serial
  refine h.inside (holds_of_inside hphase) (.inside k l') data' s.log trivial
    ⟨d, hserial, ?_, ?_⟩
  · intro k' l'' hinside
    obtain ⟨rfl, rfl⟩ := Phase.inside.inj hinside
    exact (hsteps i k l hphase).tail hnext
  · intro hnone
    exact absurd rfl (hnone k l')

theorem finish (h : Exclusive S data s) {i : ι} {k : κ} {l : ℓ} {e : ε} {r : ρ}
    (hphase : s.phase i = .inside k l) (hnext : S.next e l s.data = .inr r) :
    Exclusive S data { s.setPhase i (.leaving k) with log := s.log ++ [(i, k, r)] } := by
  obtain ⟨d, hserial, hsteps, _⟩ := h.serial
  refine h.inside (holds_of_inside hphase) (.leaving k) s.data (s.log ++ [(i, k, r)]) trivial
    ⟨s.data, hserial.snoc i k ((hsteps i k l hphase).ends (.done hnext)), ?_, fun _ => rfl⟩
  intro k' l' hinside
  simp at hinside

theorem release (h : Exclusive S data s) {i : ι} {k : κ} (hphase : s.phase i = .leaving k) :
    Exclusive S data { s.setPhase i .idle with locked := false } := by
  have hold : (s.phase i).Holds := by
    rw [hphase]
    trivial
  have hnone : ∀ j, ¬ ((s.setPhase i .idle).phase j).Holds := by
    intro j hj
    by_cases hji : j = i
    · subst hji
      simp [State.setPhase, Phase.Holds] at hj
    · refine hji (h.holder j i ?_ hold)
      simpa [State.setPhase, hji] using hj
  have hserial := h.serial_data hold fun k' l hinside => by simp [hphase] at hinside
  refine ⟨fun j _ hj => (hnone j hj).elim, fun j hj => (hnone j hj).elim, fun hlocked => ?_,
    s.data, hserial, ?_, fun _ => rfl⟩
  · simp at hlocked
  · intro j k' l hj
    exact (hnone j (holds_of_inside hj)).elim

end Exclusive

/-- What a step does, with the phase that it is taken in. -/
inductive Outcome (A : Acquire) (S : Section κ ℓ δ ρ ε) (s : State ι κ ℓ δ ρ) :
    Action ι κ ε → State ι κ ℓ δ ρ → Prop
  | call {i : ι} (k : κ) : s.phase i = .idle →
      Outcome A S s (.call i k) (s.setPhase i (.waiting k 0))
  | retry {i : ι} {k : κ} {attempts : ℕ} : s.phase i = .waiting k attempts →
      ¬ A.exhausted attempts = true →
      Outcome A S s (.attempt i) (s.setPhase i (.waiting k (attempts + 1)))
  | acquire {i : ι} {k : κ} {attempts : ℕ} : s.phase i = .waiting k attempts →
      ¬ A.exhausted attempts = true → ¬ s.locked = true →
      Outcome A S s (.attempt i) { s.setPhase i (.taken k) with locked := true }
  | giveUp {i : ι} {k : κ} {attempts : ℕ} : s.phase i = .waiting k attempts →
      Outcome A S s (.giveUp i) (s.setPhase i .idle)
  | reread {i : ι} {k : κ} : s.phase i = .taken k → A.rereads = true → s.locked = false →
      Outcome A S s (.enter i) (s.setPhase i (.waiting k 0))
  | enter {i : ι} {k : κ} : s.phase i = .taken k →
      Outcome A S s (.enter i) (s.setPhase i (.inside k (S.start k)))
  | advance {i : ι} {k : κ} {l l' : ℓ} {e : ε} {data : δ} : s.phase i = .inside k l →
      S.next e l s.data = .inl (l', data) →
      Outcome A S s (.step i e) { s.setPhase i (.inside k l') with data := data }
  | finish {i : ι} {k : κ} {l : ℓ} {e : ε} {r : ρ} : s.phase i = .inside k l →
      S.next e l s.data = .inr r →
      Outcome A S s (.step i e) { s.setPhase i (.leaving k) with log := s.log ++ [(i, k, r)] }
  | release {i : ι} {k : κ} : s.phase i = .leaving k →
      Outcome A S s (.release i) { s.setPhase i .idle with locked := false }

theorem step_cases {A : Acquire} {S : Section κ ℓ δ ρ ε} {s s' : State ι κ ℓ δ ρ}
    {action : Action ι κ ε} (hstep : step A S s action = some s') : Outcome A S s action s' := by
  cases action with
  | call i k =>
    simp only [step] at hstep
    split at hstep
    · rename_i hphase
      obtain rfl := Option.some.inj hstep
      exact .call k hphase
    · simp at hstep
  | attempt i =>
    simp only [step] at hstep
    split at hstep
    · rename_i k attempts hphase
      split at hstep
      · simp at hstep
      rename_i hmore
      split at hstep
      · obtain rfl := Option.some.inj hstep
        exact .retry hphase hmore
      · rename_i hfree
        obtain rfl := Option.some.inj hstep
        exact .acquire hphase hmore hfree
    · simp at hstep
  | giveUp i =>
    simp only [step] at hstep
    split at hstep
    · rename_i hphase
      split at hstep
      · obtain rfl := Option.some.inj hstep
        exact .giveUp hphase
      · simp at hstep
    · simp at hstep
  | enter i =>
    simp only [step] at hstep
    split at hstep
    · rename_i k hphase
      split at hstep
      · rename_i hreread
        obtain rfl := Option.some.inj hstep
        simp only [Bool.and_eq_true, Bool.not_eq_true'] at hreread
        exact .reread hphase hreread.1 hreread.2
      · obtain rfl := Option.some.inj hstep
        exact .enter hphase
    · simp at hstep
  | step i e =>
    simp only [step] at hstep
    split at hstep
    · rename_i k l hphase
      split at hstep
      · rename_i l' data hnext
        obtain rfl := Option.some.inj hstep
        exact .advance hphase hnext
      · rename_i r hnext
        obtain rfl := Option.some.inj hstep
        exact .finish hphase hnext
    · simp at hstep
  | release i =>
    simp only [step] at hstep
    split at hstep
    · rename_i k hphase
      obtain rfl := Option.some.inj hstep
      exact .release hphase
    · simp at hstep

theorem step_exclusive {A : Acquire} {S : Section κ ℓ δ ρ ε} {data : δ} {s s' : State ι κ ℓ δ ρ}
    (h : Exclusive S data s) {action : Action ι κ ε} (hstep : step A S s action = some s') :
    Exclusive S data s' := by
  cases step_cases hstep with
  | call k hphase => exact h.outside (by rw [hphase]; exact not_false) not_false
  | retry hphase => exact h.outside (by rw [hphase]; exact not_false) not_false
  | acquire _ _ hfree => exact h.acquire hfree _ _
  | giveUp hphase => exact h.outside (by rw [hphase]; exact not_false) not_false
  | reread hphase _ hfree =>
    -- the thread holds the lock, so that it is not free
    have hlocked := h.locked _ (by rw [hphase]; trivial)
    rw [hfree] at hlocked
    exact absurd hlocked (by simp)
  | enter hphase => exact h.enter hphase
  | advance hphase hnext => exact h.advance hphase hnext
  | finish hphase hnext => exact h.finish hphase hnext
  | release hphase => exact h.release hphase

def Action.thread : Action ι κ ε → ι
  | .call i _ => i
  | .attempt i => i
  | .giveUp i => i
  | .enter i => i
  | .step i _ => i
  | .release i => i

def Action.isCall : Action ι κ ε → Bool
  | .call _ _ => true
  | _ => false

/-- The steps that a phase has left, at most, where a section has `μ` left. -/
def Phase.rank (S : Section κ ℓ δ ρ ε) (limit : ℕ) (μ : ℓ → ℕ) : Phase κ ℓ → ℕ
  | .idle => 0
  | .leaving _ => 1
  | .inside _ l => μ l + 2
  | .taken k => μ (S.start k) + 3
  | .waiting k attempts => μ (S.start k) + 4 + (limit - attempts)

section Rank

variable {A : Acquire} {S : Section κ ℓ δ ρ ε} {limit : ℕ} {μ : ℓ → ℕ}
  (hlimit : A.limit = some limit) (hrereads : A.rereads = false)
  (hμ : ∀ e l d l' d', S.next e l d = .inl (l', d') → μ l' < μ l)
include hlimit hrereads hμ

theorem step_rank {s s' : State ι κ ℓ δ ρ} {action : Action ι κ ε} (i : ι)
    (hcall : action.thread = i → action.isCall = false) (hstep : step A S s action = some s') :
    (s'.phase i).rank S limit μ + (if action.thread = i then 1 else 0) ≤
      (s.phase i).rank S limit μ := by
  -- the steps of a thread set its own phase
  have hset : ∀ (j : ι) (phase : Phase κ ℓ),
      (action.thread = j → phase.rank S limit μ + 1 ≤ (s.phase j).rank S limit μ) →
      action.thread = j → s'.phase = Function.update s.phase j phase →
      (s'.phase i).rank S limit μ + (if action.thread = i then 1 else 0) ≤
        (s.phase i).rank S limit μ := by
    intro j phase hrank hthread hphase
    by_cases hij : j = i
    · subst hij
      rw [if_pos hthread, hphase, Function.update_self]
      exact hrank hthread
    · have hother : ¬ action.thread = i := fun heq => hij (hthread.symm.trans heq)
      rw [if_neg hother, hphase, Function.update_of_ne (Ne.symm hij)]
      exact Nat.le_refl _
  cases step_cases hstep with
  | @call j k hphase =>
    have hother : ¬ j = i := by
      intro heq
      have hno := hcall heq
      simp [Action.isCall] at hno
    simp [Action.thread, hother, State.setPhase, Function.update_of_ne (Ne.symm hother)]
  | @retry j k attempts hphase hmore =>
    have hlt : attempts < limit := by
      simpa [Acquire.exhausted, hlimit] using hmore
    refine hset j (.waiting k (attempts + 1)) (fun _ => ?_) rfl rfl
    rw [hphase]
    simp only [Phase.rank]
    omega
  | @acquire j k attempts hphase hmore =>
    have hlt : attempts < limit := by
      simpa [Acquire.exhausted, hlimit] using hmore
    refine hset j (.taken k) (fun _ => ?_) rfl rfl
    rw [hphase]
    simp only [Phase.rank]
    omega
  | @giveUp j k attempts hphase =>
    refine hset j .idle (fun _ => ?_) rfl rfl
    rw [hphase]
    simp only [Phase.rank]
    omega
  | reread _ hreread =>
    rw [hrereads] at hreread
    exact absurd hreread (by simp)
  | @enter j k hphase =>
    refine hset j (.inside k (S.start k)) (fun _ => ?_) rfl rfl
    rw [hphase]
    simp only [Phase.rank]
    omega
  | @advance j k l l' e d' hphase hnext =>
    have hless := hμ _ _ _ _ _ hnext
    refine hset j (.inside k l') (fun _ => ?_) rfl rfl
    rw [hphase]
    simp only [Phase.rank]
    omega
  | @finish j k l e r hphase hnext =>
    refine hset j (.leaving k) (fun _ => ?_) rfl rfl
    rw [hphase]
    simp only [Phase.rank]
    omega
  | @release j k hphase =>
    refine hset j .idle (fun _ => ?_) rfl rfl
    rw [hphase]
    simp only [Phase.rank]
    omega

/-- A thread whose tries are limited is idle again after a fixed number of its own steps,
whether or not the others take any. -/
theorem rank_of_run {s s' : State ι κ ℓ δ ρ} {actions : List (Action ι κ ε)} (i : ι)
    (hrun : GuardedRun (step A S) (fun _ action => action.thread = i → action.isCall = false)
      s actions s') :
    (s'.phase i).rank S limit μ + (actions.filter (·.thread = i)).length ≤
      (s.phase i).rank S limit μ := by
  induction hrun with
  | nil => simp
  | cons hguard hstep _ ih =>
    have hrank := step_rank hlimit hrereads hμ i hguard hstep
    rw [List.filter_cons]
    split at hrank
    · rename_i hthread
      simp only [hthread, decide_true, if_true, List.length_cons]
      omega
    · rename_i hthread
      simp only [hthread, decide_false, Bool.false_eq_true, if_false]
      omega

end Rank

/-- A thread in a call always has a step that it can take. -/
theorem exists_step_of_active (A : Acquire) (S : Section κ ℓ δ ρ ε) (s : State ι κ ℓ δ ρ) (i : ι)
    (e : ε) (hactive : s.phase i ≠ .idle) :
    ∃ action ∈ [.attempt i, .giveUp i, .enter i, .step i e, .release i],
      (step A S s action).isSome = true := by
  cases hphase : s.phase i with
  | idle => exact absurd hphase hactive
  | waiting k attempts =>
    by_cases hexhausted : A.exhausted attempts = true
    · exact ⟨.giveUp i, by simp, by simp [step, hphase, hexhausted]⟩
    · refine ⟨.attempt i, by simp, ?_⟩
      simp only [step, hphase, if_neg hexhausted]
      split <;> rfl
  | taken k =>
    refine ⟨.enter i, by simp, ?_⟩
    simp only [step, hphase]
    split <;> rfl
  | inside k l =>
    refine ⟨.step i e, by simp, ?_⟩
    simp only [step, hphase]
    split <;> rfl
  | leaving k => exact ⟨.release i, by simp, by simp [step, hphase]⟩

/-- In every state that the threads reach, the sections that have ended are serial. -/
theorem exclusive_along_run {A : Acquire} {S : Section κ ℓ δ ρ ε} {data : δ} {s : State ι κ ℓ δ ρ}
    {actions : List (Action ι κ ε)} (hrun : Run (step A S) (initial data) actions s) :
    Exclusive S data s :=
  GuardedRun.invariant (fun _ _ _ h _ hstep => step_exclusive h hstep) hrun
    (exclusive_initial S data)

/-- A run of traced sections, without the traces. -/
def State.forget {τ : Type*} (s : State ι κ ℓ (δ × τ) ρ) : State ι κ ℓ δ ρ :=
  ⟨s.locked, s.data.1, s.phase, s.log⟩

theorem step_traced (A : Acquire) (S : Section κ ℓ δ ρ ε)
    (t : State ι κ ℓ (δ × List (ℓ × ε)) ρ) (action : Action ι κ ε) :
    (step A S.traced t action).map State.forget = step A S t.forget action := by
  obtain ⟨locked, ⟨data, trace⟩, phase, log⟩ := t
  change _ = step A S ⟨locked, data, phase, log⟩ action
  cases action with
  | call i k =>
    simp only [step]
    rcases phase i <;> rfl
  | attempt i =>
    simp only [step]
    rcases phase i with _ | ⟨k, attempts⟩ | _ | _ | _ <;> try rfl
    simp only
    split
    · rfl
    · cases locked <;> rfl
  | giveUp i =>
    simp only [step]
    rcases phase i with _ | ⟨k, attempts⟩ | _ | _ | _ <;> try rfl
    simp only
    split <;> rfl
  | enter i =>
    simp only [step]
    rcases phase i with _ | _ | k | _ | _ <;> try rfl
    simp only
    split <;> rfl
  | step i e =>
    simp only [step]
    rcases phase i with _ | _ | _ | ⟨k, l⟩ | _ <;> try rfl
    simp only [Section.traced]
    rcases S.next e l data with ⟨l', d'⟩ | r <;> rfl
  | release i =>
    simp only [step]
    rcases phase i <;> rfl

/-- Every run has its trace. -/
theorem exists_run_traced {A : Acquire} {S : Section κ ℓ δ ρ ε} {s s' : State ι κ ℓ δ ρ}
    {actions : List (Action ι κ ε)} (hrun : Run (step A S) s actions s')
    {t : State ι κ ℓ (δ × List (ℓ × ε)) ρ} (ht : t.forget = s) :
    ∃ t', Run (step A S.traced) t actions t' ∧ t'.forget = s' := by
  induction hrun generalizing t with
  | nil s => exact ⟨t, .nil t, ht⟩
  | cons hguard hstep _ ih =>
    have hforget := step_traced A S t ‹_›
    rw [ht, hstep] at hforget
    obtain ⟨t1, hstep1, ht1⟩ := Option.map_eq_some_iff.mp hforget
    obtain ⟨t', hrun', ht'⟩ := ih ht1
    exact ⟨t', .cons trivial hstep1 hrun', ht'⟩

end Mutex

end General

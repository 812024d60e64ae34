import Mathlib.Data.Set.Insert

/-!
A set kept by insertions, removals and clearings, seen through the log of them. An
element is in the set exactly when the latest operation that concerns it inserts it.
-/
namespace General

inductive SetOperation (κ : Type*) where
  | insert (k : κ)
  | erase (k : κ)
  | clear
  deriving DecidableEq

namespace SetOperation

variable {κ : Type*}

def apply : SetOperation κ → Set κ → Set κ
  | .insert k, s => Insert.insert k s
  | .erase k, s => s \ {k}
  | .clear, _ => ∅

/-- What a log has made of the empty set. The latest operation comes first. -/
def contents (log : List (SetOperation κ)) : Set κ := log.foldr apply ∅

variable [DecidableEq κ]

def concerns (k : κ) : SetOperation κ → Bool
  | .insert l => l = k
  | .erase l => l = k
  | .clear => true

omit [DecidableEq κ] in
@[simp] theorem contents_nil : contents ([] : List (SetOperation κ)) = ∅ := rfl

omit [DecidableEq κ] in
@[simp] theorem contents_cons (op : SetOperation κ) (log : List (SetOperation κ)) :
    contents (op :: log) = op.apply (contents log) := rfl

/-- An operation that does not concern an element leaves it in or out. -/
theorem mem_apply_of_not_concerns {k : κ} {op : SetOperation κ} (h : op.concerns k = false)
    (s : Set κ) : k ∈ op.apply s ↔ k ∈ s := by
  cases op with
  | insert l =>
    have hne : k ≠ l := fun heq => by simp [concerns, heq] at h
    exact ⟨fun hmem => hmem.resolve_left hne, Or.inr⟩
  | erase l =>
    have hne : k ≠ l := fun heq => by simp [concerns, heq] at h
    exact ⟨fun hmem => hmem.1, fun hmem => ⟨hmem, hne⟩⟩
  | clear => simp [concerns] at h

theorem mem_apply_of_concerns {k : κ} {op : SetOperation κ} (h : op.concerns k = true)
    (s : Set κ) : k ∈ op.apply s ↔ op = .insert k := by
  cases op with
  | insert l =>
    obtain rfl : l = k := by simpa [concerns] using h
    simp [apply]
  | erase l =>
    obtain rfl : l = k := by simpa [concerns] using h
    simp [apply]
  | clear => simp [apply]

theorem mem_contents_iff (log : List (SetOperation κ)) (k : κ) :
    k ∈ contents log ↔ log.find? (concerns k) = some (.insert k) := by
  induction log with
  | nil => simp
  | cons op log ih =>
    rw [contents_cons]
    cases hop : op.concerns k with
    | true => rw [List.find?_cons_of_pos hop, mem_apply_of_concerns hop, Option.some.injEq]
    | false =>
      rw [List.find?_cons_of_neg (by simp [hop]), mem_apply_of_not_concerns hop, ih]

end SetOperation

end General

import Mathlib.Tactic.Common
import Mathlib.Data.List.Basic

/-!
A scan that stops at the first element with a property, changes it and returns
it as it was. The list splits at the changed element, and whatever the change
does not touch is the same list of values before and after.
-/
namespace General

variable {α β : Type*}

def updateFirst (p : α → Bool) (f : α → α) : List α → Option (α × List α)
  | [] => none
  | x :: xs =>
    if p x then some (x, f x :: xs)
    else (updateFirst p f xs).map fun found => (found.1, x :: found.2)

theorem updateFirst_eq_none (p : α → Bool) (f : α → α) (xs : List α) :
    updateFirst p f xs = none ↔ ∀ x ∈ xs, p x = false := by
  induction xs with
  | nil => simp [updateFirst]
  | cons x xs ih =>
    by_cases hp : p x
    · simp [updateFirst, hp]
    · simp [updateFirst, hp, ih]

/-- The changed element is the first one with the property. -/
theorem updateFirst_split {p : α → Bool} {f : α → α} {xs ys : List α} {x : α}
    (h : updateFirst p f xs = some (x, ys)) :
    ∃ pre post, xs = pre ++ x :: post ∧ ys = pre ++ f x :: post ∧ p x = true ∧
      ∀ y ∈ pre, p y = false := by
  induction xs generalizing ys with
  | nil => simp [updateFirst] at h
  | cons z xs ih =>
    by_cases hp : p z
    · simp only [updateFirst, hp, if_true, Option.some.injEq, Prod.mk.injEq] at h
      obtain ⟨rfl, rfl⟩ := h
      exact ⟨[], xs, rfl, rfl, hp, by simp⟩
    · simp only [updateFirst, hp, Bool.false_eq_true, if_false, Option.map_eq_some_iff] at h
      obtain ⟨⟨found, tail⟩, hfound, heq⟩ := h
      obtain ⟨rfl, rfl⟩ := Prod.mk.inj heq
      obtain ⟨pre, post, hxs, hys, hpx, hpre⟩ := ih hfound
      refine ⟨z :: pre, post, by simp [hxs], by simp [hys], hpx, ?_⟩
      simpa [hp] using hpre

theorem updateFirst_mem {p : α → Bool} {f : α → α} {xs ys : List α} {x : α}
    (h : updateFirst p f xs = some (x, ys)) : x ∈ xs ∧ p x = true := by
  obtain ⟨pre, post, rfl, _, hp, _⟩ := updateFirst_split h
  exact ⟨by simp, hp⟩

/-- A projection that the change keeps has the same values in the same order. -/
theorem updateFirst_map {p : α → Bool} {f : α → α} {xs ys : List α} {x : α}
    (h : updateFirst p f xs = some (x, ys)) (g : α → β) (hg : g (f x) = g x) :
    ys.map g = xs.map g := by
  obtain ⟨pre, post, rfl, rfl, _, _⟩ := updateFirst_split h
  simp [hg]

theorem updateFirst_length {p : α → Bool} {f : α → α} {xs ys : List α} {x : α}
    (h : updateFirst p f xs = some (x, ys)) : ys.length = xs.length := by
  obtain ⟨pre, post, rfl, rfl, _, _⟩ := updateFirst_split h
  simp

/-- A count differs only by what the changed element contributes. -/
theorem countP_updateFirst {p : α → Bool} {f : α → α} {xs ys : List α} {x : α}
    (h : updateFirst p f xs = some (x, ys)) (q : α → Bool) :
    ys.countP q + (if q x then 1 else 0) = xs.countP q + (if q (f x) then 1 else 0) := by
  obtain ⟨pre, post, rfl, rfl, _, _⟩ := updateFirst_split h
  simp only [List.countP_append, List.countP_cons]
  omega

/-- With distinct keys, exactly the element of the found key changes. -/
theorem mem_updateFirst_of_nodup {p : α → Bool} {f : α → α} {xs ys : List α} {x : α}
    (h : updateFirst p f xs = some (x, ys)) (key : α → β) (hkey : key (f x) = key x)
    (hnd : (xs.map key).Nodup) (y : α) :
    y ∈ ys ↔ y = f x ∨ (y ∈ xs ∧ key y ≠ key x) := by
  obtain ⟨pre, post, rfl, rfl, _, _⟩ := updateFirst_split h
  simp only [List.map_append, List.map_cons, List.nodup_append, List.nodup_cons,
    List.mem_map, not_exists, not_and, List.mem_cons, ne_eq] at hnd
  obtain ⟨_, ⟨hpost, _⟩, hpre⟩ := hnd
  have hpre' : ∀ z ∈ pre, key z ≠ key x := by
    intro z hz heq
    exact hpre (key z) ⟨z, hz, rfl⟩ (key x) (Or.inl rfl) heq
  simp only [List.mem_append, List.mem_cons]
  constructor
  · intro hy
    rcases hy with hy | rfl | hy
    · exact Or.inr ⟨Or.inl hy, hpre' y hy⟩
    · exact Or.inl rfl
    · exact Or.inr ⟨Or.inr (Or.inr hy), hpost y hy⟩
  · intro hy
    rcases hy with rfl | ⟨hy | rfl | hy, hne⟩
    · exact Or.inr (Or.inl rfl)
    · exact Or.inl hy
    · exact absurd rfl hne
    · exact Or.inr (Or.inr hy)

end General

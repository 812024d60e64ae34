import Mathlib.Data.Vector.Basic
import Mathlib.Tactic.Common

/-!
An array of fixed size that is filled from its start. The index of the next slot grows
with each write and may step back; a write past the array's end is no write at all.
-/
namespace General

variable {α : Type*}

structure BoundedTable (α : Type*) (capacity : ℕ) where
  slots : Vector α capacity
  count : ℕ
  count_le : count ≤ capacity

namespace BoundedTable

variable {capacity : ℕ}

/-- The slots in use. -/
def enabled (t : BoundedTable α capacity) : List α := t.slots.toList.take t.count

def push (t : BoundedTable α capacity) (x : α) : Option (BoundedTable α capacity) :=
  if h : t.count < capacity then some ⟨t.slots.set t.count x h, t.count + 1, h⟩ else none

def stepBack (t : BoundedTable α capacity) : BoundedTable α capacity :=
  ⟨t.slots, t.count - 1, (Nat.sub_le _ _).trans t.count_le⟩

@[simp] theorem length_enabled (t : BoundedTable α capacity) : t.enabled.length = t.count := by
  rw [enabled, List.length_take, Vector.length_toList, Nat.min_eq_left t.count_le]

theorem enabled_stepBack (t : BoundedTable α capacity) :
    t.stepBack.enabled = t.enabled.dropLast := by
  rw [enabled, enabled, List.dropLast_eq_take, List.take_take, List.length_take,
    Vector.length_toList, Nat.min_eq_left t.count_le]
  congr 1
  exact (Nat.min_eq_left (Nat.sub_le _ _)).symm

/-- With `room` free slots the operation succeeds, and `xs` has come to the slots in use. -/
def Appends (op : BoundedTable α capacity → Option (BoundedTable α capacity)) (xs : List α)
    (room : ℕ) : Prop :=
  ∀ t : BoundedTable α capacity, t.count + room ≤ capacity →
    ∃ t', op t = some t' ∧ t'.enabled = t.enabled ++ xs

namespace Appends

variable {op op' : BoundedTable α capacity → Option (BoundedTable α capacity)} {xs ys : List α}
  {room room' : ℕ}

theorem mono (h : Appends op xs room) (hle : room ≤ room') : Appends op xs room' :=
  fun t ht => h t (by omega)

theorem some : Appends (Option.some : BoundedTable α capacity → _) [] 0 :=
  fun t _ => ⟨t, rfl, (List.append_nil _).symm⟩

theorem push (x : α) : Appends (fun t : BoundedTable α capacity => t.push x) [x] 1 := by
  intro t hlt
  refine ⟨_, dif_pos hlt, ?_⟩
  have hlength : t.count < (t.slots.toList.set t.count x).length := by
    rw [List.length_set, Vector.length_toList]
    exact hlt
  rw [enabled, Vector.toList_set, List.take_add_one, List.take_set_of_le le_rfl,
    List.getElem?_eq_getElem hlength, List.getElem_set_self]
  rfl

theorem bind (h : Appends op xs room) (h' : Appends op' ys room') {total : ℕ}
    (hfirst : room ≤ total) (hsecond : xs.length + room' ≤ total) :
    Appends (fun t => (op t).bind op') (xs ++ ys) total := by
  intro t hroom
  obtain ⟨t', hop, henabled⟩ := h t (by omega)
  have hcount : t'.count = t.count + xs.length := by
    rw [← length_enabled, henabled, List.length_append, length_enabled]
  obtain ⟨t'', hop', henabled'⟩ := h' t' (by omega)
  refine ⟨t'', ?_, ?_⟩
  · simp only [hop, Option.bind_some, hop']
  · rw [henabled', henabled, List.append_assoc]

/-- A slot that is written and given back at once needs its room all the same. -/
theorem push_stepBack (x : α) (h : Appends op xs room) :
    Appends (fun t => (t.push x).bind fun t => op t.stepBack) xs (room + 1) := by
  intro t hroom
  obtain ⟨t', hpush, henabled⟩ := push x t (by omega)
  have hback : t'.stepBack.enabled = t.enabled := by
    rw [enabled_stepBack, henabled, List.dropLast_concat]
  have hcount : t'.stepBack.count = t.count := by
    rw [← length_enabled, hback, length_enabled]
  obtain ⟨t'', hop, henabled'⟩ := h t'.stepBack (by omega)
  refine ⟨t'', ?_, by rw [henabled', hback]⟩
  simp only at hpush
  simp only [hpush, Option.bind_some, hop]

/-- A loop appends what its rounds append, one after the other. -/
theorem foldlM {ι : Type*} {round : ι → BoundedTable α capacity → Option (BoundedTable α capacity)}
    {f : ι → List α} (h : ∀ i, Appends (round i) (f i) room) (hlength : ∀ i, (f i).length ≤ room)
    (indices : List ι) :
    Appends (fun t => indices.foldlM (fun t i => round i t) t) (indices.flatMap f)
      (indices.length * room) := by
  induction indices with
  | nil => exact some.mono (Nat.zero_le _)
  | cons i indices ih =>
    have hi := hlength i
    refine (h i).bind ih ?_ ?_
    · rw [List.length_cons, Nat.add_mul]
      omega
    · rw [List.length_cons, Nat.add_mul]
      omega

end Appends

end BoundedTable

end General

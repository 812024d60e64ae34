import Mathlib.Data.List.Count
import Mathlib.Data.List.Nodup
import Mathlib.Logic.Function.Basic

/-!
Parties that each claim a unit of one supply and then a unit of another, one
after the other in some order. A party that finds the first supply empty takes
nothing; one that finds only the second empty has used a unit of the first for
nothing. How many parties succeed does not depend on the order.
-/
namespace General

variable {ι : Type*}

@[ext]
structure Supplies (ι : Type*) where
  first : ℕ
  second : ℕ
  served : ι → Bool

namespace Supplies

variable [DecidableEq ι]

def claim (s : Supplies ι) (i : ι) : Supplies ι :=
  if s.served i ∨ s.first = 0 then s
  else if s.second = 0 then { s with first := s.first - 1 }
  else ⟨s.first - 1, s.second - 1, Function.update s.served i true⟩

def run (s : Supplies ι) (order : List ι) : Supplies ι := order.foldl claim s

@[simp] theorem run_nil (s : Supplies ι) : s.run [] = s := rfl

@[simp] theorem run_cons (s : Supplies ι) (i : ι) (order : List ι) :
    s.run (i :: order) = (s.claim i).run order := rfl

/-- A claim is about one party only. -/
theorem served_claim_of_ne (s : Supplies ι) {i j : ι} (h : j ≠ i) :
    (s.claim i).served j = s.served j := by
  unfold claim
  split
  · rfl
  split
  · rfl
  · exact Function.update_of_ne h _ _

theorem served_claim_of_served (s : Supplies ι) (i : ι) {j : ι} (h : s.served j = true) :
    (s.claim i).served j = true := by
  by_cases hj : j = i
  · subst hj
    rw [claim, if_pos (Or.inl h), h]
  · rw [served_claim_of_ne s hj, h]

theorem served_run_of_notMem (s : Supplies ι) {order : List ι} {j : ι} (h : j ∉ order) :
    (s.run order).served j = s.served j := by
  induction order generalizing s with
  | nil => rfl
  | cons i order ih =>
    rw [List.mem_cons, not_or] at h
    rw [run_cons, ih (s.claim i) h.2, served_claim_of_ne s h.1]

theorem served_run_of_served (s : Supplies ι) (order : List ι) {j : ι} (h : s.served j = true) :
    (s.run order).served j = true := by
  induction order generalizing s with
  | nil => exact h
  | cons i order ih => exact ih (s.claim i) (s.served_claim_of_served i h)

/-- The parties of a list that are not served. -/
def lacking (s : Supplies ι) (order : List ι) : ℕ := order.countP fun i => !s.served i

omit [DecidableEq ι] in
theorem lacking_eq_zero_iff (s : Supplies ι) (order : List ι) :
    s.lacking order = 0 ↔ ∀ i ∈ order, s.served i = true := by
  simp [lacking, List.countP_eq_zero]

omit [DecidableEq ι] in
theorem lacking_congr {s t : Supplies ι} {order : List ι}
    (h : ∀ i ∈ order, t.served i = s.served i) : t.lacking order = s.lacking order := by
  refine List.countP_congr fun i hi => ?_
  rw [h i hi]

omit [DecidableEq ι] in
theorem lacking_lt {s t : Supplies ι} {order : List ι}
    (hle : ∀ i, s.served i = true → t.served i = true) {i : ι} (hi : i ∈ order)
    (hs : s.served i ≠ true) (ht : t.served i = true) : t.lacking order < s.lacking order := by
  have hmono : ∀ l : List ι, t.lacking l ≤ s.lacking l := by
    intro l
    refine List.countP_mono_left fun j _ hj => ?_
    have hlack : t.served j ≠ true := by simpa using hj
    simpa using fun h => hlack (hle j h)
  obtain ⟨pre, post, rfl⟩ := List.append_of_mem hi
  have hpre := hmono pre
  have hpost := hmono post
  simp only [lacking, List.countP_append, List.countP_cons] at hpre hpost ⊢
  simp only [ht, hs, Bool.not_true, Bool.false_eq_true, if_false, Bool.not_false, if_true]
  omega

/-- As many parties are served as both supplies allow, whatever the order. -/
theorem lacking_run (s : Supplies ι) {order : List ι} (hnd : order.Nodup) :
    (s.run order).lacking order + min (s.lacking order) (min s.first s.second) =
      s.lacking order := by
  induction order generalizing s with
  | nil => simp [lacking]
  | cons i order ih =>
    obtain ⟨hi, hnd⟩ := List.nodup_cons.mp hnd
    have htail : (s.claim i).lacking order = s.lacking order := by
      refine lacking_congr fun j hj => s.served_claim_of_ne ?_
      intro heq
      subst heq
      exact hi hj
    have hhead : ((s.claim i).run order).served i = (s.claim i).served i :=
      served_run_of_notMem _ hi
    have hrest := ih (s.claim i) hnd
    have hcount : ∀ t : Supplies ι,
        t.lacking (i :: order) = t.lacking order + if t.served i then 0 else 1 := by
      intro t
      rw [lacking, List.countP_cons, lacking]
      cases t.served i <;> rfl
    rw [htail] at hrest
    rw [run_cons, hcount, hcount, hhead]
    by_cases hserved : s.served i = true
    · have hclaim : s.claim i = s := by rw [claim, if_pos (Or.inl hserved)]
      rw [hclaim] at hrest ⊢
      simp only [hserved, if_true]
      omega
    by_cases hfirst : s.first = 0
    · have hclaim : s.claim i = s := by rw [claim, if_pos (Or.inr hfirst)]
      rw [hclaim] at hrest ⊢
      omega
    have hstep : ¬ (s.served i = true ∨ s.first = 0) := by simp [hserved, hfirst]
    by_cases hsecond : s.second = 0
    · have hclaim : s.claim i = { s with first := s.first - 1 } := by
        rw [claim, if_neg hstep, if_pos hsecond]
      rw [hclaim] at hrest ⊢
      simp only [hserved, Bool.false_eq_true, if_false] at hrest ⊢
      omega
    · have hclaim : s.claim i =
          ⟨s.first - 1, s.second - 1, Function.update s.served i true⟩ := by
        rw [claim, if_neg hstep, if_neg hsecond]
      rw [hclaim] at hrest ⊢
      simp only [hserved, Function.update_self, Bool.false_eq_true, if_false, if_true] at hrest ⊢
      omega

/-- Every party is served exactly when both supplies suffice for all that lack. -/
theorem all_served_iff (s : Supplies ι) {order : List ι} (hnd : order.Nodup) :
    (∀ i ∈ order, (s.run order).served i = true) ↔
      s.lacking order ≤ min s.first s.second := by
  have hrun := s.lacking_run hnd
  rw [← lacking_eq_zero_iff]
  omega

/-- No party is newly served exactly when none lacks or a supply is empty. -/
theorem none_served_iff (s : Supplies ι) {order : List ι} (hnd : order.Nodup) :
    (∀ i ∈ order, (s.run order).served i = true → s.served i = true) ↔
      s.lacking order = 0 ∨ min s.first s.second = 0 := by
  have hrun := s.lacking_run hnd
  have hsame : (∀ i ∈ order, (s.run order).served i = true → s.served i = true) ↔
      (s.run order).lacking order = s.lacking order := by
    constructor
    · intro h
      refine lacking_congr fun i hi => ?_
      rw [Bool.eq_iff_iff]
      exact ⟨h i hi, s.served_run_of_served order⟩
    · intro h i hi hserved
      by_contra hlack
      have hlt := lacking_lt (fun _ => s.served_run_of_served order) hi hlack hserved
      omega
  rw [hsame]
  omega

end Supplies

end General

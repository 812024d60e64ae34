import Mathlib.Data.List.Range
import Mathlib.Tactic.Common

/-!
Pieces that tile an interval: every point of it is in exactly one piece, and no piece
reaches outside. Pieces in a row tile, and tiling every piece tiles the whole.
-/
namespace General

variable {α β : Type*}

/-- Exactly one piece covers each point of `[lo, hi)`, and none covers another point. -/
def Tiles (covers : α → ℕ → Bool) (pieces : List α) (lo hi : ℕ) : Prop :=
  ∀ a, pieces.countP (fun piece => covers piece a) = if lo ≤ a ∧ a < hi then 1 else 0

/-- Each piece starts where the one before it stops. -/
def Contiguous (start stop : α → ℕ) : ℕ → List α → ℕ → Prop
  | lo, [], hi => lo = hi
  | lo, piece :: pieces, hi =>
    start piece = lo ∧ lo ≤ stop piece ∧ Contiguous start stop (stop piece) pieces hi

instance decidableContiguous (start stop : α → ℕ) :
    (lo : ℕ) → (pieces : List α) → (hi : ℕ) → Decidable (Contiguous start stop lo pieces hi)
  | lo, [], hi => inferInstanceAs (Decidable (lo = hi))
  | _, piece :: pieces, hi =>
    have := decidableContiguous start stop (stop piece) pieces hi
    inferInstanceAs (Decidable (_ ∧ _ ∧ _))

def between (start stop : α → ℕ) (piece : α) (a : ℕ) : Bool :=
  decide (start piece ≤ a ∧ a < stop piece)

theorem Contiguous.le {start stop : α → ℕ} {lo hi : ℕ} {pieces : List α}
    (h : Contiguous start stop lo pieces hi) : lo ≤ hi := by
  induction pieces generalizing lo with
  | nil => exact le_of_eq h
  | cons piece pieces ih =>
    obtain ⟨_, hle, hrest⟩ := h
    exact hle.trans (ih hrest)

theorem Contiguous.tiles {start stop : α → ℕ} {lo hi : ℕ} {pieces : List α}
    (h : Contiguous start stop lo pieces hi) : Tiles (between start stop) pieces lo hi := by
  intro a
  induction pieces generalizing lo with
  | nil =>
    have hempty : lo = hi := h
    rw [List.countP_nil, if_neg (by omega)]
  | cons piece pieces ih =>
    obtain ⟨hstart, hle, hrest⟩ := h
    have hle' := hrest.le
    rw [List.countP_cons, ih hrest]
    by_cases hfirst : a < stop piece
    · rw [if_neg (by omega)]
      by_cases hlow : lo ≤ a
      · rw [if_pos (by simp only [between, decide_eq_true_eq]; omega), if_pos (by omega)]
      · rw [if_neg (by simp only [between, decide_eq_true_eq]; omega), if_neg (by omega)]
    · have hnot : ¬ between start stop piece a = true := by
        simp only [between, decide_eq_true_eq]
        omega
      rw [if_neg hnot, Nat.add_zero]
      by_cases hhigh : a < hi
      · rw [if_pos (by omega), if_pos (by omega)]
      · rw [if_neg (by omega), if_neg (by omega)]

/-- Steps of one size in a row. -/
theorem contiguous_range' (base size first n : ℕ) :
    Contiguous (fun j => base + size * j) (fun j => base + size * (j + 1))
      (base + size * first) (List.range' first n) (base + size * (first + n)) := by
  induction n generalizing first with
  | zero => rfl
  | succ n ih =>
    rw [List.range'_succ]
    refine ⟨rfl, Nat.add_le_add_left (Nat.mul_le_mul_left size (by omega)) base, ?_⟩
    rw [show first + (n + 1) = first + 1 + n by omega]
    exact ih (first + 1)

theorem contiguous_range (base size n : ℕ) :
    Contiguous (fun j => base + size * j) (fun j => base + size * (j + 1))
      base (List.range n) (base + size * n) := by
  have h := contiguous_range' base size 0 n
  rwa [← List.range_eq_range', Nat.mul_zero, Nat.add_zero, Nat.zero_add] at h

namespace Tiles

variable {covers : α → ℕ → Bool} {lo hi : ℕ}

theorem map {f : β → α} {pieces : List β} (h : Tiles (fun x => covers (f x)) pieces lo hi) :
    Tiles covers (pieces.map f) lo hi := by
  intro a
  rw [List.countP_map]
  exact h a

theorem congr {covers' : α → ℕ → Bool} {pieces : List α} (h : Tiles covers pieces lo hi)
    (hcovers : ∀ piece ∈ pieces, ∀ a, covers' piece a = covers piece a) :
    Tiles covers' pieces lo hi := by
  intro a
  rw [← h a]
  refine List.countP_congr fun piece hpiece => ?_
  rw [hcovers piece hpiece a]

/-- Tiling each piece of a tiling tiles the whole. -/
theorem flatMap {start stop : β → ℕ} {blocks : List β} {f : β → List α}
    (h : Tiles (between start stop) blocks lo hi)
    (hblock : ∀ block ∈ blocks, Tiles covers (f block) (start block) (stop block)) :
    Tiles covers (blocks.flatMap f) lo hi := by
  intro a
  have hcount : ∀ bs : List β, (∀ block ∈ bs, block ∈ blocks) →
      (bs.flatMap f).countP (fun piece => covers piece a) =
        bs.countP fun block => between start stop block a := by
    intro bs hbs
    induction bs with
    | nil => rfl
    | cons block bs ih =>
      rw [List.flatMap_cons, List.countP_append, List.countP_cons,
        ih fun b hb => hbs b (List.mem_cons_of_mem block hb),
        hblock block (hbs block List.mem_cons_self) a, Nat.add_comm]
      simp only [between, decide_eq_true_eq]
  rw [hcount blocks fun _ hb => hb, h a]

theorem exists_mem {pieces : List α} (h : Tiles covers pieces lo hi) {a : ℕ}
    (ha : lo ≤ a ∧ a < hi) : ∃ piece ∈ pieces, covers piece a = true := by
  have hone := h a
  rw [if_pos ha] at hone
  exact List.countP_pos_iff.mp (by omega)

/-- The piece that covers a point is the one that a search finds. -/
theorem find?_eq {pieces : List α} (h : Tiles covers pieces lo hi) {piece : α}
    (hpiece : piece ∈ pieces) {a : ℕ} (ha : covers piece a = true) :
    pieces.find? (fun piece => covers piece a) = some piece := by
  have hle : (pieces.filter fun piece => covers piece a).length ≤ 1 := by
    rw [← List.countP_eq_length_filter, h a]
    split <;> omega
  have hmem : piece ∈ pieces.filter fun piece => covers piece a := List.mem_filter.mpr ⟨hpiece, ha⟩
  have hsingle : pieces.filter (fun piece => covers piece a) = [piece] := by
    obtain ⟨x, hx⟩ := List.length_eq_one_iff.mp
      (Nat.le_antisymm hle (List.length_pos_of_mem hmem))
    rw [hx] at hmem ⊢
    rw [List.mem_singleton.mp hmem]
  rw [← List.head?_filter, hsingle]
  rfl

end Tiles

end General

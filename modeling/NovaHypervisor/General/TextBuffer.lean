import Mathlib.Data.List.Basic
import Mathlib.Tactic.Common

/-!
A buffer of a fixed size that holds a text and an end mark behind it. What does not fit
is dropped, so that the buffer holds the first part of the text that was appended.
-/
namespace General

structure TextBuffer (α : Type*) where
  cells : List α
  offset : ℕ

namespace TextBuffer

variable {α : Type*} {mark : α}

/-- Append one element and put the mark behind it, if both fit. -/
def push (mark : α) (b : TextBuffer α) (a : α) : TextBuffer α :=
  if b.offset + 1 < b.cells.length then
    ⟨(b.cells.set b.offset a).set (b.offset + 1) mark, b.offset + 1⟩
  else b

def pushAll (mark : α) (b : TextBuffer α) (text : List α) : TextBuffer α :=
  text.foldl (push mark) b

theorem pushAll_append (b : TextBuffer α) (text text' : List α) :
    b.pushAll mark (text ++ text') = (b.pushAll mark text).pushAll mark text' :=
  List.foldl_append

/-- The buffer holds what fits of the text, and the mark behind it. -/
structure Holds (mark : α) (text : List α) (b : TextBuffer α) : Prop where
  room : 0 < b.cells.length
  offset : b.offset = min text.length (b.cells.length - 1)
  kept : ∃ rest, b.cells = text.take (b.cells.length - 1) ++ mark :: rest

theorem length_push (mark : α) (b : TextBuffer α) (a : α) :
    (b.push mark a).cells.length = b.cells.length := by
  rw [push]
  split_ifs
  · rw [List.length_set, List.length_set]
  · rfl

theorem length_pushAll (mark : α) (b : TextBuffer α) (text : List α) :
    (b.pushAll mark text).cells.length = b.cells.length := by
  induction text generalizing b with
  | nil => rfl
  | cons a text ih => exact (ih (b.push mark a)).trans (length_push mark b a)

/-- An empty text is a mark in the first place. -/
theorem holds_nil (mark : α) {cells : List α} (h : 0 < cells.length) :
    Holds mark [] ⟨cells.set 0 mark, 0⟩ := by
  cases cells with
  | nil => exact absurd h (Nat.lt_irrefl 0)
  | cons a cells => exact ⟨by simp, by simp, cells, by simp⟩

theorem Holds.push {text : List α} {b : TextBuffer α} (h : Holds mark text b) (a : α) :
    Holds mark (text ++ [a]) (b.push mark a) := by
  have hlength := length_push mark b a
  obtain ⟨room, offset, rest, kept⟩ := h
  refine ⟨hlength ▸ room, ?_, ?_⟩
  · rw [hlength, TextBuffer.push]
    split_ifs with hroom
    · simp only [List.length_append, List.length_singleton]
      omega
    · simp only [List.length_append, List.length_singleton]
      omega
  · rw [hlength, TextBuffer.push]
    split_ifs with hroom
    · have hfits : text.length ≤ b.cells.length - 1 := by omega
      have hoffset : b.offset = text.length := by omega
      have hmore : (text ++ [a]).length ≤ b.cells.length - 1 := by
        simp only [List.length_append, List.length_singleton]
        omega
      rw [List.take_of_length_le hfits] at kept
      rw [List.take_of_length_le hmore, hoffset]
      -- The mark and the element behind it are replaced.
      cases rest with
      | nil =>
        have hlen := congrArg List.length kept
        simp only [List.length_append, List.length_cons, List.length_nil] at hlen
        omega
      | cons x rest =>
        refine ⟨rest, ?_⟩
        rw [kept]
        simp
    · have hfull : b.cells.length - 1 ≤ text.length := by omega
      rw [List.take_append_of_le_length hfull]
      exact ⟨rest, kept⟩

theorem Holds.pushAll {text : List α} {b : TextBuffer α} (h : Holds mark text b)
    (text' : List α) : Holds mark (text ++ text') (b.pushAll mark text') := by
  induction text' generalizing text b with
  | nil =>
    rw [List.append_nil]
    exact h
  | cons a text' ih =>
    have hnext := ih (h.push a)
    rw [List.append_assoc] at hnext
    exact hnext

/-- A text without marks is read back up to the first mark. -/
theorem Holds.read [DecidableEq α] {text : List α} {b : TextBuffer α} (h : Holds mark text b)
    (hmark : mark ∉ text) :
    b.cells.takeWhile (· ≠ mark) = text.take (b.cells.length - 1) := by
  obtain ⟨rest, kept⟩ := h.kept
  generalize hn : b.cells.length - 1 = n at kept
  have hall : ∀ a ∈ text.take n, decide (a ≠ mark) = true := by
    intro a ha
    rw [decide_eq_true_iff]
    rintro rfl
    exact hmark (List.mem_of_mem_take ha)
  rw [kept, List.takeWhile_append_of_pos hall]
  simp

/-- The text is put behind the offset and the mark behind it, and the rest stays. -/
structure Appends (mark : α) (text : List α) (b b' : TextBuffer α) : Prop where
  offset : b'.offset = b.offset + text.length
  cells : b'.cells = b.cells.take b.offset ++
    (text ++ mark :: b.cells.drop (b.offset + text.length + 1))

/-- What was appended can be read off the buffer. -/
theorem Appends.text_unique {text text' : List α} {b b' : TextBuffer α}
    (h : Appends mark text b b') (h' : Appends mark text' b b') : text = text' := by
  have hlength : text.length = text'.length := by
    have hoffset := h.offset.symm.trans h'.offset
    omega
  have hcells := List.append_cancel_left (h.cells.symm.trans h'.cells)
  exact (List.append_inj hcells hlength).1

/-- The cells before the new offset, and those behind the new mark. -/
theorem Appends.cells_eq {text : List α} {b b' : TextBuffer α} (h : Appends mark text b b') :
    b'.cells = (b.cells.take b.offset ++ text) ++
      mark :: b.cells.drop (b.offset + text.length + 1) := by
  rw [h.cells, List.append_assoc]

theorem Appends.trans {text text' : List α} {b b' b'' : TextBuffer α}
    (hoffset : b.offset ≤ b.cells.length) (h : Appends mark text b b')
    (h' : Appends mark text' b' b'') : Appends mark (text ++ text') b b'' := by
  have hfirst : (b.cells.take b.offset ++ text).length = b'.offset := by
    rw [List.length_append, List.length_take, Nat.min_eq_left hoffset, h.offset]
  have htake : b'.cells.take b'.offset = b.cells.take b.offset ++ text := by
    rw [h.cells_eq, ← hfirst, List.take_left]
  have hdrop : b'.cells.drop (b'.offset + text'.length + 1) =
      b.cells.drop (b.offset + (text ++ text').length + 1) := by
    rw [h.cells_eq, ← hfirst, Nat.add_assoc, List.drop_length_add_append, List.drop_succ_cons,
      List.drop_drop, List.length_append]
    congr 1
    omega
  refine ⟨?_, ?_⟩
  · rw [h'.offset, h.offset, List.length_append, Nat.add_assoc]
  · rw [h'.cells, htake, hdrop]
    simp only [List.append_assoc]

theorem push_appends {b : TextBuffer α} (h : b.offset + 1 < b.cells.length) (a : α) :
    Appends mark [a] b (b.push mark a) := by
  have hfirst : (b.cells.take b.offset).length = b.offset := by
    rw [List.length_take]
    omega
  have hmark : b.cells.set b.offset a =
      (b.cells.take b.offset ++ [a]) ++ b.cells.drop (b.offset + 1) := by
    rw [List.set_eq_take_append_cons_drop, if_pos (by omega), List.append_assoc,
      List.singleton_append]
  have hnext : b.offset + 1 = (b.cells.take b.offset ++ [a]).length := by
    rw [List.length_append, hfirst, List.length_singleton]
  rw [push, if_pos h]
  refine ⟨rfl, ?_⟩
  -- The mark replaces the first cell behind the element.
  rw [hmark, List.drop_eq_getElem_cons h, List.set_append_right _ _ (Nat.le_of_eq hnext.symm),
    ← hnext, Nat.sub_self, List.set_cons_zero, List.append_assoc]
  rfl

theorem pushAll_appends {text : List α} (htext : text ≠ []) {b : TextBuffer α}
    (h : b.offset + text.length < b.cells.length) :
    Appends mark text b (b.pushAll mark text) := by
  induction text generalizing b with
  | nil => exact absurd rfl htext
  | cons a text ih =>
    simp only [List.length_cons] at h
    have hpush : Appends mark [a] b (b.push mark a) := push_appends (by omega) a
    by_cases hmore : text = []
    · rw [hmore]
      exact hpush
    · have hroom : (b.push mark a).offset + text.length < (b.push mark a).cells.length := by
        rw [hpush.offset, length_push, List.length_singleton]
        omega
      exact hpush.trans (by omega) (ih hmore hroom)

end TextBuffer

end General

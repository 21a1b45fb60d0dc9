import Mathlib.Data.List.Range
import Mathlib.Data.List.Nodup
import Mathlib.Data.Nat.ModEq
import Mathlib.Logic.Function.Basic

/-!
This module contains the window of a circular buffer: the `count` cells that start at `start`, in
order, of a buffer whose indices are taken modulo its size. The lemmas say how the window changes
when a cell is appended behind it, removed from its front, or written outside of it.
-/

namespace Ring

variable {α : Type*}

def window (buf : Nat → α) (size start count : Nat) : List α :=
  (List.range count).map fun j => buf ((start + j) % size)

@[simp]
theorem length_window (buf : Nat → α) (size start count : Nat)
    : (window buf size start count).length = count := by
  simp [window]

@[simp]
theorem window_zero (buf : Nat → α) (size start : Nat) : window buf size start 0 = [] := by
  rfl

theorem mem_window {buf : Nat → α} {size start count : Nat} {x : α}
    : x ∈ window buf size start count ↔ ∃ j, j < count ∧ buf ((start + j) % size) = x := by
  simp [window]

theorem window_congr {buf buf' : Nat → α} {size start count : Nat}
    (h : ∀ j, j < count → buf ((start + j) % size) = buf' ((start + j) % size))
    : window buf size start count = window buf' size start count := by
  unfold window
  apply List.map_congr_left
  intro j hj
  apply h
  simpa using hj

theorem window_succ (buf : Nat → α) (size start count : Nat)
    : window buf size start (count + 1)
        =
      window buf size start count ++ [buf ((start + count) % size)] := by
  simp [window, List.range_succ]

theorem window_mod_start (buf : Nat → α) (size start count : Nat)
    : window buf size (start % size) count = window buf size start count := by
  simp [window]

theorem window_add (buf : Nat → α) (size start first second : Nat)
    : window buf size start (first + second)
        =
      window buf size start first ++ window buf size ((start + first) % size) second := by
  rw [window_mod_start]
  induction second with
  | zero => simp
  | succ second ih =>
    rw [← Nat.add_assoc, window_succ, ih, window_succ]
    simp [Nat.add_assoc]

theorem window_eq_cons (buf : Nat → α) (size start count : Nat)
    : window buf size start (count + 1)
        =
      buf (start % size) :: window buf size ((start + 1) % size) count := by
  rw [Nat.add_comm, window_add]
  simp [window]

theorem drop_window (buf : Nat → α) (size start : Nat) {first count : Nat} (h : first ≤ count)
    : (window buf size start count).drop first
        =
      window buf size ((start + first) % size) (count - first) := by
  have hsplit : count = first + (count - first) := by omega
  conv =>
    lhs
    rw [hsplit, window_add]
  apply List.drop_left'
  simp

/-
Two offsets below the size that hit the same cell are the same offset.
-/
theorem offset_injective {size start i j : Nat} (hi : i < size) (hj : j < size)
    (h : (start + i) % size = (start + j) % size)
    : i = j := by
  have hmod : i % size = j % size := Nat.ModEq.add_left_cancel' start h
  rw [Nat.mod_eq_of_lt hi, Nat.mod_eq_of_lt hj] at hmod
  exact hmod

theorem window_update_of_le {buf : Nat → α} {size start count off : Nat} (x : α)
    (hcount : count ≤ off) (hoff : off < size)
    : window (Function.update buf ((start + off) % size) x) size start count
        =
      window buf size start count := by
  apply window_congr
  intro j hj
  rw [Function.update_of_ne]
  intro heq
  have : j = off := offset_injective (by omega) hoff heq
  omega

/-
Writing the cell right behind a window that does not fill the buffer and moving the end appends.
-/
theorem window_push {buf : Nat → α} {size start count : Nat} (x : α) (hcount : count < size)
    : window (Function.update buf ((start + count) % size) x) size start (count + 1)
        =
      window buf size start count ++ [x] := by
  rw [window_succ]
  rw [window_update_of_le x (Nat.le_refl count) hcount]
  simp

end Ring

import Mathlib.Data.List.Basic

/-!
This module contains functions that work on a list block by block, such as the ECB mode of a block
cipher. A rest that is shorter than a block is left out.
-/

namespace Blocks

variable {α : Type}

def loop (f : List α → List α) (size blocks : Nat) (data : List α) : List α :=
  match blocks with
  | 0 => []
  | blocks + 1 => f (data.take size) ++ loop f size blocks (data.drop size)

def map (f : List α → List α) (size : Nat) (data : List α) : List α :=
  loop f size (data.length / size) data

theorem length_loop {f : List α → List α} {size : Nat}
    (hf : ∀ block, block.length = size → (f block).length = size) (blocks : Nat) (data : List α)
    (h : blocks * size ≤ data.length)
    : (loop f size blocks data).length = blocks * size := by
  induction blocks generalizing data with
  | zero => simp [loop]
  | succ blocks ih =>
    rw [Nat.succ_mul] at h
    have htake : (data.take size).length = size := by
      rw [List.length_take]
      omega
    have hrest : blocks * size ≤ (data.drop size).length := by
      rw [List.length_drop]
      omega
    rw [loop, List.length_append, hf _ htake, ih _ hrest, Nat.succ_mul, Nat.add_comm]

theorem length_map {f : List α → List α} {size : Nat}
    (hf : ∀ block, block.length = size → (f block).length = size) {data : List α}
    (h : size ∣ data.length)
    : (map f size data).length = data.length := by
  have hblocks := Nat.div_mul_cancel h
  unfold map
  rw [length_loop hf _ _ (by omega), hblocks]

theorem loop_append (f : List α → List α) {size : Nat} (blocks more : Nat) (first rest : List α)
    (h : first.length = blocks * size)
    : loop f size (blocks + more) (first ++ rest)
        =
      loop f size blocks first ++ loop f size more rest := by
  induction blocks generalizing first with
  | zero =>
    rw [Nat.zero_mul] at h
    rw [List.eq_nil_of_length_eq_zero h]
    simp [loop]
  | succ blocks ih =>
    rw [Nat.succ_mul] at h
    have hdrop : (first.drop size).length = blocks * size := by
      rw [List.length_drop]
      omega
    rw [Nat.succ_add, loop, loop]
    rw [List.take_append_of_le_length (by omega), List.drop_append_of_le_length (by omega)]
    rw [ih _ hdrop, List.append_assoc]

theorem map_append (f : List α → List α) {size : Nat} (hsize : 0 < size) {first : List α}
    (rest : List α) (h : size ∣ first.length)
    : map f size (first ++ rest) = map f size first ++ map f size rest := by
  have hblocks := Nat.div_mul_cancel h
  unfold map
  rw [List.length_append, ← hblocks, Nat.add_comm, Nat.add_mul_div_right _ _ hsize]
  rw [Nat.mul_div_cancel _ hsize, Nat.add_comm]
  apply loop_append f _ _ _ _ hblocks.symm

/-
A function that is undone on every block is undone on the whole list.
-/

theorem loop_loop {f g : List α → List α} {size : Nat}
    (hf : ∀ block, block.length = size → (f block).length = size)
    (hg : ∀ block, block.length = size → g (f block) = block) (blocks : Nat) (data : List α)
    (h : data.length = blocks * size)
    : loop g size blocks (loop f size blocks data) = data := by
  induction blocks generalizing data with
  | zero =>
    rw [Nat.zero_mul] at h
    rw [List.eq_nil_of_length_eq_zero h]
    rfl
  | succ blocks ih =>
    rw [Nat.succ_mul] at h
    have htake : (data.take size).length = size := by
      rw [List.length_take]
      omega
    have hdrop : (data.drop size).length = blocks * size := by
      rw [List.length_drop]
      omega
    rw [loop, loop]
    rw [List.take_left' (hf _ htake), List.drop_left' (hf _ htake)]
    rw [hg _ htake, ih _ hdrop, List.take_append_drop]

theorem map_map {f g : List α → List α} {size : Nat}
    (hf : ∀ block, block.length = size → (f block).length = size)
    (hg : ∀ block, block.length = size → g (f block) = block) {data : List α}
    (h : size ∣ data.length)
    : map g size (map f size data) = data := by
  have hblocks := Nat.div_mul_cancel h
  have hlength := length_map hf h
  unfold map at hlength ⊢
  rw [hlength]
  apply loop_loop hf hg _ _ hblocks.symm

/-
The blocks themselves, as many as asked for.
-/

def split (size blocks : Nat) (data : List α) : List (List α) :=
  match blocks with
  | 0 => []
  | blocks + 1 => data.take size :: split size blocks (data.drop size)

theorem split_succ (size blocks : Nat) (data : List α)
    : split size (blocks + 1) data = data.take size :: split size blocks (data.drop size) := by
  rfl

theorem split_append {size : Nat} (blocks more : Nat) (first rest : List α)
    (h : first.length = blocks * size)
    : split size (blocks + more) (first ++ rest)
        =
      split size blocks first ++ split size more rest := by
  induction blocks generalizing first with
  | zero =>
    rw [Nat.zero_mul] at h
    rw [List.eq_nil_of_length_eq_zero h]
    simp [split]
  | succ blocks ih =>
    rw [Nat.succ_mul] at h
    have hdrop : (first.drop size).length = blocks * size := by
      rw [List.length_drop]
      omega
    rw [Nat.succ_add, split_succ, split_succ]
    rw [List.take_append_of_le_length (by omega), List.drop_append_of_le_length (by omega)]
    rw [ih _ hdrop, List.cons_append]

theorem length_split (size blocks : Nat) (data : List α) : (split size blocks data).length = blocks := by
  induction blocks generalizing data with
  | zero => rfl
  | succ blocks ih => rw [split_succ, List.length_cons, ih]

end Blocks

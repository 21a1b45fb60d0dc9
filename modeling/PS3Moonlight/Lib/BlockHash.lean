import PS3Moonlight.Lib.Blocks
import Mathlib.Data.List.TakeDrop

/-!
This module contains what an iterated hash function makes of data that arrives in pieces: the chaining
value behind all complete blocks, and the rest that does not fill a block yet.
-/

namespace BlockHash

variable {σ α : Type}

structure Absorbed (σ α : Type) where
  state : σ
  rest : List α

def absorb (compress : σ → List α → σ) (size : Nat) (s : σ) (data : List α) : Absorbed σ α :=
  ⟨(Blocks.split size (data.length / size) data).foldl compress s,
    data.drop (data.length / size * size)⟩

theorem absorb_of_lt (compress : σ → List α → σ) {size : Nat} (s : σ) {data : List α}
    (h : data.length < size)
    : absorb compress size s data = ⟨s, data⟩ := by
  rw [absorb, Nat.div_eq_of_lt h]
  simp [Blocks.split]

theorem absorb_block (compress : σ → List α → σ) {size : Nat} (hsize : 0 < size) (s : σ)
    {data : List α} (h : size ≤ data.length)
    : absorb compress size s data
        =
      absorb compress size (compress s (data.take size)) (data.drop size) := by
  have hdiv : data.length / size = (data.length - size) / size + 1 := by
    rw [Nat.div_eq data.length, if_pos ⟨hsize, h⟩]
  simp only [absorb]
  rw [List.length_drop, hdiv, Blocks.split_succ, List.foldl_cons, List.drop_drop, Nat.succ_mul,
    Nat.add_comm size]

theorem length_rest (compress : σ → List α → σ) {size : Nat} (s : σ) (data : List α)
    : (absorb compress size s data).rest.length = data.length % size := by
  have h := Nat.div_add_mod' data.length size
  simp only [absorb, List.length_drop]
  omega

/- Data in two pieces: the rest of the first one comes before the second one. -/
theorem absorb_append (compress : σ → List α → σ) {size : Nat} (hsize : 0 < size) (s : σ)
    (first second : List α)
    : absorb compress size s (first ++ second)
        =
      absorb compress size (absorb compress size s first).state
        ((absorb compress size s first).rest ++ second) := by
  induction hblocks : first.length / size generalizing s first with
  | zero =>
    have hlt : first.length < size := by
      rw [Nat.div_eq_zero_iff] at hblocks
      omega
    rw [absorb_of_lt compress s hlt]
  | succ blocks ih =>
    have hle : size ≤ first.length := by
      rw [← Nat.one_le_div_iff hsize]
      omega
    have hrest : (first.drop size).length / size = blocks := by
      rw [Nat.div_eq, if_pos ⟨hsize, hle⟩] at hblocks
      rw [List.length_drop]
      omega
    rw [absorb_block compress hsize s hle, ← ih _ _ hrest]
    rw [absorb_block compress hsize s (by rw [List.length_append]; omega)]
    rw [List.take_append_of_le_length hle, List.drop_append_of_le_length hle]

/- Data that fills its blocks leaves no rest. -/
theorem absorb_of_dvd (compress : σ → List α → σ) {size : Nat} (s : σ) {data : List α}
    (h : size ∣ data.length)
    : absorb compress size s data
        =
      ⟨(Blocks.split size (data.length / size) data).foldl compress s, []⟩ := by
  rw [absorb, Nat.div_mul_cancel h, List.drop_length]

end BlockHash

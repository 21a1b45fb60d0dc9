import Mathlib.Data.Nat.Bitwise

/-!
This module contains serial numbers: numbers of a fixed width that wrap around, compared by the
shorter way from one to the other.
-/

namespace Serial

variable {w : Nat}

/- How far the second number is ahead of the first one. -/
def gap (a b : BitVec w) : Nat :=
  (b - a).toNat

def isBefore (x y : BitVec w) : Bool :=
  (2 ^ w - 1) / 2 < (x - y).toNat

theorem gap_lt (a b : BitVec w) : gap a b < 2 ^ w := by
  exact (b - a).isLt

@[simp]
theorem gap_self (a : BitVec w) : gap a a = 0 := by
  simp [gap]

/- The way over a third number is the direct way, but for a whole turn. -/
theorem gap_trans_cases (a b c : BitVec w)
    : gap a c = gap a b + gap b c ∨ gap a c + 2 ^ w = gap a b + gap b c := by
  have hsum : c - a = (c - b) + (b - a) := by
    rw [BitVec.sub_eq_iff_eq_add, BitVec.add_assoc, BitVec.sub_add_cancel, BitVec.sub_add_cancel]
  have hab := gap_lt a b
  have hbc := gap_lt b c
  unfold gap at *
  rw [hsum, BitVec.toNat_add]
  cases Nat.lt_or_ge ((c - b).toNat + (b - a).toNat) (2 ^ w) with
  | inl hlt =>
    rw [Nat.mod_eq_of_lt hlt]
    omega
  | inr hge =>
    rw [Nat.mod_eq_sub_mod hge, Nat.mod_eq_of_lt (by omega)]
    omega

theorem eq_of_gap_eq_zero {a b : BitVec w} (h : gap a b = 0) : b = a := by
  have hzero : b - a = 0#w := BitVec.eq_of_toNat_eq h
  rw [BitVec.sub_eq_iff_eq_add] at hzero
  rw [hzero, BitVec.zero_add]

theorem eq_of_gap_eq {a b c : BitVec w} (h : gap a b = gap a c) : b = c := by
  have hbc := gap_trans_cases a c b
  have hlt := gap_lt c b
  apply eq_of_gap_eq_zero
  omega

theorem gap_add_ofNat (a : BitVec w) {n : Nat} (h : n < 2 ^ w)
    : gap a (a + BitVec.ofNat w n) = n := by
  unfold gap
  rw [BitVec.add_comm, BitVec.add_sub_cancel, BitVec.toNat_ofNat, Nat.mod_eq_of_lt h]

theorem add_gap (a b : BitVec w) : a + BitVec.ofNat w (gap a b) = b := by
  unfold gap
  rw [BitVec.ofNat_toNat, BitVec.setWidth_eq, BitVec.add_comm, BitVec.sub_add_cancel]

theorem isBefore_iff (x y : BitVec w) : isBefore x y = true ↔ (2 ^ w - 1) / 2 < gap y x := by
  simp [isBefore, gap]

theorem isBefore_eq_false_iff (x y : BitVec w)
    : isBefore x y = false ↔ gap y x ≤ (2 ^ w - 1) / 2 := by
  simp [isBefore, gap]

/- Of two numbers that are less than half a turn ahead of a third one, the nearer one is before. -/
theorem isBefore_iff_gap_lt {a x y : BitVec w} (hx : gap a x ≤ (2 ^ w - 1) / 2)
    (hy : gap a y ≤ (2 ^ w - 1) / 2)
    : isBefore x y = true ↔ gap a x < gap a y := by
  have hyx := gap_trans_cases a y x
  have hlt := gap_lt y x
  have hpos := Nat.two_pow_pos w
  rw [isBefore_iff]
  omega

end Serial

import Mathlib.Algebra.Field.Defs
import Mathlib.Algebra.Group.Hom.Defs
import Mathlib.Data.Nat.ModEq
import Mathlib.Logic.Function.Iterate

/-!
This module contains finite fields that are given by a table of powers and a table of logarithms: an
additive map, the multiplication by a generator, whose powers reach every element but zero.
-/

namespace LogField

variable {F : Type*} [AddCommGroup F]

structure Table (F : Type*) [AddCommGroup F] where
  gen : F →+ F
  one : F
  log : F → Nat
  order : Nat
  order_pos : 0 < order
  one_ne_zero : one ≠ 0
  iterate_log : ∀ a, a ≠ 0 → gen^[log a] one = a
  iterate_order : gen^[order] one = one
  log_le : ∀ a, a ≠ 0 → log a ≤ order

namespace Table

variable (t : Table F)

def exp (n : Nat) : F :=
  t.gen^[n] t.one

theorem iterate_zero_eq (n : Nat) : t.gen^[n] 0 = 0 := by
  induction n with
  | zero => rfl
  | succ n ih => rw [Function.iterate_succ_apply', ih, map_zero]

theorem iterate_add_eq (n : Nat) (a b : F)
    : t.gen^[n] (a + b) = t.gen^[n] a + t.gen^[n] b := by
  induction n with
  | zero => rfl
  | succ n ih => rw [Function.iterate_succ_apply', ih, map_add, Function.iterate_succ_apply',
      Function.iterate_succ_apply']

theorem iterate_exp (m n : Nat) : t.gen^[m] (t.exp n) = t.exp (m + n) := by
  exact (Function.iterate_add_apply t.gen m n t.one).symm

theorem exp_log {a : F} (h : a ≠ 0) : t.exp (t.log a) = a := by
  exact t.iterate_log a h

theorem exp_add_order (n : Nat) : t.exp (n + t.order) = t.exp n := by
  rw [← iterate_exp]
  congr 1
  exact t.iterate_order

theorem exp_add_mul_order (n m : Nat) : t.exp (n + m * t.order) = t.exp n := by
  induction m with
  | zero => simp
  | succ m ih => rw [Nat.succ_mul, ← Nat.add_assoc, exp_add_order, ih]

theorem exp_mod (n : Nat) : t.exp (n % t.order) = t.exp n := by
  have hexp := t.exp_add_mul_order (n % t.order) (n / t.order)
  rw [Nat.mul_comm, Nat.mod_add_div] at hexp
  exact hexp.symm

/- A power that is zero would stay zero, but the powers come back to one. -/
theorem exp_ne_zero (n : Nat) : t.exp n ≠ 0 := by
  intro hzero
  have hle : n ≤ n * t.order := Nat.le_mul_of_pos_right n t.order_pos
  have hback : t.exp (n * t.order) = t.one := by
    have hexp := t.exp_add_mul_order 0 n
    rwa [Nat.zero_add] at hexp
  have hsplit : t.exp (n * t.order) = t.gen^[n * t.order - n] (t.exp n) := by
    rw [iterate_exp, Nat.sub_add_cancel hle]
  rw [hzero, iterate_zero_eq, hback] at hsplit
  exact t.one_ne_zero hsplit

/- The elements other than zero are the powers, so a fact about them is shown for the powers. -/
theorem cases_exp {p : F → Prop} (hzero : p 0) (hexp : ∀ n, p (t.exp n)) (a : F) : p a := by
  cases Classical.em (a = 0) with
  | inl ha =>
    rw [ha]
    exact hzero
  | inr ha =>
    rw [← t.exp_log ha]
    exact hexp (t.log a)

variable [DecidableEq F]

def mul (a b : F) : F :=
  if b = 0 then 0 else t.gen^[t.log b] a

def inv (a : F) : F :=
  if a = 0 then 0 else t.exp (t.order - t.log a)

theorem mul_zero (a : F) : t.mul a 0 = 0 := by
  simp [mul]

theorem zero_mul (a : F) : t.mul 0 a = 0 := by
  unfold mul
  split
  . rfl
  . exact t.iterate_zero_eq _

/- Iterating the generator on a power depends only on how often, up to equal powers. -/
theorem mul_exp (a : F) (n : Nat) : t.mul a (t.exp n) = t.gen^[n] a := by
  unfold mul
  rw [if_neg (t.exp_ne_zero n)]
  apply t.cases_exp (p := fun a => t.gen^[t.log (t.exp n)] a = t.gen^[n] a)
  . rw [iterate_zero_eq, iterate_zero_eq]
  . intro m
    calc t.gen^[t.log (t.exp n)] (t.exp m)
      _ = t.gen^[m] (t.exp (t.log (t.exp n))) := by
        rw [iterate_exp, iterate_exp, Nat.add_comm]
      _ = t.gen^[m] (t.exp n) := by rw [t.exp_log (t.exp_ne_zero n)]
      _ = t.gen^[n] (t.exp m) := by rw [iterate_exp, iterate_exp, Nat.add_comm]

theorem exp_mul_exp (m n : Nat) : t.mul (t.exp m) (t.exp n) = t.exp (m + n) := by
  rw [mul_exp, iterate_exp, Nat.add_comm]

theorem mul_comm (a b : F) : t.mul a b = t.mul b a := by
  apply t.cases_exp (p := fun a => t.mul a b = t.mul b a)
  . rw [zero_mul, mul_zero]
  . intro m
    apply t.cases_exp (p := fun b => t.mul (t.exp m) b = t.mul b (t.exp m))
    . rw [zero_mul, mul_zero]
    . intro n
      rw [exp_mul_exp, exp_mul_exp, Nat.add_comm]

theorem add_mul (a b c : F) : t.mul (a + b) c = t.mul a c + t.mul b c := by
  apply t.cases_exp (p := fun c => t.mul (a + b) c = t.mul a c + t.mul b c)
  . simp [mul_zero]
  . intro n
    rw [mul_exp, mul_exp, mul_exp, iterate_add_eq]

theorem mul_add (a b c : F) : t.mul a (b + c) = t.mul a b + t.mul a c := by
  rw [t.mul_comm a (b + c), add_mul, t.mul_comm b a, t.mul_comm c a]

theorem mul_assoc (a b c : F) : t.mul (t.mul a b) c = t.mul a (t.mul b c) := by
  apply t.cases_exp (p := fun c => t.mul (t.mul a b) c = t.mul a (t.mul b c))
  . simp [mul_zero]
  . intro n
    apply t.cases_exp (p := fun b => t.mul (t.mul a b) (t.exp n) = t.mul a (t.mul b (t.exp n)))
    . simp [mul_zero, zero_mul]
    . intro m
      rw [exp_mul_exp, mul_exp, mul_exp, mul_exp, ← Function.iterate_add_apply, Nat.add_comm]

theorem mul_one (a : F) : t.mul a t.one = a := by
  exact t.mul_exp a 0

theorem one_mul (a : F) : t.mul t.one a = a := by
  rw [mul_comm, mul_one]

theorem mul_inv_cancel {a : F} (h : a ≠ 0) : t.mul a (t.inv a) = t.one := by
  unfold inv
  rw [if_neg h]
  calc t.mul a (t.exp (t.order - t.log a))
    _ = t.mul (t.exp (t.log a)) (t.exp (t.order - t.log a)) := by rw [t.exp_log h]
    _ = t.exp t.order := by rw [exp_mul_exp, Nat.add_sub_cancel' (t.log_le a h)]
    _ = t.one := t.iterate_order

/- The sum of the logarithms, reduced, is the logarithm of the product. -/
theorem mul_eq_exp_mod {a b : F} (ha : a ≠ 0) (hb : b ≠ 0)
    : t.mul a b = t.exp ((t.log a + t.log b) % t.order) := by
  rw [exp_mod, ← exp_mul_exp, t.exp_log ha, t.exp_log hb]

end Table

end LogField

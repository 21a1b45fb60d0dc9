import Mathlib.Data.Nat.Digits.Lemmas

/-!
This module contains decimal numbers as text: a number is printed without leading zeros, and reading
the digits back gives the number.
-/

namespace Decimal

def isDigit (c : UInt8) : Bool :=
  48 ≤ c && c ≤ 57

def digit (d : Nat) : UInt8 :=
  (48 + d).toUInt8

def text (n : Nat) : List UInt8 :=
  if n = 0 then [48] else ((Nat.digits 10 n).map digit).reverse

/- A number with its sign. -/
def signedText (n : Int) : List UInt8 :=
  if n < 0 then 45 :: text n.natAbs else text n.natAbs

/- What the digits read so far and one more digit are worth. -/
def push (n : Nat) (c : UInt8) : Nat :=
  n * 10 + (c.toNat - 48)

def value (digits : List UInt8) : Nat :=
  digits.foldl push 0

theorem digit_spec : ∀ d, d < 10 → isDigit (digit d) = true ∧ (digit d).toNat = 48 + d := by
  decide

theorem isDigit_text (n : Nat) : ∀ c, c ∈ text n → isDigit c = true := by
  intro c hc
  unfold text at hc
  split at hc
  . rw [List.mem_singleton] at hc
    rw [hc]
    rfl
  . rw [List.mem_reverse, List.mem_map] at hc
    have ⟨d, hd, hdigit⟩ := hc
    rw [← hdigit]
    apply (digit_spec d _).left
    apply Nat.digits_lt_base (by decide) hd

theorem text_ne_nil (n : Nat) : text n ≠ [] := by
  unfold text
  split
  . simp
  . next hn => simpa [Nat.digits_eq_nil_iff_eq_zero] using hn

/- Reading starts with the most significant digit, so the value is a fold from the right. -/
theorem foldl_push_digits (digits : List Nat) (h : ∀ d, d ∈ digits → d < 10)
    : ((digits.map digit).reverse).foldl push 0 = Nat.ofDigits 10 digits := by
  induction digits with
  | nil => rfl
  | cons d digits ih =>
    have hd := (digit_spec d (h d (by simp))).right
    have hrest := ih (fun d' hd' => h d' (by simp [hd']))
    rw [List.map_cons, List.reverse_cons, List.foldl_append, hrest, Nat.ofDigits_cons]
    simp only [List.foldl_cons, List.foldl_nil, push, hd]
    omega

theorem value_text (n : Nat) : value (text n) = n := by
  unfold value text
  split
  . next hn =>
    rw [hn]
    rfl
  . rw [foldl_push_digits]
    . apply Nat.ofDigits_digits
    . intro d hd
      apply Nat.digits_lt_base (by decide) hd

theorem length_text_le {n k : Nat} (hk : 0 < k) (h : n < 10 ^ k) : (text n).length ≤ k := by
  unfold text
  split
  . rw [List.length_singleton]
    omega
  . rw [List.length_reverse, List.length_map]
    apply (Nat.digits_length_le_iff (by decide) n).mpr h

end Decimal

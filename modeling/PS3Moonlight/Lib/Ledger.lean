import Mathlib.Data.Set.Insert
import Mathlib.Logic.Function.Basic

/-!
This module contains ledgers of resources: how often each one is held, and what was released without
being held. A ledger agrees with a set of resources if each of them is held once and no other one is.
-/

universe u

structure Ledger (ρ : Type u) where
  held : ρ → Nat
  faults : List ρ

namespace Ledger

variable {ρ : Type u} [DecidableEq ρ]

def empty : Ledger ρ where
  held := fun _ => 0
  faults := []

def acquire (l : Ledger ρ) (r : ρ) : Ledger ρ :=
  { l with held := Function.update l.held r (l.held r + 1) }

/- A release of what is not held is a fault, and nothing else. -/
def release (l : Ledger ρ) (r : ρ) : Ledger ρ :=
  if l.held r = 0 then
    { l with faults := r :: l.faults }
  else
    { l with held := Function.update l.held r (l.held r - 1) }

structure Agrees (l : Ledger ρ) (owned : Set ρ) : Prop where
  one : ∀ r, r ∈ owned → l.held r = 1
  zero : ∀ r, r ∉ owned → l.held r = 0

variable {l : Ledger ρ} {owned : Set ρ} {r : ρ}

omit [DecidableEq ρ] in
theorem agrees_empty : (empty : Ledger ρ).Agrees ∅ := by
  constructor
  . intro r hr
    contradiction
  . intro r _
    rfl

theorem Agrees.acquire (h : l.Agrees owned) (hr : r ∉ owned) : (l.acquire r).Agrees (insert r owned) := by
  constructor
  . intro r' hmem
    cases Decidable.em (r' = r) with
    | inl heq =>
      rw [heq]
      simp [Ledger.acquire, h.zero r hr]
    | inr hne =>
      have howned := (Set.mem_insert_iff.mp hmem).resolve_left hne
      simp [Ledger.acquire, hne, h.one r' howned]
  . intro r' hmem
    rw [Set.mem_insert_iff, not_or] at hmem
    simp [Ledger.acquire, hmem.left, h.zero r' hmem.right]

theorem Agrees.release (h : l.Agrees owned) (hr : r ∈ owned) : (l.release r).Agrees (owned \ {r}) := by
  have hone := h.one r hr
  unfold Ledger.release
  rw [if_neg (by omega)]
  constructor
  . intro r' hmem
    have hne : r' ≠ r := hmem.right
    simp [hne, h.one r' hmem.left]
  . intro r' hmem
    cases Decidable.em (r' = r) with
    | inl heq =>
      rw [heq]
      simp [hone]
    | inr hne =>
      have hout : r' ∉ owned := fun howned => hmem ⟨howned, hne⟩
      simp [hne, h.zero r' hout]

theorem Agrees.faults_release (h : l.Agrees owned) (hr : r ∈ owned)
    : (l.release r).faults = l.faults := by
  unfold Ledger.release
  rw [if_neg]
  rw [h.one r hr]
  decide

/-
The owned resources as a list.
-/

theorem Agrees.acquire_cons {rs : List ρ} (h : l.Agrees {r | r ∈ rs}) (hr : r ∉ rs)
    : (l.acquire r).Agrees {r' | r' ∈ r :: rs} := by
  have hset : {r' | r' ∈ r :: rs} = insert r {r | r ∈ rs} := by
    ext r'
    simp
  rw [hset]
  apply h.acquire hr

theorem Agrees.release_filter {rs : List ρ} (h : l.Agrees {r | r ∈ rs}) (hr : r ∈ rs)
    : (l.release r).Agrees {r' | r' ∈ rs.filter (· ≠ r)} := by
  have hset : {r' | r' ∈ rs.filter (· ≠ r)} = {r | r ∈ rs} \ {r} := by
    ext r'
    simp
  rw [hset]
  apply h.release hr

theorem Agrees.held_eq {rs : List ρ} (h : l.Agrees {r | r ∈ rs}) (r : ρ)
    : l.held r = if r ∈ rs then 1 else 0 := by
  split
  . next hr => exact h.one r hr
  . next hr => exact h.zero r hr

end Ledger

import Mathlib.Data.List.Nodup

/-!
This module contains folds over entries with keys, such as the lines of a configuration file: when their
order does not matter, and what the one entry of a key decides.
-/

namespace KeyedFold

universe u v w x

variable {α : Type u} {κ : Type v} {σ : Type w} {β : Type x} {key : α → κ} {step : σ → α → σ}

/- Entries of different keys that commute can be taken in any order. -/
theorem foldl_perm (hcomm : ∀ s a b, key a ≠ key b → step (step s a) b = step (step s b) a)
    {as bs : List α} (hperm : bs.Perm as) (hnodup : (as.map key).Nodup) (s : σ)
    : bs.foldl step s = as.foldl step s := by
  apply hperm.foldl_eq'
  intro a ha b hb s
  cases Classical.em (key a = key b) with
  | inl heq =>
    have hsame := List.inj_on_of_nodup_map hnodup (hperm.mem_iff.mp ha) (hperm.mem_iff.mp hb) heq
    rw [hsame]
  | inr hne => exact hcomm s a b hne

variable (get : σ → β) {k : κ}

theorem foldl_other (hother : ∀ s a, key a ≠ k → get (step s a) = get s) {as : List α}
    (hkeys : k ∉ as.map key) (s : σ)
    : get (as.foldl step s) = get s := by
  induction as generalizing s with
  | nil => rfl
  | cons a as ih =>
    rw [List.map_cons, List.mem_cons, not_or] at hkeys
    rw [List.foldl_cons, ih hkeys.right, hother]
    exact Ne.symm hkeys.left

/- States that only differ in what no step looks at stay so. -/
theorem foldl_forget {forget : σ → σ} (hforget : ∀ s a, forget (step s a) = forget (step (forget s) a))
    (as : List α) {s s' : σ} (h : forget s = forget s')
    : forget (as.foldl step s) = forget (as.foldl step s') := by
  induction as generalizing s s' with
  | nil => exact h
  | cons a as ih =>
    apply ih
    rw [hforget s, hforget s', h]

/- What only the entry of one key changes is what this entry makes it. -/
theorem foldl_find? [DecidableEq κ] {put : α → β}
    (hother : ∀ s a, key a ≠ k → get (step s a) = get s)
    (hkey : ∀ s a, key a = k → get (step s a) = put a) {as : List α} (hnodup : (as.map key).Nodup)
    (s : σ)
    : get (as.foldl step s) = ((as.find? fun a => key a = k).map put).getD (get s) := by
  induction as generalizing s with
  | nil => rfl
  | cons a as ih =>
    rw [List.map_cons, List.nodup_cons] at hnodup
    rw [List.foldl_cons, List.find?_cons]
    cases Decidable.em (key a = k) with
    | inl hk =>
      have hrest : k ∉ as.map key := by
        rw [← hk]
        exact hnodup.left
      rw [foldl_other get hother hrest, hkey s a hk]
      simp [hk]
    | inr hk =>
      rw [ih hnodup.right, hother s a hk]
      simp [hk]

end KeyedFold

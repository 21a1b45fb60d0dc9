import Mathlib.Data.Sum.Basic

/-!
This module contains unbounded loops. A loop body either continues with a new state or leaves with a
result, running it with some fuel answers `none` if the fuel does not suffice. The rules are the
usual ones: an invariant for what holds when the loop leaves, a variant for that it does leave.
-/

namespace Loop

variable {σ ρ : Type*}

def iter (body : σ → σ ⊕ ρ) (fuel : Nat) (s : σ) : Option ρ :=
  match fuel with
  | 0 => none
  | fuel + 1 =>
    match body s with
    | .inl s => iter body fuel s
    | .inr r => some r

theorem iter_succ (body : σ → σ ⊕ ρ) (fuel : Nat) (s : σ)
    : iter body (fuel + 1) s
        =
      match body s with
      | .inl s => iter body fuel s
      | .inr r => some r := by
  rfl

theorem iter_of_inl {body : σ → σ ⊕ ρ} {fuel : Nat} {s t : σ} (h : body s = .inl t)
    : iter body (fuel + 1) s = iter body fuel t := by
  rw [iter_succ, h]

theorem iter_of_inr {body : σ → σ ⊕ ρ} {fuel : Nat} {s : σ} {r : ρ} (h : body s = .inr r)
    : iter body (fuel + 1) s = some r := by
  rw [iter_succ, h]

theorem iter_invariant {body : σ → σ ⊕ ρ} (inv : σ → Prop) (post : ρ → Prop)
    (hcontinue : ∀ s t, inv s → body s = .inl t → inv t)
    (hleave : ∀ s r, inv s → body s = .inr r → post r)
    {fuel : Nat} {s : σ} {r : ρ} (hinv : inv s) (h : iter body fuel s = some r)
    : post r := by
  induction fuel generalizing s with
  | zero => simp [iter] at h
  | succ fuel ih =>
    cases hbody : body s with
    | inl t =>
      rw [iter_of_inl hbody] at h
      exact ih (hcontinue s t hinv hbody) h
    | inr t =>
      rw [iter_of_inr hbody] at h
      injection h with h
      rw [← h]
      exact hleave s t hinv hbody

theorem iter_isSome_of_variant {body : σ → σ ⊕ ρ} (inv : σ → Prop) (variant : σ → Nat)
    (hcontinue : ∀ s t, inv s → body s = .inl t → inv t ∧ variant t < variant s)
    {fuel : Nat} {s : σ} (hinv : inv s) (hfuel : variant s < fuel)
    : (iter body fuel s).isSome := by
  induction fuel generalizing s with
  | zero => omega
  | succ fuel ih =>
    cases hbody : body s with
    | inl t =>
      have hnext := hcontinue s t hinv hbody
      rw [iter_of_inl hbody]
      apply ih hnext.left
      omega
    | inr r =>
      rw [iter_of_inr hbody]
      rfl

/-
The states in which the body is entered, whether the loop leaves or not.
-/
inductive Head (body : σ → σ ⊕ ρ) (s : σ) : σ → Prop where
  | start : Head body s s
  | next {t u : σ} : Head body s t → body t = .inl u → Head body s u

theorem Head.invariant {body : σ → σ ⊕ ρ} (inv : σ → Prop)
    (hcontinue : ∀ s t, inv s → body s = .inl t → inv t)
    {s t : σ} (hinv : inv s) (h : Head body s t)
    : inv t := by
  induction h with
  | start => exact hinv
  | next _ hbody ih => exact hcontinue _ _ ih hbody

theorem Head.of_inl {body : σ → σ ⊕ ρ} {s t u : σ} (hbody : body s = .inl t) (h : Head body t u)
    : Head body s u := by
  induction h with
  | start => exact Head.next Head.start hbody
  | next _ hnext ih => exact Head.next ih hnext

/- A loop leaves at one of its heads. -/
theorem exists_head_of_iter {body : σ → σ ⊕ ρ} {fuel : Nat} {s : σ} {r : ρ}
    (h : iter body fuel s = some r)
    : ∃ t, Head body s t ∧ body t = .inr r := by
  induction fuel generalizing s with
  | zero => simp [iter] at h
  | succ fuel ih =>
    cases hbody : body s with
    | inl t =>
      rw [iter_of_inl hbody] at h
      have ⟨u, hhead, hleave⟩ := ih h
      exact ⟨u, Head.of_inl hbody hhead, hleave⟩
    | inr t =>
      rw [iter_of_inr hbody, Option.some.injEq] at h
      rw [h] at hbody
      exact ⟨s, Head.start, hbody⟩

theorem Head.eq_or_inl {body : σ → σ ⊕ ρ} {s t : σ} (h : Head body s t)
    : s = t ∨ ∃ u, body s = .inl u ∧ Head body u t := by
  induction h with
  | start => exact Or.inl rfl
  | next _ hbody ih =>
    cases ih with
    | inl heq =>
      rw [heq]
      exact Or.inr ⟨_, hbody, Head.start⟩
    | inr hfirst =>
      have ⟨u, hu, hhead⟩ := hfirst
      exact Or.inr ⟨u, hu, Head.next hhead hbody⟩

/- A head at which the loop leaves is the one where it does leave. -/
theorem eq_of_head_of_iter {body : σ → σ ⊕ ρ} {fuel : Nat} {s t : σ} {q r : ρ}
    (hhead : Head body s t) (hleave : body t = .inr q) (h : iter body fuel s = some r)
    : r = q := by
  induction fuel generalizing s with
  | zero => simp [iter] at h
  | succ fuel ih =>
    cases hhead.eq_or_inl with
    | inl heq =>
      rw [heq, iter_of_inr hleave, Option.some.injEq] at h
      exact h.symm
    | inr hfirst =>
      have ⟨u, hu, hrest⟩ := hfirst
      rw [iter_of_inl hu] at h
      exact ih hrest h

/-
Total correctness: with enough fuel the loop leaves, and it leaves with a result as described.
-/
theorem iter_total {body : σ → σ ⊕ ρ} (inv : σ → Prop) (variant : σ → Nat) (post : ρ → Prop)
    (hcontinue : ∀ s t, inv s → body s = .inl t → inv t ∧ variant t < variant s)
    (hleave : ∀ s r, inv s → body s = .inr r → post r)
    {fuel : Nat} {s : σ} (hinv : inv s) (hfuel : variant s < fuel)
    : ∃ r, iter body fuel s = some r ∧ post r := by
  have hsome := iter_isSome_of_variant inv variant hcontinue hinv hfuel
  cases hr : iter body fuel s with
  | none => simp [hr] at hsome
  | some r =>
    refine ⟨r, rfl, ?_⟩
    apply iter_invariant inv post (fun s t hs h => (hcontinue s t hs h).left) hleave hinv hr

end Loop

import Mathlib.Data.List.Infix

/-!
This module contains patterns that begin with a marker and have no other one in them, such as tags: where
they can occur in a concatenation.
-/

namespace Marker

variable {α : Type*}

/- Of two patterns neither of which begins the other one, none begins a text that the other begins. -/
theorem not_prefix_append {pattern other : List α} (rest : List α) (h : ¬pattern <+: other)
    (hother : ¬other <+: pattern)
    : ¬pattern <+: other ++ rest := by
  intro hbegin
  cases List.prefix_or_prefix_of_prefix hbegin (List.prefix_append other rest) with
  | inl hle => exact h hle
  | inr hge => exact hother hge

theorem not_prefix_of_not_mem {m : α} {tail text : List α} (rest : List α) (htext : text ≠ [])
    (h : m ∉ text)
    : ¬m :: tail <+: text ++ rest := by
  cases text with
  | nil => contradiction
  | cons c text =>
    intro hbegin
    rw [List.cons_append, List.cons_prefix_cons] at hbegin
    apply h
    rw [hbegin.left]
    simp

/- What goes on behind the text with a marker adds no occurrence that begins in the text. -/
theorem prefix_of_prefix_append {m : α} {tail text rest : List α} (htail : m ∉ tail)
    (htext : text ≠ []) (hrest : ∀ c, rest.head? = some c → c = m)
    (h : m :: tail <+: text ++ rest)
    : m :: tail <+: text := by
  cases List.prefix_or_prefix_of_prefix h (List.prefix_append text rest) with
  | inl hle => exact hle
  | inr hge =>
    obtain ⟨more, hmore⟩ := hge
    cases more with
    | nil =>
      rw [← hmore, List.append_nil]
    | cons c more =>
      exfalso
      rw [← hmore, List.prefix_append_right_inj] at h
      have hc : c = m := by
        apply hrest c
        obtain ⟨last, hlast⟩ := h
        rw [← hlast]
        rfl
      cases text with
      | nil => contradiction
      | cons c' text =>
        rw [List.cons_append, List.cons.injEq] at hmore
        apply htail
        rw [← hmore.right, hc]
        simp

end Marker

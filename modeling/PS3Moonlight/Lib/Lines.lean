import Mathlib.Data.List.Basic

/-!
This module contains text that is read line by line into a buffer of a fixed size: a line ends behind
its separator, or when the buffer is full.
-/

namespace Lines

universe u v

variable {α : Type u} [DecidableEq α]

def loop (sep : α) (size : Nat) (line content : List α) : List (List α) :=
  match content with
  | [] => if line.isEmpty then [] else [line]
  | c :: content =>
    if c = sep ∨ size ≤ line.length + 1 then
      (line ++ [c]) :: loop sep size [] content
    else
      loop sep size (line ++ [c]) content

def chunks (sep : α) (size : Nat) (content : List α) : List (List α) :=
  loop sep size [] content

theorem loop_append {sep : α} {size : Nat} (line text rest : List α) (hsep : sep ∉ text)
    (hsize : line.length + text.length < size)
    : loop sep size line (text ++ rest) = loop sep size (line ++ text) rest := by
  induction text generalizing line with
  | nil => simp
  | cons c text ih =>
    rw [List.length_cons] at hsize
    simp only [List.mem_cons, not_or] at hsep
    rw [List.cons_append, loop, if_neg, ih]
    . simp
    . exact hsep.right
    . rw [List.length_append, List.length_singleton]
      omega
    . intro hend
      cases hend with
      | inl hc => exact hsep.left hc.symm
      | inr hfull => omega

/- A line that fits into the buffer is read as it is, together with its separator. -/
theorem chunks_line {sep : α} {size : Nat} (text rest : List α) (hsep : sep ∉ text)
    (hsize : text.length < size)
    : chunks sep size (text ++ sep :: rest) = (text ++ [sep]) :: chunks sep size rest := by
  unfold chunks
  rw [loop_append [] text _ hsep (by simpa using hsize), List.nil_append, loop, if_pos (Or.inl rfl)]

theorem loop_append_sep {sep : α} {size : Nat} (line text rest : List α) (hsep : sep ∉ text)
    : loop sep size line (text ++ sep :: rest)
        = loop sep size line (text ++ [sep]) ++ loop sep size [] rest := by
  induction text generalizing line with
  | nil => simp [loop]
  | cons c text ih =>
    simp only [List.mem_cons, not_or] at hsep
    simp only [List.cons_append, loop]
    split
    . rw [ih _ hsep.right, List.cons_append]
    . rw [ih _ hsep.right]

/-
What is made of the pieces, if nothing is made of an empty one and the separator at the end of one makes
no difference.
-/

section

variable {β : Type v} {f : List α → Option β} {sep : α} {size : Nat}

theorem filterMap_loop_sep (hf : ∀ line, f (line ++ [sep]) = f line) (hnil : f [] = none)
    (line text : List α)
    : (loop sep size line (text ++ [sep])).filterMap f = (loop sep size line text).filterMap f := by
  induction text generalizing line with
  | nil =>
    have hline := hf line
    cases line with
    | nil =>
      rw [List.nil_append, hnil] at hline
      simp [loop, hline]
    | cons c line =>
      have hpiece : (loop sep size (c :: line) ([] ++ [sep])) = [c :: line ++ [sep]] := by
        simp [loop]
      rw [hpiece, List.filterMap_cons, hline]
      rfl
  | cons c text ih =>
    simp only [List.cons_append, loop]
    split
    . rw [List.filterMap_cons, List.filterMap_cons, ih]
    . rw [ih]

theorem not_mem_of_mem_splitOn (content : List α)
    : ∀ line, line ∈ content.splitOn sep → sep ∉ line := by
  intro line hline
  cases Decidable.em (sep ∈ content) with
  | inl hmem =>
    obtain ⟨first, rest, hcontent, hfirst⟩ := List.eq_append_cons_of_mem hmem
    rw [hcontent, List.splitOn_append_cons_self_of_not_mem hfirst, List.mem_cons] at hline
    cases hline with
    | inl hline =>
      rw [hline]
      exact hfirst
    | inr hline => apply not_mem_of_mem_splitOn rest line hline
  | inr hmem =>
    rw [List.splitOn_eq_singleton hmem, List.mem_singleton] at hline
    rw [hline]
    exact hmem
termination_by content.length
decreasing_by
  rw [hcontent, List.length_append, List.length_cons]
  omega

/- No piece reaches over the end of a line. -/
theorem filterMap_chunks (hf : ∀ line, f (line ++ [sep]) = f line) (hnil : f [] = none)
    (content : List α)
    : (chunks sep size content).filterMap f
        = (content.splitOn sep).flatMap fun line => (chunks sep size line).filterMap f := by
  cases Decidable.em (sep ∈ content) with
  | inl hmem =>
    obtain ⟨line, rest, hcontent, hline⟩ := List.eq_append_cons_of_mem hmem
    have ih := filterMap_chunks hf hnil rest
    unfold chunks at ih ⊢
    rw [hcontent, List.splitOn_append_cons_self_of_not_mem hline, List.flatMap_cons, ← ih,
      loop_append_sep _ _ _ hline, List.filterMap_append, filterMap_loop_sep hf hnil]
  | inr hmem => rw [List.splitOn_eq_singleton hmem, List.flatMap_singleton]
termination_by content.length
decreasing_by
  rw [hcontent, List.length_append, List.length_cons]
  omega

theorem filterMap_loop_short (hnil : f [] = none) (line text : List α) (hsep : sep ∉ text)
    (hsize : line.length + text.length ≤ size)
    : (loop sep size line text).filterMap f = (f (line ++ text)).toList := by
  induction text generalizing line with
  | nil =>
    cases line with
    | nil => simp [loop, hnil]
    | cons c line =>
      cases hc : f (c :: line) with
      | none => simp [loop, hc]
      | some entry => simp [loop, hc]
  | cons c text ih =>
    rw [List.length_cons] at hsize
    simp only [List.mem_cons, not_or] at hsep
    rw [loop]
    split
    . next hend =>
      -- the buffer is full, so this is the last character
      have htext : text = [] := by
        rw [← List.length_eq_zero_iff]
        cases hend with
        | inl hc => exact absurd hc.symm hsep.left
        | inr hfull => omega
      rw [htext]
      cases hc : f (line ++ [c]) with
      | none => simp [loop, hc]
      | some entry => simp [loop, hc]
    . rw [ih _ hsep.right, List.append_assoc, List.singleton_append]
      rw [List.length_append, List.length_singleton]
      omega

/- A line that fits into the buffer is one piece, whether or not its separator does too. -/
theorem filterMap_chunks_short (hnil : f [] = none) {line : List α} (hsep : sep ∉ line)
    (hsize : line.length ≤ size)
    : (chunks sep size line).filterMap f = (f line).toList := by
  apply filterMap_loop_short hnil [] line hsep
  rw [List.length_nil]
  omega

theorem filterMap_chunks_fit (hf : ∀ line, f (line ++ [sep]) = f line) (hnil : f [] = none)
    {content : List α} (hfit : ∀ line, line ∈ content.splitOn sep → line.length ≤ size)
    : (chunks sep size content).filterMap f = (content.splitOn sep).filterMap f := by
  rw [filterMap_chunks hf hnil, List.filterMap_eq_flatMap_toList]
  apply List.flatMap_congr
  intro line hline
  apply filterMap_chunks_short hnil (not_mem_of_mem_splitOn content line hline) (hfit line hline)

end

end Lines

import PS3Moonlight.Lib.Transition
import Mathlib.Data.List.Basic

/-!
This module contains bounded queues that make room by forgetting their oldest elements, and that
forget down to `low` elements whenever a pull leaves more than `high` of them behind.
-/

structure DropQueue (α : Type*) (cap : Nat) where
  items : List α
  hbound : items.length ≤ cap

namespace DropQueue

variable {α : Type*} {cap : Nat}

inductive Op (α : Type*) where
  | push (data : List α)
  | pull (n : Nat)

def Op.pushed (op : Op α) : List α :=
  match op with
  | .push data => data
  | .pull _ => []

def empty (α : Type*) (cap : Nat) : DropQueue α cap where
  items := []
  hbound := by simp

/- The newest `n` elements. -/
def newest (n : Nat) (items : List α) : List α :=
  items.drop (items.length - n)

@[simp]
theorem length_newest (n : Nat) (items : List α)
    : (newest n items).length = min n items.length := by
  simp only [newest, List.length_drop]
  omega

theorem newest_sublist (n : Nat) (items : List α) : (newest n items).Sublist items := by
  unfold newest
  apply List.drop_sublist

def push (q : DropQueue α cap) (data : List α) : DropQueue α cap where
  items := newest cap (q.items ++ data)
  hbound := by
    rw [length_newest]
    omega

def trim (high low : Nat) (items : List α) : List α :=
  if high < items.length then newest low items else items

theorem trim_sublist (high low : Nat) (items : List α)
    : (trim high low items).Sublist items := by
  unfold trim
  split
  . apply newest_sublist
  . apply List.Sublist.refl

theorem length_trim_le {high low : Nat} (h : low ≤ high) (items : List α)
    : (trim high low items).length ≤ high := by
  unfold trim
  split
  . rw [length_newest]
    omega
  . omega

def pull (high low : Nat) (q : DropQueue α cap) (n : Nat) : DropQueue α cap where
  items := trim high low (q.items.drop n)
  hbound := by
    have htrim := (trim_sublist high low (q.items.drop n)).length_le
    have := q.hbound
    simp only [List.length_drop] at htrim
    omega

/- A pull answers the elements it removed, or nothing at all if there are too few. -/
def step (high low : Nat) (q : DropQueue α cap) (op : Op α) : DropQueue α cap × Option (List α) :=
  match op with
  | .push data => ⟨q.push data, none⟩
  | .pull n =>
    if q.items.length < n then
      ⟨q, none⟩
    else
      ⟨q.pull high low n, some (q.items.take n)⟩

/- Everything the answers delivered, in order. -/
def delivered (answers : List (Option (List α))) : List α :=
  (answers.map fun answer => answer.getD []).flatten

theorem delivered_cons (answer : Option (List α)) (answers : List (Option (List α)))
    : delivered (answer :: answers) = answer.getD [] ++ delivered answers := by
  simp [delivered]

def pushed (ops : List (Op α)) : List α :=
  ops.flatMap Op.pushed

theorem pushed_cons (op : Op α) (ops : List (Op α))
    : pushed (op :: ops) = op.pushed ++ pushed ops := by
  simp [pushed]

/-
One operation delivers and keeps, in order and at most once, what was there or what it pushed.
-/
theorem step_sublist (high low : Nat) (q : DropQueue α cap) (op : Op α)
    : ((step high low q op).snd.getD [] ++ (step high low q op).fst.items).Sublist
        (q.items ++ op.pushed) := by
  cases op with
  | push data =>
    simp only [step, push, Op.pushed, Option.getD_none, List.nil_append]
    apply newest_sublist
  | pull n =>
    simp only [step, Op.pushed, List.append_nil]
    split
    . simp
    . simp only [pull, Option.getD_some]
      have hsplit : (q.items.take n ++ q.items.drop n).Sublist q.items := by
        simp
      apply List.Sublist.trans _ hsplit
      apply List.Sublist.append_left
      apply trim_sublist

theorem trace_sublist (high low : Nat) (q : DropQueue α cap) (ops : List (Op α))
    : (delivered (Transition.trace (step high low) q ops).snd
          ++ (Transition.trace (step high low) q ops).fst.items).Sublist
        (q.items ++ pushed ops) := by
  induction ops generalizing q with
  | nil => simp [Transition.trace, delivered, pushed]
  | cons op ops ih =>
    have hstep := step_sublist high low q op
    have hrest := ih (step high low q op).fst
    rw [Transition.trace_cons, delivered_cons, pushed_cons]
    dsimp only
    rw [List.append_assoc, ← List.append_assoc q.items]
    apply List.Sublist.trans (hrest.append_left _)
    rw [← List.append_assoc]
    apply hstep.append_right

/-
A queue that only forgets its oldest elements always holds the end of what was pushed.
-/

theorem newest_suffix (n : Nat) (items : List α) : newest n items <:+ items := by
  unfold newest
  apply List.drop_suffix

theorem trim_suffix (high low : Nat) (items : List α) : trim high low items <:+ items := by
  unfold trim
  split
  . apply newest_suffix
  . apply List.suffix_refl

theorem step_suffix (high low : Nat) (q : DropQueue α cap) (op : Op α) {all : List α}
    (h : q.items <:+ all)
    : (step high low q op).fst.items <:+ all ++ op.pushed := by
  cases op with
  | push data =>
    simp only [step, push, Op.pushed]
    apply (newest_suffix _ _).trans
    have ⟨front, hfront⟩ := h
    exact ⟨front, by rw [← hfront, List.append_assoc]⟩
  | pull n =>
    simp only [step, Op.pushed, List.append_nil]
    split
    . exact h
    . apply (trim_suffix _ _ _).trans
      apply (List.drop_suffix _ _).trans h

theorem trace_suffix (high low : Nat) (q : DropQueue α cap) (ops : List (Op α)) {all : List α}
    (h : q.items <:+ all)
    : (Transition.trace (step high low) q ops).fst.items <:+ all ++ pushed ops := by
  induction ops generalizing q all with
  | nil => simpa [Transition.trace, pushed] using h
  | cons op ops ih =>
    rw [Transition.trace_cons, pushed_cons, ← List.append_assoc]
    apply ih
    apply step_suffix high low q op h

end DropQueue

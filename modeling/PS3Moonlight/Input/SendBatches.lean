import PS3Moonlight.Input.Packets
import PS3Moonlight.Input.SendThread
import PS3Moonlight.Lib.Batching

/-!
This module contains what the host makes of the items of the input stream: the events in their
order, and a pointer, a cursor and controllers whose states may be batched in between.
-/

namespace Input
namespace Stream

/-
What the host makes of the items.
-/

structure Position where
  x : Int16
  y : Int16
  width : Int16
  height : Int16

def Item.isEvent (i : Item) : Bool :=
  match i with
  | .event _ => true
  | _ => false

def movePointer (s : Int × Int) (i : Item) : Int × Int :=
  match i with
  | .move deltaX deltaY => ⟨s.fst + deltaX, s.snd + deltaY⟩
  | _ => s

def setCursor (s : Option Position) (i : Item) : Option Position :=
  match i with
  | .position x y width height => some ⟨x, y, width, height⟩
  | _ => s

def setPad (controllerNumber : Nat) (s : Option MultiController) (i : Item)
    : Option MultiController :=
  match i with
  | .pad c => if c.controllerNumber = controllerNumber then some c else s
  | _ => s

def pointer : Batching.Receiver Item (Int × Int) where
  isEvent := Item.isEvent
  start := ⟨0, 0⟩
  apply := movePointer
  apply_event s i h := by
    cases i with
    | event holder => rfl
    | _ => contradiction

def cursor : Batching.Receiver Item (Option Position) where
  isEvent := Item.isEvent
  start := none
  apply := setCursor
  apply_event s i h := by
    cases i with
    | event holder => rfl
    | _ => contradiction

def pad (controllerNumber : Nat) : Batching.Receiver Item (Option MultiController) where
  isEvent := Item.isEvent
  start := none
  apply := setPad controllerNumber
  apply_event s i h := by
    cases i with
    | event holder => rfl
    | _ => contradiction

/- The states of a controller among the items. -/
def padOf (controllerNumber : Nat) (i : Item) : Option MultiController :=
  match i with
  | .pad c => if c.controllerNumber = controllerNumber then some c else none
  | _ => none

def padsOf (controllerNumber : Nat) (items : List Item) : List MultiController :=
  items.filterMap (padOf controllerNumber)

/-
Every event is on the wire, no state is late, and no state of a controller is made up or skipped
together with a change of its buttons.
-/
structure Batches (accepted wire : List Item) : Prop where
  pointer : Batching.Faithful pointer accepted wire
  cursor : Batching.Faithful cursor accepted wire
  pad : ∀ n, Batching.Faithful (pad n) accepted wire
  coalesced : ∀ n, Batching.Coalesced MultiController.buttons (padsOf n accepted) (padsOf n wire)

theorem Batches.nil : Batches [] [] := by
  constructor
  . apply Batching.Faithful.nil
  . apply Batching.Faithful.nil
  . intro n
    apply Batching.Faithful.nil
  . intro n
    apply Batching.Coalesced.nil

theorem padsOf_append (n : Nat) (first second : List Item)
    : padsOf n (first ++ second) = padsOf n first ++ padsOf n second := by
  apply List.filterMap_append

theorem padsOf_cons (n : Nat) (i : Item) (items : List Item)
    : padsOf n (i :: items) = (padOf n i).toList ++ padsOf n items := by
  unfold padsOf
  cases h : padOf n i <;> simp [h]

theorem padsOf_eq_nil {n : Nat} {items : List Item} (h : ∀ i, i ∈ items → padOf n i = none)
    : padsOf n items = [] := by
  unfold padsOf
  rw [List.filterMap_eq_nil_iff]
  exact h

theorem Batches.concat {accepted wire : List Item} (h : Batches accepted wire) (i : Item)
    : Batches (accepted ++ [i]) (wire ++ [i]) := by
  constructor
  . exact h.pointer.concat i
  . exact h.cursor.concat i
  . intro n
    exact (h.pad n).concat i
  . intro n
    rw [padsOf_append, padsOf_append, padsOf_cons]
    cases padOf n i with
    | none => simpa [padsOf] using h.coalesced n
    | some c => exact (h.coalesced n).concat c

section

variable {accepted before after : List Item}

theorem Batches.mergeMove {x y deltaX deltaY : Int}
    (h : Batches accepted (before ++ .move x y :: after))
    (hafter : ∀ i, i ∈ after → ∀ x y, i ≠ .move x y)
    : Batches (accepted ++ [.move deltaX deltaY])
        (before ++ .move (x + deltaX) (y + deltaY) :: after) := by
  constructor
  . apply h.pointer.merge rfl rfl rfl
    . intro s
      simp only [Stream.pointer, movePointer, Int.add_assoc]
    . intro i hi s
      cases i with
      | move x y => exact absurd rfl (hafter _ hi x y)
      | _ => rfl
  . exact (h.cursor.silent rfl (fun _ => rfl)).replaceOne rfl rfl (fun _ => rfl)
  . intro n
    exact ((h.pad n).silent rfl (fun _ => rfl)).replaceOne rfl rfl (fun _ => rfl)
  . intro n
    have hold := h.coalesced n
    rw [padsOf_append, padsOf_cons] at hold
    rw [padsOf_append, padsOf_append, padsOf_cons, padsOf_cons]
    simpa [padsOf, padOf] using hold

theorem Batches.mergePosition {p q : Position}
    (h : Batches accepted (before ++ .position p.x p.y p.width p.height :: after))
    (hafter : ∀ i, i ∈ after → ∀ x y width height, i ≠ .position x y width height)
    : Batches (accepted ++ [.position q.x q.y q.width q.height])
        (before ++ .position q.x q.y q.width q.height :: after) := by
  constructor
  . exact (h.pointer.silent rfl (fun _ => rfl)).replaceOne rfl rfl (fun _ => rfl)
  . apply h.cursor.merge rfl rfl rfl
    . intro s
      rfl
    . intro i hi s
      cases i with
      | position x y width height => exact absurd rfl (hafter _ hi x y width height)
      | _ => rfl
  . intro n
    exact ((h.pad n).silent rfl (fun _ => rfl)).replaceOne rfl rfl (fun _ => rfl)
  . intro n
    have hold := h.coalesced n
    rw [padsOf_append, padsOf_cons] at hold
    rw [padsOf_append, padsOf_append, padsOf_cons, padsOf_cons]
    simpa [padsOf, padOf] using hold

/- The new state takes the place of one with the same buttons. -/
theorem Batches.mergePad {old c : MultiController}
    (h : Batches accepted (before ++ .pad old :: after))
    (hnumber : old.controllerNumber = c.controllerNumber) (hbuttons : old.buttons = c.buttons)
    (hafter : ∀ d, .pad d ∈ after → d.controllerNumber ≠ c.controllerNumber)
    : Batches (accepted ++ [.pad c]) (before ++ .pad c :: after) := by
  constructor
  . exact (h.pointer.silent rfl (fun _ => rfl)).replaceOne rfl rfl (fun _ => rfl)
  . exact (h.cursor.silent rfl (fun _ => rfl)).replaceOne rfl rfl (fun _ => rfl)
  . intro n
    cases Decidable.em (c.controllerNumber = n) with
    | inl heq =>
      apply (h.pad n).merge rfl rfl rfl
      . intro s
        simp [Stream.pad, setPad, heq]
      . intro i hi s
        cases i with
        | pad d => simp [Stream.pad, setPad, ← heq, hafter d hi]
        | _ => rfl
    | inr hne =>
      apply ((h.pad n).silent rfl _).replaceOne rfl rfl
      . intro s
        simp [Stream.pad, setPad, hnumber, hne]
      . intro s
        simp [Stream.pad, setPad, hne]
  . intro n
    have hold := h.coalesced n
    rw [padsOf_append, padsOf_cons] at hold
    rw [padsOf_append, padsOf_append, padsOf_cons, padsOf_cons]
    cases Decidable.em (c.controllerNumber = n) with
    | inl heq =>
      have hnone : padsOf n after = [] := by
        apply padsOf_eq_nil
        intro i hi
        cases i with
        | pad d => simp [padOf, ← heq, hafter d hi]
        | _ => rfl
      simp only [padOf, hnumber, if_pos heq, hnone, Option.toList_some, List.append_nil] at hold ⊢
      exact hold.merge hbuttons.symm
    | inr hne => simpa [padOf, hnumber, hne, padsOf] using hold

/- A move goes out in pieces, and one of nothing does not go out. -/
theorem Batches.splitMove {x y : Int} (h : Batches accepted (before ++ .move x y :: after))
    (us : List Item)
    (hmoves : ∀ i, i ∈ us → ∃ x y, i = .move x y)
    (hsum : ∀ s, us.foldl movePointer s = movePointer s (.move x y))
    : Batches accepted (before ++ us ++ after) := by
  have hevent : ∀ i, i ∈ us → i.isEvent = false := by
    intro i hi
    obtain ⟨x', y', hi'⟩ := hmoves i hi
    rw [hi']
    rfl
  constructor
  . exact h.pointer.replace rfl hevent hsum
  . apply h.cursor.replace rfl hevent
    intro s
    apply Batching.Receiver.foldl_eq_self
    intro i hi s
    obtain ⟨x', y', hi'⟩ := hmoves i hi
    rw [hi']
    rfl
  . intro n
    apply (h.pad n).replace rfl hevent
    intro s
    apply Batching.Receiver.foldl_eq_self
    intro i hi s
    obtain ⟨x', y', hi'⟩ := hmoves i hi
    rw [hi']
    rfl
  . intro n
    have hnone : padsOf n us = [] := by
      apply padsOf_eq_nil
      intro i hi
      obtain ⟨x', y', hi'⟩ := hmoves i hi
      rw [hi']
      rfl
    have hold := h.coalesced n
    rw [padsOf_append, padsOf_cons] at hold
    rw [padsOf_append, padsOf_append, hnone, List.append_nil]
    exact hold

end

end Stream
end Input

import Mathlib.Data.List.Basic
import PS3Moonlight.Lib.KeyStream

/-!
This module contains the polling of a connected mouse in `input_loop`: which events it sends to the
host, and that the host holds the buttons of the last report.
-/

namespace Input

inductive MouseButton where
  | left
  | right
  | middle
  | x1
  | x2
deriving DecidableEq

def MouseButton.mask (button : MouseButton) : UInt8 :=
  match button with
  | .left => 0x01
  | .right => 0x02
  | .middle => 0x04
  | .x1 => 0x08
  | .x2 => 0x10

inductive MouseEvent where
  | move (x y : Int16)
  | moveAsPosition (x y width height : Int16)
  | scroll (clicks : Int8)
  | button (button : MouseButton) (press : Bool)
deriving DecidableEq

structure MouseData where
  buttons : UInt8
  xAxis : Int8
  yAxis : Int8
  wheel : Int8

/- A poll finds an update or none, and the settings of the user interface at that time. -/
structure MousePoll where
  update : Option MouseData
  mouseMode : Nat
  streamWidth : Int16
  streamHeight : Int16

def MouseButton.pressed (buttons : UInt8) (button : MouseButton) : Bool :=
  buttons &&& button.mask ≠ 0

def moveEvents (p : MousePoll) (mdata : MouseData) : List MouseEvent :=
  if mdata.xAxis ≠ 0 ∨ mdata.yAxis ≠ 0 then
    if p.mouseMode = 0 then
      [.move mdata.xAxis.toInt16 mdata.yAxis.toInt16]
    else
      [.moveAsPosition mdata.xAxis.toInt16 mdata.yAxis.toInt16 p.streamWidth p.streamHeight]
  else
    []

def scrollEvents (mdata : MouseData) : List MouseEvent :=
  if mdata.wheel ≠ 0 then [.scroll mdata.wheel] else []

def buttonEvent (btnDiff buttons : UInt8) (button : MouseButton) : List MouseEvent :=
  if button.pressed btnDiff then [.button button (button.pressed buttons)] else []

def buttonEvents (btnDiff buttons : UInt8) : List MouseEvent :=
  if btnDiff ≠ 0 then
    buttonEvent btnDiff buttons .left ++ buttonEvent btnDiff buttons .right
      ++ buttonEvent btnDiff buttons .middle ++ buttonEvent btnDiff buttons .x1
      ++ buttonEvent btnDiff buttons .x2
  else
    []

/- The state is `last_mouse_buttons` of the mouse. -/
def pollMouse (lastMouseButtons : UInt8) (p : MousePoll) : UInt8 × List MouseEvent :=
  match p.update with
  | none => ⟨lastMouseButtons, []⟩
  | some mdata =>
    let btnDiff := mdata.buttons ^^^ lastMouseButtons
    ⟨if btnDiff ≠ 0 then mdata.buttons else lastMouseButtons,
      moveEvents p mdata ++ scrollEvents mdata ++ buttonEvents btnDiff mdata.buttons⟩

/- The difference only decides whether the assignment is needed. -/
theorem pollMouse_fst (lastMouseButtons : UInt8) (p : MousePoll)
    : (pollMouse lastMouseButtons p).fst
        =
      (p.update.map MouseData.buttons).getD lastMouseButtons := by
  unfold pollMouse
  split
  . next h => rw [h, Option.map_none, Option.getD_none]
  . next mdata h =>
    rw [h, Option.map_some, Option.getD_some]
    dsimp only
    split
    . rfl
    . next heq =>
      rw [ne_eq, not_not, UInt8.xor_eq_zero_iff] at heq
      exact heq.symm

/- A mask has one bit. -/
theorem and_mask (buttons : UInt8) (button : MouseButton)
    : buttons &&& button.mask = 0 ∨ buttons &&& button.mask = button.mask := by
  have h : ∀ n : Fin 256, UInt8.ofFin n &&& button.mask = 0
      ∨ UInt8.ofFin n &&& button.mask = button.mask := by
    cases button <;> decide +kernel
  exact h buttons.toFin

theorem xor_and (a b mask : UInt8) : (a ^^^ b) &&& mask = (a &&& mask) ^^^ (b &&& mask) := by
  apply UInt8.eq_of_toBitVec_eq
  ext i hi
  simp only [UInt8.toBitVec_and, UInt8.toBitVec_xor, BitVec.getElem_and, BitVec.getElem_xor]
  apply Bool.and_xor_distrib_right

theorem pressed_xor (buttons last : UInt8) (button : MouseButton)
    : button.pressed (buttons ^^^ last) = (button.pressed buttons ^^ button.pressed last) := by
  have hmask : button.mask ≠ 0 := by cases button <;> decide
  rw [MouseButton.pressed, MouseButton.pressed, MouseButton.pressed, xor_and]
  cases and_mask buttons button with
  | inl hb => cases and_mask last button with
    | inl hl => simp [hb, hl]
    | inr hl => simp [hb, hl, hmask]
  | inr hb => cases and_mask last button with
    | inl hl => simp [hb, hl, hmask]
    | inr hl => simp [hb, hl, hmask]

/- The events of one button. -/
def onButton (button : MouseButton) (e : MouseEvent) : Option Bool :=
  match e with
  | .button b press => if b = button then some press else none
  | _ => none

open KeyStream

theorem actions_moveEvents (button : MouseButton) (p : MousePoll) (mdata : MouseData)
    : actions (onButton button) (moveEvents p mdata) = [] := by
  unfold moveEvents
  split
  . split <;> rfl
  . rfl

theorem actions_scrollEvents (button : MouseButton) (mdata : MouseData)
    : actions (onButton button) (scrollEvents mdata) = [] := by
  unfold scrollEvents
  split <;> rfl

theorem actions_buttonEvent (button b : MouseButton) (buttons last : UInt8)
    : actions (onButton button) (buttonEvent (buttons ^^^ last) buttons b)
        =
      if b = button then follow (b.pressed last) (b.pressed buttons) else [] := by
  rw [buttonEvent, pressed_xor]
  by_cases h : b = button
  . cases b.pressed buttons <;> cases b.pressed last <;> simp [actions, onButton, follow, h]
  . split <;> simp [actions, onButton, h]

theorem actions_buttonEvents (button : MouseButton) (buttons last : UInt8)
    : actions (onButton button) (buttonEvents (buttons ^^^ last) buttons)
        =
      follow (button.pressed last) (button.pressed buttons) := by
  unfold buttonEvents
  split
  . simp only [actions_append, actions_buttonEvent]
    cases button <;> simp
  . next h =>
    rw [ne_eq, not_not, UInt8.xor_eq_zero_iff] at h
    simp [h, follow, actions]

theorem actions_pollMouse (button : MouseButton) (last : UInt8) (p : MousePoll)
    : actions (onButton button) (pollMouse last p).snd
        =
      follow (button.pressed last) (button.pressed (pollMouse last p).fst) := by
  rw [pollMouse_fst]
  unfold pollMouse
  split
  . next h => simp [h, follow, actions]
  . next mdata h =>
    rw [actions_append, actions_append, actions_moveEvents, actions_scrollEvents,
      actions_buttonEvents, h]
    rfl

end Input

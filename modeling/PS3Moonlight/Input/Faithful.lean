import Mathlib.Data.List.Induction
import PS3Moonlight.Input.Keyboard
import PS3Moonlight.Input.Mouse

/-!
This module contains the events that a keyboard and a mouse send over any number of polls: for every
key and button, when they alternate and what the host holds behind each poll.
-/

namespace Input

open KeyStream

def keyboardEvents (header : KbHeader) (reports : List KbReport) : List KeyEvent :=
  stream (pollKeyboard header) initKeyboard reports

def mouseEvents (polls : List MousePoll) : List MouseEvent :=
  stream pollMouse 0 polls

def KeyboardFaithful (header : KbHeader) (reports : List KbReport) : Prop :=
  (∀ vk, Alternates false (actions (onKey vk) (keyboardEvents header reports)))
    ∧
  ∀ before r after, reports = before ++ r :: after
    → ∀ vk, heldAfter false (actions (onKey vk) (keyboardEvents header (before ++ [r])))
      = r.describes header vk

/- A mouse without an update so far has no button pressed. -/
def latestButtons (polls : List MousePoll) : UInt8 :=
  ((polls.filterMap MousePoll.update).getLast?.map MouseData.buttons).getD 0

def MouseFaithful (polls : List MousePoll) : Prop :=
  (∀ button, Alternates false (actions (onButton button) (mouseEvents polls)))
    ∧
  ∀ before p after, polls = before ++ p :: after
    → ∀ button, heldAfter false (actions (onButton button) (mouseEvents (before ++ [p])))
      = button.pressed (latestButtons (before ++ [p]))

/- No report has two codes for a virtual key that the report before it did not have. -/
def NoAliases (header : KbHeader) (reports : List KbReport) : Prop :=
  ∀ before r after, reports = before ++ r :: after
    → ∀ vk, (∀ previous, before.getLast? = some previous → vk ∉ images header previous.keycode)
      → (images header r.keycode).count vk ≤ 1

theorem initKeyboard_holds (vk : Nat) : initKeyboard.holds vk = false := by
  rw [Keyboard.holds, initKeyboard, Bool.or_false]
  unfold Mkey.bit
  split <;> rfl

/- The table always is that of the last report. -/
theorem lastKeysDown_trace (header : KbHeader) (reports : List KbReport) (vk : Nat)
    : (Transition.trace (pollKeyboard header) initKeyboard reports).fst.lastKeysDown vk = false
        ↔
      ∀ previous, reports.getLast? = some previous → vk ∉ images header previous.keycode := by
  cases List.eq_nil_or_concat reports with
  | inl h => simp [h, Transition.trace, initKeyboard]
  | inr h =>
    obtain ⟨before, r, h⟩ := h
    rw [h, List.concat_eq_append, Transition.trace_concat_fst, pollKeyboard_lastKeysDown]
    simp

/- The host always holds what the last report describes, with or without aliases. -/
theorem heldAfter_keyboardEvents (header : KbHeader) (before : List KbReport) (r : KbReport)
    (vk : Nat)
    : heldAfter false (actions (onKey vk) (keyboardEvents header (before ++ [r])))
        =
      r.describes header vk := by
  have hstream := heldAfter_stream (pollKeyboard header) (onKey vk) (Keyboard.holds vk)
    (fun s r => heldAfter_pollKeyboard header s r vk) initKeyboard (before ++ [r])
  rw [initKeyboard_holds, Transition.trace_concat_fst, holds_pollKeyboard] at hstream
  exact hstream

theorem alternates_keyboardEvents_iff (header : KbHeader) (reports : List KbReport)
    : (∀ vk, Alternates false (actions (onKey vk) (keyboardEvents header reports)))
        ↔
      NoAliases header reports := by
  have hstream := fun vk => alternates_stream_iff (pollKeyboard header) (onKey vk)
    (Keyboard.holds vk) (fun s r => heldAfter_pollKeyboard header s r vk) initKeyboard reports
  simp only [initKeyboard_holds, alternates_pollKeyboard, lastKeysDown_trace] at hstream
  constructor
  . intro h before r after heq vk
    exact (hstream vk).mp (h vk) before r after heq
  . intro h vk
    apply (hstream vk).mpr
    intro before r after heq
    exact h before r after heq vk

theorem heldAfter_pollMouse (button : MouseButton) (last : UInt8) (p : MousePoll)
    : heldAfter (button.pressed last) (actions (onButton button) (pollMouse last p).snd)
        =
      button.pressed (pollMouse last p).fst := by
  rw [actions_pollMouse, heldAfter_follow]

theorem trace_pollMouse (polls : List MousePoll)
    : (Transition.trace pollMouse 0 polls).fst = latestButtons polls := by
  induction polls using List.reverseRecOn with
  | nil => rfl
  | append_singleton polls p ih =>
    rw [Transition.trace_concat_fst, pollMouse_fst, ih, latestButtons, latestButtons,
      List.filterMap_append]
    cases h : p.update with
    | none => simp [h]
    | some mdata => simp [h]

theorem pressed_zero (button : MouseButton) : button.pressed 0 = false := by
  cases button <;> rfl

/- Each button is diffed against the one report that its last event came from. -/
theorem mouseFaithful (polls : List MousePoll) : MouseFaithful polls := by
  have hheld := fun button => heldAfter_stream pollMouse (onButton button) button.pressed
    (heldAfter_pollMouse button) 0
  have halternates := fun button => alternates_stream_iff pollMouse (onButton button)
    button.pressed (heldAfter_pollMouse button) 0 polls
  simp only [pressed_zero, trace_pollMouse] at hheld halternates
  constructor
  . intro button
    apply (halternates button).mpr
    intro before p after _
    rw [actions_pollMouse]
    apply alternates_follow
  . intro before p after _ button
    exact hheld button (before ++ [p])

theorem faithful_iff_noAliases (header : KbHeader) (reports : List KbReport)
    (polls : List MousePoll)
    : KeyboardFaithful header reports ∧ MouseFaithful polls ↔ NoAliases header reports := by
  constructor
  . intro h
    exact (alternates_keyboardEvents_iff header reports).mp h.left.left
  . intro h
    refine ⟨⟨?_, ?_⟩, mouseFaithful polls⟩
    . exact (alternates_keyboardEvents_iff header reports).mpr h
    . intro before r after _ vk
      exact heldAfter_keyboardEvents header before r vk

/- The flags of the raw keys and of the keypad are not needed for an alias. -/
def exampleHeader : KbHeader where
  rawdat := 0x8000
  keypad := 0x4000
  rawKey := fun code => if code = 0x29 then some .escape else none
  kpadKey := fun code => if code = 0x58 then some .kpadEnter else none

/- The codes of a small and of a capital letter in one report. -/
def twoCasesReport : KbReport where
  mkey := initKeyboard.lastMkey
  keycode := [0x61, 0x41]

theorem not_noAliases_twoCases : ¬NoAliases exampleHeader [twoCasesReport] := by
  intro h
  have hcount := h [] twoCasesReport [] rfl 0x41 (by simp)
  revert hcount
  decide

theorem not_faithful_twoCases
    : keyboardEvents exampleHeader [twoCasesReport] = [⟨0x41, true, 0⟩, ⟨0x41, true, 0⟩]
        ∧
      ¬(KeyboardFaithful exampleHeader [twoCasesReport] ∧ MouseFaithful []) := by
  constructor
  . decide +kernel
  . intro h
    apply not_noAliases_twoCases
    exact (alternates_keyboardEvents_iff exampleHeader [twoCasesReport]).mp h.left.left

end Input

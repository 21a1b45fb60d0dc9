import Mathlib.Data.List.Basic

/-!
This module contains what the two threads share through `ui.c`, and the frames of `ui_loop`: every look
at a shared variable and every write of one is a step of its own.
-/

namespace Ui

inductive UiState where
  | ipEntry
  | settings
  | pairing
  | applist
  | streaming
  | error
  deriving DecidableEq

/- `ps3_app_entry_t` -/
structure AppEntry where
  id : Int
  name : List UInt8

structure Shared where
  uiState : UiState
  uiRunning : Bool
  targetIp : List UInt8
  oskActive : Bool
  msgDialogActive : Bool
  currentAppList : List AppEntry
  activeAppIdx : Nat
  appSelectionConfirmed : Bool

/- The `buttons_pressed` of one frame. -/
structure Pad where
  up : Bool
  down : Bool
  left : Bool
  right : Bool
  a : Bool
  b : Bool
  play : Bool

def mainMenuItemCount : Nat := 3

def settingsItemCount : Nat := 9

/- What an item of a screen does to the shared variables. -/
inductive Action where
  | openOsk
  | openSettings
  | connect
  | openExitDialog
  | back
  | loadIdx (up : Bool)
  | storeIdx (idx : Nat)
  | confirm
  | unconfirm
  | cancel
  deriving DecidableEq

/-
The next statement of the UI thread. Behind `input` and `drawing` stand the screens that `ui_state` is
still compared with, behind `acting` what the buttons of this frame still do.
-/
inductive UiPc where
  | running
  | input (screens : List UiState)
  | oskIdle
  | dialogIdle
  | appCount
  | acting (actions : List Action)
  | drawing (screens : List UiState)
  | acknowledging
  | stopped
  deriving DecidableEq

structure UiThread where
  pc : UiPc
  pad : Pad
  activeMainItem : Nat
  activeSettingsItem : Nat

def inputScreens : List UiState := [.ipEntry, .settings, .pairing, .applist]

def drawingScreens : List UiState := [.streaming, .ipEntry, .settings, .pairing, .applist, .error]

def when (pressed : Bool) (action : Action) : List Action :=
  if pressed then [action] else []

/- A cursor that goes round. -/
def navigate (pad : Pad) (item count : Nat) : Nat :=
  let item := if pad.up then (item + count - 1) % count else item
  if pad.down then (item + 1) % count else item

namespace UiThread

def mainMenu (u : UiThread) : UiThread :=
  let item := navigate u.pad u.activeMainItem mainMenuItemCount
  let settings := item == 1 && (u.pad.a || u.pad.right)
  { u with
    activeMainItem := item
    activeSettingsItem := if settings then 0 else u.activeSettingsItem
    pc := .acting
      (when (item == 0 && (u.pad.a || u.pad.left || u.pad.right)) .openOsk
        ++ when settings .openSettings
        ++ when (item == 2 && u.pad.a) .connect
        ++ when u.pad.play .connect
        ++ when u.pad.b .openExitDialog) }

/- Of the settings only the way back to the main menu is shared. -/
def settingsMenu (u : UiThread) : UiThread :=
  let item := navigate u.pad u.activeSettingsItem settingsItemCount
  { u with
    activeSettingsItem := item
    pc := .acting (when (item == settingsItemCount - 1 && u.pad.a) .back ++ when u.pad.b .back) }

def appMenu (u : UiThread) (count : Nat) : UiThread :=
  let selection :=
    when u.pad.up (.loadIdx true) ++ when u.pad.down (.loadIdx false) ++ when u.pad.a .confirm
  { u with
    pc := .acting
      ((if 0 < count then selection else [])
        ++ when u.pad.b .unconfirm ++ when u.pad.b .cancel) }

/- The screen that `ui_state` was found to be. -/
def handle (u : UiThread) (screen : UiState) : UiThread :=
  match screen with
  | .ipEntry => { u with pc := .oskIdle }
  | .settings => u.settingsMenu
  | .pairing => { u with pc := .acting (when u.pad.b .cancel) }
  | .applist => { u with pc := .appCount }
  | _ => { u with pc := .drawing drawingScreens }

end UiThread

/- The flag says whether the on-screen keyboard can be loaded. -/
def Shared.act (s : Shared) (action : Action) (osk : Bool) : Shared :=
  match action with
  | .openOsk => { s with oskActive := s.oskActive || osk }
  | .openSettings => { s with uiState := .settings }
  | .connect => { s with uiState := .pairing }
  | .openExitDialog => { s with msgDialogActive := s.msgDialogActive || !s.oskActive }
  | .back => { s with uiState := .ipEntry }
  | .loadIdx _ => s
  | .storeIdx idx => { s with activeAppIdx := idx }
  | .confirm => { s with appSelectionConfirmed := true }
  | .unconfirm => { s with appSelectionConfirmed := false }
  | .cancel => { s with uiState := .ipEntry }

/- A cursor movement is a load of the shared cursor and a store of it. -/
def Shared.followUp (s : Shared) (action : Action) : List Action :=
  let count := s.currentAppList.length
  match action with
  | .loadIdx true => [.storeIdx ((s.activeAppIdx + count - 1) % count)]
  | .loadIdx false => [.storeIdx ((s.activeAppIdx + 1) % count)]
  | _ => []

namespace UiThread

/- What the next statement writes. -/
def effect (u : UiThread) (s : Shared) (osk : Bool) : Shared :=
  match u.pc with
  | .acting (action :: _) => s.act action osk
  | .acknowledging => { s with uiState := .ipEntry }
  | _ => s

/- Where the thread goes, by what it reads. It gets the buttons at the start of a frame. -/
def advance (u : UiThread) (s : Shared) (pad : Pad) : UiThread :=
  match u.pc with
  | .running =>
    if s.uiRunning then
      { u with pc := .input inputScreens, pad := pad }
    else
      { u with pc := .stopped }
  | .input [] => { u with pc := .drawing drawingScreens }
  | .input (screen :: screens) =>
    if s.uiState = screen then u.handle screen else { u with pc := .input screens }
  | .oskIdle => { u with pc := if s.oskActive then .drawing drawingScreens else .dialogIdle }
  | .dialogIdle => if s.msgDialogActive then { u with pc := .drawing drawingScreens } else u.mainMenu
  | .appCount => u.appMenu s.currentAppList.length
  | .acting [] => { u with pc := .drawing drawingScreens }
  | .acting (action :: actions) => { u with pc := .acting (s.followUp action ++ actions) }
  | .drawing [] => { u with pc := .running }
  | .drawing (screen :: screens) =>
    if s.uiState = screen then
      { u with pc := if screen = .error && u.pad.a then .acknowledging else .running }
    else
      { u with pc := .drawing screens }
  | .acknowledging => { u with pc := .running }
  | .stopped => u

/- One statement of `ui_loop`, until the loop has ended. -/
def step (u : UiThread) (s : Shared) (pad : Pad) (osk : Bool) : Option (Shared × UiThread) :=
  if u.pc = .stopped then none else some ⟨u.effect s osk, u.advance s pad⟩

/- The item whose turn it is. -/
def nextAction (u : UiThread) : Option Action :=
  match u.pc with
  | .acting (action :: _) => some action
  | _ => none

theorem step_eq_some {u u' : UiThread} {s s' : Shared} {pad : Pad} {osk : Bool}
    (h : u.step s pad osk = some ⟨s', u'⟩)
    : s' = u.effect s osk ∧ u' = u.advance s pad := by
  unfold step at h
  split at h
  . simp at h
  . injection h with h
    injection h with hs hu
    exact ⟨hs.symm, hu.symm⟩

end UiThread

theorem Shared.act_targetIp (s : Shared) (action : Action) (osk : Bool)
    : (s.act action osk).targetIp = s.targetIp := by
  cases action with
  | _ => rfl

theorem UiThread.effect_targetIp (u : UiThread) (s : Shared) (osk : Bool)
    : (u.effect s osk).targetIp = s.targetIp := by
  unfold effect
  split
  . apply Shared.act_targetIp
  . rfl
  . rfl

/- Only the Connect button and START begin a pairing. -/
theorem Shared.act_pairing {s : Shared} {action : Action} {osk : Bool}
    (h : (s.act action osk).uiState = .pairing)
    : s.uiState = .pairing ∨ action = .connect := by
  cases action with
  | connect => exact Or.inr rfl
  | openSettings => simp [act] at h
  | back => simp [act] at h
  | cancel => simp [act] at h
  | _ => exact Or.inl h

theorem UiThread.effect_pairing {u : UiThread} {s : Shared} {osk : Bool}
    (h : (u.effect s osk).uiState = .pairing)
    : s.uiState = .pairing ∨ u.nextAction = some .connect := by
  unfold effect at h
  unfold nextAction
  split at h
  . next action actions hpc =>
    rw [hpc]
    dsimp only
    rw [Option.some.injEq]
    apply Shared.act_pairing h
  . simp at h
  . exact Or.inl h

end Ui

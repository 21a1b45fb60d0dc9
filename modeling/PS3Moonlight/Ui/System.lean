import PS3Moonlight.Lib.Transition
import PS3Moonlight.Ui.Attempt

/-!
This module contains both threads together, with the callbacks of the system between their statements.
-/

namespace Ui

structure System where
  shared : Shared
  main : MainThread
  ui : UiThread

/-
The callbacks of the keyboard, of the exit dialog and of the system come at any time between the
statements of the threads.
-/
inductive Event where
  | main (o : Outcome)
  | ui (pad : Pad) (osk : Bool)
  | oskDone (address : List UInt8)
  | oskUnloaded
  | exitDialog (yes : Bool)
  | exitGame

def System.step (s : System) (e : Event) : Option System :=
  match e with
  | .main o => (s.main.step s.shared o).map fun t => { s with shared := t.fst, main := t.snd }
  | .ui pad osk => (s.ui.step s.shared pad osk).map fun t => { s with shared := t.fst, ui := t.snd }
  | .oskDone address =>
    if s.shared.oskActive then
      some { s with shared := { s.shared with targetIp := address } }
    else
      none
  | .oskUnloaded =>
    if s.shared.oskActive then
      some { s with shared := { s.shared with oskActive := false } }
    else
      none
  | .exitDialog yes =>
    if s.shared.msgDialogActive then
      some
        { s with
          shared :=
            { s.shared with
              msgDialogActive := false
              uiRunning := s.shared.uiRunning && !yes } }
    else
      none
  | .exitGame => some { s with shared := { s.shared with uiRunning := false } }

def noButtons : Pad := ⟨false, false, false, false, false, false, false⟩

/- Both threads as `ui_init` leaves them, with the address from the configuration. -/
def System.start (targetIp : List UInt8) : System where
  shared :=
    { uiState := .ipEntry
      uiRunning := true
      targetIp := targetIp
      oskActive := false
      msgDialogActive := false
      currentAppList := []
      activeAppIdx := 0
      appSelectionConfirmed := false }
  main :=
    { pc := .running
      address := []
      appList := []
      appId := -1
      appName := []
      serverAddress := [] }
  ui :=
    { pc := .running
      pad := noButtons
      activeMainItem := 0
      activeSettingsItem := 0 }

def threads (targetIp : List UInt8) : Transition.Machine System Event where
  init := System.start targetIp
  step := System.step

end Ui

import PS3Moonlight.Lib.Transition
import PS3Moonlight.Ui.Config
import PS3Moonlight.Ui.Frame
import Mathlib.Logic.Relation

/-!
This module contains the frames of `ui_loop` as far as they change settings, mark them as dirty and save
them. A frame is a chain of a few operations, from which everything follows that every frame keeps.
-/

namespace Ui
namespace SettingsMenu

/- How the two calls of `fopen` in one `ui_save_settings` turn out. -/
structure Opens where
  configPath : Bool
  fallback : Bool
  deriving DecidableEq

def Opens.ok (o : Opens) : Bool :=
  o.configPath || o.fallback

/- What a frame gets from outside: the buttons, the clock, and how its calls turn out. -/
structure FrameInput where
  pad : Pad
  now : UInt64
  markTime : UInt64
  debounce : Opens
  item : Opens
  start : Opens
  circle : Opens
  oskContainer : Bool
  oskLoad : Bool

/- The variables of `ui.c`, and the text of the last successful write of the configuration file. -/
structure Menu where
  settings : Settings
  settingsDirty : Bool
  settingsDirtyTime : UInt64
  uiState : UiState
  uiRunning : Bool
  oskActive : Bool
  msgDialogActive : Bool
  activeMainItem : Nat
  activeSettingsItem : Nat
  written : Option (List UInt8)

def settingsDebounceUs : UInt64 := 1500000

namespace Menu

def markSettingsDirty (m : Menu) (now : UInt64) : Menu :=
  { m with settingsDirty := true, settingsDirtyTime := now }

/- The flag is cleared before the file is opened. -/
def saveSettings (m : Menu) (opens : Opens) : Menu :=
  { m with
    settingsDirty := false
    settingsDirtyTime := 0
    written := if opens.ok then some (configText m.settings) else m.written }

def flushSettingsIfDirty (m : Menu) (opens : Opens) : Menu :=
  if m.settingsDirty then m.saveSettings opens else m

/- A new value of one setting, and the mark. -/
def assign (m : Menu) (now : UInt64) (settings : Settings) : Menu :=
  { m with settings := settings }.markSettingsDirty now

/-
A setting with two values: Cross takes the other one, Left and Right the one on that side.
-/
def choose (m : Menu) (i : FrameInput) (get : Settings → Nat) (set : Settings → Nat → Settings)
    (toggled left right : Nat) : Menu :=
  if i.pad.a then
    m.assign i.markTime (set m.settings toggled)
  else if i.pad.left then
    if get m.settings ≠ left then m.assign i.markTime (set m.settings left) else m
  else if i.pad.right then
    if get m.settings ≠ right then m.assign i.markTime (set m.settings right) else m
  else
    m

def lnot (n : Nat) : Nat :=
  if n = 0 then 1 else 0

def fpsItem (m : Menu) (i : FrameInput) : Menu :=
  m.choose i Settings.fps (fun s v => { s with fps := v })
    (if m.settings.fps = 30 then 60 else 30) 30 60

def bitrateItem (m : Menu) (i : FrameInput) : Menu :=
  let m :=
    if i.pad.a || i.pad.right then
      m.assign i.markTime
        { m.settings with bitrateIdx := (m.settings.bitrateIdx + 1) % numBitrateOptions }
    else
      m
  if i.pad.left then
    m.assign i.markTime
      { m.settings with
        bitrateIdx := (m.settings.bitrateIdx + numBitrateOptions - 1) % numBitrateOptions }
  else
    m

def getStreamResIdx (is4x3 : Bool) (s : Settings) : Nat :=
  if is4x3 then s.streamRes4x3Idx else s.streamRes16x9Idx

def setStreamResIdx (is4x3 : Bool) (s : Settings) (idx : Nat) : Settings :=
  if is4x3 then
    { s with streamRes4x3Idx := (idx % 2 + 2) % 2 }
  else
    { s with streamRes16x9Idx := (idx % 2 + 2) % 2 }

def streamResItem (is4x3 : Bool) (m : Menu) (i : FrameInput) : Menu :=
  m.choose i (getStreamResIdx is4x3) (setStreamResIdx is4x3)
    (getStreamResIdx is4x3 m.settings ^^^ 1) 0 1

def scalingItem (m : Menu) (i : FrameInput) : Menu :=
  m.choose i Settings.scalingMode (fun s v => { s with scalingMode := v })
    (lnot m.settings.scalingMode) scalingModeShader scalingModeLegacy

def mouseItem (m : Menu) (i : FrameInput) : Menu :=
  m.choose i Settings.mouseMode (fun s v => { s with mouseMode := v })
    (lnot m.settings.mouseMode) 0 1

def vsyncItem (m : Menu) (i : FrameInput) : Menu :=
  m.choose i Settings.vsync (fun s v => { s with vsync := v }) (lnot m.settings.vsync) 0 1

def statsItem (m : Menu) (i : FrameInput) : Menu :=
  m.choose i Settings.showStats (fun s v => { s with showStats := v })
    (lnot m.settings.showStats) 0 1

def verboseItem (m : Menu) (i : FrameInput) : Menu :=
  m.choose i Settings.verbose (fun s v => { s with verbose := v })
    (lnot m.settings.verbose) 0 1

def goTo (m : Menu) (state : UiState) : Menu :=
  { m with uiState := state }

def backItem (m : Menu) (i : FrameInput) : Menu :=
  if i.pad.a then (m.flushSettingsIfDirty i.item).goTo .ipEntry else m

def settingsItem (is4x3 : Bool) (m : Menu) (i : FrameInput) : Menu :=
  match m.activeSettingsItem with
  | 0 => m.fpsItem i
  | 1 => m.bitrateItem i
  | 2 => m.streamResItem is4x3 i
  | 3 => m.scalingItem i
  | 4 => m.mouseItem i
  | 5 => m.vsyncItem i
  | 6 => m.statsItem i
  | 7 => m.verboseItem i
  | 8 => m.backItem i
  | _ => m

def settingsMenu (is4x3 : Bool) (m : Menu) (i : FrameInput) : Menu :=
  let m :=
    { m with activeSettingsItem := navigate i.pad m.activeSettingsItem settingsItemCount }
  let m := m.settingsItem is4x3 i
  if i.pad.b then (m.flushSettingsIfDirty i.circle).goTo .ipEntry else m

def openOsk (m : Menu) (i : FrameInput) : Menu :=
  if m.oskActive || !i.oskContainer then
    m
  else
    { m with settings := getTargetIp m.settings, oskActive := i.oskLoad }

def openExitDialog (m : Menu) : Menu :=
  { m with msgDialogActive := m.msgDialogActive || !m.oskActive }

def mainItem (m : Menu) (i : FrameInput) : Menu :=
  match m.activeMainItem with
  | 0 => if i.pad.a || i.pad.left || i.pad.right then m.openOsk i else m
  | 1 =>
    if i.pad.a || i.pad.right then { m with uiState := .settings, activeSettingsItem := 0 } else m
  | 2 => if i.pad.a then (m.flushSettingsIfDirty i.item).goTo .pairing else m
  | _ => m

def mainMenu (m : Menu) (i : FrameInput) : Menu :=
  let m := { m with activeMainItem := navigate i.pad m.activeMainItem mainMenuItemCount }
  let m := m.mainItem i
  let m := if i.pad.play then (m.flushSettingsIfDirty i.start).goTo .pairing else m
  if i.pad.b then (m.flushSettingsIfDirty i.circle).openExitDialog else m

def debounced (m : Menu) (i : FrameInput) : Menu :=
  if m.settingsDirty && settingsDebounceUs ≤ i.now - m.settingsDirtyTime then
    m.flushSettingsIfDirty i.debounce
  else
    m

def input (is4x3 : Bool) (m : Menu) (i : FrameInput) : Menu :=
  match m.uiState with
  | .ipEntry => if m.oskActive || m.msgDialogActive then m else m.mainMenu i
  | .settings => m.settingsMenu is4x3 i
  | .pairing => if i.pad.b then m.goTo .ipEntry else m
  | .applist => if i.pad.b then m.goTo .ipEntry else m
  | _ => m

/- The error screen looks at the buttons while it is drawn. -/
def drawn (m : Menu) (i : FrameInput) : Menu :=
  if m.uiState = .error && i.pad.a then m.goTo .ipEntry else m

def frame (is4x3 : Bool) (m : Menu) (i : FrameInput) : Menu :=
  ((m.debounced i).input is4x3 i).drawn i

end Menu

/-
What happens between two frames comes from the callbacks, from the main thread, which only changes the
screen, and from `ui_shutdown`.
-/
inductive Event where
  | frame (i : FrameInput)
  | oskDone (text : List UInt16) (opens : Opens)
  | oskUnloaded
  | exitDialog (yes : Bool)
  | screen (state : UiState)
  | exitGame
  | shutdown (opens : Opens)

def step (conversion : IntConversion) (is4x3 : Bool) (m : Menu) (e : Event) : Option Menu :=
  match e with
  | .frame i => if m.uiRunning then some (m.frame is4x3 i) else none
  | .oskDone text opens =>
    if m.oskActive then
      some
        ({ m with
          settings := setTargetIp conversion m.settings (utf16ToAscii text) }.saveSettings opens)
    else
      none
  | .oskUnloaded => if m.oskActive then some { m with oskActive := false } else none
  | .exitDialog yes =>
    if m.msgDialogActive then
      some { m with msgDialogActive := false, uiRunning := m.uiRunning && !yes }
    else
      none
  | .screen state =>
    if state = .settings ∨ state = .pairing then none else some (m.goTo state)
  | .exitGame => some { m with uiRunning := false }
  | .shutdown opens =>
    some { m.flushSettingsIfDirty opens with uiRunning := false, msgDialogActive := false }

/- The state that `ui_init` leaves, with the settings of the configuration file. -/
def start (conversion : IntConversion) (file : Option (List UInt8)) : Menu where
  settings := loadSettings conversion defaultSettings file
  settingsDirty := false
  settingsDirtyTime := 0
  uiState := .ipEntry
  uiRunning := true
  oskActive := false
  msgDialogActive := false
  activeMainItem := 0
  activeSettingsItem := 0
  written := none

def machine (conversion : IntConversion) (is4x3 : Bool) (file : Option (List UInt8))
    : Transition.Machine Menu Event where
  init := start conversion file
  step := step conversion is4x3

/-
The operations that a frame consists of.
-/

/- Neither the settings nor what is known about them has changed. -/
structure SameSettings (m t : Menu) : Prop where
  settings : t.settings = m.settings
  settingsDirty : t.settingsDirty = m.settingsDirty
  written : t.written = m.written

/- One operation, where every attempt to open the files goes the given way. -/
inductive Operation (opening : Opens → Prop) (m : Menu) : Menu → Prop where
  | assign (now : UInt64) (settings : Settings) (h : Change m.settings settings)
    : Operation opening m (m.assign now settings)
  | flush (opens : Opens) (h : opening opens) : Operation opening m (m.flushSettingsIfDirty opens)
  | other (t : Menu) (h : SameSettings m t) : Operation opening m t

/- The attempts of a frame go the given way. -/
structure FrameInput.Opening (opening : Opens → Prop) (i : FrameInput) : Prop where
  debounce : opening i.debounce
  item : opening i.item
  start : opening i.start
  circle : opening i.circle

section

variable {opening : Opens → Prop}

/- A chain of operations. -/
abbrev Chain (opening : Opens → Prop) : Menu → Menu → Prop :=
  Relation.ReflTransGen (Operation opening)

theorem chain_assign {m : Menu} {settings : Settings} (now : UInt64)
    (h : Change m.settings settings)
    : Chain opening m (m.assign now settings) := by
  apply Relation.ReflTransGen.single
  apply Operation.assign now settings h

theorem chain_flush {m : Menu} {opens : Opens} (h : opening opens)
    : Chain opening m (m.flushSettingsIfDirty opens) := by
  apply Relation.ReflTransGen.single
  apply Operation.flush opens h

theorem chain_other {m t : Menu} (h : SameSettings m t) : Chain opening m t := by
  apply Relation.ReflTransGen.single
  apply Operation.other t h

theorem chain_goTo {m t : Menu} (h : Chain opening m t) (state : UiState)
    : Chain opening m (t.goTo state) := by
  apply h.tail
  apply Operation.other
  exact ⟨rfl, rfl, rfl⟩

theorem chain_choose {m : Menu} {get : Settings → Nat} {set : Settings → Nat → Settings}
    {toggled left right : Nat} (i : FrameInput) (htoggled : Change m.settings (set m.settings toggled))
    (hleft : Change m.settings (set m.settings left))
    (hright : Change m.settings (set m.settings right))
    : Chain opening m (m.choose i get set toggled left right) := by
  unfold Menu.choose
  split
  . apply chain_assign _ htoggled
  . split
    . split
      . apply chain_assign _ hleft
      . exact Relation.ReflTransGen.refl
    . split
      . split
        . apply chain_assign _ hright
        . exact Relation.ReflTransGen.refl
      . exact Relation.ReflTransGen.refl

theorem lnot_le (n : Nat) : Menu.lnot n ≤ 1 := by
  unfold Menu.lnot
  split
  . decide
  . decide

/- A setting that is 0 or 1: Cross takes the other value, Left the first and Right the second. -/
theorem chain_toggle {m : Menu} {get : Settings → Nat} {set : Settings → Nat → Settings}
    (i : FrameInput) (h : ∀ v, v ≤ 1 → Change m.settings (set m.settings v))
    : Chain opening m (m.choose i get set (Menu.lnot (get m.settings)) 0 1) := by
  apply chain_choose i
  . apply h
    apply lnot_le
  . apply h
    decide
  . apply h
    decide

theorem chain_fpsItem (m : Menu) (i : FrameInput) : Chain opening m (m.fpsItem i) := by
  apply chain_choose i
  . apply Change.fps
    split
    . exact Or.inr rfl
    . exact Or.inl rfl
  . apply Change.fps _ (Or.inl rfl)
  . apply Change.fps _ (Or.inr rfl)

theorem change_setStreamResIdx (is4x3 : Bool) (s : Settings) (idx : Nat)
    : Change s (Menu.setStreamResIdx is4x3 s idx) := by
  have hle : (idx % 2 + 2) % 2 ≤ 1 := by omega
  unfold Menu.setStreamResIdx
  cases is4x3 with
  | true => exact Change.streamRes4x3Idx _ hle
  | false => exact Change.streamRes16x9Idx _ hle

theorem chain_bitrateItem (m : Menu) (i : FrameInput) : Chain opening m (m.bitrateItem i) := by
  have hlt : ∀ n, n % numBitrateOptions < numBitrateOptions := by
    intro n
    apply Nat.mod_lt
    decide
  have hup : Chain opening m
      (if i.pad.a || i.pad.right then
        m.assign i.markTime
          { m.settings with bitrateIdx := (m.settings.bitrateIdx + 1) % numBitrateOptions }
      else
        m) := by
    split
    . apply chain_assign _ (Change.bitrateIdx _ (hlt _))
    . exact Relation.ReflTransGen.refl
  unfold Menu.bitrateItem
  dsimp only
  split
  . apply hup.trans
    apply chain_assign _ (Change.bitrateIdx _ (hlt _))
  . exact hup

theorem chain_settingsItem (is4x3 : Bool) (m : Menu) {i : FrameInput} (h : i.Opening opening)
    : Chain opening m (m.settingsItem is4x3 i) := by
  unfold Menu.settingsItem
  split
  . apply chain_fpsItem
  . apply chain_bitrateItem
  . apply chain_choose i
    all_goals apply change_setStreamResIdx
  . apply chain_toggle i
    intro v hv
    apply Change.scalingMode v hv
  . apply chain_toggle i
    intro v hv
    apply Change.mouseMode v hv
  . apply chain_toggle i
    intro v hv
    apply Change.vsync v hv
  . apply chain_toggle i
    intro v hv
    apply Change.showStats v hv
  . apply chain_toggle i
    intro v hv
    apply Change.verbose v hv
  . unfold Menu.backItem
    split
    . apply chain_goTo (chain_flush h.item) _
    . exact Relation.ReflTransGen.refl
  . exact Relation.ReflTransGen.refl

theorem chain_settingsMenu (is4x3 : Bool) (m : Menu) {i : FrameInput} (h : i.Opening opening)
    : Chain opening m (m.settingsMenu is4x3 i) := by
  unfold Menu.settingsMenu
  dsimp only
  have hitem : Chain opening m
      (Menu.settingsItem is4x3
        { m with activeSettingsItem := navigate i.pad m.activeSettingsItem settingsItemCount } i) := by
    apply Relation.ReflTransGen.trans _ (chain_settingsItem is4x3 _ h)
    apply chain_other
    exact ⟨rfl, rfl, rfl⟩
  split
  . apply chain_goTo (hitem.trans (chain_flush h.circle)) _
  . exact hitem

theorem Operation.targetIpStr {m t : Menu} (h : Operation opening m t)
    : t.settings.targetIpStr = m.settings.targetIpStr := by
  cases h with
  | assign now settings hchange => exact hchange.targetIpStr
  | flush opens _ =>
    unfold Menu.flushSettingsIfDirty
    split
    . rfl
    . rfl
  | other _ hsame => rw [hsame.settings]

/- No frame changes the address. -/
theorem chain_targetIpStr {m t : Menu} (h : Chain opening m t)
    : t.settings.targetIpStr = m.settings.targetIpStr := by
  induction h with
  | refl => rfl
  | tail _ hlast ih => rw [hlast.targetIpStr, ih]

theorem chain_openOsk {m : Menu} (i : FrameInput) (hip : m.settings.targetIpStr ≠ [])
    : Chain opening m (m.openOsk i) := by
  unfold Menu.openOsk
  split
  . exact Relation.ReflTransGen.refl
  . apply chain_other
    exact ⟨getTargetIp_of_ne_nil hip, rfl, rfl⟩

theorem chain_mainItem {m : Menu} {i : FrameInput} (h : i.Opening opening)
    (hip : m.settings.targetIpStr ≠ [])
    : Chain opening m (m.mainItem i) := by
  unfold Menu.mainItem
  split
  . split
    . apply chain_openOsk i hip
    . exact Relation.ReflTransGen.refl
  . split
    . apply chain_other
      exact ⟨rfl, rfl, rfl⟩
    . exact Relation.ReflTransGen.refl
  . split
    . apply chain_goTo (chain_flush h.item) _
    . exact Relation.ReflTransGen.refl
  . exact Relation.ReflTransGen.refl

theorem chain_mainMenu {m : Menu} {i : FrameInput} (h : i.Opening opening)
    (hip : m.settings.targetIpStr ≠ [])
    : Chain opening m (m.mainMenu i) := by
  let navigated :=
    { m with activeMainItem := navigate i.pad m.activeMainItem mainMenuItemCount }
  have hipNavigated : navigated.settings.targetIpStr ≠ [] := hip
  have hitem : Chain opening m (navigated.mainItem i) := by
    apply Relation.ReflTransGen.trans _ (chain_mainItem h hipNavigated)
    apply chain_other
    exact ⟨rfl, rfl, rfl⟩
  have hstart : Chain opening m
      (if i.pad.play then
        ((navigated.mainItem i).flushSettingsIfDirty i.start).goTo .pairing
      else
        navigated.mainItem i) := by
    split
    . apply chain_goTo (hitem.trans (chain_flush h.start)) _
    . exact hitem
  unfold Menu.mainMenu
  dsimp only
  split
  . apply (hstart.trans (chain_flush h.circle)).tail
    apply Operation.other
    exact ⟨rfl, rfl, rfl⟩
  . exact hstart

theorem chain_frame (is4x3 : Bool) {m : Menu} {i : FrameInput} (h : i.Opening opening)
    (hip : m.settings.targetIpStr ≠ [])
    : Chain opening m (m.frame is4x3 i) := by
  have hdebounced : Chain opening m (m.debounced i) := by
    unfold Menu.debounced
    split
    . apply chain_flush h.debounce
    . exact Relation.ReflTransGen.refl
  have hip' : (m.debounced i).settings.targetIpStr ≠ [] := by
    rw [chain_targetIpStr hdebounced]
    exact hip
  have hinput : Chain opening (m.debounced i) ((m.debounced i).input is4x3 i) := by
    unfold Menu.input
    split
    . split
      . exact Relation.ReflTransGen.refl
      . apply chain_mainMenu h hip'
    . apply chain_settingsMenu is4x3 _ h
    . split
      . apply chain_goTo Relation.ReflTransGen.refl _
      . exact Relation.ReflTransGen.refl
    . split
      . apply chain_goTo Relation.ReflTransGen.refl _
      . exact Relation.ReflTransGen.refl
    . exact Relation.ReflTransGen.refl
  unfold Menu.frame Menu.drawn
  split
  . apply chain_goTo (hdebounced.trans hinput) _
  . apply hdebounced.trans hinput

/- The attempts of a step go the given way. -/
def Event.Opening (opening : Opens → Prop) (e : Event) : Prop :=
  match e with
  | .frame i => i.Opening opening
  | .oskDone _ opens => opening opens
  | .shutdown opens => opening opens
  | _ => True

/- A step is a chain of operations, or the keyboard has a new address, which is saved at once. -/
theorem step_cases {conversion : IntConversion} {is4x3 : Bool} {m t : Menu} {e : Event}
    (hip : m.settings.targetIpStr ≠ []) (hopening : e.Opening opening)
    (hstep : step conversion is4x3 m e = some t)
    : Chain opening m t
        ∨ ∃ text opens, opening opens
            ∧ t = { m with
                settings :=
                  setTargetIp conversion m.settings (utf16ToAscii text) }.saveSettings opens := by
  unfold step at hstep
  cases e with
  | frame i =>
    dsimp only at hstep
    split at hstep
    . injection hstep with hstep
      rw [← hstep]
      left
      apply chain_frame is4x3 hopening hip
    . contradiction
  | oskDone text opens =>
    dsimp only at hstep
    split at hstep
    . injection hstep with hstep
      right
      -- the callback saves without a look at the flag
      exact ⟨text, opens, hopening, hstep.symm⟩
    . contradiction
  | oskUnloaded =>
    dsimp only at hstep
    split at hstep
    . injection hstep with hstep
      rw [← hstep]
      left
      apply chain_other
      exact ⟨rfl, rfl, rfl⟩
    . contradiction
  | exitDialog yes =>
    dsimp only at hstep
    split at hstep
    . injection hstep with hstep
      rw [← hstep]
      left
      apply chain_other
      exact ⟨rfl, rfl, rfl⟩
    . contradiction
  | screen state =>
    dsimp only at hstep
    split at hstep
    . contradiction
    . injection hstep with hstep
      rw [← hstep]
      left
      apply chain_goTo Relation.ReflTransGen.refl
  | exitGame =>
    injection hstep with hstep
    rw [← hstep]
    left
    apply chain_other
    exact ⟨rfl, rfl, rfl⟩
  | shutdown opens =>
    injection hstep with hstep
    rw [← hstep]
    left
    apply (chain_flush hopening).tail
    apply Operation.other
    exact ⟨rfl, rfl, rfl⟩

theorem Event.opening_trivial (e : Event) : e.Opening fun _ => True := by
  cases e with
  | frame i => exact ⟨trivial, trivial, trivial, trivial⟩
  | _ => trivial

end

/-
The claim of the flag.
-/

/- Whether a setting has changed since the start. -/
def note (m : Menu) (_ : Event) (t : Menu) (changed : Bool) : Bool :=
  changed || t.settings ≠ m.settings

def recorded (conversion : IntConversion) (is4x3 : Bool) (file : Option (List UInt8))
    : Transition.Machine (Menu × Bool) Event :=
  (machine conversion is4x3 file).instrument false note

/- Without the flag nothing has changed, or the file has the settings as they are. -/
def NothingForgotten (m : Menu) (changed : Bool) : Prop :=
  m.settingsDirty = false → changed = false ∨ m.written = some (configText m.settings)

/- Every attempt to save opens one of the two files. -/
def Saves (e : Event) : Prop :=
  match e with
  | .frame i =>
    i.debounce.ok = true ∧ i.item.ok = true ∧ i.start.ok = true ∧ i.circle.ok = true
  | .oskDone _ opens => opens.ok = true
  | .shutdown opens => opens.ok = true
  | _ => True

instance (e : Event) : Decidable (Saves e) := by
  unfold Saves
  split
  all_goals infer_instance

/- What a chain of successful operations does to the flag and to the file. -/
def Kept (m t : Menu) : Prop :=
  t.settingsDirty = true ∨ t.written = some (configText t.settings)
    ∨ t.settings = m.settings ∧ m.settingsDirty = false ∧ t.written = m.written

theorem Kept.refl (m : Menu) : Kept m m := by
  cases hdirty : m.settingsDirty with
  | true => exact Or.inl hdirty
  | false => exact Or.inr (Or.inr ⟨rfl, hdirty, rfl⟩)

theorem Kept.trans {m t u : Menu} (hmt : Kept m t) (htu : Kept t u) : Kept m u := by
  rcases htu with hdirty | hwritten | ⟨hsettings, hclean, hsame⟩
  . exact Or.inl hdirty
  . exact Or.inr (Or.inl hwritten)
  . rcases hmt with hdirty | hwritten | hmt
    . rw [hclean] at hdirty
      contradiction
    . right
      left
      rw [hsame, hsettings]
      exact hwritten
    . right
      right
      exact ⟨hsettings.trans hmt.left, hmt.right.left, hsame.trans hmt.right.right⟩

theorem kept_save {m : Menu} {opens : Opens} (h : opens.ok = true)
    : (m.saveSettings opens).written = some (configText m.settings) := by
  unfold Menu.saveSettings
  rw [if_pos h]

theorem Operation.kept {m t : Menu} (h : Operation (fun opens => opens.ok = true) m t)
    : Kept m t := by
  cases h with
  | assign now settings _ => exact Or.inl rfl
  | flush opens hok =>
    unfold Menu.flushSettingsIfDirty
    split
    . exact Or.inr (Or.inl (kept_save hok))
    . apply Kept.refl m
  | other _ hsame =>
    cases hdirty : m.settingsDirty with
    | true => exact Or.inl (hsame.settingsDirty.trans hdirty)
    | false => exact Or.inr (Or.inr ⟨hsame.settings, hdirty, hsame.written⟩)

theorem chain_kept {m t : Menu} (h : Chain (fun opens => opens.ok = true) m t) : Kept m t := by
  induction h with
  | refl => exact Kept.refl m
  | tail _ hlast ih => exact ih.trans hlast.kept

theorem Kept.nothingForgotten {m t : Menu} {changed : Bool} (e : Event) (h : Kept m t)
    (hm : NothingForgotten m changed)
    : NothingForgotten t (note m e t changed) := by
  intro hclean
  rcases h with hdirty | hwritten | ⟨hsettings, hmclean, hsame⟩
  . rw [hclean] at hdirty
    contradiction
  . exact Or.inr hwritten
  . unfold note
    rw [hsame, hsettings]
    simpa using hm hmclean

theorem Saves.opening {e : Event} (h : Saves e) : e.Opening fun opens => opens.ok = true := by
  cases e with
  | frame i => exact ⟨h.left, h.right.left, h.right.right.left, h.right.right.right⟩
  | oskDone _ _ => exact h
  | shutdown _ => exact h
  | _ => trivial

theorem Kept.step {conversion : IntConversion} {is4x3 : Bool} {m t : Menu} {e : Event}
    (hip : m.settings.targetIpStr ≠ []) (hsaves : Saves e)
    (hstep : step conversion is4x3 m e = some t)
    : Kept m t := by
  cases step_cases hip hsaves.opening hstep with
  | inl hchain => apply chain_kept hchain
  | inr hosk =>
    have ⟨text, opens, hok, ht⟩ := hosk
    rw [ht]
    right
    left
    apply kept_save hok

/- There always is an address, as `ui_get_target_ip` takes for granted. -/
theorem step_targetIpStr {conversion : IntConversion} {is4x3 : Bool} {m t : Menu} {e : Event}
    (hip : m.settings.targetIpStr ≠ []) (hstep : step conversion is4x3 m e = some t)
    : t.settings.targetIpStr ≠ [] := by
  cases step_cases hip e.opening_trivial hstep with
  | inl hchain =>
    rw [chain_targetIpStr hchain]
    exact hip
  | inr hosk =>
    have ⟨text, opens, _, ht⟩ := hosk
    rw [ht]
    apply setTargetIp_ne_nil conversion _ hip

/-
In every run in which every attempt to save opens one of the two files, no change is forgotten.
-/
theorem saved_changes_not_forgotten (conversion : IntConversion) (is4x3 : Bool)
    (file : Option (List UInt8)) (t : Menu × Bool) (events : List Event)
    (hmeet : (recorded conversion is4x3 file).StepsMeet (fun _ e => Saves e)
      (recorded conversion is4x3 file).init events)
    (hrun : (recorded conversion is4x3 file).run events = some t)
    : NothingForgotten t.fst t.snd := by
  have hinv : t.fst.settings.targetIpStr ≠ [] ∧ NothingForgotten t.fst t.snd := by
    apply (recorded conversion is4x3 file).runFrom_invariant_of_stepsMeet (fun _ e => Saves e)
      (fun s => s.fst.settings.targetIpStr ≠ [] ∧ NothingForgotten s.fst s.snd) _ _ _ events _ hmeet
      hrun
    . intro s e t h hsaves hstep
      have ⟨hnext, hnote⟩ := Transition.Machine.instrument_step_eq_some.mp hstep
      rw [hnote]
      exact ⟨step_targetIpStr h.left hnext,
        (Kept.step h.left hsaves hnext).nothingForgotten e h.right⟩
    . refine ⟨loadSettings_ne_nil conversion file, ?_⟩
      intro _
      exact Or.inl rfl
  exact hinv.right

/- Numbers that do not fit into an `int` are taken to be zero. -/
def exampleConversion : IntConversion where
  toInt n := if -2 ^ 31 ≤ n ∧ n < 2 ^ 31 then n else 0
  toInt_eq := by
    intro n hlow hhigh
    rw [if_pos ⟨hlow, hhigh⟩]

/- A frame with some of the buttons, in which the files open or do not. -/
def press (down a b opens : Bool) : Event :=
  .frame
    { pad := ⟨false, down, false, false, a, b, false⟩
      now := 0
      markTime := 0
      debounce := ⟨opens, opens⟩
      item := ⟨opens, opens⟩
      start := ⟨opens, opens⟩
      circle := ⟨opens, opens⟩
      oskContainer := true
      oskLoad := true }

/- Down to the settings, Cross opens them, Cross toggles the frame rate, Circle goes back. -/
def toggleFps (opens : Bool) : List Event :=
  [press true true false true, press false true false true, press false false true opens]

theorem saved_changes_not_forgotten_fps
    : ∃ t, (recorded exampleConversion false none).run (toggleFps true) = some t
        ∧ t.snd = true ∧ t.fst.settings.fps = 30 ∧ t.fst.settingsDirty = false
        ∧ NothingForgotten t.fst t.snd := by
  obtain ⟨t, hrun, hchanged, hfps, hclean⟩ : ∃ t,
      (recorded exampleConversion false none).run (toggleFps true) = some t
        ∧ t.snd = true ∧ t.fst.settings.fps = 30 ∧ t.fst.settingsDirty = false := by
    exact ⟨_, rfl, rfl, rfl, rfl⟩
  refine ⟨t, hrun, hchanged, hfps, hclean, ?_⟩
  apply saved_changes_not_forgotten exampleConversion false none t (toggleFps true) _ hrun
  decide

/-
Neither file can be opened when the menu is left: the flag is cleared, and nothing has been written.
-/
theorem failed_save_forgets
    : ¬ ∀ (conversion : IntConversion) (is4x3 : Bool) (file : Option (List UInt8))
          (t : Menu × Bool) (events : List Event),
        (recorded conversion is4x3 file).run events = some t → NothingForgotten t.fst t.snd := by
  intro hclaim
  obtain ⟨t, hrun, hchanged, hclean, hwritten⟩ : ∃ t,
      (recorded exampleConversion false none).run (toggleFps false) = some t
        ∧ t.snd = true ∧ t.fst.settingsDirty = false ∧ t.fst.written = none := by
    exact ⟨_, rfl, rfl, rfl, rfl⟩
  have hkept := hclaim exampleConversion false none t (toggleFps false) hrun hclean
  rw [hchanged, hwritten] at hkept
  simp at hkept

end SettingsMenu
end Ui

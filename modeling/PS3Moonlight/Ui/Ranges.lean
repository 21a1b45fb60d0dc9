import PS3Moonlight.Handshake.AppList
import PS3Moonlight.Ui.ConfigRoundTrip

/-!
This module contains the settings and the cursors of `ui.c` together, over every run of frames, callbacks
and new app lists: they stay within the tables and lists that they are indices of, none of which is
checked where it is used.
-/

namespace Ui

/- A cursor as C computes it, where a remainder can be negative. -/
def navigateInt (pad : Pad) (item count : Int) : Int :=
  let item := if pad.up then (item + count - 1).tmod count else item
  if pad.down then (item + 1).tmod count else item

/- With something to go round nothing is negative. -/
theorem navigateInt_eq (pad : Pad) (item : Nat) {count : Nat} (h : 0 < count)
    : navigateInt pad item count = navigate pad item count := by
  have hup : ((item : Int) + count - 1).tmod count = ((item + count - 1) % count : Nat) := by
    have hcast : (item : Int) + count - 1 = (item + count - 1 : Nat) := by omega
    rw [hcast, ← Int.ofNat_tmod]
  have hdown : ∀ n : Nat, ((n : Int) + 1).tmod count = ((n + 1) % count : Nat) := by
    intro n
    rw [← Int.natCast_succ, ← Int.ofNat_tmod]
  unfold navigateInt navigate
  split
  . rw [hup]
    split
    . apply hdown
    . rfl
  . split
    . apply hdown
    . rfl

theorem navigate_lt (pad : Pad) {item count : Nat} (h : item < count)
    : navigate pad item count < count := by
  have hmod : ∀ n, n % count < count := by
    intro n
    apply Nat.mod_lt
    omega
  unfold navigate
  dsimp only
  split
  . apply hmod
  . split
    . apply hmod
    . exact h

namespace SettingsMenu

/-
The cursors of the two menus.
-/

theorem mainMenuItemCount_pos : 0 < mainMenuItemCount := by
  decide

theorem settingsItemCount_pos : 0 < settingsItemCount := by
  decide

structure ItemsInRange (m : Menu) : Prop where
  activeMainItem : m.activeMainItem < mainMenuItemCount
  activeSettingsItem : m.activeSettingsItem < settingsItemCount

/- Neither cursor has moved. -/
structure SameItems (m t : Menu) : Prop where
  activeMainItem : t.activeMainItem = m.activeMainItem
  activeSettingsItem : t.activeSettingsItem = m.activeSettingsItem

theorem SameItems.refl (m : Menu) : SameItems m m := by
  exact ⟨rfl, rfl⟩

theorem SameItems.inRange {m t : Menu} (h : SameItems m t) (hm : ItemsInRange m)
    : ItemsInRange t := by
  constructor
  . rw [h.activeMainItem]
    exact hm.activeMainItem
  . rw [h.activeSettingsItem]
    exact hm.activeSettingsItem

theorem sameItems_flush (m : Menu) (opens : Opens) : SameItems m (m.flushSettingsIfDirty opens) := by
  unfold Menu.flushSettingsIfDirty
  split
  . exact ⟨rfl, rfl⟩
  . exact SameItems.refl m

theorem inRange_flush {m : Menu} (opens : Opens) (h : ItemsInRange m)
    : ItemsInRange (m.flushSettingsIfDirty opens) := by
  apply (sameItems_flush m opens).inRange h

theorem inRange_goTo {m : Menu} (state : UiState) (h : ItemsInRange m)
    : ItemsInRange (m.goTo state) := by
  exact ⟨h.activeMainItem, h.activeSettingsItem⟩

theorem inRange_choose {m : Menu} (i : FrameInput) (get : Settings → Nat)
    (set : Settings → Nat → Settings) (toggled left right : Nat) (h : ItemsInRange m)
    : ItemsInRange (m.choose i get set toggled left right) := by
  have hassign : ∀ settings, ItemsInRange (m.assign i.markTime settings) := by
    intro settings
    exact ⟨h.activeMainItem, h.activeSettingsItem⟩
  unfold Menu.choose
  split
  . apply hassign
  . split
    . split
      . apply hassign
      . exact h
    . split
      . split
        . apply hassign
        . exact h
      . exact h

theorem inRange_bitrateItem {m : Menu} (i : FrameInput) (h : ItemsInRange m)
    : ItemsInRange (m.bitrateItem i) := by
  unfold Menu.bitrateItem
  dsimp only
  split
  . split
    . exact ⟨h.activeMainItem, h.activeSettingsItem⟩
    . exact ⟨h.activeMainItem, h.activeSettingsItem⟩
  . split
    . exact ⟨h.activeMainItem, h.activeSettingsItem⟩
    . exact h

theorem inRange_settingsItem (is4x3 : Bool) {m : Menu} (i : FrameInput) (h : ItemsInRange m)
    : ItemsInRange (m.settingsItem is4x3 i) := by
  unfold Menu.settingsItem
  split
  . apply inRange_choose i _ _ _ _ _ h
  . apply inRange_bitrateItem i h
  . apply inRange_choose i _ _ _ _ _ h
  . apply inRange_choose i _ _ _ _ _ h
  . apply inRange_choose i _ _ _ _ _ h
  . apply inRange_choose i _ _ _ _ _ h
  . apply inRange_choose i _ _ _ _ _ h
  . apply inRange_choose i _ _ _ _ _ h
  . unfold Menu.backItem
    split
    . apply inRange_goTo _ (inRange_flush _ h)
    . exact h
  . exact h

theorem inRange_settingsMenu (is4x3 : Bool) {m : Menu} (i : FrameInput) (h : ItemsInRange m)
    : ItemsInRange (m.settingsMenu is4x3 i) := by
  have hitem : ItemsInRange
      ({ m with
        activeSettingsItem := navigate i.pad m.activeSettingsItem settingsItemCount }.settingsItem
          is4x3 i) := by
    apply inRange_settingsItem
    exact ⟨h.activeMainItem, navigate_lt i.pad h.activeSettingsItem⟩
  unfold Menu.settingsMenu
  dsimp only
  split
  . apply inRange_goTo _ (inRange_flush _ hitem)
  . exact hitem

theorem inRange_mainItem {m : Menu} (i : FrameInput) (h : ItemsInRange m)
    : ItemsInRange (m.mainItem i) := by
  unfold Menu.mainItem
  split
  . split
    . unfold Menu.openOsk
      split
      . exact h
      . exact ⟨h.activeMainItem, h.activeSettingsItem⟩
    . exact h
  . split
    . exact ⟨h.activeMainItem, settingsItemCount_pos⟩
    . exact h
  . split
    . apply inRange_goTo _ (inRange_flush _ h)
    . exact h
  . exact h

theorem inRange_mainMenu {m : Menu} (i : FrameInput) (h : ItemsInRange m)
    : ItemsInRange (m.mainMenu i) := by
  let navigated := { m with activeMainItem := navigate i.pad m.activeMainItem mainMenuItemCount }
  have hitem : ItemsInRange (navigated.mainItem i) := by
    apply inRange_mainItem
    exact ⟨navigate_lt i.pad h.activeMainItem, h.activeSettingsItem⟩
  have hstart : ItemsInRange
      (if i.pad.play then
        ((navigated.mainItem i).flushSettingsIfDirty i.start).goTo .pairing
      else
        navigated.mainItem i) := by
    split
    . apply inRange_goTo _ (inRange_flush _ hitem)
    . exact hitem
  unfold Menu.mainMenu
  dsimp only
  split
  . have hflushed := inRange_flush i.circle hstart
    exact ⟨hflushed.activeMainItem, hflushed.activeSettingsItem⟩
  . exact hstart

theorem inRange_frame (is4x3 : Bool) {m : Menu} (i : FrameInput) (h : ItemsInRange m)
    : ItemsInRange (m.frame is4x3 i) := by
  have hdebounced : ItemsInRange (m.debounced i) := by
    unfold Menu.debounced
    split
    . apply inRange_flush _ h
    . exact h
  have hinput : ItemsInRange ((m.debounced i).input is4x3 i) := by
    unfold Menu.input
    split
    . split
      . exact hdebounced
      . apply inRange_mainMenu i hdebounced
    . apply inRange_settingsMenu is4x3 i hdebounced
    . split
      . apply inRange_goTo _ hdebounced
      . exact hdebounced
    . split
      . apply inRange_goTo _ hdebounced
      . exact hdebounced
    . exact hdebounced
  unfold Menu.frame Menu.drawn
  split
  . apply inRange_goTo _ hinput
  . exact hinput

theorem step_itemsInRange {conversion : IntConversion} {is4x3 : Bool} {m t : Menu} {e : Event}
    (h : ItemsInRange m) (hstep : step conversion is4x3 m e = some t)
    : ItemsInRange t := by
  unfold step at hstep
  cases e with
  | frame i =>
    dsimp only at hstep
    split at hstep
    . injection hstep with hstep
      rw [← hstep]
      apply inRange_frame is4x3 i h
    . contradiction
  | shutdown opens =>
    injection hstep with hstep
    have hflushed := inRange_flush opens h
    rw [← hstep]
    exact ⟨hflushed.activeMainItem, hflushed.activeSettingsItem⟩
  | exitGame =>
    injection hstep with hstep
    rw [← hstep]
    exact ⟨h.activeMainItem, h.activeSettingsItem⟩
  | screen state =>
    dsimp only at hstep
    split at hstep
    . contradiction
    . injection hstep with hstep
      rw [← hstep]
      apply inRange_goTo state h
  | _ =>
    dsimp only at hstep
    split at hstep
    . injection hstep with hstep
      rw [← hstep]
      exact ⟨h.activeMainItem, h.activeSettingsItem⟩
    . contradiction

theorem reachable_itemsInRange {conversion : IntConversion} {is4x3 : Bool}
    {file : Option (List UInt8)} {m : Menu} (h : (machine conversion is4x3 file).Reachable m)
    : ItemsInRange m := by
  apply h.invariant ItemsInRange
  . exact ⟨mainMenuItemCount_pos, settingsItemCount_pos⟩
  . intro s e t hs hstep
    apply step_itemsInRange hs hstep

end SettingsMenu

/-
The app list next to the menus.
-/

namespace Ranges

open SettingsMenu (Menu FrameInput)

/- `ps3_app_list_t`, with no more entries than it has room for. -/
structure AppList where
  apps : List Handshake.AppEntry
  length_le : apps.length ≤ Handshake.maxAppEntries

def AppList.empty : AppList where
  apps := []
  length_le := Nat.zero_le _

/- A list as `hv_get_app_list` leaves it. -/
def hvAppList {κ : Type} (ssl : Handshake.PolarSsl κ) (info : Handshake.HandshakeInfo)
    (uuid : Option Handshake.Random) (io : Handshake.HttpsIo κ) (store : Handshake.TrustStore)
    : AppList where
  apps := (Handshake.hvGetAppList ssl info uuid io store).snd
  length_le := Handshake.length_hvGetAppList_le ssl info uuid io store

structure Screens where
  menu : Menu
  currentAppList : AppList
  activeAppIdx : Nat
  appSelectionConfirmed : Bool

def Screens.count (u : Screens) : Nat :=
  u.currentAppList.apps.length

/- A frame of the app list, apart from the way back to the main menu. -/
def Screens.applist (u : Screens) (pad : Pad) : Screens :=
  let u :=
    if 0 < u.count then
      { u with
        activeAppIdx := navigate pad u.activeAppIdx u.count
        appSelectionConfirmed := u.appSelectionConfirmed || pad.a }
    else
      u
  if pad.b then { u with appSelectionConfirmed := false } else u

/- What the event is for the app list. -/
def Screens.listen (u : Screens) (e : SettingsMenu.Event) : Screens :=
  match e with
  | .frame i => if u.menu.uiState = .applist then u.applist i.pad else u
  | _ => u

def Screens.setAppList (u : Screens) (list : Option AppList) : Screens :=
  { u with currentAppList := list.getD .empty, activeAppIdx := 0, appSelectionConfirmed := false }

/- Besides what happens to the menus, the main thread sets the list and takes the choice back. -/
inductive Event where
  | menu (e : SettingsMenu.Event)
  | setAppList (list : Option AppList)
  | resetAppSelection

def step (conversion : IntConversion) (is4x3 : Bool) (u : Screens) (e : Event) : Option Screens :=
  match e with
  | .menu e =>
    (SettingsMenu.step conversion is4x3 u.menu e).map fun menu => { u.listen e with menu := menu }
  | .setAppList list => some (u.setAppList list)
  | .resetAppSelection => some { u with appSelectionConfirmed := false }

def machine (conversion : IntConversion) (is4x3 : Bool) (file : Option (List UInt8))
    : Transition.Machine Screens Event where
  init := ⟨SettingsMenu.start conversion file, .empty, 0, false⟩
  step := step conversion is4x3

/-
What is read without a check.
-/

def uiBitrateOptions : List Nat := [2500, 5000, 10000, 12500, 15000]

/- The element that `ui_get_bitrate` reads, if it is one. -/
def getBitrate (s : Settings) : Option Nat :=
  uiBitrateOptions[s.bitrateIdx]?

def getStreamWidth (is4x3 : Bool) (s : Settings) : Nat :=
  if is4x3 then
    if s.streamRes4x3Idx = 1 then 800 else 1024
  else
    if s.streamRes16x9Idx = 1 then 1920 else 1280

def getStreamHeight (is4x3 : Bool) (s : Settings) : Nat :=
  if is4x3 then
    if s.streamRes4x3Idx = 1 then 600 else 768
  else
    if s.streamRes16x9Idx = 1 then 1080 else 720

def getSelectedAppId (u : Screens) : Int :=
  match u.currentAppList.apps[u.activeAppIdx]? with
  | some app => app.id
  | none => -1

def maxVisibleApps : Nat := 6

/- The rows of the app list that are drawn, where a negative number of rows is none. -/
def visibleApps (u : Screens) : List Nat :=
  let start := if maxVisibleApps ≤ u.activeAppIdx then u.activeAppIdx - maxVisibleApps + 1 else 0
  (List.range (min (u.count - start) maxVisibleApps)).map fun i => start + i

structure InRange (u : Screens) : Prop where
  fps : u.menu.settings.fps = 30 ∨ u.menu.settings.fps = 60
  bitrateIdx : u.menu.settings.bitrateIdx < numBitrateOptions
  streamRes16x9Idx : u.menu.settings.streamRes16x9Idx ≤ 1
  streamRes4x3Idx : u.menu.settings.streamRes4x3Idx ≤ 1
  scalingMode : u.menu.settings.scalingMode ≤ 1
  mouseMode : u.menu.settings.mouseMode ≤ 1
  activeMainItem : u.menu.activeMainItem < mainMenuItemCount
  activeSettingsItem : u.menu.activeSettingsItem < settingsItemCount
  activeAppIdx : 0 < u.count → u.activeAppIdx < u.count

/- The stream configurations that there are, by the width and the height of the picture. -/
def resolutions (is4x3 : Bool) : List (Nat × Nat) :=
  if is4x3 then [(1024, 768), (800, 600)] else [(1280, 720), (1920, 1080)]

/- Every element that is read is there, and the stream gets values that are supported. -/
structure WellRead (is4x3 : Bool) (u : Screens) : Prop where
  bitrate : ∃ kbps, getBitrate u.menu.settings = some kbps ∧ kbps ∈ uiBitrateOptions
  resolution : (getStreamWidth is4x3 u.menu.settings, getStreamHeight is4x3 u.menu.settings)
    ∈ resolutions is4x3
  selected : 0 < u.count → ∃ app, app ∈ u.currentAppList.apps ∧ getSelectedAppId u = app.id
  visible : ∀ idx, idx ∈ visibleApps u → idx < u.count
  highlighted : 0 < u.count → u.activeAppIdx ∈ visibleApps u
  room : u.count ≤ Handshake.maxAppEntries

/-
Every run of the whole is a run of the menus.
-/
theorem reachable_menu {conversion : IntConversion} {is4x3 : Bool} {file : Option (List UInt8)}
    {u : Screens} (h : (machine conversion is4x3 file).Reachable u)
    : (SettingsMenu.machine conversion is4x3 file).Reachable u.menu := by
  apply h.invariant fun u => (SettingsMenu.machine conversion is4x3 file).Reachable u.menu
  . apply Transition.Machine.Reachable.init
  . intro u e v hu hstep
    cases e with
    | menu e =>
      obtain ⟨menu, hmenu, hv⟩ := Option.map_eq_some_iff.mp hstep
      rw [← hv]
      apply hu.step hmenu
    | setAppList list =>
      injection hstep with hstep
      rw [← hstep]
      exact hu
    | resetAppSelection =>
      injection hstep with hstep
      rw [← hstep]
      exact hu

def CursorInRange (u : Screens) : Prop :=
  0 < u.count → u.activeAppIdx < u.count

theorem applist_inRange {u : Screens} (pad : Pad) (h : CursorInRange u)
    : CursorInRange (u.applist pad) := by
  have hmoved : CursorInRange
      (if 0 < u.count then
        { u with
          activeAppIdx := navigate pad u.activeAppIdx u.count
          appSelectionConfirmed := u.appSelectionConfirmed || pad.a }
      else
        u) := by
    split
    . next hpos =>
      intro _
      apply navigate_lt pad (h hpos)
    . exact h
  unfold Screens.applist
  dsimp only
  split
  . exact hmoved
  . exact hmoved

theorem step_cursorInRange {conversion : IntConversion} {is4x3 : Bool} {u v : Screens} {e : Event}
    (h : CursorInRange u) (hstep : step conversion is4x3 u e = some v)
    : CursorInRange v := by
  cases e with
  | menu e =>
    obtain ⟨menu, hmenu, hv⟩ := Option.map_eq_some_iff.mp hstep
    have hlisten : CursorInRange (u.listen e) := by
      unfold Screens.listen
      split
      . split
        . apply applist_inRange _ h
        . exact h
      . exact h
    rw [← hv]
    exact hlisten
  | setAppList list =>
    injection hstep with hstep
    rw [← hstep]
    intro hpos
    exact hpos
  | resetAppSelection =>
    injection hstep with hstep
    rw [← hstep]
    exact h

theorem reachable_inRange {conversion : IntConversion} {is4x3 : Bool} {file : Option (List UInt8)}
    {u : Screens} (h : (machine conversion is4x3 file).Reachable u)
    : InRange u := by
  have hmenu := reachable_menu h
  have hvalid := SettingsMenu.reachable_valid hmenu
  have hitems := SettingsMenu.reachable_itemsInRange hmenu
  have hcursor : CursorInRange u := by
    apply h.invariant CursorInRange
    . intro hpos
      exact hpos
    . intro u e v hu hstep
      apply step_cursorInRange hu hstep
  exact
    { fps := hvalid.fps
      bitrateIdx := hvalid.bitrateIdx
      streamRes16x9Idx := hvalid.streamRes16x9Idx
      streamRes4x3Idx := hvalid.streamRes4x3Idx
      scalingMode := hvalid.scalingMode
      mouseMode := hvalid.mouseMode
      activeMainItem := hitems.activeMainItem
      activeSettingsItem := hitems.activeSettingsItem
      activeAppIdx := hcursor }

theorem mem_visibleApps {u : Screens} {idx : Nat} (h : idx ∈ visibleApps u) : idx < u.count := by
  unfold visibleApps at h
  simp only [List.mem_map, List.mem_range] at h
  obtain ⟨i, hi, hidx⟩ := h
  omega

theorem activeAppIdx_visible {u : Screens} (h : u.activeAppIdx < u.count)
    : u.activeAppIdx ∈ visibleApps u := by
  unfold visibleApps
  simp only [List.mem_map, List.mem_range]
  unfold maxVisibleApps
  split
  . exact ⟨5, by omega, by omega⟩
  . exact ⟨u.activeAppIdx, by omega, by omega⟩

/- Being in range is all that it takes. -/
theorem InRange.wellRead (is4x3 : Bool) {u : Screens} (h : InRange u) : WellRead is4x3 u := by
  constructor
  . have hlt : u.menu.settings.bitrateIdx < uiBitrateOptions.length := h.bitrateIdx
    refine ⟨_, List.getElem?_eq_getElem hlt, ?_⟩
    apply List.getElem_mem
  . unfold getStreamWidth getStreamHeight resolutions
    cases is4x3 with
    | true =>
      simp only [↓reduceIte]
      split
      . decide
      . decide
    | false =>
      simp only [Bool.false_eq_true, ↓reduceIte]
      split
      . decide
      . decide
  . intro hpos
    have hlt : u.activeAppIdx < u.currentAppList.apps.length := h.activeAppIdx hpos
    refine ⟨u.currentAppList.apps[u.activeAppIdx], List.getElem_mem hlt, ?_⟩
    unfold getSelectedAppId
    rw [List.getElem?_eq_getElem hlt]
  . intro idx
    apply mem_visibleApps
  . intro hpos
    apply activeAppIdx_visible (h.activeAppIdx hpos)
  . exact u.currentAppList.length_le

theorem settings_and_cursors_in_range (conversion : IntConversion) (is4x3 : Bool)
    (file : Option (List UInt8)) (u : Screens)
    (hreach : (machine conversion is4x3 file).Reachable u)
    : InRange u ∧ WellRead is4x3 u := by
  have hrange := reachable_inRange hreach
  exact ⟨hrange, hrange.wellRead is4x3⟩

/- A frame with the given buttons. -/
def pressed (pad : Pad) : Event :=
  .menu (.frame
    { pad := pad
      now := 0
      markTime := 0
      debounce := ⟨true, true⟩
      item := ⟨true, true⟩
      start := ⟨true, true⟩
      circle := ⟨true, true⟩
      oskContainer := true
      oskLoad := true })

def exampleApp (id : Int) : Handshake.AppEntry where
  id := id
  name := Handshake.copyName (Handshake.ascii "Desktop")

def exampleList : AppList where
  apps := [exampleApp 1, exampleApp 2]
  length_le := by decide

/-
Down and Cross to the settings, Down to the bitrate, Right beyond the last one. Then the list comes, and
Up goes to its end.
-/
def roundAndRound : List Event :=
  [pressed ⟨false, true, false, false, true, false, false⟩,
    pressed ⟨false, true, false, true, false, false, false⟩,
    .setAppList (some exampleList),
    .resetAppSelection,
    .menu (.screen .applist),
    pressed ⟨true, false, false, false, false, false, false⟩]

theorem settings_and_cursors_in_range_example
    : ∃ u, (machine SettingsMenu.exampleConversion false
          (some (Handshake.ascii "bitrate_idx=4\n"))).run roundAndRound = some u
        ∧ u.menu.settings.bitrateIdx = 0 ∧ u.activeAppIdx = 1 ∧ InRange u ∧ WellRead false u := by
  obtain ⟨u, hrun, hbitrate, hidx⟩ : ∃ u,
      (machine SettingsMenu.exampleConversion false
          (some (Handshake.ascii "bitrate_idx=4\n"))).run roundAndRound = some u
        ∧ u.menu.settings.bitrateIdx = 0 ∧ u.activeAppIdx = 1 := by
    exact ⟨_, rfl, by decide, by decide⟩
  refine ⟨u, hrun, hbitrate, hidx, ?_⟩
  apply settings_and_cursors_in_range SettingsMenu.exampleConversion false
    (some (Handshake.ascii "bitrate_idx=4\n")) u ⟨_, hrun⟩

end Ranges
end Ui

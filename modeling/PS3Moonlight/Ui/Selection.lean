import PS3Moonlight.Ui.System
import Mathlib.Algebra.Order.Group.Nat
import Mathlib.Tactic.GRewrite

/-!
This module contains the choice of an app: whole frames of `ui_loop` between the statements with which
the main thread waits for the choice and then reads it twice. The confirmation is a flag, the choice is
the cursor, which later frames still move.
-/

namespace Ui
namespace Selection

/- The statements of one frame, up to the head of the loop. -/
def frameLoop (fuel : Nat) (u : UiThread) (s : Shared) (pad : Pad) (osk : Bool)
    : Option (Shared × UiThread) :=
  match fuel with
  | 0 => none
  | fuel + 1 =>
    match u.step s pad osk with
    | none => none
    | some next =>
      if next.snd.pc = .running ∨ next.snd.pc = .stopped then
        some next
      else
        frameLoop fuel next.snd next.fst pad osk

/- One frame, which never takes more than thirty statements. -/
def frame (u : UiThread) (s : Shared) (pad : Pad) (osk : Bool) : Option (Shared × UiThread) :=
  frameLoop 30 u s pad osk

/- What the buttons of a frame do to the cursor. -/
def cursor (s : Shared) (pad : Pad) : Nat :=
  let count := s.currentAppList.length
  let idx := if pad.up then (s.activeAppIdx + count - 1) % count else s.activeAppIdx
  if pad.down then (idx + 1) % count else idx

/- A frame of the app list as one assignment. -/
def applistFrame (s : Shared) (pad : Pad) : Shared :=
  let s :=
    if s.currentAppList = [] then
      s
    else
      { s with
        activeAppIdx := cursor s pad
        appSelectionConfirmed := s.appSelectionConfirmed || pad.a }
  if pad.b then { s with appSelectionConfirmed := false, uiState := .ipEntry } else s

/-
A frame of the app list, statement by statement.
-/
theorem frame_applist {u : UiThread} {s : Shared} (hpc : u.pc = .running)
    (hrunning : s.uiRunning = true) (hstate : s.uiState = .applist) (pad : Pad) (osk : Bool)
    : frame u s pad osk = some ⟨applistFrame s pad, { u with pc := .running, pad := pad }⟩ := by
  rcases u with ⟨pc, oldPad, mainItem, settingsItem⟩
  rcases s with ⟨state, running, ip, oskActive, dialog, list, idx, confirmed⟩
  rcases pad with ⟨up, down, left, right, a, b, play⟩
  dsimp only at hpc hrunning hstate
  rw [hpc, hrunning, hstate]
  cases list with
  | nil =>
    cases b with
    | true =>
      simp [frame, frameLoop, UiThread.step, UiThread.effect, UiThread.advance, inputScreens,
        UiThread.handle, UiThread.appMenu, when, drawingScreens, Shared.act, Shared.followUp,
        applistFrame]
    | false =>
      simp [frame, frameLoop, UiThread.step, UiThread.effect, UiThread.advance, inputScreens,
        UiThread.handle, UiThread.appMenu, when, drawingScreens, applistFrame]
  | cons entry list =>
    cases up <;> cases down <;> cases a <;> cases b <;>
      simp [frame, frameLoop, UiThread.step, UiThread.effect, UiThread.advance, inputScreens,
        UiThread.handle, UiThread.appMenu, when, drawingScreens, Shared.act, Shared.followUp,
        applistFrame, cursor]

/-
The other screens leave the choice alone, and none of them leads to the app list.
-/

/- Neither the list, the cursor nor the confirmation has changed. -/
structure SameChoice (s t : Shared) : Prop where
  currentAppList : t.currentAppList = s.currentAppList
  activeAppIdx : t.activeAppIdx = s.activeAppIdx
  appSelectionConfirmed : t.appSelectionConfirmed = s.appSelectionConfirmed
  uiRunning : t.uiRunning = s.uiRunning

theorem SameChoice.refl (s : Shared) : SameChoice s s := by
  exact ⟨rfl, rfl, rfl, rfl⟩

theorem SameChoice.trans {s t u : Shared} (hst : SameChoice s t) (htu : SameChoice t u)
    : SameChoice s u := by
  constructor
  . rw [htu.currentAppList, hst.currentAppList]
  . rw [htu.activeAppIdx, hst.activeAppIdx]
  . rw [htu.appSelectionConfirmed, hst.appSelectionConfirmed]
  . rw [htu.uiRunning, hst.uiRunning]

/- What the screens other than the app list do. -/
def ofMenu (action : Action) : Bool :=
  match action with
  | .loadIdx _ => false
  | .storeIdx _ => false
  | .confirm => false
  | .unconfirm => false
  | _ => true

/- The next statement is not one of the app list. -/
def away (pc : UiPc) : Bool :=
  match pc with
  | .appCount => false
  | .acting actions => actions.all ofMenu
  | _ => true

theorem act_away {s : Shared} {action : Action} (osk : Bool) (hmenu : ofMenu action = true)
    (hstate : s.uiState ≠ .applist)
    : SameChoice s (s.act action osk) ∧ (s.act action osk).uiState ≠ .applist := by
  cases action with
  | openOsk => exact ⟨⟨rfl, rfl, rfl, rfl⟩, hstate⟩
  | openExitDialog => exact ⟨⟨rfl, rfl, rfl, rfl⟩, hstate⟩
  | openSettings => exact ⟨⟨rfl, rfl, rfl, rfl⟩, by simp [Shared.act]⟩
  | connect => exact ⟨⟨rfl, rfl, rfl, rfl⟩, by simp [Shared.act]⟩
  | back => exact ⟨⟨rfl, rfl, rfl, rfl⟩, by simp [Shared.act]⟩
  | cancel => exact ⟨⟨rfl, rfl, rfl, rfl⟩, by simp [Shared.act]⟩
  | loadIdx up => contradiction
  | storeIdx idx => contradiction
  | confirm => contradiction
  | unconfirm => contradiction

theorem all_ofMenu_when (pressed : Bool) {action : Action} (hmenu : ofMenu action = true)
    : (when pressed action).all ofMenu = true := by
  unfold when
  split
  . simp [hmenu]
  . rfl

theorem followUp_ofMenu (s : Shared) {action : Action} (hmenu : ofMenu action = true)
    : s.followUp action = [] := by
  cases action with
  | loadIdx up => contradiction
  | _ => rfl

theorem effect_away {u : UiThread} {s : Shared} (osk : Bool) (hpc : away u.pc = true)
    (hstate : s.uiState ≠ .applist)
    : SameChoice s (u.effect s osk) ∧ (u.effect s osk).uiState ≠ .applist := by
  unfold UiThread.effect
  split
  . next action actions hacting =>
    rw [hacting] at hpc
    simp only [away, List.all_cons, Bool.and_eq_true] at hpc
    apply act_away osk hpc.left hstate
  . exact ⟨⟨rfl, rfl, rfl, rfl⟩, by simp⟩
  . exact ⟨SameChoice.refl s, hstate⟩

theorem handle_away (u : UiThread) {screen : UiState} (hscreen : screen ≠ .applist)
    : away (u.handle screen).pc = true := by
  cases screen with
  | settings =>
    simp only [UiThread.handle, UiThread.settingsMenu, away, List.all_append]
    rw [all_ofMenu_when _ rfl, all_ofMenu_when _ rfl]
    rfl
  | pairing => exact all_ofMenu_when _ rfl
  | applist => contradiction
  | _ => rfl

theorem mainMenu_away (u : UiThread) : away u.mainMenu.pc = true := by
  simp only [UiThread.mainMenu, away, List.all_append]
  rw [all_ofMenu_when _ rfl, all_ofMenu_when _ rfl, all_ofMenu_when _ rfl, all_ofMenu_when _ rfl,
    all_ofMenu_when _ rfl]
  rfl

theorem advance_away {u : UiThread} {s : Shared} (pad : Pad) (hpc : away u.pc = true)
    (hstate : s.uiState ≠ .applist)
    : away (u.advance s pad).pc = true := by
  unfold UiThread.advance
  cases hcase : u.pc <;> simp only [hcase] at hpc ⊢
  case running =>
    split
    . rfl
    . rfl
  case input screens =>
    cases screens with
    | nil => rfl
    | cons screen screens =>
      dsimp only
      split
      . next hscreen => exact handle_away u (hscreen ▸ hstate)
      . rfl
  case oskIdle =>
    split
    . rfl
    . rfl
  case dialogIdle =>
    split
    . rfl
    . apply mainMenu_away u
  case appCount => contradiction
  case acting actions =>
    cases actions with
    | nil => rfl
    | cons action actions =>
      simp only [away, List.all_cons, Bool.and_eq_true] at hpc
      dsimp only
      rw [followUp_ofMenu s hpc.left]
      exact hpc.right
  case drawing screens =>
    cases screens with
    | nil => rfl
    | cons screen screens =>
      dsimp only
      split
      . dsimp only
        split
        . rfl
        . rfl
      . rfl
  case acknowledging => rfl
  case stopped => rfl

theorem frameLoop_away {fuel : Nat} {u u' : UiThread} {s s' : Shared} {pad : Pad} {osk : Bool}
    (hpc : away u.pc = true) (hstate : s.uiState ≠ .applist)
    (h : frameLoop fuel u s pad osk = some ⟨s', u'⟩)
    : SameChoice s s' ∧ s'.uiState ≠ .applist := by
  induction fuel generalizing u s with
  | zero => simp [frameLoop] at h
  | succ fuel ih =>
    unfold frameLoop at h
    split at h
    . simp at h
    . next next hstep =>
      have ⟨hs, hu⟩ : next.fst = u.effect s osk ∧ next.snd = u.advance s pad := by
        apply UiThread.step_eq_some hstep
      have ⟨hsame, hnext⟩ := effect_away osk hpc hstate
      rw [← hs] at hsame hnext
      split at h
      . injection h with h
        rw [h] at hsame hnext
        exact ⟨hsame, hnext⟩
      . have haway := advance_away pad hpc hstate
        rw [← hu] at haway
        have ⟨hrest, hlast⟩ := ih haway hnext h
        exact ⟨hsame.trans hrest, hlast⟩

/- A frame begins at the head of the loop and ends there or behind the loop. -/
def atHead (pc : UiPc) : Bool :=
  match pc with
  | .running => true
  | .stopped => true
  | _ => false

theorem frameLoop_atHead {fuel : Nat} {u u' : UiThread} {s s' : Shared} {pad : Pad} {osk : Bool}
    (h : frameLoop fuel u s pad osk = some ⟨s', u'⟩)
    : atHead u'.pc = true := by
  induction fuel generalizing u s with
  | zero => simp [frameLoop] at h
  | succ fuel ih =>
    unfold frameLoop at h
    split at h
    . simp at h
    . split at h
      . next hend =>
        injection h with h
        rw [h] at hend
        cases hend with
        | inl hrunning => rw [hrunning]; rfl
        | inr hstopped => rw [hstopped]; rfl
      . apply ih h

theorem frame_of_stopped {u : UiThread} (hpc : u.pc = .stopped) (s : Shared) (pad : Pad) (osk : Bool)
    : frame u s pad osk = none := by
  simp [frame, frameLoop, UiThread.step, hpc]

/- The loop ends without a look at anything else once `ui_running` is 0. -/
theorem frame_not_running {u : UiThread} {s : Shared} (hpc : u.pc = .running)
    (hrunning : s.uiRunning = false) (pad : Pad) (osk : Bool)
    : frame u s pad osk = some ⟨s, { u with pc := .stopped }⟩ := by
  simp [frame, frameLoop, UiThread.step, UiThread.effect, UiThread.advance, hpc, hrunning]

/-
What a frame does to the choice: it is a frame of the app list, or it leaves the choice alone.
-/
theorem frame_spec {u u' : UiThread} {s s' : Shared} {pad : Pad} {osk : Bool}
    (hhead : atHead u.pc = true) (h : frame u s pad osk = some ⟨s', u'⟩)
    : atHead u'.pc = true
        ∧
      (s.uiState = .applist ∧ s' = applistFrame s pad
        ∨
      SameChoice s s' ∧ (s'.uiState = .applist → s.uiState = .applist)) := by
  refine ⟨frameLoop_atHead h, ?_⟩
  cases hpc : u.pc <;> simp only [hpc, atHead, Bool.false_eq_true] at hhead
  case stopped =>
    rw [frame_of_stopped hpc] at h
    contradiction
  case running =>
    cases hrunning : s.uiRunning with
    | false =>
      rw [frame_not_running hpc hrunning, Option.some.injEq, Prod.mk.injEq] at h
      right
      rw [← h.left]
      exact ⟨SameChoice.refl s, id⟩
    | true =>
      cases Decidable.em (s.uiState = .applist) with
      | inl hstate =>
        rw [frame_applist hpc hrunning hstate, Option.some.injEq, Prod.mk.injEq] at h
        exact Or.inl ⟨hstate, h.left.symm⟩
      | inr hstate =>
        have haway : away u.pc = true := by
          rw [hpc]
          rfl
        have ⟨hsame, hlast⟩ := frameLoop_away haway hstate h
        exact Or.inr ⟨hsame, fun heq => absurd heq hlast⟩

/-
Every frame comes to its end.
-/

/- The number of statements that an item takes. -/
def cost (action : Action) : Nat :=
  match action with
  | .loadIdx _ => 2
  | _ => 1

def costs (actions : List Action) : Nat :=
  match actions with
  | [] => 0
  | action :: actions => cost action + costs actions

/- A bound for the number of statements to the head of the loop. -/
def remaining (pc : UiPc) : Nat :=
  match pc with
  | .input screens => screens.length + 18
  | .appCount => 17
  | .oskIdle => 16
  | .dialogIdle => 15
  | .acting actions => costs actions + 9
  | .drawing screens => screens.length + 2
  | .acknowledging => 1
  | .running => 0
  | .stopped => 0

theorem costs_append (first second : List Action)
    : costs (first ++ second) = costs first + costs second := by
  induction first with
  | nil => simp [costs]
  | cons action first ih => simp [costs, ih, Nat.add_assoc]

theorem costs_when_le (pressed : Bool) (action : Action)
    : costs (when pressed action) ≤ cost action := by
  unfold when
  split
  . simp [costs]
  . simp [costs]

theorem costs_followUp_lt (s : Shared) (action : Action) (actions : List Action)
    : costs (s.followUp action ++ actions) < costs (action :: actions) := by
  cases action with
  | loadIdx up =>
    cases up with
    | true => simp [Shared.followUp, costs, cost]
    | false => simp [Shared.followUp, costs, cost]
  | _ => simp [Shared.followUp, costs, cost]

theorem mainMenu_remaining (u : UiThread) : remaining u.mainMenu.pc ≤ 14 := by
  simp only [UiThread.mainMenu, remaining, costs_append]
  grw [costs_when_le, costs_when_le, costs_when_le, costs_when_le, costs_when_le]
  decide

theorem handle_remaining (u : UiThread) (screen : UiState) : remaining (u.handle screen).pc ≤ 17 := by
  cases screen with
  | settings =>
    simp only [UiThread.handle, UiThread.settingsMenu, remaining, costs_append]
    grw [costs_when_le, costs_when_le]
    decide
  | pairing =>
    simp only [UiThread.handle, remaining]
    grw [costs_when_le]
    decide
  | _ => simp [UiThread.handle, remaining, drawingScreens]

theorem appMenu_remaining (u : UiThread) (count : Nat) : remaining (u.appMenu count).pc ≤ 16 := by
  simp only [UiThread.appMenu, remaining, costs_append]
  split
  . simp only [costs_append]
    grw [costs_when_le, costs_when_le, costs_when_le, costs_when_le, costs_when_le]
    decide
  . grw [costs_when_le, costs_when_le]
    decide

theorem advance_remaining {u : UiThread} (s : Shared) (pad : Pad) (hhead : atHead u.pc = false)
    : remaining (u.advance s pad).pc < remaining u.pc := by
  unfold UiThread.advance
  cases hcase : u.pc <;> simp only [hcase, atHead, Bool.true_eq_false] at hhead ⊢
  case input screens =>
    cases screens with
    | nil => simp [remaining, drawingScreens]
    | cons screen screens =>
      dsimp only
      split
      . apply Nat.lt_of_le_of_lt (handle_remaining u screen)
        simp only [remaining, List.length_cons]
        omega
      . simp [remaining]
  case oskIdle =>
    split
    . simp [remaining, drawingScreens]
    . simp [remaining]
  case dialogIdle =>
    split
    . simp [remaining, drawingScreens]
    . apply Nat.lt_of_le_of_lt (mainMenu_remaining u)
      simp [remaining]
  case appCount =>
    apply Nat.lt_of_le_of_lt (appMenu_remaining u _)
    simp [remaining]
  case acting actions =>
    cases actions with
    | nil => simp [remaining, drawingScreens, costs]
    | cons action actions =>
      have hlt := costs_followUp_lt s action actions
      simp only [remaining]
      omega
  case drawing screens =>
    cases screens with
    | nil => simp [remaining]
    | cons screen screens =>
      dsimp only
      split
      . dsimp only
        split
        . simp [remaining]
        . simp [remaining]
      . simp [remaining]
  case acknowledging => simp [remaining]

theorem frameLoop_isSome {fuel : Nat} {u : UiThread} (s : Shared) (pad : Pad) (osk : Bool)
    (hhead : atHead u.pc = false) (hfuel : remaining u.pc ≤ fuel)
    : (frameLoop fuel u s pad osk).isSome = true := by
  induction fuel generalizing u s with
  | zero =>
    have hlt := advance_remaining s pad hhead
    omega
  | succ fuel ih =>
    have hlt := advance_remaining s pad hhead
    unfold frameLoop UiThread.step
    have hrunning : u.pc ≠ .stopped := by
      intro hstopped
      rw [hstopped] at hhead
      contradiction
    rw [if_neg hrunning]
    dsimp only
    split
    . rfl
    . next hnext =>
      apply ih
      . cases hpc : (u.advance s pad).pc <;> simp [hpc, atHead] at hnext ⊢
      . omega

theorem frame_isSome {u : UiThread} (s : Shared) (pad : Pad) (osk : Bool) (hpc : u.pc = .running)
    : (frame u s pad osk).isSome = true := by
  cases hrunning : s.uiRunning with
  | false =>
    rw [frame_not_running hpc hrunning]
    rfl
  | true =>
    unfold frame
    rw [frameLoop]
    unfold UiThread.step UiThread.advance
    simp only [hpc, hrunning, reduceCtorEq, ↓reduceIte, or_self]
    apply frameLoop_isSome
    . rfl
    . simp [remaining, inputScreens]

/-
The machine of whole frames and of the main thread's statements, from the new list to the two reads.
-/

inductive Event where
  | frame (pad : Pad) (osk : Bool)
  | main (o : Outcome)

/- The main thread is on its way to the two reads. -/
def selecting (pc : MainPc) : Bool :=
  match pc with
  | .setAppList => true
  | .setActiveIdx => true
  | .setUnconfirmed => true
  | .resetAppSelection => true
  | .setApplist => true
  | .whileRunning => true
  | .whileApplist => true
  | .whileUnselected => true
  | .ifRunning => true
  | .ifApplist => true
  | .selectedAppId => true
  | .selectedAppName => true
  | _ => false

def step (s : System) (e : Event) : Option System :=
  match e with
  | .frame pad osk =>
    (frame s.ui s.shared pad osk).map fun t => { s with shared := t.fst, ui := t.snd }
  | .main o =>
    if selecting s.main.pc then
      (s.main.step s.shared o).map fun t => { s with shared := t.fst, main := t.snd }
    else
      none

/- The main thread has a new list, whatever else the state is. -/
def start (s : System) : System where
  shared := { s.shared with uiState := .pairing }
  main := { s.main with pc := .setAppList }
  ui := { s.ui with pc := .running }

/- The entry that was highlighted in the frame that set the confirmation. -/
def note (s : System) (e : Event) (t : System) (confirmed : Option AppEntry) : Option AppEntry :=
  match e with
  | .frame _ _ =>
    if !s.shared.appSelectionConfirmed && t.shared.appSelectionConfirmed then
      t.shared.selectedApp
    else
      confirmed
  | .main _ => confirmed

def machine (s : System) : Transition.Machine (System × Option AppEntry) Event :=
  Transition.Machine.instrument ⟨start s, step⟩ none note

/- What is passed to `hv_launch` and logged is the entry that was confirmed. -/
def LaunchesConfirmed (s : System) (confirmed : Option AppEntry) : Prop :=
  s.main.pc = .sessionKeys
    → ∃ entry, confirmed = some entry ∧ s.main.appId = entry.id ∧ s.main.appName = entry.name

/-
Between the confirmation and the second read no frame of the app list moves the cursor: UP and DOWN are
both pressed or both not, or there is nowhere to move.
-/
def Still (s : System) (e : Event) : Prop :=
  match e with
  | .frame pad _ =>
    selecting s.main.pc = true → s.shared.uiState = .applist
      → s.shared.appSelectionConfirmed = true
      → pad.up = pad.down ∨ s.shared.currentAppList.length ≤ 1
  | .main _ => True

instance (s : System) (e : Event) : Decidable (Still s e) := by
  unfold Still
  split
  all_goals infer_instance

def InRange (s : Shared) : Prop :=
  s.currentAppList ≠ [] → s.activeAppIdx < s.currentAppList.length

/- The confirmed entry is the one that is highlighted. -/
def Highlighted (s : Shared) (confirmed : Option AppEntry) : Prop :=
  ∃ entry, confirmed = some entry ∧ s.selectedApp = some entry

/- What a frame has to find so that it does not confirm once more. -/
def Settled (s : Shared) : Prop :=
  s.uiState = .applist → s.appSelectionConfirmed = true

theorem cursor_lt {s : Shared} (pad : Pad) (hne : s.currentAppList ≠ []) (hrange : InRange s)
    : cursor s pad < s.currentAppList.length := by
  have hpos : 0 < s.currentAppList.length := List.length_pos_iff.mpr hne
  have hlt := hrange hne
  unfold cursor
  dsimp only
  split
  . apply Nat.mod_lt _ hpos
  . split
    . apply Nat.mod_lt _ hpos
    . exact hlt

theorem cursor_still {s : Shared} {pad : Pad} (hrange : InRange s) (hne : s.currentAppList ≠ [])
    (hstill : pad.up = pad.down ∨ s.currentAppList.length ≤ 1)
    : cursor s pad = s.activeAppIdx := by
  have hlt := hrange hne
  have hpos : 0 < s.currentAppList.length := List.length_pos_iff.mpr hne
  have hafter := cursor_lt pad hne hrange
  cases hstill with
  | inr hone => omega
  | inl hsame =>
    unfold cursor
    rw [hsame]
    dsimp only
    split
    . generalize s.currentAppList.length = count at *
      rw [Nat.mod_add_mod]
      have hround : s.activeAppIdx + count - 1 + 1 = s.activeAppIdx + count := by omega
      rw [hround, Nat.add_mod_right, Nat.mod_eq_of_lt hlt]
    . rfl

/-
What one frame preserves.
-/

/- A frame as `frame_spec` describes it. -/
def FrameOf (s t : Shared) (pad : Pad) : Prop :=
  s.uiState = .applist ∧ t = applistFrame s pad
    ∨
  SameChoice s t ∧ (t.uiState = .applist → s.uiState = .applist)

/- The confirmation, once there is one, is about the highlighted entry. -/
def Knows (s : Shared) (confirmed : Option AppEntry) : Prop :=
  s.appSelectionConfirmed = true → Highlighted s confirmed

/- The cursor stays where it is if the choice has been confirmed. -/
def StillFrame (s : Shared) (pad : Pad) : Prop :=
  s.uiState = .applist → s.appSelectionConfirmed = true
    → pad.up = pad.down ∨ s.currentAppList.length ≤ 1

def noted (s t : Shared) (confirmed : Option AppEntry) : Option AppEntry :=
  if !s.appSelectionConfirmed && t.appSelectionConfirmed then t.selectedApp else confirmed

theorem SameChoice.selectedApp {s t : Shared} (h : SameChoice s t)
    : t.selectedApp = s.selectedApp := by
  unfold Shared.selectedApp
  rw [h.currentAppList, h.activeAppIdx]

theorem SameChoice.noted {s t : Shared} (h : SameChoice s t) (confirmed : Option AppEntry)
    : noted s t confirmed = confirmed := by
  unfold Selection.noted
  rw [h.appSelectionConfirmed]
  simp

theorem applistFrame_currentAppList (s : Shared) (pad : Pad)
    : (applistFrame s pad).currentAppList = s.currentAppList := by
  unfold applistFrame
  dsimp only
  split
  . split
    . rfl
    . rfl
  . split
    . rfl
    . rfl

theorem applistFrame_activeAppIdx (s : Shared) (pad : Pad)
    : (applistFrame s pad).activeAppIdx
        = if s.currentAppList = [] then s.activeAppIdx else cursor s pad := by
  unfold applistFrame
  dsimp only
  split
  . split
    . rfl
    . rfl
  . split
    . rfl
    . rfl

theorem applistFrame_confirmed (s : Shared) (pad : Pad)
    : (applistFrame s pad).appSelectionConfirmed
        = (!pad.b && (s.appSelectionConfirmed || (pad.a && !s.currentAppList.isEmpty))) := by
  unfold applistFrame
  cases s.currentAppList <;> cases pad.b <;> simp

theorem applistFrame_uiState {s : Shared} {pad : Pad}
    (h : (applistFrame s pad).uiState = .applist)
    : pad.b = false := by
  unfold applistFrame at h
  cases hb : pad.b with
  | false => rfl
  | true => simp [hb] at h

theorem frameOf_uiRunning {s t : Shared} {pad : Pad} (h : FrameOf s t pad)
    : t.uiRunning = s.uiRunning := by
  cases h with
  | inr hsame => exact hsame.left.uiRunning
  | inl happ =>
    rw [happ.right]
    unfold applistFrame
    dsimp only
    split
    . split
      . rfl
      . rfl
    . split
      . rfl
      . rfl

theorem frameOf_inRange {s t : Shared} {pad : Pad} (h : FrameOf s t pad) (hrange : InRange s)
    : InRange t := by
  intro hne
  cases h with
  | inr hsame =>
    rw [hsame.left.currentAppList] at hne ⊢
    rw [hsame.left.activeAppIdx]
    apply hrange hne
  | inl happ =>
    rw [happ.right] at hne ⊢
    rw [applistFrame_currentAppList] at hne ⊢
    rw [applistFrame_activeAppIdx, if_neg hne]
    apply cursor_lt pad hne hrange

/- A confirmed choice survives the frame. -/
theorem selectedApp_still {s : Shared} {pad : Pad} (hrange : InRange s)
    (hstill : pad.up = pad.down ∨ s.currentAppList.length ≤ 1)
    : (applistFrame s pad).selectedApp = s.selectedApp := by
  unfold Shared.selectedApp
  rw [applistFrame_currentAppList, applistFrame_activeAppIdx]
  split
  . rfl
  . next hne => rw [cursor_still hrange hne hstill]

theorem frameOf_settled {s t : Shared} {pad : Pad} (h : FrameOf s t pad) (hsettled : Settled s)
    : Settled t := by
  intro hstate
  cases h with
  | inr hsame =>
    rw [hsame.left.appSelectionConfirmed]
    apply hsettled (hsame.right hstate)
  | inl happ =>
    have hconfirmed := hsettled happ.left
    rw [happ.right] at hstate ⊢
    rw [applistFrame_confirmed, applistFrame_uiState hstate, hconfirmed]
    rfl

theorem frameOf_noted {s t : Shared} {pad : Pad} (h : FrameOf s t pad) (hsettled : Settled s)
    (confirmed : Option AppEntry)
    : noted s t confirmed = confirmed := by
  cases h with
  | inr hsame => exact hsame.left.noted confirmed
  | inl happ =>
    unfold noted
    rw [hsettled happ.left]
    rfl

theorem frameOf_selectedApp {s t : Shared} {pad : Pad} (h : FrameOf s t pad) (hrange : InRange s)
    (hsettled : Settled s) (hstill : StillFrame s pad)
    : t.selectedApp = s.selectedApp := by
  cases h with
  | inr hsame => exact hsame.left.selectedApp
  | inl happ =>
    rw [happ.right]
    apply selectedApp_still hrange
    apply hstill happ.left (hsettled happ.left)

theorem frameOf_knows {s t : Shared} {pad : Pad} {confirmed : Option AppEntry}
    (h : FrameOf s t pad) (hrange : InRange s) (hknows : Knows s confirmed)
    (hstill : StillFrame s pad)
    : Knows t (noted s t confirmed) := by
  intro hconfirmed
  cases hbefore : s.appSelectionConfirmed with
  | true =>
    have hsettled : Settled s := fun _ => hbefore
    unfold Highlighted
    rw [frameOf_noted h hsettled, frameOf_selectedApp h hrange hsettled hstill]
    apply hknows hbefore
  | false =>
    have hnoted : noted s t confirmed = t.selectedApp := by
      unfold noted
      rw [hbefore, hconfirmed]
      rfl
    cases h with
    | inr hsame =>
      rw [hsame.left.appSelectionConfirmed, hbefore] at hconfirmed
      contradiction
    | inl happ =>
      have hne : t.currentAppList ≠ [] := by
        intro hempty
        rw [happ.right, applistFrame_currentAppList] at hempty
        rw [happ.right, applistFrame_confirmed, hbefore, hempty] at hconfirmed
        simp at hconfirmed
      have hlt := frameOf_inRange (Or.inl happ) hrange hne
      have hentry : t.selectedApp = some (t.currentAppList[t.activeAppIdx]) := by
        exact List.getElem?_eq_getElem hlt
      exact ⟨_, hnoted.trans hentry, hentry⟩

/-
The system.
-/

def Inv (s : System) (confirmed : Option AppEntry) : Prop :=
  match s.main.pc with
  | .setAppList => s.shared.uiState ≠ .applist
  | .setActiveIdx => s.shared.uiState ≠ .applist
  | .setUnconfirmed => s.shared.uiState ≠ .applist ∧ s.shared.activeAppIdx = 0
  | .resetAppSelection =>
    s.shared.uiState ≠ .applist ∧ s.shared.activeAppIdx = 0
      ∧ s.shared.appSelectionConfirmed = false
  | .setApplist =>
    s.shared.uiState ≠ .applist ∧ s.shared.activeAppIdx = 0
      ∧ s.shared.appSelectionConfirmed = false
  | .whileRunning => InRange s.shared ∧ Knows s.shared confirmed
  | .whileApplist => InRange s.shared ∧ Knows s.shared confirmed
  | .whileUnselected => InRange s.shared ∧ Knows s.shared confirmed
  | .ifRunning =>
    InRange s.shared ∧ Knows s.shared confirmed ∧ (s.shared.uiRunning = true → Settled s.shared)
  | .ifApplist => InRange s.shared ∧ Knows s.shared confirmed ∧ Settled s.shared
  | .selectedAppId => InRange s.shared ∧ Settled s.shared ∧ Highlighted s.shared confirmed
  | .selectedAppName =>
    InRange s.shared ∧ Settled s.shared
      ∧ ∃ entry, confirmed = some entry ∧ s.shared.selectedApp = some entry
        ∧ s.main.appId = entry.id
  | .sessionKeys =>
    Settled s.shared
      ∧ ∃ entry, confirmed = some entry ∧ s.main.appId = entry.id ∧ s.main.appName = entry.name
  | _ => True

theorem inv_frame {s t : System} {confirmed : Option AppEntry} {pad : Pad} {osk : Bool}
    (h : Inv s confirmed) (hframe : FrameOf s.shared t.shared pad) (hmain : t.main = s.main)
    (hstill : Still s (.frame pad osk))
    : Inv t (noted s.shared t.shared confirmed) := by
  unfold Inv at h ⊢
  rw [hmain]
  unfold Still at hstill
  -- outside of the app list a frame leaves the choice alone
  have haway : s.shared.uiState ≠ .applist
      → t.shared.uiState ≠ .applist ∧ SameChoice s.shared t.shared := by
    intro hstate
    cases hframe with
    | inl happ => exact absurd happ.left hstate
    | inr hsame => exact ⟨fun ht => hstate (hsame.right ht), hsame.left⟩
  cases hpc : s.main.pc <;> simp only [hpc, selecting, forall_const] at h hstill ⊢
  case setAppList => exact (haway h).left
  case setActiveIdx => exact (haway h).left
  case setUnconfirmed =>
    have ⟨hstate, hsame⟩ := haway h.left
    exact ⟨hstate, hsame.activeAppIdx.trans h.right⟩
  case resetAppSelection =>
    have ⟨hstate, hsame⟩ := haway h.left
    exact ⟨hstate, hsame.activeAppIdx.trans h.right.left,
      hsame.appSelectionConfirmed.trans h.right.right⟩
  case setApplist =>
    have ⟨hstate, hsame⟩ := haway h.left
    exact ⟨hstate, hsame.activeAppIdx.trans h.right.left,
      hsame.appSelectionConfirmed.trans h.right.right⟩
  case whileRunning =>
    exact ⟨frameOf_inRange hframe h.left, frameOf_knows hframe h.left h.right hstill⟩
  case whileApplist =>
    exact ⟨frameOf_inRange hframe h.left, frameOf_knows hframe h.left h.right hstill⟩
  case whileUnselected =>
    exact ⟨frameOf_inRange hframe h.left, frameOf_knows hframe h.left h.right hstill⟩
  case ifRunning =>
    refine ⟨frameOf_inRange hframe h.left, frameOf_knows hframe h.left h.right.left hstill, ?_⟩
    rw [frameOf_uiRunning hframe]
    intro hrunning
    apply frameOf_settled hframe (h.right.right hrunning)
  case ifApplist =>
    exact ⟨frameOf_inRange hframe h.left, frameOf_knows hframe h.left h.right.left hstill,
      frameOf_settled hframe h.right.right⟩
  case selectedAppId =>
    -- the confirmation has been seen, only the cursor can still spoil the choice
    have ⟨hrange, hsettled, hhighlighted⟩ := h
    refine ⟨frameOf_inRange hframe hrange, frameOf_settled hframe hsettled, ?_⟩
    unfold Highlighted
    rw [frameOf_noted hframe hsettled, frameOf_selectedApp hframe hrange hsettled hstill]
    exact hhighlighted
  case selectedAppName =>
    have ⟨hrange, hsettled, hentry⟩ := h
    refine ⟨frameOf_inRange hframe hrange, frameOf_settled hframe hsettled, ?_⟩
    rw [frameOf_noted hframe hsettled, frameOf_selectedApp hframe hrange hsettled hstill]
    exact hentry
  case sessionKeys =>
    have ⟨hsettled, hentry⟩ := h
    refine ⟨frameOf_settled hframe hsettled, ?_⟩
    rw [frameOf_noted hframe hsettled]
    exact hentry

theorem inv_main {s : System} {confirmed : Option AppEntry} {o : Outcome} (h : Inv s confirmed)
    (hselecting : selecting s.main.pc = true)
    : Inv
        { s with
          shared := s.main.effect s.shared
          main := { s.main.load s.shared o with pc := s.main.target s.shared o } }
        confirmed := by
  unfold Inv at h
  unfold MainThread.effect MainThread.load MainThread.target
  cases hpc : s.main.pc <;>
    simp only [hpc, selecting, Bool.false_eq_true] at h hselecting ⊢
  case setAppList => exact h
  case setActiveIdx => exact ⟨h, rfl⟩
  case setUnconfirmed => exact ⟨h.left, h.right, rfl⟩
  case resetAppSelection => exact ⟨h.left, h.right.left, rfl⟩
  case setApplist =>
    have ⟨_, hidx, hunconfirmed⟩ := h
    constructor
    . intro hne
      show s.shared.activeAppIdx < s.shared.currentAppList.length
      rw [hidx]
      apply List.length_pos_iff.mpr hne
    . intro hconfirmed
      rw [hunconfirmed] at hconfirmed
      contradiction
  case whileRunning =>
    split
    . exact h
    . next hstopped =>
      refine ⟨h.left, h.right, ?_⟩
      intro hrunning
      contradiction
  case whileApplist =>
    split
    . exact h
    . next hstate =>
      refine ⟨h.left, h.right, ?_⟩
      intro _ happlist
      contradiction
  case whileUnselected =>
    split
    . next hconfirmed =>
      refine ⟨h.left, h.right, ?_⟩
      intro _ _
      exact hconfirmed
    . exact h
  case ifRunning =>
    split
    . next hrunning => exact ⟨h.left, h.right.left, h.right.right hrunning⟩
    . trivial
  case ifApplist =>
    split
    . next hstate =>
      have ⟨hrange, hknows, hsettled⟩ := h
      exact ⟨hrange, hsettled, hknows (hsettled hstate)⟩
    . trivial
  case selectedAppId =>
    have ⟨hrange, hsettled, entry, hconfirmed, hentry⟩ := h
    refine ⟨hrange, hsettled, entry, hconfirmed, hentry, ?_⟩
    simp [hentry]
  case selectedAppName =>
    have ⟨_, hsettled, entry, hconfirmed, hentry, hid⟩ := h
    refine ⟨hsettled, entry, hconfirmed, hid, ?_⟩
    simp [hentry]

theorem inv_step {s t : System} {confirmed : Option AppEntry} {e : Event} (h : Inv s confirmed)
    (hhead : atHead s.ui.pc = true) (hstill : Still s e) (hstep : step s e = some t)
    : Inv t (note s e t confirmed) ∧ atHead t.ui.pc = true := by
  unfold step at hstep
  cases e with
  | frame pad osk =>
    simp only [Option.map_eq_some_iff] at hstep
    have ⟨next, hframe, ht⟩ := hstep
    have ⟨hend, hof⟩ := frame_spec hhead hframe
    rw [← ht]
    exact ⟨inv_frame h hof rfl hstill, hend⟩
  | main o =>
    dsimp only at hstep
    split at hstep
    . next hselecting =>
      simp only [Option.map_eq_some_iff] at hstep
      have ⟨next, hmain, ht⟩ := hstep
      unfold MainThread.step at hmain
      split at hmain
      . contradiction
      . injection hmain with hmain
        rw [← ht, ← hmain]
        exact ⟨inv_main h hselecting, hhead⟩
    . contradiction

theorem Inv.launchesConfirmed {s : System} {confirmed : Option AppEntry} (h : Inv s confirmed)
    : LaunchesConfirmed s confirmed := by
  intro hpc
  unfold Inv at h
  rw [hpc] at h
  exact h.right

/-
In every run in which the cursor stays where it is between the confirmation and the second read, the app
that is launched and logged is the confirmed one.
-/
theorem still_choice_launched (s : System) (t : System × Option AppEntry) (events : List Event)
    (hmeet : (machine s).StepsMeet (fun s e => Still s.fst e) (machine s).init events)
    (hrun : (machine s).run events = some t)
    : LaunchesConfirmed t.fst t.snd := by
  have hinv : Inv t.fst t.snd ∧ atHead t.fst.ui.pc = true := by
    apply (machine s).runFrom_invariant_of_stepsMeet (fun s e => Still s.fst e)
      (fun s => Inv s.fst s.snd ∧ atHead s.fst.ui.pc = true) _ _ _ events _ hmeet hrun
    . intro s e t h hstill hstep
      have ⟨hnext, hnote⟩ := Transition.Machine.instrument_step_eq_some.mp hstep
      rw [hnote]
      apply inv_step h.left h.right hstill hnext
    . simp [Inv, machine, Transition.Machine.instrument, start, atHead]
  exact hinv.left.launchesConfirmed

/- The main thread with a list of two apps, and a frame with some of the buttons. -/
def twoApps : System :=
  { System.start [] with
    main :=
      { (System.start []).main with
        appList := [⟨1, [65]⟩, ⟨2, [66]⟩] } }

def press (down a : Bool) : Event :=
  .frame { noButtons with down := down, a := a } false

/- The list is shown, the second entry highlighted and confirmed, and the main thread sees it. -/
def confirmSecond : List Event :=
  List.replicate 5 (.main .ok) ++ [press true false, press false true]
    ++ List.replicate 5 (.main .ok)

theorem still_choice_launched_second
    : ∃ t, (machine twoApps).run (confirmSecond ++ [press false false, .main .ok, .main .ok]) = some t
        ∧ t.fst.main.pc = .sessionKeys ∧ t.fst.main.appId = 2 ∧ LaunchesConfirmed t.fst t.snd := by
  obtain ⟨t, hrun, hpc, hid⟩ : ∃ t,
      (machine twoApps).run (confirmSecond ++ [press false false, .main .ok, .main .ok]) = some t
        ∧ t.fst.main.pc = .sessionKeys ∧ t.fst.main.appId = 2 := by
    exact ⟨_, rfl, rfl, rfl⟩
  refine ⟨t, hrun, hpc, hid, ?_⟩
  apply still_choice_launched twoApps t (confirmSecond ++ [press false false, .main .ok, .main .ok])
    _ hrun
  decide

/-
DOWN in the frame after the confirmation: the second entry is confirmed, the first one is launched.
-/
theorem moved_choice_launched
    : ¬ ∀ (s : System) (t : System × Option AppEntry) (events : List Event),
        (machine s).run events = some t → LaunchesConfirmed t.fst t.snd := by
  intro hclaim
  obtain ⟨t, hrun, hpc, hid, hconfirmed⟩ : ∃ t,
      (machine twoApps).run (confirmSecond ++ [press true false, .main .ok, .main .ok]) = some t
        ∧ t.fst.main.pc = .sessionKeys ∧ t.fst.main.appId = 1 ∧ t.snd.map AppEntry.id = some 2 := by
    exact ⟨_, rfl, rfl, rfl, rfl⟩
  obtain ⟨entry, hentry, hlaunched, _⟩ := hclaim twoApps t _ hrun hpc
  rw [hentry, Option.map_some, Option.some.injEq, ← hlaunched, hid] at hconfirmed
  contradiction

end Selection
end Ui

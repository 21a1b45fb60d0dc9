import Mathlib.Data.List.Induction
import PS3Moonlight.Lib.KeyStream

/-!
This module contains the polling of the controller in `input_loop` and `ps3input_get_data`: what the
host was sent last and what the user interface reads, and when a controller that is gone leaves
nothing pressed in either of them.
-/

namespace Input

structure PadData where
  btnCross : Bool
  btnCircle : Bool
  btnSquare : Bool
  btnTriangle : Bool
  btnUp : Bool
  btnDown : Bool
  btnLeft : Bool
  btnRight : Bool
  btnL1 : Bool
  btnR1 : Bool
  btnStart : Bool
  btnSelect : Bool
  btnL3 : Bool
  btnR3 : Bool
  btnL2 : Bool
  btnR2 : Bool
  anaLH : UInt16
  anaLV : UInt16
  anaRH : UInt16
  anaRV : UInt16

/- A call of `LiSendControllerEvent`. -/
structure ControllerEvent where
  buttonFlags : UInt32
  leftTrigger : UInt8
  rightTrigger : UInt8
  leftStickX : Int
  leftStickY : Int
  rightStickX : Int
  rightStickY : Int
deriving DecidableEq

/- `ps3_pad_state_t`. -/
structure PadState where
  buttonsDown : UInt32
  buttonsPressed : UInt32
  lx : Int
  ly : Int
  rx : Int
  ry : Int
deriving DecidableEq

structure ControllerState where
  lastButtons : UInt32
  padState : PadState
deriving DecidableEq

def neutralEvent : ControllerEvent :=
  ⟨0, 0, 0, 0, 0, 0, 0⟩

def zeroPadState : PadState :=
  ⟨0, 0, 0, 0, 0, 0⟩

def initController : ControllerState :=
  ⟨0, zeroPadState⟩

def flag (pressed : Bool) (value : UInt32) : UInt32 :=
  if pressed then value else 0

/- Square and triangle are swapped. -/
def buttonFlags (d : PadData) : UInt32 :=
  flag d.btnCross 0x1000 ||| flag d.btnCircle 0x2000 ||| flag d.btnSquare 0x8000
    ||| flag d.btnTriangle 0x4000 ||| flag d.btnUp 0x0001 ||| flag d.btnDown 0x0002
    ||| flag d.btnLeft 0x0004 ||| flag d.btnRight 0x0008 ||| flag d.btnL1 0x0100
    ||| flag d.btnR1 0x0200 ||| flag d.btnStart 0x0010 ||| flag d.btnSelect 0x0020
    ||| flag d.btnL3 0x0040 ||| flag d.btnR3 0x0080

def stick (ana : UInt16) (factor : Int) : Int :=
  let temp := (ana.toNat - 128 : Int) * factor
  if temp > 32767 then 32767 else if temp < -32768 then -32768 else temp

def trigger (pressed : Bool) : UInt8 :=
  if pressed then 0xFF else 0x00

def controllerEvent (d : PadData) : ControllerEvent where
  buttonFlags := buttonFlags d
  leftTrigger := trigger d.btnL2
  rightTrigger := trigger d.btnR2
  leftStickX := stick d.anaLH 256
  leftStickY := stick d.anaLV (-256)
  rightStickX := stick d.anaRH 256
  rightStickY := stick d.anaRV (-256)

/-
What happens to the state: polls that find the controller gone, there without data or there with data,
and reads of the user interface. All of them take the mutex at most once.
-/
inductive PadLabel where
  | absent
  | noData
  | report (paddata : PadData)
  | getData

def ps3inputGetData (padState : PadState) : PadState × PadState :=
  ⟨padState, { padState with buttonsPressed := 0 }⟩

def reportedPadState (d : PadData) (buttonsPressed : UInt32) : PadState where
  buttonsDown := buttonFlags d
  buttonsPressed := buttonsPressed
  lx := stick d.anaLH 256
  ly := stick d.anaLV (-256)
  rx := stick d.anaRH 256
  ry := stick d.anaRV (-256)

def padReport (s : ControllerState) (d : PadData) : ControllerState where
  lastButtons := buttonFlags d
  padState :=
    reportedPadState d (s.padState.buttonsPressed ||| (buttonFlags d &&& ~~~s.lastButtons))

def padStep (s : ControllerState) (label : PadLabel) : ControllerState × List ControllerEvent :=
  match label with
  | .absent => if s.lastButtons ≠ 0 then ⟨⟨0, zeroPadState⟩, [neutralEvent]⟩ else ⟨s, []⟩
  | .noData => ⟨s, []⟩
  | .report d => ⟨padReport s d, [controllerEvent d]⟩
  | .getData => ⟨{ s with padState := (ps3inputGetData s.padState).snd }, []⟩

def controllerAfter (labels : List PadLabel) : ControllerState :=
  (Transition.trace padStep initController labels).fst

def lastSent (labels : List PadLabel) : Option ControllerEvent :=
  (KeyStream.stream padStep initController labels).getLast?

/- Nothing is pressed, for the host or for the user interface. -/
def NothingPressed (labels : List PadLabel) : Prop :=
  (∀ e, lastSent labels = some e → e = neutralEvent) ∧ (controllerAfter labels).padState = zeroPadState

def ReleasedWhenAbsent (labels : List PadLabel) : Prop :=
  ∀ before after, labels = before ++ .absent :: after → NothingPressed (before ++ [.absent])

/-
What a condition may speak about: the last report since the controller was absent, and whether a press
of a button was reported since then that the user interface did not read.
-/
structure Session where
  last : Option PadData
  unread : Bool

def Session.lastFlags (session : Session) : UInt32 :=
  (session.last.map buttonFlags).getD 0

def Session.note (session : Session) (label : PadLabel) : Session :=
  match label with
  | .absent => ⟨none, false⟩
  | .noData => session
  | .report d => ⟨some d, session.unread || buttonFlags d &&& ~~~session.lastFlags ≠ 0⟩
  | .getData => { session with unread := false }

def session (labels : List PadLabel) : Session :=
  labels.foldl Session.note ⟨none, false⟩

def PadData.Neutral (d : PadData) : Prop :=
  d.btnL2 = false ∧ d.btnR2 = false ∧ d.anaLH = 128 ∧ d.anaLV = 128 ∧ d.anaRH = 128 ∧ d.anaRV = 128

/- The last report presses a button, or it leaves nothing else and nothing is unread. -/
def Session.CanEnd (session : Session) : Prop :=
  ∀ d, session.last = some d → buttonFlags d ≠ 0 ∨ d.Neutral ∧ session.unread = false

def EndsWell (labels : List PadLabel) : Prop :=
  ∀ before after, labels = before ++ .absent :: after → (session before).CanEnd

theorem stick_eq_zero_iff (ana : UInt16) {factor : Int} (h : factor ≠ 0)
    : stick ana factor = 0 ↔ ana = 128 := by
  have htemp : (ana.toNat - 128 : Int) * factor = 0 ↔ ana = 128 := by
    rw [Int.mul_eq_zero, ← UInt16.toNat_inj]
    simp only [h, or_false, UInt16.reduceToNat]
    omega
  rw [← htemp]
  unfold stick
  dsimp only
  split
  . omega
  . split <;> omega

theorem trigger_eq_zero_iff (pressed : Bool) : trigger pressed = 0 ↔ pressed = false := by
  cases pressed <;> decide

theorem controllerEvent_eq_neutralEvent_iff (d : PadData)
    : controllerEvent d = neutralEvent ↔ buttonFlags d = 0 ∧ d.Neutral := by
  rw [controllerEvent, neutralEvent, ControllerEvent.mk.injEq, PadData.Neutral,
    trigger_eq_zero_iff, trigger_eq_zero_iff, stick_eq_zero_iff _ (by decide),
    stick_eq_zero_iff _ (by decide), stick_eq_zero_iff _ (by decide),
    stick_eq_zero_iff _ (by decide)]

theorem reportedPadState_eq_zeroPadState_iff (d : PadData) (buttonsPressed : UInt32)
    : reportedPadState d buttonsPressed = zeroPadState
        ↔
      buttonFlags d = 0 ∧ buttonsPressed = 0 ∧ d.anaLH = 128 ∧ d.anaLV = 128 ∧ d.anaRH = 128
        ∧ d.anaRV = 128 := by
  rw [reportedPadState, zeroPadState, PadState.mk.injEq, stick_eq_zero_iff _ (by decide),
    stick_eq_zero_iff _ (by decide), stick_eq_zero_iff _ (by decide),
    stick_eq_zero_iff _ (by decide)]

theorem controllerAfter_concat (labels : List PadLabel) (label : PadLabel)
    : controllerAfter (labels ++ [label]) = (padStep (controllerAfter labels) label).fst := by
  rw [controllerAfter, Transition.trace_concat_fst]
  rfl

theorem lastSent_concat (labels : List PadLabel) (label : PadLabel)
    : lastSent (labels ++ [label])
        =
      (padStep (controllerAfter labels) label).snd.getLast?.or (lastSent labels) := by
  rw [lastSent, KeyStream.stream_concat, List.getLast?_append]
  rfl

theorem session_concat (labels : List PadLabel) (label : PadLabel)
    : session (labels ++ [label]) = (session labels).note label := by
  rw [session, List.foldl_append]
  rfl

/- The state and what was sent are those of the last report since the controller was absent. -/
structure Agrees (labels : List PadLabel) : Prop where
  noReport : (session labels).last = none → NothingPressed labels
  report : ∀ d, (session labels).last = some d
    → lastSent labels = some (controllerEvent d)
      ∧ (controllerAfter labels).padState
        = reportedPadState d (controllerAfter labels).padState.buttonsPressed
  lastButtons : (controllerAfter labels).lastButtons = (session labels).lastFlags
  unread : (controllerAfter labels).padState.buttonsPressed = 0 ↔ (session labels).unread = false

theorem agrees_nil : Agrees [] where
  noReport := by
    intro _
    exact ⟨by simp [lastSent, KeyStream.stream, Transition.trace], rfl⟩
  report := by
    intro d h
    contradiction
  lastButtons := by rfl
  unread := by decide

theorem nothingPressed_of_report {labels : List PadLabel} (h : Agrees labels) {d : PadData}
    (hlast : (session labels).last = some d) (hzero : buttonFlags d = 0)
    : NothingPressed labels ↔ d.Neutral ∧ (session labels).unread = false := by
  have hreport := h.report d hlast
  rw [NothingPressed, hreport.left, hreport.right, reportedPadState_eq_zeroPadState_iff, h.unread]
  simp only [Option.some.injEq, forall_eq', controllerEvent_eq_neutralEvent_iff, hzero, true_and]
  constructor
  . intro hpressed
    exact ⟨hpressed.left, hpressed.right.left⟩
  . intro hneutral
    exact ⟨hneutral.left, hneutral.right, hneutral.left.right.right⟩

/- The release path depends on the buttons of the last report only. -/
theorem padStep_absent_of_zero {s : ControllerState} (h : s.lastButtons = 0)
    : padStep s .absent = ⟨s, []⟩ := by
  rw [padStep, if_neg (by rw [h]; decide)]

theorem padStep_absent_of_ne_zero {s : ControllerState} (h : s.lastButtons ≠ 0)
    : padStep s .absent = ⟨initController, [neutralEvent]⟩ := by
  rw [padStep, if_pos h]
  rfl

theorem nothingPressed_absent_of_zero {labels : List PadLabel}
    (h : (controllerAfter labels).lastButtons = 0)
    : NothingPressed (labels ++ [.absent]) ↔ NothingPressed labels := by
  rw [NothingPressed, NothingPressed, lastSent_concat, controllerAfter_concat,
    padStep_absent_of_zero h]
  rfl

theorem nothingPressed_absent_of_ne_zero {labels : List PadLabel}
    (h : (controllerAfter labels).lastButtons ≠ 0)
    : NothingPressed (labels ++ [.absent]) := by
  rw [NothingPressed, lastSent_concat, controllerAfter_concat, padStep_absent_of_ne_zero h]
  simp [initController]

theorem nothingPressed_absent_iff {labels : List PadLabel} (h : Agrees labels)
    : NothingPressed (labels ++ [.absent]) ↔ (session labels).CanEnd := by
  have hbuttons := h.lastButtons
  unfold Session.lastFlags at hbuttons
  unfold Session.CanEnd
  cases hlast : (session labels).last with
  | none =>
    rw [hlast] at hbuttons
    simp [nothingPressed_absent_of_zero hbuttons, h.noReport hlast]
  | some d =>
    rw [hlast] at hbuttons
    by_cases hzero : buttonFlags d = 0
    . rw [nothingPressed_absent_of_zero (hbuttons.trans hzero),
        nothingPressed_of_report h hlast hzero]
      simp [hzero]
    . have hpressed := nothingPressed_absent_of_ne_zero (h := by rw [hbuttons]; exact hzero)
      simp [hpressed, hzero]

theorem lastButtons_absent (s : ControllerState) : (padStep s .absent).fst.lastButtons = 0 := by
  by_cases h : s.lastButtons = 0
  . rw [padStep_absent_of_zero h, h]
  . rw [padStep_absent_of_ne_zero h]
    rfl

theorem agrees_absent {labels : List PadLabel} (h : Agrees labels) (hend : (session labels).CanEnd)
    : Agrees (labels ++ [.absent]) := by
  have hnothing := (nothingPressed_absent_iff h).mpr hend
  have hsession : session (labels ++ [.absent]) = ⟨none, false⟩ := by
    rw [session_concat]
    rfl
  constructor
  . exact fun _ => hnothing
  . intro d hd
    rw [hsession] at hd
    contradiction
  . rw [controllerAfter_concat, lastButtons_absent, hsession]
    rfl
  . rw [hnothing.right, hsession]
    decide

theorem agrees_noData {labels : List PadLabel} (h : Agrees labels)
    : Agrees (labels ++ [.noData]) := by
  have hstep : padStep (controllerAfter labels) .noData = ⟨controllerAfter labels, []⟩ := by rfl
  have hsession : session (labels ++ [.noData]) = session labels := by
    rw [session_concat]
    rfl
  have hsent : lastSent (labels ++ [.noData]) = lastSent labels := by
    rw [lastSent_concat, hstep]
    rfl
  have hafter : controllerAfter (labels ++ [.noData]) = controllerAfter labels := by
    rw [controllerAfter_concat, hstep]
  constructor
  . rw [hsession, NothingPressed, hsent, hafter]
    exact h.noReport
  . rw [hsession, hsent, hafter]
    exact h.report
  . rw [hsession, hafter]
    exact h.lastButtons
  . rw [hsession, hafter]
    exact h.unread

theorem agrees_report {labels : List PadLabel} (h : Agrees labels) (d : PadData)
    : Agrees (labels ++ [.report d]) := by
  have hstep : padStep (controllerAfter labels) (.report d)
      = ⟨padReport (controllerAfter labels) d, [controllerEvent d]⟩ := by rfl
  have hlast : (session (labels ++ [.report d])).last = some d := by
    rw [session_concat]
    rfl
  constructor
  . intro hnone
    rw [hlast] at hnone
    contradiction
  . intro d' hd'
    rw [hlast, Option.some.injEq] at hd'
    rw [← hd', lastSent_concat, controllerAfter_concat, hstep]
    exact ⟨rfl, rfl⟩
  . rw [controllerAfter_concat, hstep, Session.lastFlags, hlast]
    rfl
  . rw [controllerAfter_concat, hstep, session_concat, padReport, reportedPadState,
      UInt32.or_eq_zero_iff, h.unread, h.lastButtons, Session.note]
    simp

theorem agrees_getData {labels : List PadLabel} (h : Agrees labels)
    : Agrees (labels ++ [.getData]) := by
  have hafter : controllerAfter (labels ++ [.getData])
      = ⟨(controllerAfter labels).lastButtons,
        { (controllerAfter labels).padState with buttonsPressed := 0 }⟩ := by
    rw [controllerAfter_concat]
    rfl
  have hsession : session (labels ++ [.getData]) = ⟨(session labels).last, false⟩ := by
    rw [session_concat]
    rfl
  have hsent : lastSent (labels ++ [.getData]) = lastSent labels := by
    rw [lastSent_concat]
    rfl
  constructor
  . intro hnone
    rw [hsession] at hnone
    have hnothing := h.noReport hnone
    rw [NothingPressed, hsent, hafter, hnothing.right]
    exact ⟨hnothing.left, rfl⟩
  . intro d hd
    rw [hsession] at hd
    have hreport := h.report d hd
    rw [hsent, hafter, hreport.right]
    exact ⟨hreport.left, rfl⟩
  . rw [hafter, hsession]
    exact h.lastButtons
  . rw [hafter, hsession]
    exact iff_of_true rfl rfl

theorem endsWell_concat_iff (labels : List PadLabel) (label : PadLabel)
    : EndsWell (labels ++ [label])
        ↔
      EndsWell labels ∧ (label = .absent → (session labels).CanEnd) := by
  apply Transition.forall_split_concat_iff

theorem releasedWhenAbsent_concat_iff (labels : List PadLabel) (label : PadLabel)
    : ReleasedWhenAbsent (labels ++ [label])
        ↔
      ReleasedWhenAbsent labels ∧ (label = .absent → NothingPressed (labels ++ [.absent])) := by
  exact Transition.forall_split_concat_iff (fun before => NothingPressed (before ++ [.absent]))
    labels label

theorem agrees_of_endsWell {labels : List PadLabel} (h : EndsWell labels) : Agrees labels := by
  induction labels using List.reverseRecOn with
  | nil => exact agrees_nil
  | append_singleton labels label ih =>
    rw [endsWell_concat_iff] at h
    have hagrees := ih h.left
    cases label with
    | absent => exact agrees_absent hagrees (h.right rfl)
    | noData => exact agrees_noData hagrees
    | report d => exact agrees_report hagrees d
    | getData => exact agrees_getData hagrees

theorem releasedWhenAbsent_iff (labels : List PadLabel)
    : ReleasedWhenAbsent labels ↔ EndsWell labels := by
  induction labels using List.reverseRecOn with
  | nil => simp [ReleasedWhenAbsent, EndsWell]
  | append_singleton labels label ih =>
    rw [releasedWhenAbsent_concat_iff, endsWell_concat_iff, ih]
    constructor
    . intro h
      refine ⟨h.left, fun habsent => ?_⟩
      exact (nothingPressed_absent_iff (agrees_of_endsWell h.left)).mp (h.right habsent)
    . intro h
      refine ⟨h.left, fun habsent => ?_⟩
      exact (nothingPressed_absent_iff (agrees_of_endsWell h.left)).mpr (h.right habsent)

/- A controller that only held a trigger. -/
def triggerReport : PadData where
  btnCross := false
  btnCircle := false
  btnSquare := false
  btnTriangle := false
  btnUp := false
  btnDown := false
  btnLeft := false
  btnRight := false
  btnL1 := false
  btnR1 := false
  btnStart := false
  btnSelect := false
  btnL3 := false
  btnR3 := false
  btnL2 := true
  btnR2 := false
  anaLH := 128
  anaLV := 128
  anaRH := 128
  anaRV := 128

theorem not_releasedWhenAbsent_trigger : ¬ReleasedWhenAbsent [.report triggerReport, .absent] := by
  intro h
  have hnothing := h [.report triggerReport] [] rfl
  have hsent := hnothing.left (controllerEvent triggerReport) (by decide +kernel)
  revert hsent
  decide +kernel

end Input

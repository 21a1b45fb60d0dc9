import Mathlib.Data.List.Basic
import PS3Moonlight.Connection.AppVersion

/-!
This module contains the packets of the input stream, what the calls of the input thread make of
their arguments, and how the send thread tells the packets apart.
-/

namespace Input
namespace Stream

open Connection

def ENABLE_HAPTICS_MAGIC : UInt32 := 0x0000000D
def MOUSE_MOVE_REL_MAGIC : UInt32 := 0x00000006
def MOUSE_MOVE_REL_MAGIC_GEN5 : UInt32 := 0x00000007
def MOUSE_MOVE_ABS_MAGIC : UInt32 := 0x00000005
def CONTROLLER_MAGIC : UInt32 := 0x0000000A
def MULTI_CONTROLLER_MAGIC : UInt32 := 0x0000000D
def MULTI_CONTROLLER_MAGIC_GEN5 : UInt32 := 0x0000000C
def SCROLL_MAGIC : UInt32 := 0x00000009
def SCROLL_MAGIC_GEN5 : UInt32 := 0x0000000A
def SS_PEN_MAGIC : UInt32 := 0x55000003
def SS_CONTROLLER_MOTION_MAGIC : UInt32 := 0x55000006
def UTF8_TEXT_EVENT_MAGIC : UInt32 := 0x00000017

def CTRL_CHANNEL_GENERIC : UInt8 := 0x00
def CTRL_CHANNEL_KEYBOARD : UInt8 := 0x02
def CTRL_CHANNEL_MOUSE : UInt8 := 0x03
def CTRL_CHANNEL_GAMEPAD_BASE : UInt8 := 0x10

def MODIFIER_SHIFT : UInt8 := 0x01
def MODIFIER_CTRL : UInt8 := 0x02
def MODIFIER_ALT : UInt8 := 0x04
def MODIFIER_META : UInt8 := 0x08

def SPECIAL_FLAG : Int32 := 0x0400
def MISC_FLAG : Int32 := 0x200000

def LI_WHEEL_DELTA : Int := 120

inductive KeyAction where
  | down
  | up
  deriving DecidableEq, Repr

def KeyAction.code (action : KeyAction) : UInt8 :=
  match action with
  | .down => 0x03
  | .up => 0x04

inductive ButtonAction where
  | press
  | release
  deriving DecidableEq, Repr

def ButtonAction.code (action : ButtonAction) : UInt8 :=
  match action with
  | .press => 0x07
  | .release => 0x08

structure MultiController where
  controllerNumber : Nat
  activeGamepadMask : Int16
  buttonFlags : Int16
  leftTrigger : UInt8
  rightTrigger : UInt8
  leftStickX : Int16
  leftStickY : Int16
  rightStickX : Int16
  rightStickY : Int16
  buttonFlags2 : Int16
  deriving DecidableEq, Repr

/- The packet of generation 3, which has no number and no mask. -/
structure LegacyController where
  buttonFlags : Int16
  leftTrigger : UInt8
  rightTrigger : UInt8
  leftStickX : Int16
  leftStickY : Int16
  rightStickX : Int16
  rightStickY : Int16
  deriving DecidableEq, Repr

/- The union of the packets without their constant fields. -/
inductive Packet where
  | haptics (enable : UInt16)
  | keyboard (action : KeyAction) (flags : UInt8) (keyCode : UInt16) (modifiers : UInt8)
  | mouseMoveRel (deltaX deltaY : Int16)
  | mouseMoveAbs (x y width height : Int16)
  | mouseButton (action : ButtonAction) (button : UInt8)
  | controller (c : LegacyController)
  | multiController (c : MultiController)
  | scroll (scrollAmt1 : Int16)
  deriving DecidableEq, Repr

structure PacketHolder where
  channelId : UInt8
  packet : Packet
  deriving DecidableEq, Repr

def multiControllerMagic (v : AppVersionQuad) : UInt32 :=
  if v.major ≥ 5 then MULTI_CONTROLLER_MAGIC_GEN5 else MULTI_CONTROLLER_MAGIC

def relMouseMagic (v : AppVersionQuad) : UInt32 :=
  if v.major ≥ 5 then MOUSE_MOVE_REL_MAGIC_GEN5 else MOUSE_MOVE_REL_MAGIC

def Packet.magic (v : AppVersionQuad) (p : Packet) : UInt32 :=
  match p with
  | .haptics _ => ENABLE_HAPTICS_MAGIC
  | .keyboard action _ _ _ => action.code.toUInt32
  | .mouseMoveRel _ _ => relMouseMagic v
  | .mouseMoveAbs _ _ _ _ => MOUSE_MOVE_ABS_MAGIC
  | .mouseButton action _ =>
    if v.major ≥ 5 then action.code.toUInt32 + 1 else action.code.toUInt32
  | .controller _ => CONTROLLER_MAGIC
  | .multiController _ => multiControllerMagic v
  | .scroll _ => if v.major ≥ 5 then SCROLL_MAGIC_GEN5 else SCROLL_MAGIC

/- The branches of the send thread. -/
inductive Branch where
  | latch
  | relative
  | absolute
  | pen
  | motion
  | text
  | asIs
  deriving DecidableEq, Repr

def branch (v : AppVersionQuad) (magic : UInt32) : Branch :=
  if magic = multiControllerMagic v then .latch
  else if magic = relMouseMagic v then .relative
  else if magic = MOUSE_MOVE_ABS_MAGIC then .absolute
  else if magic = SS_PEN_MAGIC then .pen
  else if magic = SS_CONTROLLER_MOTION_MAGIC then .motion
  else if magic = UTF8_TEXT_EVENT_MAGIC then .text
  else .asIs

def Packet.branch (p : Packet) : Branch :=
  match p with
  | .mouseMoveRel _ _ => .relative
  | .mouseMoveAbs _ _ _ _ => .absolute
  | .multiController _ => .latch
  | _ => .asIs

/-
Generation 4 has one magic for haptics and controllers, but haptics are for newer versions only.
-/
def Packet.Fits (v : AppVersionQuad) (p : Packet) : Prop :=
  match p with
  | .haptics _ => v.major ≥ 5
  | _ => True

/- The magics of the send thread pick the branch that reads the right member of the union. -/
theorem branch_magic {v : AppVersionQuad} {p : Packet} (h : p.Fits v)
    : branch v (p.magic v) = p.branch := by
  unfold branch Packet.magic relMouseMagic multiControllerMagic
  cases Decidable.em (v.major ≥ 5) with
  | inl hgen =>
    simp only [if_pos hgen]
    cases p with
    | keyboard action => cases action <;> rfl
    | mouseButton action => cases action <;> rfl
    | _ => rfl
  | inr hgen =>
    simp only [if_neg hgen]
    cases p with
    | haptics => exact absurd h hgen
    | keyboard action => cases action <;> rfl
    | mouseButton action => cases action <;> rfl
    | _ => rfl

theorem major_of_atLeast {v : AppVersionQuad} (h : v.atLeast 7 1 0 = true) : v.major ≥ 5 := by
  unfold AppVersionQuad.atLeast at h
  simp only [Bool.or_eq_true, Bool.and_eq_true, decide_eq_true_eq, beq_iff_eq] at h
  omega

/-
What the calls make of their arguments.
-/

def needsBatchedScroll (v : AppVersionQuad) : Bool :=
  v.atLeast 7 1 409 && !v.isSunshine

def hapticsHolder : PacketHolder :=
  ⟨CTRL_CHANNEL_GENERIC, .haptics 1⟩

def fixModifiers (v : AppVersionQuad) (keyCode : UInt16) (modifiers : UInt8) : UInt8 :=
  if v.isSunshine then
    modifiers
  else
    match (keyCode &&& 0xFF).toNat with
    | 0x5B => modifiers &&& ~~~MODIFIER_META
    | 0x5C => modifiers &&& ~~~MODIFIER_META
    | 0xA0 => modifiers ||| MODIFIER_SHIFT
    | 0xA1 => modifiers &&& ~~~MODIFIER_SHIFT
    | 0xA2 => modifiers ||| MODIFIER_CTRL
    | 0xA3 => modifiers &&& ~~~MODIFIER_CTRL
    | 0xA4 => modifiers ||| MODIFIER_ALT
    | 0xA5 => modifiers &&& ~~~MODIFIER_ALT
    | _ => modifiers

def keyboardHolder (v : AppVersionQuad) (keyCode : UInt16) (action : KeyAction)
    (modifiers flags : UInt8) : PacketHolder :=
  ⟨CTRL_CHANNEL_KEYBOARD,
    .keyboard action (if v.isSunshine then flags else 0) keyCode (fixModifiers v keyCode modifiers)⟩

def mouseButtonHolder (action : ButtonAction) (button : UInt8) : PacketHolder :=
  ⟨CTRL_CHANNEL_MOUSE, .mouseButton action button⟩

def scrollHolder (scrollAmount : Int16) : PacketHolder :=
  ⟨CTRL_CHANNEL_MOUSE, .scroll scrollAmount⟩

/- The button flags of clients that pass a `short`, and those of GFE. -/
def fixButtonFlags (v : AppVersionQuad) (buttonFlags : Int32) : Int32 :=
  let buttonFlags := if buttonFlags < 0 then buttonFlags &&& 0xFFFF else buttonFlags
  if !v.isSunshine && buttonFlags &&& MISC_FLAG ≠ 0 then
    buttonFlags ||| SPECIAL_FLAG
  else
    buttonFlags

/- A call of `sendControllerEventInternal`. -/
structure PadArguments where
  controllerNumber : Nat
  activeGamepadMask : Int16
  buttonFlags : Int32
  leftTrigger : UInt8
  rightTrigger : UInt8
  leftStickX : Int16
  leftStickY : Int16
  rightStickX : Int16
  rightStickY : Int16
  deriving DecidableEq, Repr

def multiController (v : AppVersionQuad) (a : PadArguments) : MultiController :=
  let buttonFlags := fixButtonFlags v a.buttonFlags
  { controllerNumber := if v.isSunshine then a.controllerNumber % 16 else a.controllerNumber % 4
    activeGamepadMask := if v.isSunshine then a.activeGamepadMask else a.activeGamepadMask &&& 0xF
    buttonFlags := buttonFlags.toInt16
    leftTrigger := a.leftTrigger
    rightTrigger := a.rightTrigger
    leftStickX := a.leftStickX
    leftStickY := a.leftStickY
    rightStickX := a.rightStickX
    rightStickY := a.rightStickY
    buttonFlags2 := if v.isSunshine then (buttonFlags >>> 16).toInt16 else 0 }

def MultiController.legacy (c : MultiController) : LegacyController where
  buttonFlags := c.buttonFlags
  leftTrigger := c.leftTrigger
  rightTrigger := c.rightTrigger
  leftStickX := c.leftStickX
  leftStickY := c.leftStickY
  rightStickX := c.rightStickX
  rightStickY := c.rightStickY

def controllerHolder (v : AppVersionQuad) (c : MultiController) : PacketHolder :=
  ⟨CTRL_CHANNEL_GAMEPAD_BASE + UInt8.ofNat c.controllerNumber,
    if v.major = 3 then .controller c.legacy else .multiController c⟩

/- A batch ends with a change of the buttons. -/
def MultiController.buttons (c : MultiController) : Int16 × Int16 :=
  ⟨c.buttonFlags, c.buttonFlags2⟩

/- The calls, with `LiSendHighResScrollEvent` for both scroll events. -/
inductive Call where
  | mouseMove (deltaX deltaY : Int16)
  | mousePosition (x y referenceWidth referenceHeight : Int16)
  | mouseButton (action : ButtonAction) (button : UInt8)
  | keyboard (keyCode : UInt16) (action : KeyAction) (modifiers flags : UInt8)
  | controller (a : PadArguments)
  | highResScroll (scrollAmount : Int16)
  deriving DecidableEq, Repr

/- `packet` is for everything that is queued as it is. -/
inductive Request where
  | relative (deltaX deltaY : Int16)
  | absolute (x y width height : Int16)
  | controller (c : MultiController)
  | packet (holder : PacketHolder)
  | scroll (scrollAmount : Int16)
  deriving DecidableEq, Repr

def Call.request (v : AppVersionQuad) (c : Call) : Option Request :=
  match c with
  | .mouseMove deltaX deltaY =>
    if deltaX = 0 ∧ deltaY = 0 then none else some (.relative deltaX deltaY)
  | .mousePosition x y width height => some (.absolute x y width height)
  | .mouseButton action button => some (.packet (mouseButtonHolder action button))
  | .keyboard keyCode action modifiers flags =>
    some (.packet (keyboardHolder v keyCode action modifiers flags))
  | .controller a => some (.controller (multiController v a))
  | .highResScroll scrollAmount =>
    if scrollAmount = 0 then none
    else if needsBatchedScroll v then some (.scroll scrollAmount)
    else some (.packet (scrollHolder scrollAmount))

def liSendScrollEvent (scrollClicks : Int8) : Call :=
  .highResScroll (scrollClicks.toInt16 * 120)

def liSendControllerEvent (buttonFlags : Int32) (leftTrigger rightTrigger : UInt8)
    (leftStickX leftStickY rightStickX rightStickY : Int16) : Call :=
  .controller ⟨0, 0x1, buttonFlags, leftTrigger, rightTrigger, leftStickX, leftStickY, rightStickX,
    rightStickY⟩

def liSendKeyboardEvent (keyCode : UInt16) (action : KeyAction) (modifiers : UInt8) : Call :=
  .keyboard keyCode action modifiers 0

/- What is queued as it is takes the branch that sends it as it is. -/
theorem branch_request {v : AppVersionQuad} {c : Call} {holder : PacketHolder}
    (h : c.request v = some (.packet holder))
    : holder.packet.branch = .asIs := by
  cases c with
  | mouseMove => simp [Call.request] at h
  | mousePosition => simp [Call.request] at h
  | mouseButton action button =>
    rw [Call.request, Option.some.injEq, Request.packet.injEq] at h
    rw [← h]
    rfl
  | keyboard keyCode action modifiers flags =>
    rw [Call.request, Option.some.injEq, Request.packet.injEq] at h
    rw [← h]
    rfl
  | controller a => simp [Call.request] at h
  | highResScroll scrollAmount =>
    unfold Call.request at h
    simp only at h
    split at h
    . contradiction
    . split at h
      . simp at h
      . rw [Option.some.injEq, Request.packet.injEq] at h
        rw [← h]
        rfl

end Stream
end Input

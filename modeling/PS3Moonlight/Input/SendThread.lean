import Mathlib.Logic.Function.Basic
import PS3Moonlight.Input.Packets
import PS3Moonlight.Lib.Transition
import PS3Moonlight.Threads.LinkedBlockingQueue

/-!
This module contains the input stream as three threads: the input thread with its calls, the send
thread that batches what they ask for, and the thread that starts and stops the stream. A step is
what a thread does between two accesses to what it shares with the others.
-/

namespace Input
namespace Stream

open Connection
open Threads

def MAX_QUEUED_INPUT_PACKETS : Nat := 150

structure RelativeMouseState where
  deltaX : Int32
  deltaY : Int32
  dirty : Bool
  deriving DecidableEq, Repr

structure AbsoluteMouseState where
  x : Int16
  y : Int16
  width : Int16
  height : Int16
  dirty : Bool
  deriving DecidableEq, Repr

/- The statement that a call has reached, `holder` is the packet holder in its hands. -/
inductive Caller where
  | idle
  | entering (r : Request)
  | allocating (r : Request)
  | writing (c : MultiController) (holder : Nat)
  | offering (r : Request) (holder : Nat)
  | accepted (r : Request)
  | refused (r : Request) (holder : Nat)
  deriving DecidableEq, Repr

inductive Sender where
  | waiting
  | took (holder : Nat)
  | sendingMove (holder : Nat)
  | sending (holder : Nat)
  | freeing (holder : Nat) (exits : Bool)
  | exited
  deriving DecidableEq, Repr

inductive Control where
  | starting
  | enabling
  | offering (holder : Nat)
  | refused (holder : Nat)
  | running
  | stopping
  | draining
  | joining
  | stopped
  deriving DecidableEq, Repr

/- What goes over the wire: events, and the states of the pointer, the cursor and the controllers. -/
inductive Item where
  | event (holder : PacketHolder)
  | move (deltaX deltaY : Int)
  | position (x y width height : Int16)
  | pad (c : MultiController)
  deriving DecidableEq, Repr

def PacketHolder.item (h : PacketHolder) : Item :=
  match h.packet with
  | .mouseMoveRel deltaX deltaY => .move deltaX.toInt deltaY.toInt
  | .mouseMoveAbs x y width height => .position x y width height
  | .multiController c => .pad c
  | _ => .event h

def Request.isMotion (r : Request) : Bool :=
  match r with
  | .relative _ _ => true
  | .absolute _ _ _ _ => true
  | _ => false

/-
Packet holders are numbered as they are allocated, `holders` is the memory behind them. The last
three fields are logs: the requests of the calls, what the queue accepted, and what was sent.
-/
structure State where
  holders : Nat → PacketHolder
  allocated : Nat
  packetQueue : LinkedBlockingQueue Nat
  packetHolderFreeList : LinkedBlockingQueue Nat
  currentQueuedControllerPacket : Nat → Option Nat
  currentRelativeMouseState : RelativeMouseState
  currentAbsoluteMouseState : AbsoluteMouseState
  batchedScrollDelta : Int32
  initialized : Bool
  caller : Caller
  sender : Sender
  control : Control
  requests : List Request
  accepted : List Item
  sent : List PacketHolder

/- `initializeInputStream`, with an arbitrary memory behind the holders to come. -/
def initializeInputStream (holders : Nat → PacketHolder) : State where
  holders := holders
  allocated := 0
  packetQueue := .lbqInitialize Nat MAX_QUEUED_INPUT_PACKETS
  packetHolderFreeList := .lbqInitialize Nat MAX_QUEUED_INPUT_PACKETS
  currentQueuedControllerPacket := fun _ => none
  currentRelativeMouseState := ⟨0, 0, false⟩
  currentAbsoluteMouseState := ⟨0, 0, 0, 0, false⟩
  batchedScrollDelta := 0
  initialized := false
  caller := .idle
  sender := .waiting
  control := .starting
  requests := []
  accepted := []
  sent := []

namespace State

def write (s : State) (holder : Nat) (content : PacketHolder) : State :=
  { s with holders := Function.update s.holders holder content }

/- The batching mutex is held over several steps by the calls for the mouse only. -/
def mutexHeld (s : State) : Bool :=
  match s.caller with
  | .allocating r => r.isMotion
  | .offering r _ => r.isMotion
  | .accepted r => r.isMotion
  | .refused r _ => r.isMotion
  | _ => false

def allocatePacketHolder (s : State) (malloc : Bool) : Option Nat × State :=
  match s.packetHolderFreeList.lbqPollQueueElement with
  | .ok result => ⟨some result.fst, { s with packetHolderFreeList := result.snd }⟩
  | .error .noElement =>
    if malloc then ⟨some s.allocated, { s with allocated := s.allocated + 1 }⟩ else ⟨none, s⟩
  | .error _ => ⟨none, s⟩

/- A holder that the free list does not take goes back to the system. -/
def freePacketHolder (s : State) (holder : Nat) : State :=
  match s.packetHolderFreeList.lbqOfferQueueItem holder with
  | .ok list => { s with packetHolderFreeList := list }
  | .error _ => s

/- What a holder in the queue is going to send, the mouse holders get their fields only then. -/
def itemOf (s : State) (holder : Nat) : Item :=
  match (s.holders holder).packet with
  | .mouseMoveRel _ _ =>
    .move s.currentRelativeMouseState.deltaX.toInt s.currentRelativeMouseState.deltaY.toInt
  | .mouseMoveAbs _ _ _ _ =>
    .position s.currentAbsoluteMouseState.x s.currentAbsoluteMouseState.y
      (s.currentAbsoluteMouseState.width - 1) (s.currentAbsoluteMouseState.height - 1)
  | _ => (s.holders holder).item

/-
The input thread.
-/

def call (v : AppVersionQuad) (s : State) (c : Call) : State :=
  if s.initialized then
    match c.request v with
    | none => s
    | some r => { s with caller := .entering r, requests := s.requests ++ [r] }
  else
    s

/- A sum that does not fit wraps around. -/
def enterRelative (s : State) (deltaX deltaY : Int16) : State :=
  let relative := s.currentRelativeMouseState
  let s := { s with currentRelativeMouseState :=
    { relative with
      deltaX := relative.deltaX + deltaX.toInt32
      deltaY := relative.deltaY + deltaY.toInt32 } }
  if relative.dirty then
    { s with caller := .idle, accepted := s.accepted ++ [.move deltaX.toInt deltaY.toInt] }
  else
    { s with caller := .allocating (.relative deltaX deltaY) }

def enterAbsolute (s : State) (x y width height : Int16) : State :=
  let dirty := s.currentAbsoluteMouseState.dirty
  let s := { s with currentAbsoluteMouseState := ⟨x, y, width, height, dirty⟩ }
  if dirty then
    { s with caller := .idle, accepted := s.accepted ++ [.position x y (width - 1) (height - 1)] }
  else
    { s with caller := .allocating (.absolute x y width height) }

/-
There is no step if the current packet is of another kind. Its holder was freed then and is used
again, which takes a controller packet that the queue refused: see `callerStep_isSome`.
-/
def enterController (v : AppVersionQuad) (s : State) (c : MultiController) : Option State :=
  match s.currentQueuedControllerPacket c.controllerNumber with
  | none => some { s with caller := .allocating (.controller c) }
  | some holder =>
    match (s.holders holder).packet with
    | .multiController old =>
      if old.buttons = c.buttons then
        let s := s.write holder ⟨(s.holders holder).channelId, (controllerHolder v c).packet⟩
        some { s with caller := .idle, accepted := s.accepted ++ [.pad c] }
      else
        some { s with caller := .allocating (.controller c) }
    | _ => none

/- Looks at the loop condition of the batched scroll events. -/
def scrollLoop (s : State) (scrollAmount : Int16) : State :=
  if LI_WHEEL_DELTA ≤ s.batchedScrollDelta.toInt.natAbs then
    { s with caller := .allocating (.scroll scrollAmount) }
  else
    { s with caller := .idle }

def enterScroll (s : State) (scrollAmount : Int16) : State :=
  let delta :=
    if (s.batchedScrollDelta < 0 ∧ 0 < scrollAmount)
        ∨ (0 < s.batchedScrollDelta ∧ scrollAmount < 0) then
      0
    else
      s.batchedScrollDelta
  { s with batchedScrollDelta := delta + scrollAmount.toInt32 }.scrollLoop scrollAmount

def enter (v : AppVersionQuad) (s : State) (r : Request) : Option State :=
  match r with
  | .relative deltaX deltaY => some (s.enterRelative deltaX deltaY)
  | .absolute x y width height => some (s.enterAbsolute x y width height)
  | .controller c => s.enterController v c
  | .packet _ => some { s with caller := .allocating r }
  | .scroll scrollAmount => some (s.enterScroll scrollAmount)

def scrollStep (s : State) : Int16 :=
  if 0 < s.batchedScrollDelta then 120 else -120

/- What a call writes into its new holder. The send thread fills the fields of mouse motion in. -/
def content (s : State) (r : Request) : PacketHolder :=
  match r with
  | .relative _ _ => ⟨CTRL_CHANNEL_MOUSE, .mouseMoveRel 0 0⟩
  | .absolute _ _ _ _ => ⟨CTRL_CHANNEL_MOUSE, .mouseMoveAbs 0 0 0 0⟩
  | .controller c => ⟨CTRL_CHANNEL_GAMEPAD_BASE + UInt8.ofNat c.controllerNumber, .multiController c⟩
  | .packet holder => holder
  | .scroll _ => scrollHolder s.scrollStep

def allocate (s : State) (r : Request) (malloc : Bool) : State :=
  match s.allocatePacketHolder malloc with
  | ⟨none, s⟩ => { s with caller := .idle }
  | ⟨some holder, s⟩ =>
    match r with
    | .controller c => { s with caller := .writing c holder }
    | _ => { s.write holder (s.content r) with caller := .offering r holder }

def writeController (v : AppVersionQuad) (s : State) (c : MultiController) (holder : Nat) : State :=
  let s := s.write holder (controllerHolder v c)
  let s :=
    if v.major = 3 then
      s
    else
      { s with currentQueuedControllerPacket :=
          Function.update s.currentQueuedControllerPacket c.controllerNumber (some holder) }
  { s with caller := .offering (.controller c) holder }

def offer (s : State) (r : Request) (holder : Nat) : State :=
  match s.packetQueue.lbqOfferQueueItem holder with
  | .error _ => { s with caller := .refused r holder }
  | .ok queue =>
    { s with
      packetQueue := queue
      caller := .accepted r
      accepted := s.accepted ++ [s.itemOf holder] }

def accept (s : State) (r : Request) : State :=
  match r with
  | .relative _ _ =>
    { s with
      caller := .idle
      currentRelativeMouseState := { s.currentRelativeMouseState with dirty := true } }
  | .absolute _ _ _ _ =>
    { s with
      caller := .idle
      currentAbsoluteMouseState := { s.currentAbsoluteMouseState with dirty := true } }
  | .scroll scrollAmount =>
    { s with batchedScrollDelta := s.batchedScrollDelta - s.scrollStep.toInt32 }.scrollLoop
      scrollAmount
  | _ => { s with caller := .idle }

def callerStep (v : AppVersionQuad) (s : State) (malloc : Bool) : Option State :=
  match s.caller with
  | .idle => none
  | .entering r => s.enter v r
  | .allocating r => some (s.allocate r malloc)
  | .writing c holder => some (s.writeController v c holder)
  | .offering r holder => some (s.offer r holder)
  | .accepted r => some (s.accept r)
  | .refused _ holder => some { s.freePacketHolder holder with caller := .idle }

/-
The send thread.
-/

/- The delta of the next packet, and what is left of it. -/
def splitDelta (delta : Int32) : Int16 × Int32 :=
  if delta < -32768 then
    ⟨-32768, delta + 32768⟩
  else if 32767 < delta then
    ⟨32767, delta - 32767⟩
  else
    ⟨delta.toInt16, 0⟩

def latch (s : State) (holder controllerNumber : Nat) : State :=
  let current :=
    if s.currentQueuedControllerPacket controllerNumber = some holder then
      Function.update s.currentQueuedControllerPacket controllerNumber none
    else
      s.currentQueuedControllerPacket
  { s with currentQueuedControllerPacket := current, sender := .sending holder }

def relativeRound (s : State) (holder : Nat) : State :=
  let relative := s.currentRelativeMouseState
  if relative.deltaX ≠ 0 ∨ relative.deltaY ≠ 0 then
    let x := splitDelta relative.deltaX
    let y := splitDelta relative.deltaY
    { s.write holder ⟨(s.holders holder).channelId, .mouseMoveRel x.fst y.fst⟩ with
      currentRelativeMouseState := { relative with deltaX := x.snd, deltaY := y.snd }
      sender := .sendingMove holder }
  else
    { s with
      currentRelativeMouseState := { relative with dirty := false }
      sender := .freeing holder false }

def fillAbsolute (s : State) (holder : Nat) : State :=
  let absolute := s.currentAbsoluteMouseState
  { s.write holder ⟨(s.holders holder).channelId,
      .mouseMoveAbs absolute.x absolute.y (absolute.width - 1) (absolute.height - 1)⟩ with
    currentAbsoluteMouseState := { absolute with dirty := false }
    sender := .sending holder }

/- The branch is the one of the magic in the header, see `branch_magic`. -/
def process (s : State) (holder : Nat) : Option State :=
  match (s.holders holder).packet with
  | .multiController c =>
    if s.mutexHeld then none else some (s.latch holder c.controllerNumber)
  | .mouseMoveRel _ _ => if s.mutexHeld then none else some (s.relativeRound holder)
  | .mouseMoveAbs _ _ _ _ => if s.mutexHeld then none else some (s.fillAbsolute holder)
  | _ => some { s with sender := .sending holder }

/- `sendInputPacket`, and what follows if it fails. -/
def send (s : State) (holder : Nat) (ok : Bool) (next : Sender) : State :=
  if ok then
    { s with sent := s.sent ++ [s.holders holder], sender := next }
  else
    { s with sender := .freeing holder true }

def senderStep (s : State) (ok : Bool) : Option State :=
  match s.sender with
  | .waiting =>
    match s.packetQueue.lbqWaitForQueueElement with
    | none => none
    | some ⟨.ok holder, queue⟩ => some { s with packetQueue := queue, sender := .took holder }
    | some ⟨.error _, queue⟩ => some { s with packetQueue := queue, sender := .exited }
  | .took holder => s.process holder
  | .sendingMove holder => some (s.send holder ok (.took holder))
  | .sending holder => some (s.send holder ok (.freeing holder false))
  | .freeing holder exits =>
    some { s.freePacketHolder holder with sender := if exits then .exited else .waiting }
  | .exited => none

/-
The start and the stop of the stream.
-/

def enableHaptics (s : State) (malloc : Bool) : State :=
  match s.allocatePacketHolder malloc with
  | ⟨none, s⟩ => { s with control := .running }
  | ⟨some holder, s⟩ => { s.write holder hapticsHolder with control := .offering holder }

def offerHaptics (s : State) (holder : Nat) : State :=
  match s.packetQueue.lbqOfferQueueItem holder with
  | .error _ => { s with control := .refused holder }
  | .ok queue =>
    { s with
      packetQueue := queue
      control := .running
      accepted := s.accepted ++ [s.itemOf holder] }

def controlStep (v : AppVersionQuad) (s : State) (malloc : Bool) : Option State :=
  match s.control with
  | .starting =>
    some { s with initialized := true, control := if v.atLeast 7 1 0 then .enabling else .running }
  | .enabling => some (s.enableHaptics malloc)
  | .offering holder => some (s.offerHaptics holder)
  | .refused holder => some { s.freePacketHolder holder with control := .running }
  | .running => some { s with initialized := false, control := .stopping }
  | .stopping =>
    some { s with
      packetHolderFreeList := s.packetHolderFreeList.lbqSignalQueueShutdown
      control := .draining }
  | .draining =>
    some { s with packetQueue := s.packetQueue.lbqSignalQueueDrain, control := .joining }
  | .joining => if s.sender = .exited then some { s with control := .stopped } else none
  | .stopped => none

end State

/- The arguments say whether an allocation succeeds, or a packet can be sent. -/
inductive Event where
  | call (c : Call)
  | caller (malloc : Bool)
  | sender (ok : Bool)
  | control (malloc : Bool)
  deriving DecidableEq, Repr

def step (v : AppVersionQuad) (s : State) (e : Event) : Option State :=
  match e with
  | .call c => if s.caller = .idle then some (s.call v c) else none
  | .caller malloc => s.callerStep v malloc
  | .sender ok => s.senderStep ok
  | .control malloc => s.controlStep v malloc

def machine (v : AppVersionQuad) (holders : Nat → PacketHolder)
    : Transition.Machine State Event where
  init := initializeInputStream holders
  step := step v

end Stream
end Input

import PS3Moonlight.Input.SendBatches
import PS3Moonlight.Input.SendOwnership

/-!
This module contains the invariant of the three threads of the input stream: what is to come on the
wire, and how the flags and the current packets stand for what waits in the queue.
-/

namespace Input
namespace Stream

open Connection
open Threads
open LinkedBlockingQueue

inductive Motion where
  | relative
  | absolute
  deriving DecidableEq

def Motion.branch (m : Motion) : Branch :=
  match m with
  | .relative => .relative
  | .absolute => .absolute

def Request.motion (r : Request) : Option Motion :=
  match r with
  | .relative _ _ => some .relative
  | .absolute _ _ _ _ => some .absolute
  | _ => none

def Caller.acceptedMotion (c : Caller) : Option Motion :=
  match c with
  | .accepted r => r.motion
  | _ => none

/- The holder of the send thread, if it has not been sent for the last time. -/
def Sender.pending (s : Sender) : List Nat :=
  match s with
  | .took holder => [holder]
  | .sendingMove holder => [holder]
  | _ => []

/- The holder whose packet is just being sent. -/
def Sender.inFlight (s : Sender) : List Nat :=
  match s with
  | .sendingMove holder => [holder]
  | .sending holder => [holder]
  | _ => []

def Request.Plain (r : Request) : Prop :=
  match r with
  | .packet holder => holder.packet.branch = .asIs
  | _ => True

namespace State

def dirty (s : State) (m : Motion) : Bool :=
  match m with
  | .relative => s.currentRelativeMouseState.dirty
  | .absolute => s.currentAbsoluteMouseState.dirty

def pending (s : State) : List Nat :=
  s.sender.pending ++ s.packetQueue.items

def branchOf (s : State) (holder : Nat) : Branch :=
  (s.holders holder).packet.branch

/- What was sent, is being sent, and would be sent if nothing more was asked for. -/
def wire (s : State) : List Item :=
  s.sent.map PacketHolder.item ++ s.sender.inFlight.map (fun holder => (s.holders holder).item)
    ++ s.pending.map s.itemOf

def markers (s : State) (m : Motion) : Nat :=
  s.pending.countP fun holder => s.branchOf holder = m.branch

/- The last packet of its controller that is still to be sent. -/
def LastPad (s : State) (n holder : Nat) : Prop :=
  ∃ before after, s.pending = before ++ holder :: after
    ∧ ∀ other, other ∈ after → ∀ c, (s.holders other).packet = .multiController c
      → c.controllerNumber ≠ n

def IsPad (s : State) (n holder : Nat) : Prop :=
  ∃ c, (s.holders holder).packet = .multiController c ∧ c.controllerNumber = n

theorem IsPad.of_eq {s t : State} {n holder : Nat} (h : s.IsPad n holder)
    (hholder : t.holders holder = s.holders holder)
    : t.IsPad n holder := by
  unfold IsPad at h ⊢
  rw [hholder]
  exact h

/- A current packet is on its way into the queue, or still in there. -/
def CurrentPad (s : State) (n holder : Nat) : Prop :=
  s.IsPad n holder
    ∧ (s.LastPad n holder ∨ ∃ c, s.caller = .offering (.controller c) holder)

/- Nothing is queued yet for the motion that a call is about. -/
def Clean (s : State) (r : Request) : Prop :=
  match r with
  | .relative _ _ => s.currentRelativeMouseState.dirty = false
  | .absolute x y width height => s.currentAbsoluteMouseState = ⟨x, y, width, height, false⟩
  | _ => True

/- What a call has written into its new holder. -/
def Written (v : AppVersionQuad) (s : State) (r : Request) (holder : Nat) : Prop :=
  match r with
  | .relative _ _ => s.branchOf holder = .relative
  | .absolute _ _ _ _ => s.branchOf holder = .absolute
  | .controller c =>
    s.holders holder = controllerHolder v c
      ∧ (v.major ≠ 3 → s.currentQueuedControllerPacket c.controllerNumber = some holder)
  | .packet h => s.holders holder = h
  | .scroll _ => s.holders holder = scrollHolder s.scrollStep

def CallerInv (v : AppVersionQuad) (s : State) : Prop :=
  match s.caller with
  | .entering r => r.Plain
  | .allocating r => r.Plain ∧ s.Clean r
  | .offering r holder => r.Plain ∧ s.Clean r ∧ s.Written v r holder
  | .accepted r => s.Clean r
  | _ => True

structure Inv (v : AppVersionQuad) (s : State) : Prop where
  caller : s.CallerInv v
  haptics : ∀ holder, s.control = .offering holder → s.holders holder = hapticsHolder
  moving : ∀ holder, s.sender = .sendingMove holder → s.branchOf holder = .relative
  marked : ∀ m, s.markers m
    = (if s.dirty m then 1 else 0) + (if s.caller.acceptedMotion = some m then 1 else 0)
  current : ∀ n holder, s.currentQueuedControllerPacket n = some holder
    → v.major ≠ 3 ∧ s.CurrentPad n holder
  batches : Batches s.accepted s.wire

section

variable {v : AppVersionQuad} {s t : State}

theorem Owned.count_le_one (h : s.Owned) (holder : Nat)
    : s.packetHolderFreeList.items.count holder + s.packetQueue.items.count holder
        + s.sender.holder.count holder + s.caller.holder.count holder
        + s.control.holder.count holder ≤ 1 := by
  have hcount := h holder
  rw [count_owned] at hcount
  split at hcount <;> omega

theorem Owned.caller_apart (h : s.Owned) {holder : Nat} (hcaller : holder ∈ s.caller.holder)
    : holder ∉ s.sender.holder ++ s.packetQueue.items := by
  have hcount := h.count_le_one holder
  have hpos := List.count_pos_iff.mpr hcaller
  rw [← List.count_eq_zero, List.count_append]
  omega

theorem Owned.control_apart (h : s.Owned) {holder : Nat} (hcontrol : holder ∈ s.control.holder)
    : holder ∉ s.sender.holder ++ s.packetQueue.items ++ s.caller.holder := by
  have hcount := h.count_le_one holder
  have hpos := List.count_pos_iff.mpr hcontrol
  rw [← List.count_eq_zero, List.count_append, List.count_append]
  omega

theorem Owned.sender_apart (h : s.Owned) {holder : Nat} (hsender : holder ∈ s.sender.holder)
    : holder ∉ s.packetQueue.items ++ s.caller.holder ++ s.control.holder := by
  have hcount := h.count_le_one holder
  have hpos := List.count_pos_iff.mpr hsender
  rw [← List.count_eq_zero, List.count_append, List.count_append]
  omega

/- An allocated holder is in nobody else's hands. -/
theorem Owned.allocated_apart (h : s.Owned) {malloc : Bool} {holder : Nat}
    (halloc : s.allocatePacketHolder malloc = ⟨some holder, t⟩)
    : holder ∉ s.sender.holder ++ s.packetQueue.items ++ s.caller.holder ++ s.control.holder := by
  obtain ⟨list, n, _, hcase⟩ := allocatePacketHolder_eq_some halloc
  rw [← List.count_eq_zero, List.count_append, List.count_append, List.count_append]
  rcases hcase with ⟨hitems, _⟩ | ⟨_, hholder, _⟩
  . have hcount := h.count_le_one holder
    rw [hitems, List.count_cons_self] at hcount
    omega
  . have hcount := h holder
    rw [count_owned, if_neg (by omega)] at hcount
    omega

theorem pending_subset {holder : Nat} (h : holder ∈ s.pending)
    : holder ∈ s.sender.holder ++ s.packetQueue.items := by
  unfold pending at h
  rw [List.mem_append] at h ⊢
  cases h with
  | inl h =>
    left
    cases hsender : s.sender <;> simp_all [Sender.pending, Sender.holder]
  | inr h => exact Or.inr h

theorem inFlight_subset {holder : Nat} (h : holder ∈ s.sender.inFlight)
    : holder ∈ s.sender.holder ++ s.packetQueue.items := by
  rw [List.mem_append]
  left
  cases hsender : s.sender <;> simp_all [Sender.inFlight, Sender.holder]

/-
What is on its way and to come is the same. Mouse motion may differ while nothing is queued for it.
-/
structure Frame (s t : State) : Prop where
  pending : t.pending = s.pending
  inFlight : t.sender.inFlight = s.sender.inFlight
  sent : t.sent = s.sent
  accepted : t.accepted = s.accepted
  holders : ∀ holder, holder ∈ s.sender.holder ++ s.packetQueue.items
    → t.holders holder = s.holders holder
  relative : (t.currentRelativeMouseState.deltaX = s.currentRelativeMouseState.deltaX
      ∧ t.currentRelativeMouseState.deltaY = s.currentRelativeMouseState.deltaY)
      ∨ s.markers .relative = 0
  absolute : (t.currentAbsoluteMouseState.x = s.currentAbsoluteMouseState.x
      ∧ t.currentAbsoluteMouseState.y = s.currentAbsoluteMouseState.y
      ∧ t.currentAbsoluteMouseState.width = s.currentAbsoluteMouseState.width
      ∧ t.currentAbsoluteMouseState.height = s.currentAbsoluteMouseState.height)
      ∨ s.markers .absolute = 0

theorem branchOf_ne_of_markers {m : Motion} (h : s.markers m = 0) {holder : Nat}
    (hpending : holder ∈ s.pending)
    : s.branchOf holder ≠ m.branch := by
  unfold markers at h
  rw [List.countP_eq_zero] at h
  simpa using h holder hpending

namespace Frame

theorem itemOf (f : Frame s t) {holder : Nat} (h : holder ∈ s.pending)
    : t.itemOf holder = s.itemOf holder := by
  have hholder := f.holders holder (pending_subset h)
  unfold State.itemOf
  rw [hholder]
  cases hpacket : (s.holders holder).packet with
  | mouseMoveRel x y =>
    rcases f.relative with hsame | hnone
    . simp [hsame]
    . have hbranch : s.branchOf holder = Motion.relative.branch := by
        simp [branchOf, hpacket, Packet.branch, Motion.branch]
      exact absurd hbranch (branchOf_ne_of_markers hnone h)
  | mouseMoveAbs x y width height =>
    rcases f.absolute with hsame | hnone
    . simp [hsame]
    . have hbranch : s.branchOf holder = Motion.absolute.branch := by
        simp [branchOf, hpacket, Packet.branch, Motion.branch]
      exact absurd hbranch (branchOf_ne_of_markers hnone h)
  | _ => rfl

theorem wire (f : Frame s t) : t.wire = s.wire := by
  have hitems : s.pending.map t.itemOf = s.pending.map s.itemOf := by
    apply List.map_congr_left
    intro holder h
    exact f.itemOf h
  have hflight : s.sender.inFlight.map (fun holder => (t.holders holder).item)
      = s.sender.inFlight.map (fun holder => (s.holders holder).item) := by
    apply List.map_congr_left
    intro holder h
    rw [f.holders holder (inFlight_subset h)]
  unfold State.wire
  rw [f.sent, f.inFlight, f.pending, hitems, hflight]

theorem branchOf (f : Frame s t) {holder : Nat} (h : holder ∈ s.pending)
    : t.branchOf holder = s.branchOf holder := by
  unfold State.branchOf
  rw [f.holders holder (pending_subset h)]

theorem markers (f : Frame s t) (m : Motion) : t.markers m = s.markers m := by
  unfold State.markers
  rw [f.pending]
  apply List.countP_congr
  intro holder h
  simp [f.branchOf h]

theorem lastPad (f : Frame s t) {n holder : Nat} (h : s.LastPad n holder) : t.LastPad n holder := by
  obtain ⟨before, after, hpending, hafter⟩ := h
  refine ⟨before, after, by rw [f.pending, hpending], ?_⟩
  intro other hother c hc
  apply hafter other hother c
  rw [← hc, f.holders other]
  apply pending_subset
  rw [hpending]
  simp [hother]

theorem isPad (f : Frame s t) {n holder : Nat} (hlast : s.LastPad n holder) (h : s.IsPad n holder)
    : t.IsPad n holder := by
  obtain ⟨before, after, hpending, _⟩ := hlast
  obtain ⟨c, hc, hn⟩ := h
  refine ⟨c, ?_, hn⟩
  rw [f.holders holder, hc]
  apply pending_subset
  rw [hpending]
  simp

/- The invariant over a step that leaves the wire as it is. -/
theorem inv (f : Frame s t) (h : s.Inv v) (hcaller : t.CallerInv v)
    (hhaptics : ∀ holder, t.control = .offering holder → t.holders holder = hapticsHolder)
    (hmoving : ∀ holder, t.sender = .sendingMove holder → s.sender = .sendingMove holder)
    (hmarked : ∀ m, (if t.dirty m then 1 else 0) + (if t.caller.acceptedMotion = some m then 1 else 0)
      = (if s.dirty m then 1 else 0) + (if s.caller.acceptedMotion = some m then 1 else 0))
    (hcurrent : ∀ n holder, t.currentQueuedControllerPacket n = some holder
      → v.major ≠ 3 ∧ t.CurrentPad n holder)
    : t.Inv v := by
  constructor
  . exact hcaller
  . exact hhaptics
  . intro holder hsender
    have hbefore := hmoving holder hsender
    rw [f.branchOf]
    . exact h.moving holder hbefore
    . simp [State.pending, hbefore, Sender.pending]
  . intro m
    rw [f.markers, h.marked, hmarked]
  . exact hcurrent
  . rw [f.wire, f.accepted]
    exact h.batches

/- The current packets stay the same, as long as the one on its way into the queue does. -/
theorem current (f : Frame s t) (h : s.Inv v)
    (hsame : t.currentQueuedControllerPacket = s.currentQueuedControllerPacket)
    (hcaller : ∀ c holder, s.caller = .offering (.controller c) holder
      → t.caller = .offering (.controller c) holder ∧ t.holders holder = s.holders holder)
    : ∀ n holder, t.currentQueuedControllerPacket n = some holder
      → v.major ≠ 3 ∧ t.CurrentPad n holder := by
  intro n holder hn
  rw [hsame] at hn
  obtain ⟨hmajor, hpad, hlast⟩ := h.current n holder hn
  refine ⟨hmajor, ?_⟩
  rcases hlast with hlast | ⟨c, hoffering⟩
  . exact ⟨f.isPad hlast hpad, Or.inl (f.lastPad hlast)⟩
  . obtain ⟨hsame, hholder⟩ := hcaller c holder hoffering
    exact ⟨hpad.of_eq hholder, Or.inr ⟨c, hsame⟩⟩

end Frame
end

/-
Items of single holders.
-/

section

variable {s t : State} {holder : Nat}

theorem itemOf_relative (h : s.branchOf holder = .relative)
    : s.itemOf holder
        =
      .move s.currentRelativeMouseState.deltaX.toInt
        s.currentRelativeMouseState.deltaY.toInt := by
  unfold branchOf at h
  unfold itemOf
  cases hpacket : (s.holders holder).packet with
  | mouseMoveRel x y => rfl
  | _ =>
    rw [hpacket] at h
    contradiction

theorem itemOf_absolute (h : s.branchOf holder = .absolute)
    : s.itemOf holder
        =
      .position s.currentAbsoluteMouseState.x s.currentAbsoluteMouseState.y
        (s.currentAbsoluteMouseState.width - 1) (s.currentAbsoluteMouseState.height - 1) := by
  unfold branchOf at h
  unfold itemOf
  cases hpacket : (s.holders holder).packet with
  | mouseMoveAbs x y width height => rfl
  | _ =>
    rw [hpacket] at h
    contradiction

theorem itemOf_pad {c : MultiController} (h : (s.holders holder).packet = .multiController c)
    : s.itemOf holder = .pad c := by
  unfold itemOf PacketHolder.item
  rw [h]

theorem itemOf_eq_item (hrelative : s.branchOf holder ≠ .relative)
    (habsolute : s.branchOf holder ≠ .absolute)
    : s.itemOf holder = (s.holders holder).item := by
  unfold branchOf at hrelative habsolute
  unfold itemOf
  cases hpacket : (s.holders holder).packet with
  | mouseMoveRel x y => simp [hpacket, Packet.branch] at hrelative
  | mouseMoveAbs x y width height => simp [hpacket, Packet.branch] at habsolute
  | _ => rfl

theorem itemOf_ne_move (h : s.branchOf holder ≠ .relative) (x y : Int)
    : s.itemOf holder ≠ .move x y := by
  intro heq
  unfold branchOf at h
  unfold itemOf PacketHolder.item at heq
  cases hpacket : (s.holders holder).packet <;> simp_all [Packet.branch]

theorem itemOf_ne_position (h : s.branchOf holder ≠ .absolute) (x y width height : Int16)
    : s.itemOf holder ≠ .position x y width height := by
  intro heq
  unfold branchOf at h
  unfold itemOf PacketHolder.item at heq
  cases hpacket : (s.holders holder).packet <;> simp_all [Packet.branch]

theorem packet_of_itemOf {c : MultiController} (h : s.itemOf holder = .pad c)
    : (s.holders holder).packet = .multiController c := by
  unfold itemOf PacketHolder.item at h
  cases hpacket : (s.holders holder).packet <;> simp_all

/- The wire with one of the holders to come singled out. -/
theorem wire_split {before after : List Nat} (h : s.pending = before ++ holder :: after)
    : s.wire
        =
      (s.sent.map PacketHolder.item ++ s.sender.inFlight.map (fun holder => (s.holders holder).item)
        ++ before.map s.itemOf) ++ s.itemOf holder :: after.map s.itemOf := by
  simp [wire, h]

/- A change that only one of the holders to come shows. -/
theorem wire_update {before after : List Nat} (h : s.pending = before ++ holder :: after)
    (hpending : t.pending = s.pending) (hsent : t.sent = s.sent) (hsender : t.sender = s.sender)
    (hflight : ∀ other, other ∈ s.sender.inFlight → t.holders other = s.holders other)
    (hitems : ∀ other, other ∈ before ++ after → t.itemOf other = s.itemOf other)
    : t.wire
        =
      (s.sent.map PacketHolder.item ++ s.sender.inFlight.map (fun holder => (s.holders holder).item)
        ++ before.map s.itemOf) ++ t.itemOf holder :: after.map s.itemOf := by
  have hbefore : before.map t.itemOf = before.map s.itemOf := by
    apply List.map_congr_left
    intro other hother
    apply hitems
    simp [hother]
  have hafter : after.map t.itemOf = after.map s.itemOf := by
    apply List.map_congr_left
    intro other hother
    apply hitems
    simp [hother]
  have hflight' : s.sender.inFlight.map (fun holder => (t.holders holder).item)
      = s.sender.inFlight.map (fun holder => (s.holders holder).item) := by
    apply List.map_congr_left
    intro other hother
    rw [hflight other hother]
  rw [wire_split (hpending.trans h), hsent, hsender, hflight', hbefore, hafter]

end

theorem exists_of_countP_eq_one {α : Type} {p : α → Bool} {l : List α} (h : l.countP p = 1)
    : ∃ before a after, l = before ++ a :: after ∧ p a = true
        ∧ ∀ b, b ∈ before ++ after → p b = false := by
  induction l with
  | nil => simp at h
  | cons a l ih =>
    rw [List.countP_cons] at h
    cases ha : p a with
    | true =>
      rw [ha, if_pos rfl] at h
      have hrest : l.countP p = 0 := by omega
      rw [List.countP_eq_zero] at hrest
      refine ⟨[], a, l, rfl, ha, ?_⟩
      intro b hb
      simpa using hrest b hb
    | false =>
      rw [ha, if_neg (by simp)] at h
      obtain ⟨before, b, after, hl, hb, hrest⟩ := ih h
      refine ⟨a :: before, b, after, by rw [hl, List.cons_append], hb, ?_⟩
      intro c hc
      rw [List.cons_append, List.mem_cons] at hc
      rcases hc with hc | hc
      . rw [hc, ha]
      . exact hrest c hc

/- The one holder that waits to carry the motion. -/
theorem exists_marker {s : State} {m : Motion} (h : s.markers m = 1)
    : ∃ before holder after, s.pending = before ++ holder :: after
        ∧ s.branchOf holder = m.branch
        ∧ ∀ other, other ∈ before ++ after → s.branchOf other ≠ m.branch := by
  obtain ⟨before, holder, after, hpending, hholder, hothers⟩ := exists_of_countP_eq_one h
  refine ⟨before, holder, after, hpending, by simpa using hholder, ?_⟩
  intro other hother
  simpa using hothers other hother

theorem itemOf_of_ne_relative {s t : State} {holder : Nat} (hholder : t.holders holder = s.holders holder)
    (habsolute : t.currentAbsoluteMouseState = s.currentAbsoluteMouseState)
    (h : s.branchOf holder ≠ .relative)
    : t.itemOf holder = s.itemOf holder := by
  unfold branchOf at h
  unfold itemOf
  rw [hholder, habsolute]
  cases hpacket : (s.holders holder).packet with
  | mouseMoveRel x y => simp [hpacket, Packet.branch] at h
  | _ => rfl

theorem itemOf_of_ne_absolute {s t : State} {holder : Nat} (hholder : t.holders holder = s.holders holder)
    (hrelative : t.currentRelativeMouseState = s.currentRelativeMouseState)
    (h : s.branchOf holder ≠ .absolute)
    : t.itemOf holder = s.itemOf holder := by
  unfold branchOf at h
  unfold itemOf
  rw [hholder, hrelative]
  cases hpacket : (s.holders holder).packet with
  | mouseMoveAbs x y width height => simp [hpacket, Packet.branch] at h
  | _ => rfl

theorem plain_request {v : AppVersionQuad} {c : Call} {r : Request} (h : c.request v = some r)
    : r.Plain := by
  cases r with
  | packet holder => exact branch_request h
  | _ => trivial

theorem controllerHolder_packet {v : AppVersionQuad} {c : MultiController} (hmajor : v.major ≠ 3)
    : (controllerHolder v c).packet = .multiController c := by
  unfold controllerHolder
  simp [hmajor]

end State
end Stream
end Input

import PS3Moonlight.Input.SendInvariant
import PS3Moonlight.Input.SendMagic

/-!
This module contains the current packets, into which the calls merge the states of a controller. As
long as the queue takes every controller packet, such a packet waits to be sent, so that a call never
writes into a holder that was freed or is used for something else. With that the owners of the
holders and the magics of the packets are settled.
-/

namespace Input
namespace Stream

open Connection
open Threads
open LinkedBlockingQueue

def Sender.taken (s : Sender) : List Nat :=
  match s with
  | .took holder => [holder]
  | _ => []

def Caller.offeredController (c : Caller) : Option Nat :=
  match c with
  | .offering (.controller _) holder => some holder
  | _ => none

/-
The queue takes every controller packet. It does not with 150 packets in it, or in a call during the
stop.
-/
def Admitted (v : AppVersionQuad) (s : State) (e : Event) : Prop :=
  match e with
  | .caller _ =>
    ∀ holder, holder ∈ s.caller.offeredController
      → v.major = 3 ∨ (s.packetQueue.lbqOfferQueueItem holder).isOk = true
  | _ => True

instance decidableAdmitted (v : AppVersionQuad) (s : State) (e : Event)
    : Decidable (Admitted v s e) :=
  match e with
  | .call _ => isTrue trivial
  | .caller _ =>
    inferInstanceAs (Decidable (∀ holder, holder ∈ s.caller.offeredController
      → v.major = 3 ∨ (s.packetQueue.lbqOfferQueueItem holder).isOk = true))
  | .sender _ => isTrue trivial
  | .control _ => isTrue trivial

namespace State

/- Where a packet waits that may still be merged into. -/
def mergeable (s : State) : List Nat :=
  s.sender.taken ++ s.packetQueue.items ++ s.caller.offeredController.toList

/- The current packet of a controller is one of that controller, and waits. -/
def Latched (v : AppVersionQuad) (s : State) : Prop :=
  ∀ n holder, s.currentQueuedControllerPacket n = some holder
    → v.major ≠ 3 ∧ s.IsPad n holder ∧ holder ∈ s.mergeable

section

variable {v : AppVersionQuad} {s t : State}

theorem waiting_pending {holder : Nat} (h : holder ∈ s.sender.taken ++ s.packetQueue.items)
    : holder ∈ s.pending := by
  unfold pending
  rw [List.mem_append] at h ⊢
  refine h.imp_left ?_
  intro htaken
  cases hsender : s.sender with
  | took other =>
    rw [hsender] at htaken
    exact htaken
  | _ =>
    rw [hsender] at htaken
    contradiction

theorem waiting_of_none {holder : Nat} (hnone : s.caller.offeredController = none)
    (h : holder ∈ s.mergeable)
    : holder ∈ s.sender.taken ++ s.packetQueue.items := by
  unfold mergeable at h
  rw [hnone] at h
  simpa using h

theorem mergeable_pending {holder : Nat} (h : holder ∈ s.mergeable)
    : holder ∈ s.pending ∨ holder ∈ s.caller.holder := by
  unfold mergeable at h
  rw [List.mem_append] at h
  rcases h with hwaiting | hoffered
  . exact Or.inl (waiting_pending hwaiting)
  . right
    cases hcaller : s.caller with
    | offering r other =>
      rw [hcaller] at hoffered
      cases r with
      | controller c => exact hoffered
      | _ => contradiction
    | _ =>
      rw [hcaller] at hoffered
      contradiction

theorem mergeable_apart {holder other : Nat} (h : other ∈ s.mergeable)
    (hapart : holder ∉ s.sender.holder ++ s.packetQueue.items ++ s.caller.holder)
    : other ≠ holder := by
  intro heq
  apply hapart
  rw [← heq, List.mem_append]
  rcases mergeable_pending h with hpending | hcaller
  . exact Or.inl (pending_subset hpending)
  . exact Or.inr hcaller

theorem Owned.not_free (h : s.Owned) {holder : Nat} (hplace : holder ∈ s.mergeable)
    : holder ∉ s.packetHolderFreeList.items := by
  have hcount := h.count_le_one holder
  rw [← List.count_eq_zero]
  rcases mergeable_pending hplace with hin | hin
  . have hpos := List.count_pos_iff.mpr (pending_subset hin)
    rw [List.count_append] at hpos
    omega
  . have hpos := List.count_pos_iff.mpr hin
    omega

section

variable (h : s.Latched v)

include h

/- A step that makes no packet current keeps what it says of those that stay current. -/
theorem Latched.of_kept
    (hkept : ∀ n holder, t.currentQueuedControllerPacket n = some holder
      → s.currentQueuedControllerPacket n = some holder
        ∧ (s.IsPad n holder → holder ∈ s.mergeable
          → t.holders holder = s.holders holder ∧ holder ∈ t.mergeable))
    : t.Latched v := by
  intro n holder hcurrent
  obtain ⟨hbefore, hstays⟩ := hkept n holder hcurrent
  obtain ⟨hmajor, hpad, hplace⟩ := h n holder hbefore
  obtain ⟨hholder, hplace'⟩ := hstays hpad hplace
  exact ⟨hmajor, hpad.of_eq hholder, hplace'⟩

/- A step of a thread that only touches a holder of its own. -/
theorem Latched.of_same
    (hcurrent : t.currentQueuedControllerPacket = s.currentQueuedControllerPacket)
    (hholders : ∀ holder, holder ∈ s.mergeable → t.holders holder = s.holders holder)
    (hmergeable : ∀ holder, holder ∈ s.mergeable → holder ∈ t.mergeable)
    : t.Latched v := by
  apply h.of_kept
  intro n holder hn
  rw [hcurrent] at hn
  exact ⟨hn, fun _ hplace => ⟨hholders holder hplace, hmergeable holder hplace⟩⟩

theorem latched_call (c : Call) (hidle : s.caller = .idle) : (s.call v c).Latched v := by
  unfold call
  split
  . split
    . exact h
    . refine h.of_same rfl (fun _ _ => rfl) ?_
      intro holder hplace
      simpa [mergeable, hidle, Caller.offeredController] using hplace
  . exact h

/- A call that is not at its packet yet has nothing to offer. -/
theorem Latched.of_caller (hcaller : s.caller.offeredController = none)
    (hcurrent : t.currentQueuedControllerPacket = s.currentQueuedControllerPacket)
    (hholders : t.holders = s.holders) (hsender : t.sender = s.sender)
    (hqueue : t.packetQueue.items = s.packetQueue.items)
    : t.Latched v := by
  refine h.of_same hcurrent (fun holder _ => by rw [hholders]) ?_
  intro holder hplace
  unfold mergeable
  rw [hsender, hqueue]
  exact List.mem_append_left _ (waiting_of_none hcaller hplace)

theorem latched_enter {r : Request} (hcaller : s.caller = .entering r)
    (hstep : s.enter v r = some t)
    : t.Latched v := by
  have hnone : s.caller.offeredController = none := by
    rw [hcaller]
    rfl
  unfold enter at hstep
  cases r with
  | relative deltaX deltaY =>
    rw [← Option.some.inj hstep]
    unfold enterRelative
    simp only
    split
    . exact h.of_caller hnone rfl rfl rfl rfl
    . exact h.of_caller hnone rfl rfl rfl rfl
  | absolute x y width height =>
    rw [← Option.some.inj hstep]
    unfold enterAbsolute
    simp only
    split
    . exact h.of_caller hnone rfl rfl rfl rfl
    . exact h.of_caller hnone rfl rfl rfl rfl
  | controller c =>
    simp only [enterController] at hstep
    split at hstep
    . rw [← Option.some.inj hstep]
      exact h.of_caller hnone rfl rfl rfl rfl
    . next holder hcurrent =>
      split at hstep
      . next old hold =>
        split at hstep
        . rw [← Option.some.inj hstep]
          obtain ⟨hmajor, ⟨d, hd, hnumber⟩, _⟩ := h c.controllerNumber holder hcurrent
          intro n other hn
          obtain ⟨_, hpad, hplace⟩ := h n other hn
          refine ⟨hmajor, ?_, ?_⟩
          . cases Decidable.em (other = holder) with
            | inl heq =>
              -- the holder has the state of one controller, before and after
              obtain ⟨e, he, hother⟩ := hpad
              rw [heq, hd, Packet.multiController.injEq] at he
              refine ⟨c, ?_, ?_⟩
              . simp [write, heq, controllerHolder_packet hmajor]
              . rw [← hnumber, he, hother]
            | inr hne => exact hpad.of_eq (by simp [write, hne])
          . simpa [mergeable, write, hcaller, Caller.offeredController] using hplace
        . rw [← Option.some.inj hstep]
          exact h.of_caller hnone rfl rfl rfl rfl
      . contradiction
  | packet p =>
    rw [← Option.some.inj hstep]
    exact h.of_caller hnone rfl rfl rfl rfl
  | scroll scrollAmount =>
    rw [← Option.some.inj hstep]
    unfold enterScroll
    simp only
    obtain ⟨c, hloop, _⟩ := scrollLoop_eq { s with batchedScrollDelta := _ } scrollAmount
    rw [hloop]
    exact h.of_caller hnone rfl rfl rfl rfl

theorem latched_allocate {r : Request} (howned : s.Owned) (malloc : Bool)
    (hcaller : s.caller = .allocating r)
    : (s.allocate r malloc).Latched v := by
  have hnone : s.caller.offeredController = none := by
    rw [hcaller]
    rfl
  unfold allocate
  cases halloc : s.allocatePacketHolder malloc with
  | mk result u =>
    cases result with
    | none =>
      rw [allocatePacketHolder_eq_none halloc]
      exact h.of_caller hnone rfl rfl rfl rfl
    | some holder =>
      have hapart := howned.allocated_apart halloc
      rw [List.mem_append, not_or] at hapart
      obtain ⟨list, n, hu, _⟩ := allocatePacketHolder_eq_some halloc
      rw [hu]
      simp only
      split
      . exact h.of_caller hnone rfl rfl rfl rfl
      . refine h.of_same rfl ?_ ?_
        . intro other hplace
          simp [write, mergeable_apart hplace hapart.left]
        . intro other hplace
          have hwaiting := waiting_of_none hnone hplace
          exact List.mem_append_left _ hwaiting

theorem latched_writeController {c : MultiController} {holder : Nat} (howned : s.Owned)
    (hcaller : s.caller = .writing c holder)
    : (s.writeController v c holder).Latched v := by
  have hapart : holder ∉ s.sender.holder ++ s.packetQueue.items :=
    howned.caller_apart (by rw [hcaller]; simp [Caller.holder])
  have hnone : s.caller.offeredController = none := by
    rw [hcaller]
    rfl
  have hne : ∀ other, other ∈ s.mergeable → other ≠ holder := by
    intro other hplace heq
    apply hapart
    rw [← heq]
    exact pending_subset (waiting_pending (waiting_of_none hnone hplace))
  have hplaced : ∀ other, other ∈ s.mergeable
      → other ∈ s.sender.taken ++ s.packetQueue.items ++ [holder] := by
    intro other hplace
    exact List.mem_append_left _ (waiting_of_none hnone hplace)
  unfold writeController
  simp only
  split
  . refine h.of_same rfl ?_ ?_
    . intro other hplace
      simp [write, hne other hplace]
    . intro other hplace
      exact hplaced other hplace
  . next hmajor =>
    intro n other hn
    simp only [Function.update_apply] at hn
    split at hn
    . next hnumber =>
      rw [← Option.some.inj hn]
      refine ⟨hmajor, ⟨c, ?_, hnumber.symm⟩, ?_⟩
      . simp [write, controllerHolder_packet hmajor]
      . simp [mergeable, Caller.offeredController]
    . obtain ⟨_, hpad, hplace⟩ := h n other hn
      refine ⟨hmajor, hpad.of_eq ?_, hplaced other hplace⟩
      simp [write, hne other hplace]

theorem latched_offer {r : Request} {holder : Nat} (hcaller : s.caller = .offering r holder)
    (hroom : ∀ c, r = .controller c → v.major ≠ 3
      → ∃ queue, s.packetQueue.lbqOfferQueueItem holder = .ok queue)
    : (s.offer r holder).Latched v := by
  unfold offer
  cases hoffer : s.packetQueue.lbqOfferQueueItem holder with
  | error code =>
    apply h.of_kept
    intro n other hn
    refine ⟨hn, fun _ hplace => ⟨rfl, ?_⟩⟩
    have hmajor := (h n other hn).left
    have hnone : s.caller.offeredController = none := by
      rw [hcaller]
      cases r with
      | controller c =>
        obtain ⟨queue, hqueue⟩ := hroom c rfl hmajor
        rw [hoffer] at hqueue
        contradiction
      | _ => rfl
    have hwaiting := waiting_of_none hnone hplace
    exact List.mem_append_left _ hwaiting
  | ok queue =>
    have hqueue := (lbqOfferQueueItem_eq_ok hoffer).right.right.right
    refine h.of_same rfl (fun _ _ => rfl) ?_
    intro other hplace
    unfold mergeable at hplace ⊢
    rw [hcaller] at hplace
    simp only [hqueue, List.mem_append] at hplace ⊢
    rcases hplace with (htaken | hitems) | hoffered
    . exact Or.inl (Or.inl htaken)
    . exact Or.inl (Or.inr (Or.inl hitems))
    . cases r with
      | controller c => exact Or.inl (Or.inr (Or.inr hoffered))
      | _ => contradiction

theorem latched_accept {r : Request} (hcaller : s.caller = .accepted r)
    : (s.accept r).Latched v := by
  have hnone : s.caller.offeredController = none := by
    rw [hcaller]
    rfl
  unfold accept
  cases r with
  | scroll scrollAmount =>
    simp only
    obtain ⟨c, hloop, _⟩ := scrollLoop_eq { s with batchedScrollDelta := _ } scrollAmount
    rw [hloop]
    exact h.of_caller hnone rfl rfl rfl rfl
  | _ => exact h.of_caller hnone rfl rfl rfl rfl

theorem latched_callerStep {malloc : Bool} (howned : s.Owned)
    (hadmitted : Admitted v s (.caller malloc)) (hstep : s.callerStep v malloc = some t)
    : t.Latched v := by
  unfold callerStep at hstep
  cases hcaller : s.caller with
  | idle => simp [hcaller] at hstep
  | entering r =>
    simp only [hcaller] at hstep
    exact latched_enter h hcaller hstep
  | allocating r =>
    simp only [hcaller, Option.some.injEq] at hstep
    rw [← hstep]
    exact latched_allocate h howned malloc hcaller
  | writing c holder =>
    simp only [hcaller, Option.some.injEq] at hstep
    rw [← hstep]
    exact latched_writeController h howned hcaller
  | offering r holder =>
    simp only [hcaller, Option.some.injEq] at hstep
    rw [← hstep]
    apply latched_offer h hcaller
    intro c hc hmajor
    have hroom := (hadmitted holder (by rw [hcaller, hc]; rfl)).resolve_left hmajor
    cases hoffer : s.packetQueue.lbqOfferQueueItem holder with
    | ok queue => exact ⟨queue, rfl⟩
    | error code =>
      rw [hoffer] at hroom
      contradiction
  | accepted r =>
    simp only [hcaller, Option.some.injEq] at hstep
    rw [← hstep]
    exact latched_accept h hcaller
  | refused r holder =>
    simp only [hcaller, Option.some.injEq] at hstep
    obtain ⟨list, hfree, _⟩ := freePacketHolder_eq s holder
    rw [← hstep, hfree]
    exact h.of_caller (by rw [hcaller]; rfl) rfl rfl rfl rfl

/- A step of the send thread that only touches the holder that it took, which is not current then. -/
theorem Latched.of_taken {holder : Nat} (hsender : s.sender = .took holder)
    (hqueue : t.packetQueue = s.packetQueue) (hcaller : t.caller = s.caller)
    (hholders : ∀ other, other ≠ holder → t.holders other = s.holders other)
    (hcurrent : ∀ n other, t.currentQueuedControllerPacket n = some other
      → s.currentQueuedControllerPacket n = some other ∧ (s.IsPad n other → other ≠ holder))
    : t.Latched v := by
  apply h.of_kept
  intro n other hn
  obtain ⟨hbefore, hne⟩ := hcurrent n other hn
  refine ⟨hbefore, ?_⟩
  intro hpad hplace
  refine ⟨hholders other (hne hpad), ?_⟩
  unfold mergeable at hplace ⊢
  rw [hsender] at hplace
  simp only [hqueue, hcaller, Sender.taken, List.mem_append, List.mem_singleton] at hplace ⊢
  rcases hplace with (heq | hitems) | hoffered
  . exact absurd heq (hne hpad)
  . exact Or.inl (Or.inr hitems)
  . exact Or.inr hoffered

/- What the send thread is about to send is not current any more. -/
theorem latched_latch {holder : Nat} {c : MultiController} (hsender : s.sender = .took holder)
    (hpacket : (s.holders holder).packet = .multiController c)
    : (s.latch holder c.controllerNumber).Latched v := by
  have hnumber : ∀ n, s.IsPad n holder → c.controllerNumber = n := by
    intro n hpad
    obtain ⟨d, hd, hnumber⟩ := hpad
    rw [hpacket, Packet.multiController.injEq] at hd
    rw [hd, hnumber]
  refine h.of_taken hsender rfl rfl (fun _ _ => rfl) ?_
  intro n other hn
  unfold latch at hn
  simp only at hn
  split at hn
  . rw [Function.update_apply] at hn
    split at hn
    . contradiction
    . next hne =>
      refine ⟨hn, ?_⟩
      intro hpad heq
      rw [heq] at hpad
      exact hne (hnumber n hpad).symm
  . next hother =>
    refine ⟨hn, ?_⟩
    intro hpad heq
    rw [heq] at hpad hn
    rw [hnumber n hpad] at hother
    exact hother hn

theorem latched_process {holder : Nat} (hsender : s.sender = .took holder)
    (hstep : s.process holder = some t)
    : t.Latched v := by
  have hnotpad : ∀ n other, (∀ c, (s.holders holder).packet ≠ .multiController c)
      → s.IsPad n other → other ≠ holder := by
    intro n other hpacket hpad heq
    obtain ⟨c, hc, _⟩ := hpad
    rw [heq] at hc
    exact hpacket c hc
  unfold process at hstep
  split at hstep
  . next c hpacket =>
    split at hstep
    . contradiction
    . rw [← Option.some.inj hstep]
      exact latched_latch h hsender hpacket
  . next hpacket =>
    split at hstep
    . contradiction
    . rw [← Option.some.inj hstep]
      have hkept : ∀ n other, s.currentQueuedControllerPacket n = some other
          → s.currentQueuedControllerPacket n = some other ∧ (s.IsPad n other → other ≠ holder) := by
        intro n other hn
        exact ⟨hn, hnotpad n other (by simp [hpacket])⟩
      unfold relativeRound
      simp only
      split
      . refine h.of_taken hsender rfl rfl ?_ hkept
        intro other hne
        simp [write, hne]
      . exact h.of_taken hsender rfl rfl (fun _ _ => rfl) hkept
  . next hpacket =>
    split at hstep
    . contradiction
    . rw [← Option.some.inj hstep]
      refine h.of_taken hsender rfl rfl ?_ ?_
      . intro other hne
        simp [fillAbsolute, write, hne]
      . intro n other hn
        exact ⟨hn, hnotpad n other (by simp [hpacket])⟩
  . next hpad hrelative habsolute =>
    rw [← Option.some.inj hstep]
    refine h.of_taken hsender rfl rfl (fun _ _ => rfl) ?_
    intro n other hn
    exact ⟨hn, hnotpad n other hpad⟩

theorem latched_senderStep {ok : Bool} (hstep : s.senderStep ok = some t)
    : t.Latched v := by
  have hgo : ∀ u : State, u.currentQueuedControllerPacket = s.currentQueuedControllerPacket
      → u.holders = s.holders → u.caller = s.caller
      → (∀ holder, holder ∈ s.sender.taken ++ s.packetQueue.items
        → holder ∈ u.sender.taken ++ u.packetQueue.items)
      → u.Latched v := by
    intro u hcurrent hholders hcaller hwaiting
    refine h.of_same hcurrent (fun holder _ => by rw [hholders]) ?_
    intro holder hplace
    unfold mergeable at hplace ⊢
    rw [List.mem_append] at hplace ⊢
    rw [hcaller]
    exact hplace.imp_left (hwaiting holder)
  unfold senderStep at hstep
  cases hsender : s.sender with
  | waiting =>
    simp only [hsender] at hstep
    cases hwait : s.packetQueue.lbqWaitForQueueElement with
    | none => simp [hwait] at hstep
    | some result =>
      rcases result with ⟨answer, queue⟩
      cases lbqWaitForQueueElement_eq_some hwait with
      | inl htaken =>
        obtain ⟨holder, hanswer, _, hitems, _⟩ := htaken
        simp only [hwait, hanswer, Option.some.injEq] at hstep
        rw [← hstep]
        refine hgo _ rfl rfl rfl ?_
        intro other hother
        simpa [hsender, Sender.taken, hitems] using hother
      | inr hnothing =>
        obtain ⟨⟨code, hanswer⟩, hitems⟩ := hnothing
        simp only [hwait, hanswer, Option.some.injEq] at hstep
        rw [← hstep]
        refine hgo _ rfl rfl rfl ?_
        intro other hother
        simpa [hsender, Sender.taken, hitems] using hother
  | took holder =>
    simp only [hsender] at hstep
    exact latched_process h hsender hstep
  | sendingMove holder =>
    simp only [hsender, Option.some.injEq] at hstep
    have hwaiting : ∀ u : State, u.packetQueue = s.packetQueue → ∀ other,
        other ∈ s.sender.taken ++ s.packetQueue.items
          → other ∈ u.sender.taken ++ u.packetQueue.items := by
      intro u hqueue other hother
      rw [hsender] at hother
      rw [hqueue]
      exact List.mem_append_right _ (by simpa [Sender.taken] using hother)
    rw [← hstep]
    unfold send
    split
    . exact hgo _ rfl rfl rfl (hwaiting _ rfl)
    . exact hgo _ rfl rfl rfl (hwaiting _ rfl)
  | sending holder =>
    simp only [hsender, Option.some.injEq] at hstep
    rw [← hstep]
    unfold send
    split
    . exact hgo _ rfl rfl rfl (fun other hother => by simpa [hsender, Sender.taken] using hother)
    . exact hgo _ rfl rfl rfl (fun other hother => by simpa [hsender, Sender.taken] using hother)
  | freeing holder exits =>
    simp only [hsender, Option.some.injEq] at hstep
    obtain ⟨list, hfree, _⟩ := freePacketHolder_eq s holder
    rw [← hstep, hfree]
    refine hgo _ rfl rfl rfl ?_
    intro other hother
    cases exits <;> simpa [hsender, Sender.taken] using hother
  | exited => simp [hsender] at hstep

theorem latched_controlStep {malloc : Bool} (howned : s.Owned)
    (hstep : s.controlStep v malloc = some t)
    : t.Latched v := by
  have hgo : ∀ u : State, u.currentQueuedControllerPacket = s.currentQueuedControllerPacket
      → (∀ holder, holder ∈ s.mergeable → u.holders holder = s.holders holder)
      → u.caller = s.caller → u.sender = s.sender
      → (∀ holder, holder ∈ s.packetQueue.items → holder ∈ u.packetQueue.items)
      → u.Latched v := by
    intro u hcurrent hholders hcaller hsender hqueue
    refine h.of_same hcurrent hholders ?_
    intro holder hplace
    unfold mergeable at hplace ⊢
    simp only [hcaller, hsender, List.mem_append] at hplace ⊢
    exact hplace.imp_left (Or.imp_right (hqueue holder))
  have hsame : ∀ holder, holder ∈ s.packetQueue.items → holder ∈ s.packetQueue.items :=
    fun _ hholder => hholder
  unfold controlStep at hstep
  cases hcontrol : s.control with
  | enabling =>
    simp only [hcontrol, Option.some.injEq] at hstep
    rw [← hstep]
    unfold enableHaptics
    cases halloc : s.allocatePacketHolder malloc with
    | mk result u =>
      cases result with
      | none =>
        rw [allocatePacketHolder_eq_none halloc]
        exact hgo _ rfl (fun _ _ => rfl) rfl rfl hsame
      | some holder =>
        have hapart := howned.allocated_apart halloc
        rw [List.mem_append, not_or] at hapart
        obtain ⟨list, n, hu, _⟩ := allocatePacketHolder_eq_some halloc
        rw [hu]
        refine hgo _ rfl ?_ rfl rfl hsame
        intro other hplace
        simp [write, mergeable_apart hplace hapart.left]
  | offering holder =>
    simp only [hcontrol, Option.some.injEq] at hstep
    rw [← hstep]
    unfold offerHaptics
    cases hoffer : s.packetQueue.lbqOfferQueueItem holder with
    | error code => exact hgo _ rfl (fun _ _ => rfl) rfl rfl hsame
    | ok queue =>
      have hitems := (lbqOfferQueueItem_eq_ok hoffer).right.right.right
      refine hgo _ rfl (fun _ _ => rfl) rfl rfl ?_
      intro other hother
      simp [hitems, hother]
  | refused holder =>
    simp only [hcontrol, Option.some.injEq] at hstep
    obtain ⟨list, hfree, _⟩ := freePacketHolder_eq s holder
    rw [← hstep, hfree]
    exact hgo _ rfl (fun _ _ => rfl) rfl rfl hsame
  | joining =>
    simp only [hcontrol] at hstep
    split at hstep
    . rw [← Option.some.inj hstep]
      exact hgo _ rfl (fun _ _ => rfl) rfl rfl hsame
    . contradiction
  | stopped => simp [hcontrol] at hstep
  | _ =>
    simp only [hcontrol, Option.some.injEq] at hstep
    rw [← hstep]
    exact hgo _ rfl (fun _ _ => rfl) rfl rfl hsame

/- So a call always goes on. -/
theorem callerStep_isSome (malloc : Bool) (hcaller : s.caller ≠ .idle)
    : (s.callerStep v malloc).isSome = true := by
  unfold callerStep
  cases hc : s.caller with
  | idle => exact absurd hc hcaller
  | entering r =>
    simp only
    cases r with
    | controller c =>
      unfold enter enterController
      cases hcurrent : s.currentQueuedControllerPacket c.controllerNumber with
      | none => simp [hcurrent]
      | some holder =>
        obtain ⟨_, ⟨d, hd, _⟩, _⟩ := h c.controllerNumber holder hcurrent
        simp only [hcurrent, hd]
        split <;> rfl
    | _ => rfl
  | _ => rfl

end

end

end State

theorem latched_step {v : AppVersionQuad} {s t : State} {e : Event} (h : s.Latched v)
    (howned : s.Owned) (hadmitted : Admitted v s e) (hstep : step v s e = some t)
    : t.Latched v := by
  unfold step at hstep
  cases e with
  | call c =>
    simp only at hstep
    split at hstep
    . next hidle =>
      rw [← Option.some.inj hstep]
      exact State.latched_call h c hidle
    . contradiction
  | caller malloc => exact State.latched_callerStep h howned hadmitted hstep
  | sender ok => exact State.latched_senderStep h hstep
  | control malloc => exact State.latched_controlStep h howned hstep

def callOf (c : Call) (steps : Nat) : List Event :=
  .call c :: List.replicate steps (.caller true)

def offeredEvents : List Event :=
  List.replicate 3 (.control true) ++ [.sender true]
    ++ callOf (liSendKeyboardEvent 0x41 .down 0) 4 ++ callOf (.mouseButton .press 1) 2

section

variable {v : AppVersionQuad} {holders : Nat → PacketHolder} {events : List Event} {s : State}
  (hmeet : (machine v holders).StepsMeet (Admitted v) (machine v holders).init events)
  (hrun : (machine v holders).run events = some s)

include hmeet hrun

theorem latched_run : s.Owned ∧ s.Latched v := by
  apply (machine v holders).runFrom_invariant_of_stepsMeet (Admitted v)
    (fun s => s.Owned ∧ s.Latched v) _ _ _ events _ hmeet hrun
  . intro s e t h hadmitted hstep
    exact ⟨State.owned_step h.left hstep, latched_step h.right h.left hadmitted hstep⟩
  . refine ⟨State.owned_initializeInputStream holders, ?_⟩
    intro n holder hcurrent
    contradiction

end

end Stream
end Input

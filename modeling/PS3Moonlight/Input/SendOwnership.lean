import PS3Moonlight.Input.SendThread

/-!
This module contains who owns which packet holder: the free list, the queue, or one of the three
threads. No holder is in two places, whatever the queue refuses and whichever allocations fail.
-/

namespace Input
namespace Stream

open Connection
open Threads
open LinkedBlockingQueue

def Caller.holder (c : Caller) : List Nat :=
  match c with
  | .writing _ holder => [holder]
  | .offering _ holder => [holder]
  | .refused _ holder => [holder]
  | _ => []

def Sender.holder (s : Sender) : List Nat :=
  match s with
  | .took holder => [holder]
  | .sendingMove holder => [holder]
  | .sending holder => [holder]
  | .freeing holder _ => [holder]
  | _ => []

def Control.holder (c : Control) : List Nat :=
  match c with
  | .offering holder => [holder]
  | .refused holder => [holder]
  | _ => []

namespace State

def owned (s : State) : List Nat :=
  s.packetHolderFreeList.items ++ s.packetQueue.items ++ s.sender.holder ++ s.caller.holder
    ++ s.control.holder

/- Every holder is in one place at most, and those that are not allocated yet are nowhere. -/
def Owned (s : State) : Prop :=
  ∀ holder, s.owned.count holder ≤ if holder < s.allocated then 1 else 0

theorem count_owned (s : State) (holder : Nat)
    : s.owned.count holder
        =
      s.packetHolderFreeList.items.count holder + s.packetQueue.items.count holder
        + s.sender.holder.count holder + s.caller.holder.count holder
        + s.control.holder.count holder := by
  simp only [owned, List.count_append]

theorem Owned.of_count_le {s t : State} (h : s.Owned) (hallocated : t.allocated = s.allocated)
    (hcount : ∀ holder, t.owned.count holder ≤ s.owned.count holder)
    : t.Owned := by
  intro holder
  rw [hallocated]
  exact Nat.le_trans (hcount holder) (h holder)

/- A holder comes from the free list, or is a new one. -/
theorem allocatePacketHolder_eq_some {s t : State} {malloc : Bool} {holder : Nat}
    (h : s.allocatePacketHolder malloc = ⟨some holder, t⟩)
    : ∃ list n, t = { s with packetHolderFreeList := list, allocated := n }
        ∧ (s.packetHolderFreeList.items = holder :: list.items ∧ n = s.allocated
            ∨
          list.items = s.packetHolderFreeList.items ∧ holder = s.allocated
            ∧ n = s.allocated + 1) := by
  unfold allocatePacketHolder at h
  cases hpoll : s.packetHolderFreeList.lbqPollQueueElement with
  | ok result =>
    obtain ⟨_, items, hitems, hlist⟩ := lbqPollQueueElement_eq_ok hpoll
    simp only [hpoll, Prod.mk.injEq, Option.some.injEq] at h
    refine ⟨result.snd, s.allocated, h.right.symm, Or.inl ⟨?_, rfl⟩⟩
    rw [hitems, hlist, h.left]
  | error code =>
    cases code with
    | noElement =>
      simp only [hpoll] at h
      split at h
      . simp only [Prod.mk.injEq, Option.some.injEq] at h
        exact ⟨_, _, h.right.symm, Or.inr ⟨rfl, h.left.symm, rfl⟩⟩
      . simp at h
    | _ => simp [hpoll] at h

theorem allocatePacketHolder_eq_none {s t : State} {malloc : Bool}
    (h : s.allocatePacketHolder malloc = ⟨none, t⟩)
    : t = s := by
  unfold allocatePacketHolder at h
  cases hpoll : s.packetHolderFreeList.lbqPollQueueElement with
  | ok result => simp [hpoll] at h
  | error code =>
    cases code with
    | noElement =>
      simp only [hpoll] at h
      split at h
      . simp at h
      . simp only [Prod.mk.injEq] at h
        exact h.right.symm
    | _ =>
      simp only [hpoll, Prod.mk.injEq] at h
      exact h.right.symm

theorem freePacketHolder_eq (s : State) (holder : Nat)
    : ∃ list, s.freePacketHolder holder = { s with packetHolderFreeList := list }
        ∧ (list.items = s.packetHolderFreeList.items ++ [holder]
            ∨ list.items = s.packetHolderFreeList.items) := by
  unfold freePacketHolder
  cases hoffer : s.packetHolderFreeList.lbqOfferQueueItem holder with
  | ok list =>
    have hlist := (lbqOfferQueueItem_eq_ok hoffer).right.right.right
    exact ⟨list, rfl, Or.inl (by rw [hlist])⟩
  | error code => exact ⟨s.packetHolderFreeList, rfl, Or.inr rfl⟩

/- Handing the allocated holder to a thread that held none keeps the owners apart. -/
theorem owned_allocated {s t u : State} {malloc : Bool} {holder : Nat} (h : s.Owned)
    (halloc : s.allocatePacketHolder malloc = ⟨some holder, t⟩)
    (hallocated : u.allocated = t.allocated)
    (hcount : ∀ other, u.owned.count other = t.owned.count other + [holder].count other)
    : u.Owned := by
  obtain ⟨list, n, ht, hcase⟩ := allocatePacketHolder_eq_some halloc
  intro other
  have hother := h other
  rw [hallocated, hcount other, count_owned t other, ht]
  rw [count_owned s other] at hother
  rcases hcase with ⟨hitems, hn⟩ | ⟨hitems, hholder, hn⟩
  . rw [hitems, List.count_cons] at hother
    simp only [hn, List.count_singleton]
    omega
  . simp only [hitems, hn, hholder, List.count_singleton, beq_iff_eq]
    split at hother <;> split <;> split <;> omega

/- What a thread gives back, it no longer holds. -/
theorem owned_freed {s t : State} (h : s.Owned) (holder : Nat)
    (hallocated : t.allocated = s.allocated)
    (hcount : ∀ other, t.owned.count other + [holder].count other
      ≤ (s.freePacketHolder holder).owned.count other)
    : t.Owned := by
  obtain ⟨list, hfree, hitems⟩ := freePacketHolder_eq s holder
  apply h.of_count_le hallocated
  intro other
  have hother := hcount other
  rw [hfree] at hother
  simp only [count_owned] at hother ⊢
  rcases hitems with hitems | hitems
  . rw [hitems, List.count_append] at hother
    omega
  . rw [hitems] at hother
    omega

theorem scrollLoop_eq (s : State) (scrollAmount : Int16)
    : ∃ c, s.scrollLoop scrollAmount = { s with caller := c }
        ∧ (LI_WHEEL_DELTA ≤ s.batchedScrollDelta.toInt.natAbs ∧ c = .allocating (.scroll scrollAmount)
            ∨
          s.batchedScrollDelta.toInt.natAbs < LI_WHEEL_DELTA ∧ c = .idle) := by
  unfold scrollLoop
  split
  . next h => exact ⟨_, rfl, Or.inl ⟨h, rfl⟩⟩
  . next h => exact ⟨_, rfl, Or.inr ⟨by omega, rfl⟩⟩

theorem owned_initializeInputStream (holders : Nat → PacketHolder)
    : (initializeInputStream holders).Owned := by
  intro holder
  simp [count_owned, initializeInputStream, lbqInitialize, Sender.holder, Caller.holder,
    Control.holder]

section

variable {s t : State} (h : s.Owned)

include h

theorem owned_call (v : AppVersionQuad) (c : Call) (hidle : s.caller = .idle)
    : (s.call v c).Owned := by
  unfold call
  split
  . split
    . exact h
    . refine h.of_count_le (by rfl) ?_
      intro holder
      simp [count_owned, hidle, Caller.holder]
  . exact h

theorem owned_enter {v : AppVersionQuad} {r : Request} (hcaller : s.caller = .entering r)
    (hstep : s.enter v r = some t)
    : t.Owned := by
  have hsame : ∀ u : State, u.allocated = s.allocated → u.packetHolderFreeList = s.packetHolderFreeList
      → u.packetQueue = s.packetQueue → u.sender = s.sender → u.control = s.control
      → u.caller.holder = [] → u.Owned := by
    intro u hallocated hlist hqueue hsender hcontrol hholder
    apply h.of_count_le hallocated
    intro holder
    simp [count_owned, hlist, hqueue, hsender, hcontrol, hholder]
  unfold enter at hstep
  cases r with
  | relative deltaX deltaY =>
    rw [← Option.some.inj hstep]
    unfold enterRelative
    simp only
    split <;> apply hsame <;> rfl
  | absolute x y width height =>
    rw [← Option.some.inj hstep]
    unfold enterAbsolute
    simp only
    split <;> apply hsame <;> rfl
  | controller c =>
    simp only [enterController] at hstep
    split at hstep
    . rw [← Option.some.inj hstep]
      apply hsame <;> rfl
    . split at hstep
      . split at hstep
        . rw [← Option.some.inj hstep]
          apply hsame <;> rfl
        . rw [← Option.some.inj hstep]
          apply hsame <;> rfl
      . contradiction
  | packet holder =>
    rw [← Option.some.inj hstep]
    apply hsame <;> rfl
  | scroll scrollAmount =>
    rw [← Option.some.inj hstep]
    unfold enterScroll
    simp only
    obtain ⟨c, hloop, hcase⟩ := scrollLoop_eq { s with batchedScrollDelta := _ } scrollAmount
    rw [hloop]
    apply hsame <;> first | rfl | (rcases hcase with hcase | hcase <;> simp [hcase.right, Caller.holder])

theorem owned_allocate (r : Request) (malloc : Bool) (hcaller : s.caller = .allocating r)
    : (s.allocate r malloc).Owned := by
  unfold allocate
  cases halloc : s.allocatePacketHolder malloc with
  | mk result u =>
    cases result with
    | none =>
      rw [allocatePacketHolder_eq_none halloc]
      refine h.of_count_le (by rfl) ?_
      intro holder
      simp [count_owned, Caller.holder]
    | some holder =>
      obtain ⟨list, n, hu, _⟩ := allocatePacketHolder_eq_some halloc
      have hheld : u.caller.holder = [] := by
        rw [hu]
        simp [hcaller, Caller.holder]
      simp only
      split
      . refine owned_allocated h halloc (by rfl) ?_
        intro other
        simp only [count_owned, hheld, List.count_nil]
        simp only [Caller.holder]
        omega
      . refine owned_allocated h halloc (by rfl) ?_
        intro other
        simp only [count_owned, hheld, List.count_nil, write]
        simp only [Caller.holder]
        omega

theorem owned_writeController (v : AppVersionQuad) (c : MultiController) (holder : Nat)
    (hcaller : s.caller = .writing c holder)
    : (s.writeController v c holder).Owned := by
  have hcount : ∀ u : State, u.allocated = s.allocated
      → u.packetHolderFreeList = s.packetHolderFreeList → u.packetQueue = s.packetQueue
      → u.sender = s.sender → u.control = s.control → u.caller.holder = [holder] → u.Owned := by
    intro u hallocated hlist hqueue hsender hcontrol hheld
    apply h.of_count_le hallocated
    intro other
    simp only [count_owned, hlist, hqueue, hsender, hcontrol, hheld, hcaller]
    simp [Caller.holder]
  unfold writeController
  simp only
  split <;> apply hcount <;> rfl

theorem owned_offer (r : Request) (holder : Nat) (hcaller : s.caller = .offering r holder)
    : (s.offer r holder).Owned := by
  unfold offer
  cases hoffer : s.packetQueue.lbqOfferQueueItem holder with
  | error code =>
    refine h.of_count_le (by rfl) ?_
    intro other
    simp [count_owned, hcaller, Caller.holder]
  | ok queue =>
    have hqueue := (lbqOfferQueueItem_eq_ok hoffer).right.right.right
    refine h.of_count_le (by rfl) ?_
    intro other
    simp only [count_owned, hcaller, Caller.holder, hqueue, List.count_append, List.count_nil]
    omega

theorem owned_accept (r : Request) (hcaller : s.caller = .accepted r) : (s.accept r).Owned := by
  have hcount : ∀ u : State, u.allocated = s.allocated
      → u.packetHolderFreeList = s.packetHolderFreeList → u.packetQueue = s.packetQueue
      → u.sender = s.sender → u.control = s.control → u.caller.holder = [] → u.Owned := by
    intro u hallocated hlist hqueue hsender hcontrol hheld
    apply h.of_count_le hallocated
    intro other
    simp [count_owned, hlist, hqueue, hsender, hcontrol, hheld]
  unfold accept
  cases r with
  | scroll scrollAmount =>
    simp only
    obtain ⟨c, hloop, hcase⟩ := scrollLoop_eq { s with batchedScrollDelta := _ } scrollAmount
    rw [hloop]
    apply hcount <;> first | rfl | (rcases hcase with hcase | hcase <;> simp [hcase.right, Caller.holder])
  | _ => apply hcount <;> rfl

theorem owned_callerStep {v : AppVersionQuad} {malloc : Bool}
    (hstep : s.callerStep v malloc = some t)
    : t.Owned := by
  unfold callerStep at hstep
  cases hcaller : s.caller with
  | idle => simp [hcaller] at hstep
  | entering r =>
    simp only [hcaller] at hstep
    exact owned_enter h hcaller hstep
  | allocating r =>
    simp only [hcaller, Option.some.injEq] at hstep
    rw [← hstep]
    exact owned_allocate h r malloc hcaller
  | writing c holder =>
    simp only [hcaller, Option.some.injEq] at hstep
    rw [← hstep]
    exact owned_writeController h v c holder hcaller
  | offering r holder =>
    simp only [hcaller, Option.some.injEq] at hstep
    rw [← hstep]
    exact owned_offer h r holder hcaller
  | accepted r =>
    simp only [hcaller, Option.some.injEq] at hstep
    rw [← hstep]
    exact owned_accept h r hcaller
  | refused r holder =>
    simp only [hcaller, Option.some.injEq] at hstep
    obtain ⟨list, hfree, _⟩ := freePacketHolder_eq s holder
    rw [← hstep]
    apply owned_freed h holder
    . rw [hfree]
    . intro other
      rw [hfree]
      simp only [count_owned, hcaller, Caller.holder, List.count_nil]
      omega

theorem owned_process {holder : Nat} (hsender : s.sender = .took holder)
    (hstep : s.process holder = some t)
    : t.Owned := by
  have hcount : ∀ u : State, u.allocated = s.allocated
      → u.packetHolderFreeList = s.packetHolderFreeList → u.packetQueue = s.packetQueue
      → u.caller = s.caller → u.control = s.control → u.sender.holder = [holder] → u.Owned := by
    intro u hallocated hlist hqueue hcaller hcontrol hheld
    apply h.of_count_le hallocated
    intro other
    simp only [count_owned, hlist, hqueue, hcaller, hcontrol, hheld, hsender]
    simp [Sender.holder]
  unfold process at hstep
  split at hstep
  . split at hstep
    . contradiction
    . rw [← Option.some.inj hstep]
      apply hcount <;> rfl
  . split at hstep
    . contradiction
    . rw [← Option.some.inj hstep]
      unfold relativeRound
      simp only
      split <;> apply hcount <;> rfl
  . split at hstep
    . contradiction
    . rw [← Option.some.inj hstep]
      apply hcount <;> rfl
  . rw [← Option.some.inj hstep]
    apply hcount <;> rfl

theorem owned_send {holder : Nat} {ok : Bool} {next : Sender} (hsender : s.sender.holder = [holder])
    (hnext : next.holder = [holder])
    : (s.send holder ok next).Owned := by
  apply h.of_count_le
  . unfold send
    split <;> rfl
  . intro other
    unfold send
    split
    . simp [count_owned, hsender, hnext]
    . simp only [count_owned, hsender]
      simp [Sender.holder]

theorem owned_senderStep {ok : Bool} (hstep : s.senderStep ok = some t) : t.Owned := by
  unfold senderStep at hstep
  cases hsender : s.sender with
  | waiting =>
    simp only [hsender] at hstep
    cases hwait : s.packetQueue.lbqWaitForQueueElement with
    | none => simp [hwait] at hstep
    | some result =>
      rcases result with ⟨answer, queue⟩
      cases lbqWaitForQueueElement_eq_some hwait with
      | inl htaken =>
        obtain ⟨holder, hanswer, _, hitems, _⟩ := htaken
        simp only [hwait, hanswer, Option.some.injEq] at hstep
        rw [← hstep]
        refine h.of_count_le (by rfl) ?_
        intro other
        simp only [count_owned, hsender, Sender.holder, hitems, List.count_cons, List.count_nil]
        omega
      | inr hnothing =>
        obtain ⟨⟨code, hanswer⟩, hitems⟩ := hnothing
        simp only [hwait, hanswer, Option.some.injEq] at hstep
        rw [← hstep]
        refine h.of_count_le (by rfl) ?_
        intro other
        simp [count_owned, hsender, Sender.holder, hitems]
  | took holder =>
    simp only [hsender] at hstep
    exact owned_process h hsender hstep
  | sendingMove holder =>
    simp only [hsender, Option.some.injEq] at hstep
    rw [← hstep]
    apply owned_send h (by rw [hsender]; rfl) rfl
  | sending holder =>
    simp only [hsender, Option.some.injEq] at hstep
    rw [← hstep]
    apply owned_send h (by rw [hsender]; rfl) rfl
  | freeing holder exits =>
    simp only [hsender, Option.some.injEq] at hstep
    obtain ⟨list, hfree, _⟩ := freePacketHolder_eq s holder
    have hnext : (if exits then Sender.exited else Sender.waiting).holder = [] := by
      split <;> rfl
    rw [← hstep]
    apply owned_freed h holder
    . rw [hfree]
    . intro other
      rw [hfree]
      simp only [count_owned, hsender, hnext, List.count_nil]
      simp only [Sender.holder]
      omega
  | exited => simp [hsender] at hstep

theorem owned_controlStep {v : AppVersionQuad} {malloc : Bool}
    (hstep : s.controlStep v malloc = some t)
    : t.Owned := by
  have hcount : ∀ u : State, s.control.holder = [] → u.allocated = s.allocated
      → u.packetHolderFreeList.items = s.packetHolderFreeList.items
      → u.packetQueue.items = s.packetQueue.items
      → u.caller = s.caller → u.sender = s.sender → u.control.holder = [] → u.Owned := by
    intro u hheld hallocated hlist hqueue hcaller hsender hnext
    apply h.of_count_le hallocated
    intro other
    simp [count_owned, hlist, hqueue, hcaller, hsender, hheld, hnext]
  unfold controlStep at hstep
  cases hcontrol : s.control with
  | starting =>
    simp only [hcontrol, Option.some.injEq] at hstep
    rw [← hstep]
    apply hcount <;> first | rfl | (simp only [hcontrol]; rfl) | (simp only; split <;> rfl)
  | enabling =>
    simp only [hcontrol, Option.some.injEq] at hstep
    rw [← hstep]
    unfold enableHaptics
    cases halloc : s.allocatePacketHolder malloc with
    | mk result u =>
      cases result with
      | none =>
        rw [allocatePacketHolder_eq_none halloc]
        apply hcount <;> first | rfl | (rw [hcontrol]; rfl)
      | some holder =>
        obtain ⟨list, n, hu, _⟩ := allocatePacketHolder_eq_some halloc
        have hheld : u.control.holder = [] := by
          rw [hu]
          simp [hcontrol, Control.holder]
        refine owned_allocated h halloc (by rfl) ?_
        intro other
        simp only [count_owned, hheld, List.count_nil, write]
        simp only [Control.holder]
        omega
  | offering holder =>
    simp only [hcontrol, Option.some.injEq] at hstep
    rw [← hstep]
    unfold offerHaptics
    cases hoffer : s.packetQueue.lbqOfferQueueItem holder with
    | error code =>
      refine h.of_count_le (by rfl) ?_
      intro other
      simp [count_owned, hcontrol, Control.holder]
    | ok queue =>
      have hqueue := (lbqOfferQueueItem_eq_ok hoffer).right.right.right
      refine h.of_count_le (by rfl) ?_
      intro other
      simp only [count_owned, hcontrol, Control.holder, hqueue, List.count_append, List.count_nil]
      omega
  | refused holder =>
    simp only [hcontrol, Option.some.injEq] at hstep
    obtain ⟨list, hfree, _⟩ := freePacketHolder_eq s holder
    rw [← hstep]
    apply owned_freed h holder
    . rw [hfree]
    . intro other
      rw [hfree]
      simp only [count_owned, hcontrol, Control.holder, List.count_nil]
      omega
  | joining =>
    simp only [hcontrol] at hstep
    split at hstep
    . rw [← Option.some.inj hstep]
      apply hcount <;> first | rfl | (rw [hcontrol]; rfl)
    . contradiction
  | stopped => simp [hcontrol] at hstep
  | _ =>
    simp only [hcontrol, Option.some.injEq] at hstep
    rw [← hstep]
    apply hcount <;> first | rfl | (rw [hcontrol]; rfl)

end

theorem owned_step {v : AppVersionQuad} {s t : State} {e : Event} (h : s.Owned)
    (hstep : step v s e = some t)
    : t.Owned := by
  unfold step at hstep
  cases e with
  | call c =>
    simp only at hstep
    split at hstep
    . next hidle =>
      rw [← Option.some.inj hstep]
      exact owned_call h v c hidle
    . contradiction
  | caller malloc => exact owned_callerStep h hstep
  | sender ok => exact owned_senderStep h hstep
  | control malloc => exact owned_controlStep h hstep

end State

end Stream
end Input

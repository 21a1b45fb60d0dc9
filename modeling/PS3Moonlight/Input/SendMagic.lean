import PS3Moonlight.Input.SendOwnership

/-!
This module contains which member of the packet union the send thread reads. It goes by the magic in
the header alone, and generation 4 has one magic for two packets.
-/

namespace Input
namespace Stream

open Connection
open Threads
open LinkedBlockingQueue

def Caller.filled (c : Caller) : List Nat :=
  match c with
  | .offering _ holder => [holder]
  | _ => []

def Caller.packet (c : Caller) : Option PacketHolder :=
  match c with
  | .entering (.packet holder) => some holder
  | .allocating (.packet holder) => some holder
  | _ => none

def Control.filled (c : Control) : List Nat :=
  match c with
  | .offering holder => [holder]
  | _ => []

namespace State

/- The holders with a packet, which are on their way to the send thread or there already. -/
def filled (s : State) : List Nat :=
  s.packetQueue.items ++ s.sender.holder ++ s.caller.filled ++ s.control.filled

structure Tagged (v : AppVersionQuad) (s : State) : Prop where
  filled : ∀ holder, holder ∈ s.filled → (s.holders holder).packet.Fits v
  caller : ∀ p, s.caller.packet = some p → p.packet.Fits v
  control : s.control = .enabling → v.major ≥ 5

section

variable {v : AppVersionQuad} {s t : State} (h : s.Tagged v)

include h

/- A step may fill holders with packets that fit. -/
theorem Tagged.of_filled
    (hfilled : ∀ holder, holder ∈ t.filled → holder ∈ s.filled ∨ (t.holders holder).packet.Fits v)
    (hholders : ∀ holder, t.holders holder = s.holders holder ∨ (t.holders holder).packet.Fits v)
    (hcaller : ∀ p, t.caller.packet = some p → p.packet.Fits v)
    (hcontrol : t.control = .enabling → v.major ≥ 5)
    : t.Tagged v := by
  refine ⟨?_, hcaller, hcontrol⟩
  intro holder hholder
  cases hholders holder with
  | inl hsame =>
    cases hfilled holder hholder with
    | inl hbefore =>
      rw [hsame]
      exact h.filled holder hbefore
    | inr hfits => exact hfits
  | inr hfits => exact hfits

omit h in
theorem fits_update {holder : Nat} {p : PacketHolder} (hp : p.packet.Fits v) (other : Nat)
    : (s.write holder p).holders other = s.holders other
        ∨ ((s.write holder p).holders other).packet.Fits v := by
  unfold write
  cases Decidable.em (other = holder) with
  | inl heq =>
    right
    rw [heq]
    simpa using hp
  | inr hne =>
    left
    simp [hne]

omit h in
theorem fits_controllerHolder (v : AppVersionQuad) (c : MultiController)
    : (controllerHolder v c).packet.Fits v := by
  unfold controllerHolder
  split <;> trivial

omit h in
theorem fits_request {c : Call} {p : PacketHolder} (hrequest : c.request v = some (.packet p))
    : p.packet.Fits v := by
  have hbranch := branch_request hrequest
  cases hpacket : p.packet with
  | haptics enable =>
    cases c with
    | highResScroll scrollAmount =>
      unfold Call.request at hrequest
      simp only at hrequest
      split at hrequest
      . contradiction
      . split at hrequest
        . simp at hrequest
        . rw [Option.some.injEq, Request.packet.injEq] at hrequest
          rw [← hrequest] at hpacket
          contradiction
    | mouseButton action button =>
      rw [Call.request, Option.some.injEq, Request.packet.injEq] at hrequest
      rw [← hrequest] at hpacket
      contradiction
    | keyboard keyCode action modifiers flags =>
      rw [Call.request, Option.some.injEq, Request.packet.injEq] at hrequest
      rw [← hrequest] at hpacket
      contradiction
    | mouseMove => simp [Call.request] at hrequest
    | mousePosition => simp [Call.request] at hrequest
    | controller => simp [Call.request] at hrequest
  | _ => trivial

theorem tagged_call (c : Call) (hidle : s.caller = .idle) : (s.call v c).Tagged v := by
  unfold call
  split
  . cases hrequest : c.request v with
    | none => exact h
    | some r =>
      refine h.of_filled ?_ (fun _ => Or.inl rfl) ?_ h.control
      . intro holder hholder
        left
        simpa [filled, hidle, Caller.filled] using hholder
      . intro p hp
        cases r with
        | packet holder =>
          rw [← Option.some.inj hp]
          exact fits_request hrequest
        | _ => contradiction
  . exact h

theorem tagged_enter {r : Request} (hcaller : s.caller = .entering r)
    (hstep : s.enter v r = some t)
    : t.Tagged v := by
  have hgo : ∀ u : State, u.packetQueue = s.packetQueue → u.sender = s.sender
      → u.control = s.control → u.caller.filled = []
      → (∀ p, u.caller.packet = some p → r = .packet p)
      → (∀ holder, u.holders holder = s.holders holder ∨ (u.holders holder).packet.Fits v)
      → u.Tagged v := by
    intro u hqueue hsender hcontrol hfilled hpacket hholders
    refine h.of_filled ?_ hholders ?_ (by rw [hcontrol]; exact h.control)
    . intro holder hholder
      left
      simp only [filled, hqueue, hsender, hcontrol, hfilled] at hholder
      simpa [filled, hcaller, Caller.filled] using hholder
    . intro p hp
      apply h.caller p
      rw [hcaller, hpacket p hp]
      rfl
  have hidle : ∀ p, Caller.idle.packet = some p → r = .packet p := by
    intro p hp
    contradiction
  have hallocating : ∀ p, (Caller.allocating r).packet = some p → r = .packet p := by
    intro p hp
    cases r with
    | packet holder => rw [Option.some.inj hp]
    | _ => contradiction
  unfold enter at hstep
  cases r with
  | relative deltaX deltaY =>
    rw [← Option.some.inj hstep]
    unfold enterRelative
    simp only
    split
    . exact hgo _ rfl rfl rfl rfl hidle (fun _ => Or.inl rfl)
    . exact hgo _ rfl rfl rfl rfl hallocating (fun _ => Or.inl rfl)
  | absolute x y width height =>
    rw [← Option.some.inj hstep]
    unfold enterAbsolute
    simp only
    split
    . exact hgo _ rfl rfl rfl rfl hidle (fun _ => Or.inl rfl)
    . exact hgo _ rfl rfl rfl rfl hallocating (fun _ => Or.inl rfl)
  | controller c =>
    simp only [enterController] at hstep
    split at hstep
    . rw [← Option.some.inj hstep]
      exact hgo _ rfl rfl rfl rfl hallocating (fun _ => Or.inl rfl)
    . split at hstep
      . split at hstep
        . rw [← Option.some.inj hstep]
          exact hgo _ rfl rfl rfl rfl hidle (fits_update (fits_controllerHolder v c))
        . rw [← Option.some.inj hstep]
          exact hgo _ rfl rfl rfl rfl hallocating (fun _ => Or.inl rfl)
      . contradiction
  | packet holder =>
    rw [← Option.some.inj hstep]
    exact hgo _ rfl rfl rfl rfl hallocating (fun _ => Or.inl rfl)
  | scroll scrollAmount =>
    rw [← Option.some.inj hstep]
    unfold enterScroll
    simp only
    obtain ⟨c, hloop, hcase⟩ := scrollLoop_eq { s with batchedScrollDelta := _ } scrollAmount
    rw [hloop]
    rcases hcase with ⟨_, hc⟩ | ⟨_, hc⟩
    . rw [hc]
      exact hgo _ rfl rfl rfl rfl hallocating (fun _ => Or.inl rfl)
    . rw [hc]
      exact hgo _ rfl rfl rfl rfl hidle (fun _ => Or.inl rfl)

theorem tagged_allocate {r : Request} (malloc : Bool) (hcaller : s.caller = .allocating r)
    : (s.allocate r malloc).Tagged v := by
  unfold allocate
  cases halloc : s.allocatePacketHolder malloc with
  | mk result u =>
    cases result with
    | none =>
      rw [allocatePacketHolder_eq_none halloc]
      refine h.of_filled ?_ (fun _ => Or.inl rfl) ?_ h.control
      . intro holder hholder
        left
        simpa [filled, hcaller, Caller.filled] using hholder
      . intro p hp
        contradiction
    | some holder =>
      obtain ⟨list, n, hu, _⟩ := allocatePacketHolder_eq_some halloc
      rw [hu]
      simp only
      split
      . refine h.of_filled ?_ (fun _ => Or.inl rfl) ?_ h.control
        . intro other hother
          left
          simpa [filled, hcaller, Caller.filled] using hother
        . intro p hp
          contradiction
      . have hcontent : ({ s with packetHolderFreeList := list, allocated := n }.content
            r).packet.Fits v := by
          cases r with
          | packet p => exact h.caller p (by rw [hcaller]; rfl)
          | _ => trivial
        have hwrite :=
          @fits_update v { s with packetHolderFreeList := list, allocated := n } holder _ hcontent
        refine h.of_filled ?_ hwrite ?_ h.control
        . intro other hother
          cases Decidable.em (other = holder) with
          | inl heq =>
            right
            rw [heq]
            simpa [write] using hcontent
          | inr hne =>
            left
            simpa [filled, write, hcaller, Caller.filled, hne] using hother
        . intro p hp
          contradiction

theorem tagged_callerStep {malloc : Bool} (hstep : s.callerStep v malloc = some t) : t.Tagged v := by
  have hgo : ∀ u : State, (∀ holder, holder ∈ u.packetQueue.items
        → holder ∈ s.packetQueue.items ++ s.caller.filled)
      → u.sender = s.sender → u.control = s.control → u.holders = s.holders
      → u.caller.filled = [] → u.caller.packet = none → u.Tagged v := by
    intro u hqueue hsender hcontrol hholders hfilled hpacket
    refine h.of_filled ?_ ?_ ?_ (by rw [hcontrol]; exact h.control)
    . intro holder hholder
      left
      have hmem := hqueue holder
      simp only [filled, hsender, hcontrol, hfilled, List.mem_append] at hholder hmem ⊢
      grind
    . intro holder
      rw [hholders]
      exact Or.inl rfl
    . intro p hp
      rw [hpacket] at hp
      contradiction
  unfold callerStep at hstep
  cases hcaller : s.caller with
  | idle => simp [hcaller] at hstep
  | entering r =>
    simp only [hcaller] at hstep
    exact tagged_enter h hcaller hstep
  | allocating r =>
    simp only [hcaller, Option.some.injEq] at hstep
    rw [← hstep]
    exact tagged_allocate h malloc hcaller
  | writing c holder =>
    simp only [hcaller, Option.some.injEq] at hstep
    have hfits := fits_controllerHolder v c
    have hwritten : t.packetQueue = s.packetQueue ∧ t.sender = s.sender ∧ t.control = s.control
        ∧ t.holders = (s.write holder (controllerHolder v c)).holders
        ∧ t.caller = .offering (.controller c) holder := by
      rw [← hstep]
      unfold writeController
      split <;> simp [write]
    obtain ⟨hqueue, hsender, hcontrol, hholders, hoffering⟩ := hwritten
    refine h.of_filled ?_ ?_ ?_ (by rw [hcontrol]; exact h.control)
    . intro other hother
      cases Decidable.em (other = holder) with
      | inl heq =>
        right
        rw [heq, hholders]
        simpa [write] using hfits
      | inr hne =>
        left
        simpa [filled, hqueue, hsender, hcontrol, hoffering, hcaller, Caller.filled, hne] using hother
    . intro other
      rw [hholders]
      exact fits_update hfits other
    . intro p hp
      rw [hoffering] at hp
      contradiction
  | offering r holder =>
    simp only [hcaller, Option.some.injEq] at hstep
    rw [← hstep]
    unfold offer
    cases hoffer : s.packetQueue.lbqOfferQueueItem holder with
    | error code =>
      refine hgo _ ?_ rfl rfl rfl rfl rfl
      intro other hother
      simp [show other ∈ s.packetQueue.items from hother]
    | ok queue =>
      have hqueue := (lbqOfferQueueItem_eq_ok hoffer).right.right.right
      refine hgo _ ?_ rfl rfl rfl rfl rfl
      intro other hother
      simpa [hqueue, hcaller, Caller.filled] using hother
  | accepted r =>
    simp only [hcaller, Option.some.injEq] at hstep
    rw [← hstep]
    have hqueue : ∀ other, other ∈ s.packetQueue.items
        → other ∈ s.packetQueue.items ++ s.caller.filled := by
      intro other hother
      simp [hother]
    unfold accept
    cases r with
    | scroll scrollAmount =>
      simp only
      obtain ⟨c, hloop, hcase⟩ := scrollLoop_eq { s with batchedScrollDelta := _ } scrollAmount
      rw [hloop]
      rcases hcase with ⟨_, hc⟩ | ⟨_, hc⟩
      . rw [hc]
        exact hgo _ hqueue rfl rfl rfl rfl rfl
      . rw [hc]
        exact hgo _ hqueue rfl rfl rfl rfl rfl
    | _ => exact hgo _ hqueue rfl rfl rfl rfl rfl
  | refused r holder =>
    simp only [hcaller, Option.some.injEq] at hstep
    obtain ⟨list, hfree, _⟩ := freePacketHolder_eq s holder
    rw [← hstep, hfree]
    refine hgo _ ?_ rfl rfl rfl rfl rfl
    intro other hother
    simp [show other ∈ s.packetQueue.items from hother]

theorem tagged_senderStep {ok : Bool} (hstep : s.senderStep ok = some t) : t.Tagged v := by
  -- the sender keeps its holder or lets go of it
  have hgo : ∀ u : State, (∀ holder, holder ∈ u.packetQueue.items ++ u.sender.holder
        → holder ∈ s.packetQueue.items ++ s.sender.holder)
      → u.caller = s.caller → u.control = s.control
      → (∀ holder, u.holders holder = s.holders holder ∨ (u.holders holder).packet.Fits v)
      → u.Tagged v := by
    intro u hsubset hcaller hcontrol hholders
    refine h.of_filled ?_ hholders (by rw [hcaller]; exact h.caller) (by rw [hcontrol]; exact h.control)
    intro holder hholder
    left
    simp only [filled, hcaller, hcontrol] at hholder ⊢
    rw [List.mem_append, List.mem_append] at hholder ⊢
    rcases hholder with (hholder | hholder) | hholder
    . exact Or.inl (Or.inl (hsubset holder hholder))
    . exact Or.inl (Or.inr hholder)
    . exact Or.inr hholder
  have hkept : ∀ u : State, u.packetQueue = s.packetQueue → u.sender.holder = s.sender.holder
      → ∀ holder, holder ∈ u.packetQueue.items ++ u.sender.holder
        → holder ∈ s.packetQueue.items ++ s.sender.holder := by
    intro u hqueue hsender holder hholder
    rw [hqueue, hsender] at hholder
    exact hholder
  unfold senderStep at hstep
  cases hsender : s.sender with
  | waiting =>
    simp only [hsender] at hstep
    cases hwait : s.packetQueue.lbqWaitForQueueElement with
    | none => simp [hwait] at hstep
    | some result =>
      rcases result with ⟨answer, queue⟩
      cases lbqWaitForQueueElement_eq_some hwait with
      | inl htaken =>
        obtain ⟨holder, hanswer, _, hitems, _⟩ := htaken
        simp only [hwait, hanswer, Option.some.injEq] at hstep
        rw [← hstep]
        refine hgo _ ?_ rfl rfl (fun _ => Or.inl rfl)
        intro other hother
        simp only [Sender.holder, List.mem_append, List.mem_singleton] at hother
        simp only [hitems, List.mem_append, List.mem_cons]
        rcases hother with hother | hother
        . exact Or.inl (Or.inr hother)
        . exact Or.inl (Or.inl hother)
      | inr hnothing =>
        obtain ⟨⟨code, hanswer⟩, hitems⟩ := hnothing
        simp only [hwait, hanswer, Option.some.injEq] at hstep
        rw [← hstep]
        refine hgo _ ?_ rfl rfl (fun _ => Or.inl rfl)
        intro other hother
        simpa [hitems, hsender, Sender.holder] using hother
  | took holder =>
    simp only [hsender] at hstep
    unfold process at hstep
    split at hstep
    . split at hstep
      . contradiction
      . rw [← Option.some.inj hstep]
        exact hgo _ (hkept _ rfl (by rw [hsender]; rfl)) rfl rfl (fun _ => Or.inl rfl)
    . split at hstep
      . contradiction
      . rw [← Option.some.inj hstep]
        unfold relativeRound
        simp only
        split
        . exact hgo _ (hkept _ rfl (by rw [hsender]; rfl)) rfl rfl (fits_update trivial)
        . exact hgo _ (hkept _ rfl (by rw [hsender]; rfl)) rfl rfl (fun _ => Or.inl rfl)
    . split at hstep
      . contradiction
      . rw [← Option.some.inj hstep]
        exact hgo _ (hkept _ rfl (by rw [hsender]; rfl)) rfl rfl (fits_update trivial)
    . rw [← Option.some.inj hstep]
      exact hgo _ (hkept _ rfl (by rw [hsender]; rfl)) rfl rfl (fun _ => Or.inl rfl)
  | sendingMove holder =>
    simp only [hsender, Option.some.injEq] at hstep
    rw [← hstep]
    unfold send
    split
    . exact hgo _ (hkept _ rfl (by rw [hsender]; rfl)) rfl rfl (fun _ => Or.inl rfl)
    . exact hgo _ (hkept _ rfl (by rw [hsender]; rfl)) rfl rfl (fun _ => Or.inl rfl)
  | sending holder =>
    simp only [hsender, Option.some.injEq] at hstep
    rw [← hstep]
    unfold send
    split
    . exact hgo _ (hkept _ rfl (by rw [hsender]; rfl)) rfl rfl (fun _ => Or.inl rfl)
    . exact hgo _ (hkept _ rfl (by rw [hsender]; rfl)) rfl rfl (fun _ => Or.inl rfl)
  | freeing holder exits =>
    simp only [hsender, Option.some.injEq] at hstep
    obtain ⟨list, hfree, _⟩ := freePacketHolder_eq s holder
    rw [← hstep, hfree]
    refine hgo _ ?_ rfl rfl (fun _ => Or.inl rfl)
    intro other hother
    rw [List.mem_append] at hother ⊢
    left
    cases exits <;> simpa [Sender.holder] using hother
  | exited => simp [hsender] at hstep

theorem tagged_controlStep {malloc : Bool} (hstep : s.controlStep v malloc = some t)
    : t.Tagged v := by
  have hgo : ∀ u : State, (∀ holder, holder ∈ u.packetQueue.items
        → holder ∈ s.packetQueue.items ++ s.control.filled)
      → u.sender = s.sender → u.caller = s.caller → u.holders = s.holders → u.control.filled = []
      → (u.control = .enabling → v.major ≥ 5) → u.Tagged v := by
    intro u hqueue hsender hcaller hholders hfilled hcontrol
    refine h.of_filled ?_ ?_ (by rw [hcaller]; exact h.caller) hcontrol
    . intro holder hholder
      left
      have hmem := hqueue holder
      simp only [filled, hsender, hcaller, hfilled, List.mem_append] at hholder hmem ⊢
      grind
    . intro holder
      rw [hholders]
      exact Or.inl rfl
  have hqueue : ∀ holder, holder ∈ s.packetQueue.items
      → holder ∈ s.packetQueue.items ++ s.control.filled := by
    intro holder hholder
    simp [hholder]
  unfold controlStep at hstep
  cases hcontrol : s.control with
  | starting =>
    simp only [hcontrol, Option.some.injEq] at hstep
    rw [← hstep]
    cases hversion : v.atLeast 7 1 0 with
    | true => exact hgo _ hqueue rfl rfl rfl rfl (fun _ => major_of_atLeast hversion)
    | false => exact hgo _ hqueue rfl rfl rfl rfl (by simp)
  | enabling =>
    simp only [hcontrol, Option.some.injEq] at hstep
    rw [← hstep]
    unfold enableHaptics
    cases halloc : s.allocatePacketHolder malloc with
    | mk result u =>
      cases result with
      | none =>
        rw [allocatePacketHolder_eq_none halloc]
        exact hgo _ hqueue rfl rfl rfl rfl (by simp)
      | some holder =>
        obtain ⟨list, n, hu, _⟩ := allocatePacketHolder_eq_some halloc
        have hfits : hapticsHolder.packet.Fits v := h.control hcontrol
        rw [hu]
        have hwrite :=
          @fits_update v { s with packetHolderFreeList := list, allocated := n } holder _ hfits
        refine h.of_filled ?_ hwrite h.caller (by simp)
        intro other hother
        cases Decidable.em (other = holder) with
        | inl heq =>
          right
          rw [heq]
          simpa [write] using hfits
        | inr hne =>
          left
          simpa [filled, write, hcontrol, Control.filled, hne] using hother
  | offering holder =>
    simp only [hcontrol, Option.some.injEq] at hstep
    rw [← hstep]
    unfold offerHaptics
    cases hoffer : s.packetQueue.lbqOfferQueueItem holder with
    | error code => exact hgo _ hqueue rfl rfl rfl rfl (by simp)
    | ok queue =>
      have hitems := (lbqOfferQueueItem_eq_ok hoffer).right.right.right
      refine hgo _ ?_ rfl rfl rfl rfl (by simp)
      intro other hother
      simpa [hitems, hcontrol, Control.filled] using hother
  | refused holder =>
    simp only [hcontrol, Option.some.injEq] at hstep
    obtain ⟨list, hfree, _⟩ := freePacketHolder_eq s holder
    rw [← hstep, hfree]
    exact hgo _ hqueue rfl rfl rfl rfl (by simp)
  | joining =>
    simp only [hcontrol] at hstep
    split at hstep
    . rw [← Option.some.inj hstep]
      exact hgo _ hqueue rfl rfl rfl rfl (by simp)
    . contradiction
  | stopped => simp [hcontrol] at hstep
  | _ =>
    simp only [hcontrol, Option.some.injEq] at hstep
    rw [← hstep]
    exact hgo _ hqueue rfl rfl rfl rfl (by simp)

theorem tagged_step {e : Event} (hstep : step v s e = some t) : t.Tagged v := by
  unfold step at hstep
  cases e with
  | call c =>
    simp only at hstep
    split at hstep
    . next hidle =>
      rw [← Option.some.inj hstep]
      exact tagged_call h c hidle
    . contradiction
  | caller malloc => exact tagged_callerStep h hstep
  | sender ok => exact tagged_senderStep h hstep
  | control malloc => exact tagged_controlStep h hstep

end

theorem tagged_initializeInputStream (v : AppVersionQuad) (holders : Nat → PacketHolder)
    : (initializeInputStream holders).Tagged v := by
  constructor
  . intro holder h
    simp [filled, initializeInputStream, lbqInitialize, Sender.holder, Caller.filled, Control.filled]
      at h
  . intro p h
    contradiction
  . intro h
    contradiction

theorem tagged_reachable {v : AppVersionQuad} {holders : Nat → PacketHolder} {s : State}
    (h : (machine v holders).Reachable s)
    : s.Tagged v := by
  apply h.invariant (Tagged v)
  . exact tagged_initializeInputStream v holders
  . intro s e t hs hstep
    exact tagged_step hs hstep

end State
end Stream
end Input

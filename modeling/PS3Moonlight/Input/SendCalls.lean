import PS3Moonlight.Input.SendInvariant

/-!
This module contains the steps of the input thread, and those of the thread that starts and stops
the stream. They keep the invariant, unless the queue refuses a controller packet: it is still the
current packet of its controller when its holder is free.
-/

namespace Input
namespace Stream

open Connection
open Threads
open LinkedBlockingQueue

/- The motion that a call is about to add. -/
def Caller.adds (c : Caller) : Int16 × Int16 :=
  match c with
  | .entering (.relative deltaX deltaY) => ⟨deltaX, deltaY⟩
  | _ => ⟨0, 0⟩

def FitsInt (n : Int) : Prop :=
  -2147483648 ≤ n ∧ n ≤ 2147483647

instance (n : Int) : Decidable (FitsInt n) :=
  inferInstanceAs (Decidable (_ ∧ _))

namespace State

/- The motion that is still to be sent does not overflow with that of the call. -/
def SumsFit (s : State) : Prop :=
  FitsInt (s.currentRelativeMouseState.deltaX.toInt + s.caller.adds.fst.toInt)
    ∧ FitsInt (s.currentRelativeMouseState.deltaY.toInt + s.caller.adds.snd.toInt)

instance (s : State) : Decidable s.SumsFit :=
  inferInstanceAs (Decidable (_ ∧ _))

/-
The input thread.
-/

section

variable {v : AppVersionQuad} {s t : State} (h : s.Inv v)

include h

theorem inv_call (c : Call) (hidle : s.caller = .idle) : (s.call v c).Inv v := by
  unfold call
  split
  . cases hrequest : c.request v with
    | none => exact h
    | some r =>
      have f : Frame s { s with caller := .entering r, requests := s.requests ++ [r] } :=
        ⟨rfl, rfl, rfl, rfl, fun _ _ => rfl, Or.inl ⟨rfl, rfl⟩, Or.inl ⟨rfl, rfl, rfl, rfl⟩⟩
      apply f.inv h
      . exact plain_request hrequest
      . exact h.haptics
      . exact fun _ hmoving => hmoving
      . intro m
        rw [hidle]
        rfl
      . apply f.current h rfl
        intro c holder
        simp [hidle]
  . exact h

/- A call is merged into a holder to come: nothing but this holder's item is different. -/
theorem inv_merged {before after : List Nat} {holder : Nat} {i : Item}
    (howned : s.Owned) (hpending : s.pending = before ++ holder :: after)
    (hnot : ∀ c other, s.caller ≠ .offering (.controller c) other)
    (hunmarked : s.caller.acceptedMotion = none) (hidle : t.caller = .idle)
    (hsender : t.sender = s.sender) (hqueue : t.packetQueue = s.packetQueue)
    (hsent : t.sent = s.sent) (hcontrol : t.control = s.control)
    (hcurrent : t.currentQueuedControllerPacket = s.currentQueuedControllerPacket)
    (hdirty : ∀ m, t.dirty m = s.dirty m)
    (hholders : ∀ other, other ≠ holder → t.holders other = s.holders other)
    (hbranch : t.branchOf holder = s.branchOf holder)
    (hpad : ∀ n, t.IsPad n holder ↔ s.IsPad n holder)
    (hflight : ∀ other, other ∈ s.sender.inFlight → t.holders other = s.holders other)
    (hitems : ∀ other, other ∈ before ++ after → t.itemOf other = s.itemOf other)
    (hitem : t.itemOf holder = i)
    (hbatches : Batches t.accepted
      ((s.sent.map PacketHolder.item ++ s.sender.inFlight.map (fun holder => (s.holders holder).item)
        ++ before.map s.itemOf) ++ i :: after.map s.itemOf))
    : t.Inv v := by
  have hpending' : t.pending = s.pending := by
    unfold pending
    rw [hsender, hqueue]
  have hbranches : ∀ other, t.branchOf other = s.branchOf other := by
    intro other
    cases Decidable.em (other = holder) with
    | inl heq =>
      rw [heq]
      exact hbranch
    | inr hne =>
      unfold branchOf
      rw [hholders other hne]
  have hpads : ∀ n other, t.IsPad n other ↔ s.IsPad n other := by
    intro n other
    cases Decidable.em (other = holder) with
    | inl heq =>
      rw [heq]
      exact hpad n
    | inr hne =>
      unfold IsPad
      rw [hholders other hne]
  have hin : holder ∈ s.sender.holder ++ s.packetQueue.items := by
    apply pending_subset
    rw [hpending]
    simp
  constructor
  . unfold CallerInv
    rw [hidle]
    trivial
  . intro other hother
    rw [hcontrol] at hother
    rw [hholders other, h.haptics other hother]
    intro heq
    have hmem : holder ∈ s.control.holder := by
      rw [hother, heq]
      simp [Control.holder]
    have hapart := howned.control_apart hmem
    rw [List.mem_append, not_or] at hapart
    exact hapart.left hin
  . intro other hother
    rw [hsender] at hother
    rw [hbranches, h.moving other hother]
  . intro m
    have hmarkers : t.markers m = s.markers m := by
      unfold markers
      rw [hpending']
      simp [hbranches]
    rw [hmarkers, h.marked m, hdirty, hidle, hunmarked]
    rfl
  . intro n other hn
    rw [hcurrent] at hn
    obtain ⟨hmajor, hp, hlast⟩ := h.current n other hn
    refine ⟨hmajor, (hpads n other).mpr hp, ?_⟩
    rcases hlast with ⟨front, back, hfront, hback⟩ | ⟨c, hc⟩
    . refine Or.inl ⟨front, back, hpending'.trans hfront, ?_⟩
      intro o ho c hc hcn
      obtain ⟨d, hd, hdn⟩ := (hpads n o).mp ⟨c, hc, hcn⟩
      exact hback o ho d hd hdn
    . exact absurd hc (hnot c other)
  . rw [wire_update hpending hpending' hsent hsender hflight hitems, hitem]
    exact hbatches

omit h in
theorem toInt_add_of_fitsInt {a : Int32} {b : Int16} (hfits : FitsInt (a.toInt + b.toInt))
    : (a + b.toInt32).toInt = a.toInt + b.toInt := by
  rw [Int32.toInt_add, Int16.toInt_toInt32]
  unfold FitsInt at hfits
  exact Int.bmod_eq_of_le (by omega) (by omega)

theorem inv_enterRelative {deltaX deltaY : Int16} (howned : s.Owned)
    (hcaller : s.caller = .entering (.relative deltaX deltaY)) (hfits : s.SumsFit)
    : (s.enterRelative deltaX deltaY).Inv v := by
  have hnot : ∀ c holder, s.caller ≠ .offering (.controller c) holder := by
    intro c holder
    simp [hcaller]
  unfold enterRelative
  simp only
  split
  . next hdirty =>
    have hone : s.markers .relative = 1 := by
      rw [h.marked, hcaller]
      simp [dirty, hdirty, Caller.acceptedMotion]
    obtain ⟨before, holder, after, hpending, hholder, hothers⟩ := exists_marker hone
    have hbatches := h.batches
    rw [wire_split hpending, itemOf_relative hholder] at hbatches
    unfold SumsFit at hfits
    simp only [hcaller, Caller.adds] at hfits
    let i : Item := .move (s.currentRelativeMouseState.deltaX + deltaX.toInt32).toInt
      (s.currentRelativeMouseState.deltaY + deltaY.toInt32).toInt
    refine inv_merged (i := i) h howned hpending hnot (by rw [hcaller]; rfl) rfl rfl rfl rfl rfl rfl
      ?_ (fun _ _ => rfl) rfl (fun _ => Iff.rfl) (fun _ _ => rfl) ?_ ?_ ?_
    . intro m
      cases m <;> rfl
    . intro other hother
      exact itemOf_of_ne_relative rfl rfl (hothers other hother)
    . exact itemOf_relative hholder
    . unfold i
      rw [toInt_add_of_fitsInt hfits.left, toInt_add_of_fitsInt hfits.right]
      apply hbatches.mergeMove
      intro i hi x y
      obtain ⟨other, hother, hi⟩ := List.mem_map.mp hi
      rw [← hi]
      exact itemOf_ne_move (hothers other (by simp [hother])) x y
  . next hdirty =>
    have hclean : s.currentRelativeMouseState.dirty = false := by simpa using hdirty
    have hnone : s.markers .relative = 0 := by
      rw [h.marked, hcaller]
      simp [dirty, hclean, Caller.acceptedMotion]
    have f : Frame s { s with
        currentRelativeMouseState :=
          { s.currentRelativeMouseState with
            deltaX := s.currentRelativeMouseState.deltaX + deltaX.toInt32
            deltaY := s.currentRelativeMouseState.deltaY + deltaY.toInt32 }
        caller := .allocating (.relative deltaX deltaY) } :=
      ⟨rfl, rfl, rfl, rfl, fun _ _ => rfl, Or.inr hnone, Or.inl ⟨rfl, rfl, rfl, rfl⟩⟩
    apply f.inv h
    . exact ⟨trivial, hclean⟩
    . exact h.haptics
    . exact fun _ hmoving => hmoving
    . intro m
      rw [hcaller]
      cases m <;> rfl
    . exact f.current h rfl (fun c other hc => absurd hc (hnot c other))

theorem inv_enterAbsolute {x y width height : Int16} (howned : s.Owned)
    (hcaller : s.caller = .entering (.absolute x y width height))
    : (s.enterAbsolute x y width height).Inv v := by
  have hnot : ∀ c holder, s.caller ≠ .offering (.controller c) holder := by
    intro c holder
    simp [hcaller]
  unfold enterAbsolute
  simp only
  split
  . next hdirty =>
    have hone : s.markers .absolute = 1 := by
      rw [h.marked, hcaller]
      simp [dirty, hdirty, Caller.acceptedMotion]
    obtain ⟨before, holder, after, hpending, hholder, hothers⟩ := exists_marker hone
    have hbatches := h.batches
    rw [wire_split hpending, itemOf_absolute hholder] at hbatches
    let i : Item := .position x y (width - 1) (height - 1)
    refine inv_merged (i := i) h howned hpending hnot (by rw [hcaller]; rfl) rfl rfl rfl rfl rfl rfl
      ?_ (fun _ _ => rfl) rfl (fun _ => Iff.rfl) (fun _ _ => rfl) ?_ ?_ ?_
    . intro m
      cases m <;> rfl
    . intro other hother
      exact itemOf_of_ne_absolute rfl rfl (hothers other hother)
    . exact itemOf_absolute hholder
    . refine Batches.mergePosition (p := ⟨_, _, _, _⟩) (q := ⟨x, y, width - 1, height - 1⟩) hbatches ?_
      intro i hi x y width height
      obtain ⟨other, hother, hi⟩ := List.mem_map.mp hi
      rw [← hi]
      exact itemOf_ne_position (hothers other (by simp [hother])) x y width height
  . next hdirty =>
    have hclean : s.currentAbsoluteMouseState.dirty = false := by simpa using hdirty
    have hnone : s.markers .absolute = 0 := by
      rw [h.marked, hcaller]
      simp [dirty, hclean, Caller.acceptedMotion]
    have f : Frame s { s with
        currentAbsoluteMouseState := ⟨x, y, width, height, s.currentAbsoluteMouseState.dirty⟩
        caller := .allocating (.absolute x y width height) } :=
      ⟨rfl, rfl, rfl, rfl, fun _ _ => rfl, Or.inl ⟨rfl, rfl⟩, Or.inr hnone⟩
    apply f.inv h
    . refine ⟨trivial, ?_⟩
      simp [Clean, hclean]
    . exact h.haptics
    . exact fun _ hmoving => hmoving
    . intro m
      rw [hcaller]
      cases m <;> rfl
    . exact f.current h rfl (fun c other hc => absurd hc (hnot c other))

/- The holder of a batch is not on the wire yet. -/
theorem inv_mergeController {c old : MultiController} {holder : Nat} (howned : s.Owned)
    (hcaller : s.caller = .entering (.controller c))
    (hcurrent : s.currentQueuedControllerPacket c.controllerNumber = some holder)
    (hold : (s.holders holder).packet = .multiController old) (hbuttons : old.buttons = c.buttons)
    : { s.write holder ⟨(s.holders holder).channelId, (controllerHolder v c).packet⟩ with
        caller := .idle
        accepted := s.accepted ++ [Item.pad c] }.Inv v := by
  have hnot : ∀ c holder, s.caller ≠ .offering (.controller c) holder := by
    intro c holder
    simp [hcaller]
  obtain ⟨hmajor, ⟨d, hd, hnumber⟩, hlast⟩ := h.current _ holder hcurrent
  have hdold : d = old := by
    rw [hd] at hold
    exact Packet.multiController.inj hold
  rw [hdold] at hnumber
  rcases hlast with ⟨before, after, hpending, hafter⟩ | ⟨c', hc'⟩
  . have hin : holder ∈ s.pending := by
      rw [hpending]
      simp
    -- each holder is to come once, so the others keep their contents
    have hothers : ∀ other, other ∈ before ++ after → other ≠ holder := by
      intro other hother heq
      have hcount := howned.count_le_one holder
      have hpos : 1 < s.pending.count holder := by
        rw [heq] at hother
        have hcountother := List.count_pos_iff.mpr hother
        rw [List.count_append] at hcountother
        rw [hpending, List.count_append, List.count_cons_self]
        omega
      have hle : s.pending.count holder
          ≤ s.sender.holder.count holder + s.packetQueue.items.count holder := by
        unfold pending
        rw [List.count_append]
        cases s.sender <;> simp [Sender.pending, Sender.holder]
      omega
    have hflight : ∀ other, other ∈ s.sender.inFlight → other ≠ holder := by
      intro other hother heq
      rw [heq] at hother
      cases hsender : s.sender with
      | sendingMove o =>
        rw [hsender, Sender.inFlight, List.mem_singleton] at hother
        have hmoving := h.moving o hsender
        rw [← hother, branchOf, hd] at hmoving
        contradiction
      | sending o =>
        have hmem : holder ∈ s.sender.holder := by
          rw [hsender] at hother ⊢
          exact hother
        have hapart := howned.sender_apart hmem
        have hqueue : holder ∈ s.packetQueue.items := by
          simpa [pending, hsender, Sender.pending] using hin
        simp [hqueue] at hapart
      | _ => simp [hsender, Sender.inFlight] at hother
    have hpacket := controllerHolder_packet (c := c) hmajor
    have hbatches := h.batches
    rw [wire_split hpending, itemOf_pad hold] at hbatches
    refine inv_merged h howned hpending hnot (by rw [hcaller]; rfl) rfl rfl rfl rfl rfl rfl ?_
      ?_ ?_ ?_ ?_ ?_ (itemOf_pad (c := c) ?_) ?_
    . intro m
      cases m <;> rfl
    . intro other hne
      simp [write, hne]
    . simp [branchOf, write, hpacket, hold, Packet.branch]
    . intro n
      simp [IsPad, write, hpacket, hold, hnumber]
    . intro other hother
      simp [write, hflight other hother]
    . intro other hother
      simp [itemOf, write, hothers other hother]
    . simp [write, hpacket]
    . apply hbatches.mergePad hnumber hbuttons
      intro e he
      obtain ⟨other, hother, he⟩ := List.mem_map.mp he
      exact hafter other hother e (packet_of_itemOf he)
  . exact absurd hc' (hnot c' holder)

theorem inv_enter {r : Request} (howned : s.Owned) (hcaller : s.caller = .entering r)
    (hfits : s.SumsFit)
    (hstep : s.enter v r = some t)
    : t.Inv v := by
  have hplain : r.Plain := by
    have hinv := h.caller
    rw [CallerInv, hcaller] at hinv
    exact hinv
  have hnot : ∀ c holder, s.caller = .offering (.controller c) holder
      → t.caller = .offering (.controller c) holder ∧ t.holders holder = s.holders holder := by
    intro c holder hc
    rw [hcaller] at hc
    contradiction
  -- a call that goes on to allocate or returns without a trace on the wire
  have hgo : ∀ (c : Caller) (delta : Int32), c.acceptedMotion = none
      → { s with caller := c, batchedScrollDelta := delta }.CallerInv v
      → { s with caller := c, batchedScrollDelta := delta }.Inv v := by
    intro c delta hc hinv
    have f : Frame s { s with caller := c, batchedScrollDelta := delta } :=
      ⟨rfl, rfl, rfl, rfl, fun _ _ => rfl, Or.inl ⟨rfl, rfl⟩, Or.inl ⟨rfl, rfl, rfl, rfl⟩⟩
    apply f.inv h hinv h.haptics (fun _ hmoving => hmoving)
    . intro m
      rw [hcaller]
      simp only [hc]
      rfl
    . apply f.current h rfl
      intro d holder hd
      rw [hcaller] at hd
      contradiction
  unfold enter at hstep
  cases r with
  | relative deltaX deltaY =>
    rw [← Option.some.inj hstep]
    exact inv_enterRelative h howned hcaller hfits
  | absolute x y width height =>
    rw [← Option.some.inj hstep]
    exact inv_enterAbsolute h howned hcaller
  | controller c =>
    simp only [enterController] at hstep
    split at hstep
    . rw [← Option.some.inj hstep]
      exact hgo _ s.batchedScrollDelta rfl ⟨trivial, trivial⟩
    . next holder hcurrent =>
      split at hstep
      . next old hold =>
        split at hstep
        . next hbuttons =>
          rw [← Option.some.inj hstep]
          exact inv_mergeController h howned hcaller hcurrent hold hbuttons
        . rw [← Option.some.inj hstep]
          exact hgo _ s.batchedScrollDelta rfl ⟨trivial, trivial⟩
      . contradiction
  | packet holder =>
    rw [← Option.some.inj hstep]
    exact hgo _ s.batchedScrollDelta rfl ⟨hplain, trivial⟩
  | scroll scrollAmount =>
    rw [← Option.some.inj hstep]
    unfold enterScroll
    simp only
    obtain ⟨c, hloop, hcase⟩ := scrollLoop_eq { s with batchedScrollDelta := _ } scrollAmount
    rw [hloop]
    rcases hcase with ⟨_, hc⟩ | ⟨_, hc⟩
    . rw [hc]
      exact hgo _ _ rfl ⟨trivial, trivial⟩
    . rw [hc]
      exact hgo _ _ rfl trivial

theorem inv_allocate {r : Request} (howned : s.Owned) (malloc : Bool)
    (hcaller : s.caller = .allocating r)
    : (s.allocate r malloc).Inv v := by
  have hinv := h.caller
  rw [CallerInv, hcaller] at hinv
  have hnot : ∀ (t : State) c holder, s.caller = .offering (.controller c) holder
      → t.caller = .offering (.controller c) holder ∧ t.holders holder = s.holders holder := by
    intro t c holder hc
    rw [hcaller] at hc
    contradiction
  unfold allocate
  cases halloc : s.allocatePacketHolder malloc with
  | mk result u =>
    cases result with
    | none =>
      rw [allocatePacketHolder_eq_none halloc]
      have f : Frame s { s with caller := .idle } :=
        ⟨rfl, rfl, rfl, rfl, fun _ _ => rfl, Or.inl ⟨rfl, rfl⟩, Or.inl ⟨rfl, rfl, rfl, rfl⟩⟩
      apply f.inv h trivial h.haptics (fun _ hmoving => hmoving)
      . intro m
        rw [hcaller]
        rfl
      . exact f.current h rfl (hnot _)
    | some holder =>
      have hapart := howned.allocated_apart halloc
      obtain ⟨list, n, hu, _⟩ := allocatePacketHolder_eq_some halloc
      simp only [List.mem_append, not_or] at hapart
      rw [hu]
      simp only
      split
      . next c =>
        have f : Frame s { s with
            packetHolderFreeList := list, allocated := n, caller := .writing c holder } :=
          ⟨rfl, rfl, rfl, rfl, fun _ _ => rfl, Or.inl ⟨rfl, rfl⟩, Or.inl ⟨rfl, rfl, rfl, rfl⟩⟩
        apply f.inv h trivial h.haptics (fun _ hmoving => hmoving)
        . intro m
          rw [hcaller]
          rfl
        . exact f.current h rfl (hnot _)
      . next hnotpad =>
        have f : Frame s { { s with packetHolderFreeList := list, allocated := n }.write holder
            ({ s with packetHolderFreeList := list, allocated := n }.content r) with
            caller := .offering r holder } := by
          refine ⟨rfl, rfl, rfl, rfl, ?_, Or.inl ⟨rfl, rfl⟩, Or.inl ⟨rfl, rfl, rfl, rfl⟩⟩
          intro other hother
          have hne : other ≠ holder := by
            intro heq
            rw [heq, List.mem_append] at hother
            simp [hapart] at hother
          simp [write, hne]
        apply f.inv h
        . refine ⟨hinv.left, ?_, ?_⟩
          . cases r <;> exact hinv.right
          . cases r with
            | relative deltaX deltaY => simp [Written, write, content, branchOf, Packet.branch]
            | absolute x y width height => simp [Written, write, content, branchOf, Packet.branch]
            | controller c => exact absurd rfl (hnotpad c)
            | packet p => simp [Written, write, content]
            | scroll scrollAmount =>
              simp only [Written, write, content, Function.update_self]
              rfl
        . intro other hother
          have hne : other ≠ holder := by
            intro heq
            have hmem : holder ∈ s.control.holder := by
              rw [← heq]
              have hcontrol : s.control = .offering other := hother
              simp [hcontrol, Control.holder]
            exact hapart.right hmem
          simp only [write, Function.update_of_ne hne]
          exact h.haptics other hother
        . exact fun _ hmoving => hmoving
        . intro m
          rw [hcaller]
          rfl
        . exact f.current h rfl (hnot _)

theorem inv_writeController {c : MultiController} {holder : Nat} (howned : s.Owned)
    (hcaller : s.caller = .writing c holder)
    : (s.writeController v c holder).Inv v := by
  have hheld : holder ∈ s.caller.holder := by
    simp [hcaller, Caller.holder]
  have hapart := howned.caller_apart hheld
  have hframe : ∀ current, Frame s { s.write holder (controllerHolder v c) with
      currentQueuedControllerPacket := current
      caller := .offering (.controller c) holder } := by
    intro current
    refine ⟨rfl, rfl, rfl, rfl, ?_, Or.inl ⟨rfl, rfl⟩, Or.inl ⟨rfl, rfl, rfl, rfl⟩⟩
    intro other hother
    have hne : other ≠ holder := by
      intro heq
      rw [heq] at hother
      exact hapart hother
    simp [write, hne]
  have hnot : ∀ (t : State) d other, s.caller = .offering (.controller d) other
      → t.caller = .offering (.controller d) other ∧ t.holders other = s.holders other := by
    intro t d other hd
    rw [hcaller] at hd
    contradiction
  have hhaptics : ∀ other, s.control = .offering other
      → (s.write holder (controllerHolder v c)).holders other = hapticsHolder := by
    intro other hother
    have hne : other ≠ holder := by
      intro heq
      have hmem : holder ∈ s.control.holder := by
        rw [hother, heq]
        simp [Control.holder]
      have hother := howned.control_apart hmem
      simp [hheld] at hother
    simp only [write, Function.update_of_ne hne]
    exact h.haptics other hother
  unfold writeController
  simp only
  split
  . next hmajor =>
    have f := hframe s.currentQueuedControllerPacket
    refine f.inv h ?_ hhaptics (fun _ hmoving => hmoving) ?_ ?_
    . refine ⟨trivial, trivial, ?_, ?_⟩
      . simp [write]
      . exact fun hne => absurd hmajor hne
    . intro m
      rw [hcaller]
      rfl
    . exact f.current h rfl (hnot _)
  . next hmajor =>
    have f := hframe (Function.update s.currentQueuedControllerPacket c.controllerNumber (some holder))
    refine f.inv h ?_ hhaptics (fun _ hmoving => hmoving) ?_ ?_
    . refine ⟨trivial, trivial, ?_, ?_⟩
      . simp [write]
      . intro _
        simp
    . intro m
      rw [hcaller]
      rfl
    . intro n other hn
      cases Decidable.em (n = c.controllerNumber) with
      | inl heq =>
        rw [heq] at hn
        simp only [Function.update_self, Option.some.injEq] at hn
        refine ⟨hmajor, ⟨c, ?_, heq.symm⟩, Or.inr ⟨c, by rw [hn]⟩⟩
        simp [write, ← hn, controllerHolder_packet hmajor]
      | inr hne =>
        simp only [Function.update_of_ne hne] at hn
        obtain ⟨_, hpad, hlast⟩ := h.current n other hn
        rcases hlast with hlast | ⟨d, hd⟩
        . exact ⟨hmajor, f.isPad hlast hpad, Or.inl (f.lastPad hlast)⟩
        . rw [hcaller] at hd
          contradiction

omit h in
/- What a call has written sends the motion of the call, if the call has one. -/
theorem written_branch {r : Request} {holder : Nat} (hplain : r.Plain)
    (hwritten : s.Written v r holder) (m : Motion)
    : s.branchOf holder = m.branch ↔ r.motion = some m := by
  cases r with
  | relative deltaX deltaY =>
    have hbranch : s.branchOf holder = .relative := hwritten
    rw [hbranch]
    cases m <;> simp [Motion.branch, Request.motion]
  | absolute x y width height =>
    have hbranch : s.branchOf holder = .absolute := hwritten
    rw [hbranch]
    cases m <;> simp [Motion.branch, Request.motion]
  | controller c =>
    have hholder : s.holders holder = controllerHolder v c := hwritten.left
    have hbranch : s.branchOf holder = .latch ∨ s.branchOf holder = .asIs := by
      rw [branchOf, hholder, controllerHolder]
      split <;> simp [Packet.branch]
    rcases hbranch with hbranch | hbranch <;> rw [hbranch] <;> cases m
      <;> simp [Motion.branch, Request.motion]
  | packet p =>
    have hholder : s.holders holder = p := hwritten
    have hbranch : p.packet.branch = .asIs := hplain
    rw [branchOf, hholder, hbranch]
    cases m <;> simp [Motion.branch, Request.motion]
  | scroll scrollAmount =>
    have hholder : s.holders holder = scrollHolder s.scrollStep := hwritten
    rw [branchOf, hholder]
    cases m <;> simp [Motion.branch, Request.motion, scrollHolder, Packet.branch]

/- A holder joins the queue, and what it is going to send is accepted. -/
theorem inv_queued {holder : Nat} (hsender : t.sender = s.sender)
    (hqueue : t.packetQueue.items = s.packetQueue.items ++ [holder]) (hsent : t.sent = s.sent)
    (hholders : t.holders = s.holders)
    (hrelative : t.currentRelativeMouseState = s.currentRelativeMouseState)
    (habsolute : t.currentAbsoluteMouseState = s.currentAbsoluteMouseState)
    (hcurrent : t.currentQueuedControllerPacket = s.currentQueuedControllerPacket)
    (haccepted : t.accepted = s.accepted ++ [s.itemOf holder]) (hcaller : t.CallerInv v)
    (hhaptics : ∀ other, t.control = .offering other → t.holders other = hapticsHolder)
    (hmarked : ∀ m, (if t.caller.acceptedMotion = some m then 1 else 0)
      = (if s.caller.acceptedMotion = some m then 1 else 0)
        + (if s.branchOf holder = m.branch then 1 else 0))
    (hcontroller : ∀ c other, s.caller = .offering (.controller c) other
      → other = holder ∨ t.caller = .offering (.controller c) other)
    (hlast : ∀ n other, s.currentQueuedControllerPacket n = some other → s.LastPad n other
      → ∀ c, (s.holders holder).packet = .multiController c → c.controllerNumber ≠ n)
    : t.Inv v := by
  have hpending : t.pending = s.pending ++ [holder] := by
    simp [pending, hsender, hqueue]
  have hitems : t.itemOf = s.itemOf := by
    funext other
    unfold itemOf
    rw [hholders, hrelative, habsolute]
  have hbranches : ∀ other, t.branchOf other = s.branchOf other := by
    intro other
    unfold branchOf
    rw [hholders]
  constructor
  . exact hcaller
  . exact hhaptics
  . intro other hother
    rw [hsender] at hother
    rw [hbranches, h.moving other hother]
  . intro m
    have hmarkers : t.markers m
        = s.markers m + (if s.branchOf holder = m.branch then 1 else 0) := by
      unfold markers
      rw [hpending, List.countP_append]
      simp [hbranches, List.countP_cons]
    have hdirty : t.dirty m = s.dirty m := by
      cases m <;> simp [dirty, hrelative, habsolute]
    rw [hmarkers, h.marked m, hdirty, hmarked m, Nat.add_assoc]
  . intro n other hn
    rw [hcurrent] at hn
    obtain ⟨hmajor, hpad, hplace⟩ := h.current n other hn
    have hpad' : t.IsPad n other := hpad.of_eq (by rw [hholders])
    refine ⟨hmajor, hpad', ?_⟩
    rcases hplace with hbefore | ⟨c, hc⟩
    . have hnew := hlast n other hn hbefore
      obtain ⟨front, back, hfront, hback⟩ := hbefore
      refine Or.inl ⟨front, back ++ [holder], by rw [hpending, hfront]; simp, ?_⟩
      intro o ho d hd
      rw [hholders] at hd
      rw [List.mem_append, List.mem_singleton] at ho
      rcases ho with ho | ho
      . exact hback o ho d hd
      . rw [ho] at hd
        exact hnew d hd
    . rcases hcontroller c other hc with heq | hoffering
      . left
        refine ⟨s.pending, [], by rw [hpending, heq], ?_⟩
        intro o ho
        contradiction
      . exact Or.inr ⟨c, hoffering⟩
  . have hwire : t.wire = s.wire ++ [s.itemOf holder] := by
      simp [wire, hpending, hsent, hsender, hholders, hitems]
    rw [hwire, haccepted]
    exact h.batches.concat _

/- Controller packets have to be accepted. -/
theorem inv_offer {r : Request} {holder : Nat} (howned : s.Owned)
    (hcaller : s.caller = .offering r holder)
    (hroom : ∀ c, r = .controller c → v.major ≠ 3
      → ∃ queue, s.packetQueue.lbqOfferQueueItem holder = .ok queue)
    : (s.offer r holder).Inv v := by
  have hinv := h.caller
  rw [CallerInv, hcaller] at hinv
  obtain ⟨hplain, hclean, hwritten⟩ := hinv
  have hheld : holder ∈ s.caller.holder := by
    simp [hcaller, Caller.holder]
  have hapart := howned.caller_apart hheld
  unfold offer
  cases hoffer : s.packetQueue.lbqOfferQueueItem holder with
  | error code =>
    have f : Frame s { s with caller := .refused r holder } :=
      ⟨rfl, rfl, rfl, rfl, fun _ _ => rfl, Or.inl ⟨rfl, rfl⟩, Or.inl ⟨rfl, rfl, rfl, rfl⟩⟩
    apply f.inv h trivial h.haptics (fun _ hmoving => hmoving)
    . intro m
      rw [hcaller]
      rfl
    . intro n other hn
      obtain ⟨hmajor, hpad, hlast⟩ := h.current n other hn
      rcases hlast with hlast | ⟨c, hc⟩
      . exact ⟨hmajor, f.isPad hlast hpad, Or.inl (f.lastPad hlast)⟩
      . rw [hcaller, Caller.offering.injEq] at hc
        obtain ⟨queue, hqueue⟩ := hroom c hc.left hmajor
        rw [hoffer] at hqueue
        contradiction
  | ok queue =>
    have hqueue := (lbqOfferQueueItem_eq_ok hoffer).right.right.right
    refine inv_queued h rfl (by simp [hqueue]) rfl rfl rfl rfl rfl rfl ?_ h.haptics ?_ ?_ ?_
    . cases r <;> exact hclean
    . intro m
      have hbranch := written_branch hplain hwritten m
      cases Decidable.em (r.motion = some m) with
      | inl hr => simp [hcaller, Caller.acceptedMotion, hr, hbranch.mpr hr]
      | inr hr => simp [hcaller, Caller.acceptedMotion, hr, mt hbranch.mp hr]
    . intro c other hc
      rw [hcaller, Caller.offering.injEq] at hc
      exact Or.inl hc.right.symm
    . intro n other hn hlast c hc hnumber
      cases r with
      | controller d =>
        have hholder : s.holders holder = controllerHolder v d := hwritten.left
        obtain ⟨hmajor, _⟩ := h.current n other hn
        rw [hholder, controllerHolder_packet hmajor, Packet.multiController.injEq] at hc
        have hmine := hwritten.right hmajor
        rw [hc, hnumber, hn, Option.some.injEq] at hmine
        obtain ⟨front, back, hfront, _⟩ := hlast
        apply hapart
        apply pending_subset
        rw [hfront, hmine]
        simp
      | relative deltaX deltaY =>
        have hbranch : s.branchOf holder = .relative := hwritten
        rw [branchOf, hc] at hbranch
        contradiction
      | absolute x y width height =>
        have hbranch : s.branchOf holder = .absolute := hwritten
        rw [branchOf, hc] at hbranch
        contradiction
      | packet p =>
        have hholder : s.holders holder = p := hwritten
        have hbranch : p.packet.branch = .asIs := hplain
        rw [← hholder, hc] at hbranch
        contradiction
      | scroll scrollAmount =>
        have hholder : s.holders holder = scrollHolder s.scrollStep := hwritten
        rw [hholder] at hc
        contradiction

theorem inv_accept {r : Request} (hcaller : s.caller = .accepted r) : (s.accept r).Inv v := by
  have hclean : s.Clean r := by
    have hinv := h.caller
    rw [CallerInv, hcaller] at hinv
    exact hinv
  have hnot : ∀ (t : State) c holder, s.caller = .offering (.controller c) holder
      → t.caller = .offering (.controller c) holder ∧ t.holders holder = s.holders holder := by
    intro t c holder hc
    rw [hcaller] at hc
    contradiction
  have hgo : ∀ (c : Caller) (delta : Int32), r.motion = none → c.acceptedMotion = none
      → { s with caller := c, batchedScrollDelta := delta }.CallerInv v
      → { s with caller := c, batchedScrollDelta := delta }.Inv v := by
    intro c delta hr hc hinv
    have f : Frame s { s with caller := c, batchedScrollDelta := delta } :=
      ⟨rfl, rfl, rfl, rfl, fun _ _ => rfl, Or.inl ⟨rfl, rfl⟩, Or.inl ⟨rfl, rfl, rfl, rfl⟩⟩
    apply f.inv h hinv h.haptics (fun _ hmoving => hmoving)
    . intro m
      have hbefore : (Caller.accepted r).acceptedMotion = none := hr
      rw [hcaller]
      simp only [hc, hbefore]
      rfl
    . exact f.current h rfl (hnot _)
  unfold accept
  cases r with
  | relative deltaX deltaY =>
    have f : Frame s { s with
        caller := .idle
        currentRelativeMouseState := { s.currentRelativeMouseState with dirty := true } } :=
      ⟨rfl, rfl, rfl, rfl, fun _ _ => rfl, Or.inl ⟨rfl, rfl⟩, Or.inl ⟨rfl, rfl, rfl, rfl⟩⟩
    apply f.inv h trivial h.haptics (fun _ hmoving => hmoving)
    . intro m
      have hdirty : s.currentRelativeMouseState.dirty = false := hclean
      rw [hcaller]
      cases m with
      | relative => simp [dirty, Caller.acceptedMotion, Request.motion, hdirty]
      | absolute => rfl
    . exact f.current h rfl (hnot _)
  | absolute x y width height =>
    have f : Frame s { s with
        caller := .idle
        currentAbsoluteMouseState := { s.currentAbsoluteMouseState with dirty := true } } :=
      ⟨rfl, rfl, rfl, rfl, fun _ _ => rfl, Or.inl ⟨rfl, rfl⟩, Or.inl ⟨rfl, rfl, rfl, rfl⟩⟩
    apply f.inv h trivial h.haptics (fun _ hmoving => hmoving)
    . intro m
      have hdirty : s.currentAbsoluteMouseState = ⟨x, y, width, height, false⟩ := hclean
      rw [hcaller]
      cases m with
      | relative => rfl
      | absolute => simp [dirty, Caller.acceptedMotion, Request.motion, hdirty]
    . exact f.current h rfl (hnot _)
  | controller c => exact hgo .idle s.batchedScrollDelta rfl rfl trivial
  | packet p => exact hgo .idle s.batchedScrollDelta rfl rfl trivial
  | scroll scrollAmount =>
    simp only
    obtain ⟨c, hloop, hcase⟩ := scrollLoop_eq { s with batchedScrollDelta := _ } scrollAmount
    rw [hloop]
    rcases hcase with ⟨_, hc⟩ | ⟨_, hc⟩
    . rw [hc]
      exact hgo _ _ rfl rfl ⟨trivial, trivial⟩
    . rw [hc]
      exact hgo _ _ rfl rfl trivial

theorem inv_callerStep {malloc : Bool} (howned : s.Owned) (hfits : s.SumsFit)
    (hroom : ∀ c holder, s.caller = .offering (.controller c) holder → v.major ≠ 3
      → ∃ queue, s.packetQueue.lbqOfferQueueItem holder = .ok queue)
    (hstep : s.callerStep v malloc = some t)
    : t.Inv v := by
  unfold callerStep at hstep
  cases hcaller : s.caller with
  | idle => simp [hcaller] at hstep
  | entering r =>
    simp only [hcaller] at hstep
    exact inv_enter h howned hcaller hfits hstep
  | allocating r =>
    simp only [hcaller, Option.some.injEq] at hstep
    rw [← hstep]
    exact inv_allocate h howned malloc hcaller
  | writing c holder =>
    simp only [hcaller, Option.some.injEq] at hstep
    rw [← hstep]
    exact inv_writeController h howned hcaller
  | offering r holder =>
    simp only [hcaller, Option.some.injEq] at hstep
    rw [← hstep]
    apply inv_offer h howned hcaller
    intro c hc
    rw [hc] at hcaller
    exact hroom c holder hcaller
  | accepted r =>
    simp only [hcaller, Option.some.injEq] at hstep
    rw [← hstep]
    exact inv_accept h hcaller
  | refused r holder =>
    simp only [hcaller, Option.some.injEq] at hstep
    obtain ⟨list, hfree, _⟩ := freePacketHolder_eq s holder
    rw [← hstep, hfree]
    have f : Frame s { s with packetHolderFreeList := list, caller := .idle } :=
      ⟨rfl, rfl, rfl, rfl, fun _ _ => rfl, Or.inl ⟨rfl, rfl⟩, Or.inl ⟨rfl, rfl, rfl, rfl⟩⟩
    apply f.inv h trivial h.haptics (fun _ hmoving => hmoving)
    . intro m
      rw [hcaller]
      rfl
    . apply f.current h rfl
      intro c other hc
      rw [hcaller] at hc
      contradiction

/-
The start and the stop of the stream.
-/

omit h in
theorem callerInv_of_same (hinv : s.CallerInv v) (hcaller : t.caller = s.caller)
    (hrelative : t.currentRelativeMouseState = s.currentRelativeMouseState)
    (habsolute : t.currentAbsoluteMouseState = s.currentAbsoluteMouseState)
    (hcurrent : t.currentQueuedControllerPacket = s.currentQueuedControllerPacket)
    (hscroll : t.batchedScrollDelta = s.batchedScrollDelta)
    (hholders : ∀ holder, holder ∈ s.caller.holder → t.holders holder = s.holders holder)
    : t.CallerInv v := by
  have hclean : ∀ r, s.Clean r → t.Clean r := by
    intro r hr
    cases r <;> simp only [Clean, hrelative, habsolute] at hr ⊢ <;> exact hr
  unfold CallerInv at hinv ⊢
  rw [hcaller]
  cases hc : s.caller with
  | allocating r =>
    rw [hc] at hinv
    exact ⟨hinv.left, hclean r hinv.right⟩
  | offering r holder =>
    rw [hc] at hinv
    have hholder := hholders holder (by simp [hc, Caller.holder])
    refine ⟨hinv.left, hclean r hinv.right.left, ?_⟩
    have hwritten := hinv.right.right
    unfold Written branchOf scrollStep at hwritten ⊢
    rw [hholder, hcurrent, hscroll]
    exact hwritten
  | accepted r =>
    rw [hc] at hinv
    exact hclean r hinv
  | entering r =>
    rw [hc] at hinv
    exact hinv
  | _ => trivial

theorem inv_controlStep {malloc : Bool} (howned : s.Owned)
    (hstep : s.controlStep v malloc = some t)
    : t.Inv v := by
  -- a step that touches neither the queue nor the contents of a holder in use
  have hgo : ∀ u : State, u.caller = s.caller → u.sender = s.sender
      → u.packetQueue.items = s.packetQueue.items → u.sent = s.sent → u.accepted = s.accepted
      → u.currentQueuedControllerPacket = s.currentQueuedControllerPacket
      → u.currentRelativeMouseState = s.currentRelativeMouseState
      → u.currentAbsoluteMouseState = s.currentAbsoluteMouseState
      → u.batchedScrollDelta = s.batchedScrollDelta
      → (∀ holder, holder ∈ s.sender.holder ++ s.packetQueue.items ++ s.caller.holder
        → u.holders holder = s.holders holder)
      → (∀ holder, u.control = .offering holder → u.holders holder = hapticsHolder)
      → u.Inv v := by
    intro u hcaller hsender hqueue hsent haccepted hcurrent hrelative habsolute hscroll hholders
      hhaptics
    have f : Frame s u := by
      refine ⟨?_, by rw [hsender], hsent, haccepted, ?_, Or.inl ?_, Or.inl ?_⟩
      . simp [pending, hsender, hqueue]
      . intro holder hholder
        apply hholders
        rw [List.mem_append]
        exact Or.inl hholder
      . simp [hrelative]
      . simp [habsolute]
    apply f.inv h
    . apply callerInv_of_same h.caller hcaller hrelative habsolute hcurrent hscroll
      intro holder hholder
      apply hholders
      simp [hholder]
    . exact hhaptics
    . intro holder hholder
      rw [← hsender, hholder]
    . intro m
      have hdirty : u.dirty m = s.dirty m := by
        cases m <;> simp [dirty, hrelative, habsolute]
      rw [hdirty, hcaller]
    . apply f.current h hcurrent
      intro c holder hc
      refine ⟨by rw [hcaller, hc], ?_⟩
      apply hholders
      simp [hc, Caller.holder]
  unfold controlStep at hstep
  cases hcontrol : s.control with
  | starting =>
    simp only [hcontrol, Option.some.injEq] at hstep
    rw [← hstep]
    refine hgo _ rfl rfl rfl rfl rfl rfl rfl rfl rfl (fun _ _ => rfl) ?_
    intro holder hholder
    simp only at hholder
    split at hholder <;> contradiction
  | enabling =>
    simp only [hcontrol, Option.some.injEq] at hstep
    rw [← hstep]
    unfold enableHaptics
    cases halloc : s.allocatePacketHolder malloc with
    | mk result u =>
      cases result with
      | none =>
        rw [allocatePacketHolder_eq_none halloc]
        refine hgo _ rfl rfl rfl rfl rfl rfl rfl rfl rfl (fun _ _ => rfl) ?_
        intro holder hholder
        contradiction
      | some holder =>
        have hapart := howned.allocated_apart halloc
        obtain ⟨list, n, hu, _⟩ := allocatePacketHolder_eq_some halloc
        rw [hu]
        refine hgo _ rfl rfl rfl rfl rfl rfl rfl rfl rfl ?_ ?_
        . intro other hother
          have hne : other ≠ holder := by
            intro heq
            rw [heq] at hother
            rw [List.mem_append, not_or] at hapart
            exact hapart.left hother
          simp [write, hne]
        . intro other hother
          rw [Control.offering.injEq] at hother
          simp [write, hother]
  | offering holder =>
    simp only [hcontrol, Option.some.injEq] at hstep
    rw [← hstep]
    unfold offerHaptics
    have hholder := h.haptics holder hcontrol
    cases hoffer : s.packetQueue.lbqOfferQueueItem holder with
    | error code =>
      refine hgo _ rfl rfl rfl rfl rfl rfl rfl rfl rfl (fun _ _ => rfl) ?_
      intro other hother
      contradiction
    | ok queue =>
      have hqueue := (lbqOfferQueueItem_eq_ok hoffer).right.right.right
      refine inv_queued h rfl (by simp [hqueue]) rfl rfl rfl rfl rfl rfl h.caller ?_ ?_ ?_ ?_
      . intro other hother
        contradiction
      . intro m
        have hbranch : s.branchOf holder ≠ m.branch := by
          rw [branchOf, hholder]
          cases m <;> simp [hapticsHolder, Packet.branch, Motion.branch]
        simp [hbranch]
      . intro c other hc
        exact Or.inr hc
      . intro n other _ _ c hc
        rw [hholder] at hc
        contradiction
  | refused holder =>
    simp only [hcontrol, Option.some.injEq] at hstep
    obtain ⟨list, hfree, _⟩ := freePacketHolder_eq s holder
    rw [← hstep, hfree]
    refine hgo _ rfl rfl rfl rfl rfl rfl rfl rfl rfl (fun _ _ => rfl) ?_
    intro other hother
    contradiction
  | joining =>
    simp only [hcontrol] at hstep
    split at hstep
    . rw [← Option.some.inj hstep]
      refine hgo _ rfl rfl rfl rfl rfl rfl rfl rfl rfl (fun _ _ => rfl) ?_
      intro other hother
      contradiction
    . contradiction
  | stopped => simp [hcontrol] at hstep
  | _ =>
    simp only [hcontrol, Option.some.injEq] at hstep
    rw [← hstep]
    refine hgo _ rfl rfl rfl rfl rfl rfl rfl rfl rfl (fun _ _ => rfl) ?_
    intro other hother
    contradiction

end

end State
end Stream
end Input

import PS3Moonlight.Input.SendCalls
import PS3Moonlight.Input.SendCurrent

/-!
This module contains the steps of the send thread, and what it makes of the calls: every event in
its order, and mouse motion and controller states batched in between, so that no event arrives
before what was asked for before it.
-/

namespace Input
namespace Stream

open Connection
open Threads
open LinkedBlockingQueue

namespace State

/-
The send thread.
-/

section

variable {v : AppVersionQuad} {s t : State} (h : s.Inv v)

include h

omit h in
theorem mutexHeld_of_acceptedMotion {m : Motion} (hm : s.caller.acceptedMotion = some m)
    : s.mutexHeld = true := by
  unfold mutexHeld
  cases hcaller : s.caller with
  | accepted r =>
    rw [hcaller] at hm
    cases r <;> simp_all [Caller.acceptedMotion, Request.motion, Request.isMotion]
  | _ =>
    rw [hcaller] at hm
    contradiction

/- Nothing that another thread holds is changed. -/
theorem callerInv_of_sender (howned : s.Owned) {holder : Nat} (hheld : holder ∈ s.sender.holder)
    (hcaller : t.caller = s.caller) (hscroll : t.batchedScrollDelta = s.batchedScrollDelta)
    (hholders : ∀ other, other ≠ holder → t.holders other = s.holders other)
    (hclean : ∀ r, s.Clean r → t.Clean r)
    (hcurrent : ∀ c other, s.caller = .offering (.controller c) other
      → s.currentQueuedControllerPacket c.controllerNumber = some other
      → t.currentQueuedControllerPacket c.controllerNumber = some other)
    : t.CallerInv v := by
  have hinv := h.caller
  have hapart := howned.sender_apart hheld
  simp only [List.mem_append, not_or] at hapart
  unfold CallerInv at hinv ⊢
  rw [hcaller]
  cases hc : s.caller with
  | allocating r =>
    rw [hc] at hinv
    exact ⟨hinv.left, hclean r hinv.right⟩
  | offering r other =>
    rw [hc] at hinv
    obtain ⟨hplain, hcleanr, hwritten⟩ := hinv
    have hne : other ≠ holder := by
      intro heq
      apply hapart.left.right
      rw [hc, ← heq]
      simp [Caller.holder]
    have hsame := hholders other hne
    refine ⟨hplain, hclean r hcleanr, ?_⟩
    cases r with
    | controller c =>
      refine ⟨by rw [hsame]; exact hwritten.left, ?_⟩
      intro hmajor
      exact hcurrent c other hc (hwritten.right hmajor)
    | _ =>
      unfold Written branchOf scrollStep at hwritten ⊢
      rw [hsame]
      first
        | exact hwritten
        | (rw [hscroll]; exact hwritten)
  | accepted r =>
    rw [hc] at hinv
    exact hclean r hinv
  | entering r =>
    rw [hc] at hinv
    exact hinv
  | _ => trivial

/- The holder that was taken from the queue is not to come any more. -/
theorem inv_left (howned : s.Owned) {holder : Nat} (htook : s.sender = .took holder)
    (hsender : t.sender.pending = []) (hmoving : ∀ other, t.sender ≠ .sendingMove other)
    (hqueue : t.packetQueue = s.packetQueue) (hcontrol : t.control = s.control)
    (hcaller : t.caller = s.caller) (hscroll : t.batchedScrollDelta = s.batchedScrollDelta)
    (hholders : ∀ other, other ≠ holder → t.holders other = s.holders other)
    (hclean : ∀ r, s.Clean r → t.Clean r)
    (hmarked : ∀ m, (if t.dirty m then 1 else 0) + (if s.branchOf holder = m.branch then 1 else 0)
      = if s.dirty m then 1 else 0)
    (hcurrent : ∀ n other, t.currentQueuedControllerPacket n = some other
      ↔ s.currentQueuedControllerPacket n = some other ∧ other ≠ holder)
    (hbatches : Batches t.accepted t.wire)
    : t.Inv v := by
  have hheld : holder ∈ s.sender.holder := by
    simp [htook, Sender.holder]
  have hapart := howned.sender_apart hheld
  simp only [List.mem_append, not_or] at hapart
  have hne : ∀ other, other ∈ s.packetQueue.items → other ≠ holder := by
    intro other hother heq
    rw [heq] at hother
    exact hapart.left.left hother
  have hbefore : s.pending = holder :: s.packetQueue.items := by
    simp [pending, htook, Sender.pending]
  have hpending : t.pending = s.packetQueue.items := by
    simp [pending, hsender, hqueue]
  constructor
  . apply callerInv_of_sender h howned hheld hcaller hscroll hholders hclean
    intro c other hc hmine
    refine (hcurrent _ _).mpr ⟨hmine, ?_⟩
    intro heq
    apply hapart.left.right
    rw [hc, heq]
    simp [Caller.holder]
  . intro other hother
    rw [hcontrol] at hother
    have hother' : other ≠ holder := by
      intro heq
      apply hapart.right
      rw [hother, heq]
      simp [Control.holder]
    rw [hholders other hother', h.haptics other hother]
  . intro other hother
    exact absurd hother (hmoving other)
  . intro m
    have hmarkers : t.markers m + (if s.branchOf holder = m.branch then 1 else 0) = s.markers m := by
      unfold markers
      rw [hpending, hbefore, List.countP_cons]
      have hcount : s.packetQueue.items.countP (fun other => decide (t.branchOf other = m.branch))
          = s.packetQueue.items.countP (fun other => decide (s.branchOf other = m.branch)) := by
        apply List.countP_congr
        intro other hother
        have hbranch : t.branchOf other = s.branchOf other := by
          unfold branchOf
          rw [hholders other (hne other hother)]
        rw [hbranch]
      rw [hcount]
      simp
    have hm := hmarked m
    rw [h.marked m] at hmarkers
    rw [hcaller]
    omega
  . intro n other hn
    obtain ⟨hn, hother⟩ := (hcurrent n other).mp hn
    obtain ⟨hmajor, hpad, hplace⟩ := h.current n other hn
    have hpad' : t.IsPad n other := hpad.of_eq (hholders other hother)
    refine ⟨hmajor, hpad', ?_⟩
    rcases hplace with ⟨front, back, hfront, hback⟩ | ⟨c, hc⟩
    . cases front with
      | nil =>
        rw [hbefore, List.nil_append, List.cons.injEq] at hfront
        exact absurd hfront.left.symm hother
      | cons first front =>
        rw [hbefore, List.cons_append, List.cons.injEq] at hfront
        refine Or.inl ⟨front, back, by rw [hpending, hfront.right], ?_⟩
        intro o ho c hc
        have hin : o ∈ s.packetQueue.items := by
          rw [hfront.right]
          simp [ho]
        rw [hholders o (hne o hin)] at hc
        exact hback o ho c hc
    . exact Or.inr ⟨c, by rw [hcaller, hc]⟩
  . exact hbatches

omit h in
/- The holder goes out as it is now. -/
theorem wire_sending {holder : Nat} (htook : s.sender = .took holder)
    (hsender : t.sender = .sending holder) (hqueue : t.packetQueue = s.packetQueue)
    (hsent : t.sent = s.sent) (hitem : (t.holders holder).item = s.itemOf holder)
    (hitems : ∀ other, other ∈ s.packetQueue.items → t.itemOf other = s.itemOf other)
    : t.wire = s.wire := by
  have hrest : s.packetQueue.items.map t.itemOf = s.packetQueue.items.map s.itemOf := by
    apply List.map_congr_left
    exact hitems
  simp [wire, pending, hsender, htook, hsent, hqueue, Sender.pending, Sender.inFlight, hitem, hrest]

theorem inv_asIs {holder : Nat} (howned : s.Owned) (htook : s.sender = .took holder)
    (hbranch : s.branchOf holder = .asIs)
    : { s with sender := .sending holder }.Inv v := by
  have hmotion : ∀ m : Motion, s.branchOf holder ≠ m.branch := by
    intro m
    rw [hbranch]
    cases m <;> simp [Motion.branch]
  refine inv_left h howned htook rfl ?_ rfl rfl rfl rfl (fun _ _ => rfl) ?_ ?_ ?_ ?_
  . intro other
    simp
  . intro r hr
    cases r <;> exact hr
  . intro m
    rw [if_neg (hmotion m)]
    cases m <;> rfl
  . intro n other
    refine ⟨fun hn => ⟨hn, ?_⟩, fun hn => hn.left⟩
    intro heq
    obtain ⟨_, ⟨c, hc, _⟩, _⟩ := h.current n other hn
    rw [heq] at hc
    rw [branchOf, hc] at hbranch
    contradiction
  . have hitem : (s.holders holder).item = s.itemOf holder := by
      rw [itemOf_eq_item] <;> simp [hbranch]
    have hwire : { s with sender := .sending holder }.wire = s.wire :=
      wire_sending htook rfl rfl rfl hitem (fun _ _ => rfl)
    rw [hwire]
    exact h.batches

theorem inv_latch {holder : Nat} {c : MultiController} (howned : s.Owned)
    (htook : s.sender = .took holder)
    (hpacket : (s.holders holder).packet = .multiController c)
    : (s.latch holder c.controllerNumber).Inv v := by
  have hbranch : ∀ m : Motion, s.branchOf holder ≠ m.branch := by
    intro m
    rw [branchOf, hpacket]
    cases m <;> simp [Packet.branch, Motion.branch]
  -- the holder is current for its own controller only
  have hnumber : ∀ n, s.currentQueuedControllerPacket n = some holder → c.controllerNumber = n := by
    intro n hn
    obtain ⟨_, ⟨d, hd, hdn⟩, _⟩ := h.current n holder hn
    rw [hpacket, Packet.multiController.injEq] at hd
    rw [hd, hdn]
  unfold latch
  refine inv_left h howned htook rfl ?_ rfl rfl rfl rfl (fun _ _ => rfl) ?_ ?_ ?_ ?_
  . intro other
    simp
  . intro r hr
    cases r <;> exact hr
  . intro m
    rw [if_neg (hbranch m)]
    cases m <;> rfl
  . intro n other
    simp only
    split
    . next hcurrent =>
      cases Decidable.em (n = c.controllerNumber) with
      | inl heq =>
        rw [heq, Function.update_self, hcurrent]
        constructor
        . intro hn
          contradiction
        . intro hn
          exact absurd (Option.some.inj hn.left).symm hn.right
      | inr hne =>
        rw [Function.update_of_ne hne]
        refine ⟨fun hn => ⟨hn, ?_⟩, fun hn => hn.left⟩
        intro heq
        rw [heq] at hn
        exact hne (hnumber n hn).symm
    . next hcurrent =>
      refine ⟨fun hn => ⟨hn, ?_⟩, fun hn => hn.left⟩
      intro heq
      rw [heq] at hn
      rw [hnumber n hn] at hcurrent
      exact hcurrent hn
  . have hitem : (s.holders holder).item = s.itemOf holder := by
      rw [itemOf_pad hpacket, PacketHolder.item, hpacket]
    have hwire : (s.latch holder c.controllerNumber).wire = s.wire :=
      wire_sending htook rfl rfl rfl hitem (fun _ _ => rfl)
    unfold latch at hwire
    rw [hwire]
    exact h.batches

/- While the mutex is free, a holder that waits to carry the motion is the only one. -/
theorem only_marker {holder : Nat} {m : Motion} (hpending : holder ∈ s.pending)
    (hbranch : s.branchOf holder = m.branch) (hmutex : s.mutexHeld = false)
    : s.dirty m = true ∧ ∀ other, other ≠ holder → other ∈ s.pending → s.branchOf other ≠ m.branch := by
  have hfree : s.caller.acceptedMotion ≠ some m := by
    intro hm
    rw [mutexHeld_of_acceptedMotion hm] at hmutex
    contradiction
  have hmarkers := h.marked m
  rw [if_neg hfree] at hmarkers
  have hpos : 0 < s.markers m := by
    unfold markers
    rw [List.countP_pos_iff]
    exact ⟨holder, hpending, by simp [hbranch]⟩
  have hdirty : s.dirty m = true := by
    cases hd : s.dirty m with
    | true => rfl
    | false =>
      rw [hd] at hmarkers
      simp at hmarkers
      omega
  have hone : s.markers m = 1 := by
    rw [hmarkers, hdirty]
    rfl
  refine ⟨hdirty, ?_⟩
  obtain ⟨before, marker, after, hsplit, _, hrest⟩ := exists_marker hone
  have heq : ∀ other, other ∈ s.pending → s.branchOf other = m.branch → other = marker := by
    intro other hother hbad
    rw [hsplit, List.mem_append, List.mem_cons] at hother
    rcases hother with ho | ho | ho
    . exact absurd hbad (hrest other (by simp [ho]))
    . exact ho
    . exact absurd hbad (hrest other (by simp [ho]))
  intro other hne hother hbad
  exact hne ((heq other hother hbad).trans (heq holder hpending hbranch).symm)

/- A holder that carries motion is nobody's current packet. -/
theorem not_current {n holder : Nat} {m : Motion} (hbranch : s.branchOf holder = m.branch)
    : s.currentQueuedControllerPacket n ≠ some holder := by
  intro hn
  obtain ⟨_, ⟨c, hc, _⟩, _⟩ := h.current n holder hn
  rw [branchOf, hc] at hbranch
  cases m <;> contradiction

theorem inv_fillAbsolute {holder : Nat} (howned : s.Owned) (htook : s.sender = .took holder)
    (hbranch : s.branchOf holder = .absolute) (hmutex : s.mutexHeld = false)
    : (s.fillAbsolute holder).Inv v := by
  have hmine : holder ∈ s.pending := by
    simp [pending, htook, Sender.pending]
  have hheld : holder ∈ s.sender.holder := by
    simp [htook, Sender.holder]
  have hmotion : s.branchOf holder = Motion.absolute.branch := hbranch
  obtain ⟨hdirty, hothers⟩ := only_marker h hmine hmotion hmutex
  have hapart := howned.sender_apart hheld
  simp only [List.mem_append, not_or] at hapart
  have hwire : (s.fillAbsolute holder).wire = s.wire := by
    refine wire_sending htook (by rfl) (by rfl) (by rfl) ?_ ?_
    . rw [itemOf_absolute hbranch]
      simp [fillAbsolute, write, PacketHolder.item]
    . intro other hother
      have hne : other ≠ holder := by
        intro heq
        rw [heq] at hother
        exact hapart.left.left hother
      refine itemOf_of_ne_absolute ?_ (by rfl) (hothers other hne (by simp [pending, hother]))
      simp [fillAbsolute, write, hne]
  refine inv_left h howned htook rfl ?_ rfl rfl rfl rfl ?_ ?_ ?_ ?_ ?_
  . intro other
    simp [fillAbsolute]
  . intro other hne
    simp [fillAbsolute, write, hne]
  . intro r hr
    cases r with
    | absolute x y width height =>
      have hsame : s.currentAbsoluteMouseState = ⟨x, y, width, height, false⟩ := hr
      simp [Clean, fillAbsolute, hsame]
    | _ => exact hr
  . intro m
    cases m with
    | relative =>
      rw [hbranch]
      rfl
    | absolute =>
      rw [hdirty, if_pos hmotion]
      rfl
  . intro n other
    refine ⟨fun hn => ⟨hn, ?_⟩, fun hn => hn.left⟩
    intro heq
    rw [heq] at hn
    exact not_current h hmotion hn
  . rw [hwire]
    exact h.batches

omit h in
theorem splitDelta_sum (delta : Int32)
    : (splitDelta delta).fst.toInt + (splitDelta delta).snd.toInt = delta.toInt := by
  have hmin : (-32768 : Int32).toInt = -32768 := rfl
  have hmax : (32767 : Int32).toInt = 32767 := rfl
  have hrange := delta.le_toInt
  have hlt := delta.toInt_lt
  unfold splitDelta
  simp only [Int32.lt_iff_toInt_lt, hmin, hmax]
  split
  . have hchunk : (-32768 : Int16).toInt = -32768 := rfl
    have hstep : (32768 : Int32).toInt = 32768 := rfl
    simp only [hchunk]
    rw [Int32.toInt_add, hstep, Int.bmod_eq_of_le (by omega) (by omega)]
    omega
  . split
    . have hchunk : (32767 : Int16).toInt = 32767 := rfl
      simp only [hchunk]
      rw [Int32.toInt_sub, hmax, Int.bmod_eq_of_le (by omega) (by omega)]
      omega
    . have hnone : (0 : Int32).toInt = 0 := rfl
      simp only [hnone, Int.add_zero, Int32.toInt_toInt16]
      exact Int.bmod_eq_of_le (by omega) (by omega)

/- A chunk of the motion is on its way, the rest is still to come with the same holder. -/
theorem inv_chunk {holder : Nat} {x y : Int16 × Int32} (howned : s.Owned)
    (htook : s.sender = .took holder) (hbranch : s.branchOf holder = .relative)
    (hothers : ∀ other, other ∈ s.packetQueue.items → s.branchOf other ≠ .relative)
    (hx : x.fst.toInt + x.snd.toInt = s.currentRelativeMouseState.deltaX.toInt)
    (hy : y.fst.toInt + y.snd.toInt = s.currentRelativeMouseState.deltaY.toInt)
    : { s.write holder ⟨(s.holders holder).channelId, .mouseMoveRel x.fst y.fst⟩ with
        currentRelativeMouseState :=
          { s.currentRelativeMouseState with deltaX := x.snd, deltaY := y.snd }
        sender := .sendingMove holder }.Inv v := by
  generalize ht : { s.write holder ⟨(s.holders holder).channelId, .mouseMoveRel x.fst y.fst⟩ with
    currentRelativeMouseState :=
      { s.currentRelativeMouseState with deltaX := x.snd, deltaY := y.snd }
    sender := .sendingMove holder } = t
  have hheld : holder ∈ s.sender.holder := by
    simp [htook, Sender.holder]
  have hapart := howned.sender_apart hheld
  simp only [List.mem_append, not_or] at hapart
  have hholders : ∀ other, other ≠ holder → t.holders other = s.holders other := by
    intro other hne
    simp [← ht, write, hne]
  have hholder : (t.holders holder).packet = .mouseMoveRel x.fst y.fst := by
    simp [← ht, write]
  have hne : ∀ other, other ∈ s.packetQueue.items → other ≠ holder := by
    intro other hother heq
    rw [heq] at hother
    exact hapart.left.left hother
  have hbefore : s.pending = [] ++ holder :: s.packetQueue.items := by
    simp [pending, htook, Sender.pending]
  have hpending : t.pending = [] ++ holder :: s.packetQueue.items := by
    simp [pending, ← ht, Sender.pending, write]
  have hbranches : ∀ other, t.branchOf other = s.branchOf other := by
    intro other
    cases Decidable.em (other = holder) with
    | inl heq =>
      rw [heq, hbranch, branchOf, hholder]
      rfl
    | inr hother =>
      unfold branchOf
      rw [hholders other hother]
  have hnotpad : ∀ u : State, u.branchOf holder = .relative
      → ∀ c, (u.holders holder).packet ≠ .multiController c := by
    intro u hu c hc
    rw [branchOf, hc] at hu
    contradiction
  have hpads : ∀ n other, s.IsPad n other → t.holders other = s.holders other := by
    intro n other hpad
    obtain ⟨c, hc, _⟩ := hpad
    apply hholders
    intro heq
    rw [heq] at hc
    exact hnotpad s hbranch c hc
  constructor
  . apply callerInv_of_sender h howned hheld (by rw [← ht]; rfl) (by rw [← ht]; rfl) hholders
    . intro r hr
      rw [← ht]
      cases r <;> exact hr
    . intro c other _ hcurrent
      rw [← ht]
      exact hcurrent
  . intro other hother
    have hcontrol : s.control = .offering other := by
      rw [← ht] at hother
      exact hother
    have hother' : other ≠ holder := by
      intro heq
      apply hapart.right
      rw [hcontrol, heq]
      simp [Control.holder]
    rw [hholders other hother', h.haptics other hcontrol]
  . intro other hother
    rw [← ht] at hother
    rw [← Sender.sendingMove.inj hother, hbranches, hbranch]
  . intro m
    have hmarkers : t.markers m = s.markers m := by
      unfold markers
      rw [hpending, hbefore]
      simp [hbranches]
    rw [hmarkers, h.marked m, ← ht]
    cases m <;> rfl
  . intro n other hn
    have hn' : s.currentQueuedControllerPacket n = some other := by
      rw [← ht] at hn
      exact hn
    obtain ⟨hmajor, hpad, hplace⟩ := h.current n other hn'
    have hpad' : t.IsPad n other := hpad.of_eq (hpads n other hpad)
    refine ⟨hmajor, hpad', ?_⟩
    rcases hplace with ⟨front, back, hfront, hback⟩ | ⟨c, hc⟩
    . refine Or.inl ⟨front, back, by rw [hpending, ← hbefore, hfront], ?_⟩
      intro o ho c hc
      apply hback o ho c
      rw [← hc, hholders]
      intro heq
      rw [heq] at hc
      exact hnotpad t (by rw [hbranches, hbranch]) c hc
    . refine Or.inr ⟨c, ?_⟩
      rw [← ht]
      exact hc
  . have hbatches := h.batches
    rw [wire_split hbefore, itemOf_relative hbranch] at hbatches
    have hpieces := hbatches.splitMove
      [.move x.fst.toInt y.fst.toInt, .move x.snd.toInt y.snd.toInt] (by simp) (by
        intro p
        simp only [List.foldl_cons, List.foldl_nil, movePointer, Int.add_assoc, hx, hy])
    have hrest : s.packetQueue.items.map t.itemOf = s.packetQueue.items.map s.itemOf := by
      apply List.map_congr_left
      intro other hother
      refine itemOf_of_ne_relative (hholders other (hne other hother)) ?_ (hothers other hother)
      rw [← ht]
      rfl
    have hitem : t.itemOf holder = .move x.snd.toInt y.snd.toInt := by
      rw [itemOf_relative (by rw [hbranches, hbranch]), ← ht]
    have hflight : (t.holders holder).item = .move x.fst.toInt y.fst.toInt := by
      unfold PacketHolder.item
      rw [hholder]
    have hwire : t.wire = s.sent.map PacketHolder.item
        ++ .move x.fst.toInt y.fst.toInt :: .move x.snd.toInt y.snd.toInt
          :: s.packetQueue.items.map s.itemOf := by
      have hsender : t.sender = .sendingMove holder := by rw [← ht]
      have hsent : t.sent = s.sent := by rw [← ht]; rfl
      simp [wire, hpending, hsender, hsent, Sender.inFlight, hitem, hrest, hflight]
    have haccepted : t.accepted = s.accepted := by rw [← ht]; rfl
    rw [hwire, haccepted]
    simpa [htook, Sender.inFlight] using hpieces

theorem inv_relativeRound {holder : Nat} (howned : s.Owned) (htook : s.sender = .took holder)
    (hbranch : s.branchOf holder = .relative) (hmutex : s.mutexHeld = false)
    : (s.relativeRound holder).Inv v := by
  have hmine : holder ∈ s.pending := by
    simp [pending, htook, Sender.pending]
  have hheld : holder ∈ s.sender.holder := by
    simp [htook, Sender.holder]
  have hmotion : s.branchOf holder = Motion.relative.branch := hbranch
  obtain ⟨hdirty, hothers⟩ := only_marker h hmine hmotion hmutex
  have hapart := howned.sender_apart hheld
  simp only [List.mem_append, not_or] at hapart
  have hqueue : ∀ other, other ∈ s.packetQueue.items → s.branchOf other ≠ .relative := by
    intro other hother
    apply hothers
    . intro heq
      rw [heq] at hother
      exact hapart.left.left hother
    . simp [pending, hother]
  unfold relativeRound
  simp only
  split
  . exact inv_chunk h howned htook hbranch hqueue (splitDelta_sum _) (splitDelta_sum _)
  . next hzero =>
    rw [not_or, not_ne_iff, not_ne_iff] at hzero
    refine inv_left h howned htook rfl ?_ rfl rfl rfl rfl (fun _ _ => rfl) ?_ ?_ ?_ ?_
    . intro other
      simp
    . intro r hr
      cases r with
      | relative deltaX deltaY => rfl
      | _ => exact hr
    . intro m
      cases m with
      | relative =>
        rw [hdirty, if_pos hmotion]
        rfl
      | absolute =>
        rw [hbranch]
        rfl
    . intro n other
      refine ⟨fun hn => ⟨hn, ?_⟩, fun hn => hn.left⟩
      intro heq
      rw [heq] at hn
      exact not_current h hmotion hn
    . have hbefore : s.pending = [] ++ holder :: s.packetQueue.items := by
        simp [pending, htook, Sender.pending]
      have hbatches := h.batches
      rw [wire_split hbefore, itemOf_relative hbranch, hzero.left, hzero.right] at hbatches
      -- the motion that is left is none, so nothing has to be sent for it
      have hpieces := hbatches.splitMove [] (by simp) (by
        intro p
        simp [movePointer])
      have hrest : ∀ t : State, t.holders = s.holders
          → t.currentAbsoluteMouseState = s.currentAbsoluteMouseState
          → s.packetQueue.items.map t.itemOf = s.packetQueue.items.map s.itemOf := by
        intro t hholders habsolute
        apply List.map_congr_left
        intro other hother
        exact itemOf_of_ne_relative (by rw [hholders]) habsolute (hqueue other hother)
      unfold wire pending
      simp only
      rw [List.map_append, hrest]
      . simpa [htook, Sender.inFlight, Sender.pending] using hpieces
      . rfl
      . rfl

/- What was being sent has been sent. -/
theorem inv_sent {holder : Nat} {next : Sender} (hflight : s.sender.inFlight = [holder])
    (hpending : next.pending = s.sender.pending) (hnext : next.inFlight = [])
    : { s with sent := s.sent ++ [s.holders holder], sender := next }.Inv v := by
  have hsame : { s with sent := s.sent ++ [s.holders holder], sender := next }.pending
      = s.pending := by
    simp [pending, hpending]
  constructor
  . exact callerInv_of_same h.caller rfl rfl rfl rfl rfl (fun _ _ => rfl)
  . exact h.haptics
  . intro other hother
    have hmoving : next = .sendingMove other := hother
    rw [hmoving] at hnext
    contradiction
  . intro m
    unfold markers
    rw [hsame]
    exact h.marked m
  . intro n other hn
    obtain ⟨hmajor, hpad, hplace⟩ := h.current n other hn
    refine ⟨hmajor, hpad, ?_⟩
    rcases hplace with ⟨front, back, hfront, hback⟩ | hoffering
    . exact Or.inl ⟨front, back, by rw [hsame, hfront], hback⟩
    . exact Or.inr hoffering
  . have hwire : { s with sent := s.sent ++ [s.holders holder], sender := next }.wire = s.wire := by
      unfold wire
      rw [hsame]
      simp only [hflight, hnext, List.map_append, List.map_cons, List.map_nil, List.append_nil]
      rfl
    rw [hwire]
    exact h.batches

theorem inv_process {holder : Nat} (howned : s.Owned) (htook : s.sender = .took holder)
    (hstep : s.process holder = some t)
    : t.Inv v := by
  unfold process at hstep
  split at hstep
  . next c hpacket =>
    split at hstep
    . contradiction
    . rw [← Option.some.inj hstep]
      exact inv_latch h howned htook hpacket
  . next hpacket =>
    split at hstep
    . contradiction
    . next hmutex =>
      rw [← Option.some.inj hstep]
      apply inv_relativeRound h howned htook _ (by simpa using hmutex)
      rw [branchOf, hpacket]
      rfl
  . next hpacket =>
    split at hstep
    . contradiction
    . next hmutex =>
      rw [← Option.some.inj hstep]
      apply inv_fillAbsolute h howned htook _ (by simpa using hmutex)
      rw [branchOf, hpacket]
      rfl
  . next hpad hrelative habsolute =>
    rw [← Option.some.inj hstep]
    apply inv_asIs h howned htook
    unfold branchOf
    cases hpacket : (s.holders holder).packet with
    | multiController c => exact absurd hpacket (hpad c)
    | mouseMoveRel x y => exact absurd hpacket (hrelative x y)
    | mouseMoveAbs x y width height => exact absurd hpacket (habsolute x y width height)
    | _ => rfl

/- The send thread passes between two packets, the wire stays as it is. -/
theorem inv_between (hcaller : t.caller = s.caller)
    (hrelative : t.currentRelativeMouseState = s.currentRelativeMouseState)
    (habsolute : t.currentAbsoluteMouseState = s.currentAbsoluteMouseState)
    (hcurrent : t.currentQueuedControllerPacket = s.currentQueuedControllerPacket)
    (hscroll : t.batchedScrollDelta = s.batchedScrollDelta) (hholders : t.holders = s.holders)
    (hpending : t.pending = s.pending) (hsent : t.sent = s.sent) (haccepted : t.accepted = s.accepted)
    (hcontrol : t.control = s.control) (hflight : s.sender.inFlight = [])
    (hflight' : t.sender.inFlight = [])
    : t.Inv v := by
  have f : Frame s t := by
    refine ⟨hpending, by rw [hflight, hflight'], hsent, haccepted, ?_, Or.inl ?_, Or.inl ?_⟩
    . intro holder _
      rw [hholders]
    . simp [hrelative]
    . simp [habsolute]
  apply f.inv h
  . exact callerInv_of_same h.caller hcaller hrelative habsolute hcurrent hscroll
      (fun _ _ => by rw [hholders])
  . intro holder hholder
    rw [hholders]
    rw [hcontrol] at hholder
    exact h.haptics holder hholder
  . intro holder hholder
    rw [hholder] at hflight'
    contradiction
  . intro m
    have hdirty : t.dirty m = s.dirty m := by
      cases m <;> simp [dirty, hrelative, habsolute]
    rw [hdirty, hcaller]
  . apply f.current h hcurrent
    intro c holder hc
    rw [hcaller, hholders]
    exact ⟨hc, rfl⟩

theorem inv_senderStep {ok : Bool} (howned : s.Owned) (hok : s.sender.inFlight = [] ∨ ok = true)
    (hstep : s.senderStep ok = some t)
    : t.Inv v := by
  unfold senderStep at hstep
  cases hsender : s.sender with
  | waiting =>
    simp only [hsender] at hstep
    cases hwait : s.packetQueue.lbqWaitForQueueElement with
    | none => simp [hwait] at hstep
    | some result =>
      rcases result with ⟨answer, queue⟩
      cases lbqWaitForQueueElement_eq_some hwait with
      | inl htaken =>
        obtain ⟨holder, hanswer, _, hitems, _⟩ := htaken
        simp only [hwait, hanswer, Option.some.injEq] at hstep
        rw [← hstep]
        refine inv_between h rfl rfl rfl rfl rfl rfl ?_ rfl rfl rfl (by rw [hsender]; rfl) rfl
        simp [pending, hsender, hitems, Sender.pending]
      | inr hnothing =>
        obtain ⟨⟨code, hanswer⟩, hitems⟩ := hnothing
        simp only [hwait, hanswer, Option.some.injEq] at hstep
        rw [← hstep]
        refine inv_between h rfl rfl rfl rfl rfl rfl ?_ rfl rfl rfl (by rw [hsender]; rfl) rfl
        simp [pending, hsender, hitems, Sender.pending]
  | took holder =>
    simp only [hsender] at hstep
    exact inv_process h howned hsender hstep
  | sendingMove holder =>
    have hsend : ok = true := by simpa [hsender, Sender.inFlight] using hok
    simp only [hsender, send, if_pos hsend, Option.some.injEq] at hstep
    rw [← hstep]
    apply inv_sent h <;> simp [hsender, Sender.inFlight, Sender.pending]
  | sending holder =>
    have hsend : ok = true := by simpa [hsender, Sender.inFlight] using hok
    simp only [hsender, send, if_pos hsend, Option.some.injEq] at hstep
    rw [← hstep]
    apply inv_sent h <;> simp [hsender, Sender.inFlight, Sender.pending]
  | freeing holder exits =>
    simp only [hsender, Option.some.injEq] at hstep
    obtain ⟨list, hfree, _⟩ := freePacketHolder_eq s holder
    rw [← hstep, hfree]
    refine inv_between h rfl rfl rfl rfl rfl rfl ?_ rfl rfl rfl (by rw [hsender]; rfl) ?_
    . cases exits <;> simp [pending, hsender, Sender.pending]
    . cases exits <;> rfl
  | exited => simp [hsender] at hstep

end

theorem inv_initializeInputStream (v : AppVersionQuad) (holders : Nat → PacketHolder)
    : (initializeInputStream holders).Inv v := by
  constructor
  . trivial
  . intro holder h
    contradiction
  . intro holder h
    contradiction
  . intro m
    cases m <;> rfl
  . intro n holder h
    contradiction
  . exact Batches.nil

end State

/-
The queue takes every controller packet, and every packet is sent. The first fails with 150 packets
in the queue or a call during the stop, the second ends the connection.
-/
def Undisturbed (v : AppVersionQuad) (s : State) (e : Event) : Prop :=
  match e with
  | .caller _ =>
    ∀ holder, holder ∈ s.caller.offeredController
      → v.major = 3 ∨ (s.packetQueue.lbqOfferQueueItem holder).isOk = true
  | .sender ok => s.sender.inFlight = [] ∨ ok = true
  | _ => True

theorem admitted_of_undisturbed {v : AppVersionQuad} {s : State} {e : Event}
    (h : Undisturbed v s e)
    : Admitted v s e := by
  cases e with
  | caller malloc => exact h
  | _ => trivial

instance decidableUndisturbed (v : AppVersionQuad) (s : State) (e : Event)
    : Decidable (Undisturbed v s e) :=
  match e with
  | .call _ => isTrue trivial
  | .caller _ =>
    inferInstanceAs (Decidable (∀ holder, holder ∈ s.caller.offeredController
      → v.major = 3 ∨ (s.packetQueue.lbqOfferQueueItem holder).isOk = true))
  | .sender ok => inferInstanceAs (Decidable (s.sender.inFlight = [] ∨ ok = true))
  | .control _ => isTrue trivial

/- Moreover no motion is lost because a sum overflows. -/
def Exact (v : AppVersionQuad) (s : State) (e : Event) : Prop :=
  Undisturbed v s e ∧ s.SumsFit

instance (v : AppVersionQuad) (s : State) (e : Event) : Decidable (Exact v s e) :=
  inferInstanceAs (Decidable (_ ∧ _))

theorem inv_step {v : AppVersionQuad} {s t : State} {e : Event} (h : s.Inv v) (howned : s.Owned)
    (hexact : Exact v s e) (hstep : step v s e = some t)
    : t.Inv v := by
  unfold step at hstep
  cases e with
  | call c =>
    simp only at hstep
    split at hstep
    . next hidle =>
      rw [← Option.some.inj hstep]
      exact State.inv_call h c hidle
    . contradiction
  | caller malloc =>
    apply State.inv_callerStep h howned hexact.right _ hstep
    intro c holder hcaller hmajor
    have hroom := (hexact.left holder (by rw [hcaller]; rfl)).resolve_left hmajor
    cases hoffer : s.packetQueue.lbqOfferQueueItem holder with
    | ok queue => exact ⟨queue, rfl⟩
    | error code =>
      rw [hoffer] at hroom
      contradiction
  | sender ok => exact State.inv_senderStep h howned hexact.left hstep
  | control malloc => exact State.inv_controlStep h howned hstep

theorem inv_run {v : AppVersionQuad} {holders : Nat → PacketHolder} {events : List Event} {s : State}
    (hmeet : (machine v holders).StepsMeet (Exact v) (machine v holders).init events)
    (hrun : (machine v holders).run events = some s)
    : s.Owned ∧ s.Inv v := by
  apply (machine v holders).runFrom_invariant_of_stepsMeet (Exact v)
    (fun s => s.Owned ∧ s.Inv v) _ _ _ events _ hmeet hrun
  . intro s e t h hexact hstep
    exact ⟨State.owned_step h.left hstep, inv_step h.right h.left hexact hstep⟩
  . exact ⟨State.owned_initializeInputStream holders, State.inv_initializeInputStream v holders⟩

/-
Whatever the threads do in between, what was sent begins a stream of items that is faithful to what
the queue accepted. The stream ends there when nothing is left to be sent.
-/
theorem sendThread_faithful {v : AppVersionQuad} {holders : Nat → PacketHolder} {events : List Event}
    {s : State}
    (hmeet : (machine v holders).StepsMeet (Exact v) (machine v holders).init events)
    (hrun : (machine v holders).run events = some s)
    : ∃ rest, Batches s.accepted (s.sent.map PacketHolder.item ++ rest)
        ∧ (s.packetQueue.items = [] → s.sender.holder = [] → rest = []) := by
  obtain ⟨_, h⟩ := inv_run hmeet hrun
  refine ⟨s.sender.inFlight.map (fun holder => (s.holders holder).item) ++ s.pending.map s.itemOf,
    ?_, ?_⟩
  . rw [← List.append_assoc]
    exact h.batches
  . intro hqueue hsender
    unfold State.pending
    rw [hqueue]
    cases hs : s.sender <;> simp_all [Sender.inFlight, Sender.pending, Sender.holder]

/-
Two mouse moves in one packet that is sent in two, a controller, and a key.
-/
def someEvents : List Event :=
  List.replicate 3 (.control true)
    ++ callOf (.mouseMove 5 (-3)) 4
    ++ callOf (.mouseMove 32767 1) 1
    ++ callOf (liSendControllerEvent 0x1000 0 0 7 0 0 0) 5
    ++ callOf (liSendControllerEvent 0x1000 0 0 9 0 0 0) 1
    ++ callOf (liSendKeyboardEvent 0x41 .down 0) 4
    ++ List.replicate 19 (.sender true)

theorem sendThread_faithful_someEvents
    : ∃ s rest, (machine ⟨7, 1, 415, 0⟩ fun _ => hapticsHolder).run someEvents = some s
        ∧ Batches s.accepted (s.sent.map PacketHolder.item ++ rest)
        ∧ (s.packetQueue.items = [] → s.sender.holder = [] → rest = []) := by
  have hsome : ((machine ⟨7, 1, 415, 0⟩ fun _ => hapticsHolder).run someEvents).isSome = true := by
    decide +kernel
  obtain ⟨s, hrun⟩ := Option.isSome_iff_exists.mp hsome
  obtain ⟨rest, hfaithful⟩ := sendThread_faithful (by decide +kernel) hrun
  exact ⟨s, rest, hrun, hfaithful⟩

/- A call that merges into the current packet of its controller never writes to a free holder. -/
theorem current_not_free {v : AppVersionQuad} {holders : Nat → PacketHolder} {events : List Event}
    {s : State} {n holder : Nat}
    (hmeet : (machine v holders).StepsMeet (Undisturbed v) (machine v holders).init events)
    (hrun : (machine v holders).run events = some s)
    (hcurrent : s.currentQueuedControllerPacket n = some holder)
    : (∃ c, (s.holders holder).packet = .multiController c ∧ c.controllerNumber = n)
        ∧ (holder ∈ s.pending ∨ holder ∈ s.caller.holder)
        ∧ holder ∉ s.packetHolderFreeList.items := by
  have hadmitted := hmeet.mono (fun _ _ => admitted_of_undisturbed)
  obtain ⟨howned, hlatched⟩ := latched_run hadmitted hrun
  obtain ⟨_, hpad, hplace⟩ := hlatched n holder hcurrent
  exact ⟨hpad, State.mergeable_pending hplace, howned.not_free hplace⟩

theorem current_not_free_someEvents
    : ∃ s holder, (machine ⟨7, 1, 415, 0⟩ fun _ => hapticsHolder).run (someEvents.take 16) = some s
        ∧ s.currentQueuedControllerPacket 0 = some holder
        ∧ (∃ c, (s.holders holder).packet = .multiController c ∧ c.controllerNumber = 0)
        ∧ (holder ∈ s.pending ∨ holder ∈ s.caller.holder)
        ∧ holder ∉ s.packetHolderFreeList.items := by
  have hsome : ((machine ⟨7, 1, 415, 0⟩ fun _ => hapticsHolder).run (someEvents.take 16)).map
      (fun s => s.currentQueuedControllerPacket 0) = some (some 2) := by
    decide +kernel
  obtain ⟨s, hrun, hcurrent⟩ := Option.map_eq_some_iff.mp hsome
  exact ⟨s, 2, hrun, hcurrent, current_not_free (by decide +kernel) hrun hcurrent⟩

/- A controller packet that the queue refuses stays current when its holder is gone. -/
example : ((machine ⟨7, 1, 415, 0⟩ fun _ => hapticsHolder).run (List.replicate 3 (.control true)
    ++ callOf (liSendControllerEvent 0x1000 0 0 7 0 0 0) 3 ++ List.replicate 3 (.control true)
    ++ List.replicate 2 (.caller true))).map
      (fun s => (s.currentQueuedControllerPacket 0, s.owned)) = some (some 1, [0]) := by
  decide +kernel

end Stream
end Input

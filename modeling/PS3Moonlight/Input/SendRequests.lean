import PS3Moonlight.Input.SendFaithful

/-!
This module contains what the calls ask for, and that the queue accepts it in this order as long as
nothing is refused. Scrolling is asked for in whole turns of the wheel, what is left of a turn is kept
for the next call unless the direction changes.
-/

namespace Input
namespace Stream

open Connection
open Threads
open LinkedBlockingQueue

def scrollItems (delta : Int) : List Item :=
  List.replicate (delta.natAbs / 120) (scrollHolder (if 0 < delta then 120 else -120)).item

def scrollRest (delta : Int) : Int :=
  if 0 < delta then
    delta - 120 * (delta.natAbs / 120 : Nat)
  else
    delta + 120 * (delta.natAbs / 120 : Nat)

theorem scroll_of_lt {delta : Int} (h : delta.natAbs < 120)
    : scrollItems delta = [] ∧ scrollRest delta = delta := by
  have hnone : delta.natAbs / 120 = 0 := Nat.div_eq_of_lt h
  unfold scrollItems scrollRest
  rw [hnone]
  simp

theorem scroll_step {delta : Int} (amount : Int16) (h : 120 ≤ delta.natAbs)
    (hamount : amount = if 0 < delta then 120 else -120)
    : scrollItems delta = (scrollHolder amount).item :: scrollItems (delta - amount.toInt)
        ∧ scrollRest (delta - amount.toInt) = scrollRest delta := by
  have hdiv : delta.natAbs / 120 = (delta - amount.toInt).natAbs / 120 + 1 := by
    rw [hamount]
    split
    . have hup : (120 : Int16).toInt = 120 := rfl
      rw [hup]
      omega
    . have hdown : (-120 : Int16).toInt = -120 := rfl
      rw [hdown]
      omega
  -- the direction is the same, unless this was the last turn
  have hsign : (delta - amount.toInt).natAbs / 120 = 0
      ∨ ((0 < delta - amount.toInt) ↔ 0 < delta) := by
    rw [hamount]
    split
    . have hup : (120 : Int16).toInt = 120 := rfl
      rw [hup]
      omega
    . have hdown : (-120 : Int16).toInt = -120 := rfl
      rw [hdown]
      omega
  constructor
  . unfold scrollItems
    rw [hdiv, List.replicate_succ, ← hamount]
    rcases hsign with hzero | hsame
    . rw [hzero]
      rfl
    . rw [hamount]
      simp only [hamount] at hsame
      simp only [hsame]
  . unfold scrollRest
    rw [hdiv]
    have hvalue : amount.toInt = if 0 < delta then 120 else -120 := by
      rw [hamount]
      split <;> rfl
    rw [hvalue] at hsign ⊢
    split <;> split <;> omega

/- The batched scroll delta when the loop of a call begins. -/
def Request.batched (r : Request) (delta : Int) : Int :=
  match r with
  | .scroll scrollAmount =>
    (if (delta < 0 ∧ 0 < scrollAmount.toInt) ∨ (0 < delta ∧ scrollAmount.toInt < 0) then 0 else delta)
      + scrollAmount.toInt
  | _ => delta

/- The batched scroll delta at the end of a call, and what the call has queued by then. -/
def Request.outcome (v : AppVersionQuad) (r : Request) (delta : Int) : Int × List Item :=
  match r with
  | .relative deltaX deltaY => ⟨delta, [.move deltaX.toInt deltaY.toInt]⟩
  | .absolute x y width height => ⟨delta, [.position x y (width - 1) (height - 1)]⟩
  | .controller c => ⟨delta, [(controllerHolder v c).item]⟩
  | .packet holder => ⟨delta, [holder.item]⟩
  | .scroll _ => ⟨scrollRest delta, scrollItems delta⟩

def ask (v : AppVersionQuad) (asked : Int × List Item) (r : Request) : Int × List Item :=
  let outcome := r.outcome v (r.batched asked.fst)
  ⟨outcome.fst, asked.snd ++ outcome.snd⟩

def asked (v : AppVersionQuad) (requests : List Request) : Int × List Item :=
  requests.foldl (ask v) ⟨0, []⟩

def ours (accepted : List Item) : List Item :=
  accepted.filter fun i => i != hapticsHolder.item

theorem ours_concat {accepted : List Item} {i : Item} (h : i ≠ hapticsHolder.item)
    : ours (accepted ++ [i]) = ours accepted ++ [i] := by
  simp [ours, h]

theorem ours_haptics (accepted : List Item)
    : ours (accepted ++ [hapticsHolder.item]) = ours accepted := by
  simp [ours]

def Caller.request (c : Caller) : Option Request :=
  match c with
  | .idle => none
  | .entering r => some r
  | .allocating r => some r
  | .writing c _ => some (.controller c)
  | .offering r _ => some r
  | .accepted r => some r
  | .refused r _ => some r

/- The motion that is added for a call, but not queued yet. -/
def Caller.motion (c : Caller) : Int32 × Int32 :=
  match c with
  | .allocating (.relative deltaX deltaY) => ⟨deltaX.toInt32, deltaY.toInt32⟩
  | .offering (.relative deltaX deltaY) _ => ⟨deltaX.toInt32, deltaY.toInt32⟩
  | .accepted (.relative deltaX deltaY) => ⟨deltaX.toInt32, deltaY.toInt32⟩
  | _ => ⟨0, 0⟩

/- Less than a full turn of the wheel is left, or the call queues one. -/
def Caller.Turns (c : Caller) (delta : Int) : Prop :=
  match c with
  | .allocating (.scroll _) => 120 ≤ delta.natAbs
  | .offering (.scroll _) _ => 120 ≤ delta.natAbs
  | .accepted (.scroll _) => 120 ≤ delta.natAbs
  | .refused _ _ => False
  | _ => delta.natAbs < 120

namespace State

/- How the current call is going to end. -/
def outcome (v : AppVersionQuad) (s : State) : Int × List Item :=
  match s.caller with
  | .idle => ⟨s.batchedScrollDelta.toInt, []⟩
  | .entering r => r.outcome v (r.batched s.batchedScrollDelta.toInt)
  | .allocating r => r.outcome v s.batchedScrollDelta.toInt
  | .writing c _ => (Request.controller c).outcome v s.batchedScrollDelta.toInt
  | .offering r _ => r.outcome v s.batchedScrollDelta.toInt
  | .accepted (.scroll _) =>
    ⟨scrollRest (s.batchedScrollDelta.toInt - s.scrollStep.toInt),
      scrollItems (s.batchedScrollDelta.toInt - s.scrollStep.toInt)⟩
  | .accepted _ => ⟨s.batchedScrollDelta.toInt, []⟩
  | .refused _ _ => ⟨s.batchedScrollDelta.toInt, []⟩

structure Asked (v : AppVersionQuad) (s : State) : Prop where
  outcome : asked v s.requests = ⟨(s.outcome v).fst, ours s.accepted ++ (s.outcome v).snd⟩
  motion : s.currentRelativeMouseState.dirty = false
    → s.currentRelativeMouseState.deltaX = s.caller.motion.fst
      ∧ s.currentRelativeMouseState.deltaY = s.caller.motion.snd
  turns : s.caller.Turns s.batchedScrollDelta.toInt
  own : ∀ p, s.caller.request = some (.packet p) → p ≠ hapticsHolder

theorem scrollStep_eq (s : State)
    : s.scrollStep = if 0 < s.batchedScrollDelta.toInt then 120 else -120 := by
  have hzero : (0 : Int32).toInt = 0 := rfl
  unfold scrollStep
  simp only [Int32.lt_iff_toInt_lt, hzero]

/- A turn of the wheel is taken off towards zero, which does not overflow. -/
theorem toInt_sub_scrollStep (s : State)
    : (s.batchedScrollDelta - s.scrollStep.toInt32).toInt
        =
      s.batchedScrollDelta.toInt - s.scrollStep.toInt := by
  have hle := s.batchedScrollDelta.le_toInt
  have hlt := s.batchedScrollDelta.toInt_lt
  have hup : (120 : Int16).toInt = 120 := rfl
  have hdown : (-120 : Int16).toInt = -120 := rfl
  rw [Int32.toInt_sub, Int16.toInt_toInt32, scrollStep_eq]
  split
  . rw [hup]
    exact Int.bmod_eq_of_le (by omega) (by omega)
  . rw [hdown]
    exact Int.bmod_eq_of_le (by omega) (by omega)

/- With less than a turn left, the next call does not overflow either. -/
theorem enterScroll_eq {s : State} (h : s.batchedScrollDelta.toInt.natAbs < 120)
    (scrollAmount : Int16)
    : ∃ delta : Int32, s.enterScroll scrollAmount
          = { s with batchedScrollDelta := delta }.scrollLoop scrollAmount
        ∧ delta.toInt = (Request.scroll scrollAmount).batched s.batchedScrollDelta.toInt := by
  have hle := scrollAmount.le_toInt
  have hlt := scrollAmount.toInt_lt
  have hzero : (0 : Int32).toInt = 0 := rfl
  have hzero' : (0 : Int16).toInt = 0 := rfl
  refine ⟨_, rfl, ?_⟩
  unfold Request.batched
  simp only [Int32.lt_iff_toInt_lt, Int16.lt_iff_toInt_lt, hzero, hzero']
  rw [Int32.toInt_add, Int16.toInt_toInt32]
  split
  . rw [hzero]
    exact Int.bmod_eq_of_le (by omega) (by omega)
  . exact Int.bmod_eq_of_le (by omega) (by omega)

theorem asked_concat (v : AppVersionQuad) (requests : List Request) (r : Request)
    : asked v (requests ++ [r]) = ask v (asked v requests) r := by
  simp [asked]

theorem item_ne_haptics {p : PacketHolder} (h : p ≠ hapticsHolder) : p.item ≠ hapticsHolder.item := by
  intro heq
  have hitem : hapticsHolder.item = .event hapticsHolder := rfl
  rw [hitem] at heq
  unfold PacketHolder.item at heq
  cases hpacket : p.packet <;> rw [hpacket] at heq <;> simp at heq <;> exact h heq

theorem controller_item_ne_haptics (v : AppVersionQuad) (c : MultiController)
    : (controllerHolder v c).item ≠ hapticsHolder.item := by
  apply item_ne_haptics
  unfold controllerHolder
  split <;> simp [hapticsHolder]

theorem request_ne_haptics {v : AppVersionQuad} {c : Call} {p : PacketHolder}
    (h : c.request v = some (.packet p))
    : p ≠ hapticsHolder := by
  intro heq
  rw [heq] at h
  cases c with
  | highResScroll scrollAmount =>
    unfold Call.request at h
    simp only at h
    split at h
    . contradiction
    . split at h <;> simp [scrollHolder, hapticsHolder] at h
  | mouseMove => simp [Call.request] at h
  | mousePosition => simp [Call.request] at h
  | controller => simp [Call.request] at h
  | mouseButton action button => simp [Call.request, mouseButtonHolder, hapticsHolder] at h
  | keyboard keyCode action modifiers flags =>
    simp [Call.request, keyboardHolder, hapticsHolder] at h

section

variable {v : AppVersionQuad} {s t : State} (h : s.Asked v)

include h

/- A step that neither ends a call nor lets the queue accept something of it. -/
theorem Asked.of_same (hcaller : t.caller = s.caller) (hrequests : t.requests = s.requests)
    (haccepted : ours t.accepted = ours s.accepted)
    (hscroll : t.batchedScrollDelta = s.batchedScrollDelta)
    (hmotion : t.currentRelativeMouseState.dirty = false
      → t.currentRelativeMouseState.deltaX = s.caller.motion.fst
        ∧ t.currentRelativeMouseState.deltaY = s.caller.motion.snd)
    : t.Asked v := by
  have houtcome : t.outcome v = s.outcome v := by
    unfold State.outcome scrollStep
    rw [hcaller, hscroll]
  constructor
  . rw [hrequests, haccepted, houtcome]
    exact h.outcome
  . rw [hcaller]
    exact hmotion
  . rw [hcaller, hscroll]
    exact h.turns
  . rw [hcaller]
    exact h.own

/- A step of a call that does not touch the relative motion. -/
theorem Asked.of_caller (hrequests : t.requests = s.requests)
    (hrelative : t.currentRelativeMouseState = s.currentRelativeMouseState)
    (hmotion : t.caller.motion = s.caller.motion)
    (hturns : t.caller.Turns t.batchedScrollDelta.toInt)
    (hrequest : t.caller.request = none ∨ t.caller.request = s.caller.request)
    (houtcome : (s.outcome v).fst = (t.outcome v).fst
      ∧ ours s.accepted ++ (s.outcome v).snd = ours t.accepted ++ (t.outcome v).snd)
    : t.Asked v := by
  constructor
  . rw [hrequests, h.outcome, houtcome.left, houtcome.right]
  . rw [hrelative, hmotion]
    exact h.motion
  . exact hturns
  . intro p hp
    rcases hrequest with hnone | hsame
    . rw [hnone] at hp
      contradiction
    . apply h.own p
      rw [← hsame, hp]

theorem asked_call (c : Call) (hidle : s.caller = .idle) : (s.call v c).Asked v := by
  unfold call
  split
  . cases hrequest : c.request v with
    | none => exact h
    | some r =>
      have houtcome := h.outcome
      have hmotion := h.motion
      have hturns := h.turns
      simp only [State.outcome, hidle, List.append_nil] at houtcome
      simp only [Caller.motion, hidle] at hmotion
      rw [hidle] at hturns
      constructor
      . rw [asked_concat, houtcome]
        rfl
      . exact hmotion
      . exact hturns
      . intro p hp
        have hr : r = .packet p := Option.some.inj hp
        rw [hr] at hrequest
        exact request_ne_haptics hrequest
  . exact h

theorem asked_enterRelative {deltaX deltaY : Int16}
    (hcaller : s.caller = .entering (.relative deltaX deltaY))
    : (s.enterRelative deltaX deltaY).Asked v := by
  have houtcome := h.outcome
  have hmotion := h.motion
  have hturns := h.turns
  simp only [State.outcome, hcaller, Request.outcome, Request.batched] at houtcome
  simp only [Caller.motion, hcaller] at hmotion
  rw [hcaller] at hturns
  unfold enterRelative
  simp only
  split
  . next hdirty =>
    constructor
    . simp only [State.outcome]
      rw [ours_concat (by simp [PacketHolder.item, hapticsHolder]), houtcome, List.append_nil]
    . intro hclean
      have hclean' : s.currentRelativeMouseState.dirty = false := hclean
      rw [hdirty] at hclean'
      contradiction
    . exact hturns
    . intro p hp
      contradiction
  . constructor
    . exact houtcome
    . intro hclean
      simp only [Caller.motion]
      obtain ⟨hx, hy⟩ := hmotion hclean
      rw [hx, hy, Int32.zero_add, Int32.zero_add]
      exact ⟨rfl, rfl⟩
    . exact hturns
    . intro p hp
      simp [Caller.request] at hp

theorem asked_enter {r : Request} (hinv : s.Inv v) (hcaller : s.caller = .entering r)
    (hstep : s.enter v r = some t)
    : t.Asked v := by
  have hmotion : s.caller.motion = ⟨0, 0⟩ := by rw [hcaller]; rfl
  have hrequest : s.caller.request = some r := by rw [hcaller]; rfl
  have hsmall : s.batchedScrollDelta.toInt.natAbs < 120 := by
    have hturns := h.turns
    rw [hcaller] at hturns
    exact hturns
  have houtcome : s.outcome v = r.outcome v (r.batched s.batchedScrollDelta.toInt) := by
    simp only [State.outcome, hcaller]
  -- the call goes on with nothing queued and nothing added
  have hgo : (∀ deltaX deltaY, r ≠ .relative deltaX deltaY) → (∀ scrollAmount, r ≠ .scroll scrollAmount)
      → ∀ u : State, u.caller = .allocating r → u.requests = s.requests
      → u.currentRelativeMouseState = s.currentRelativeMouseState
      → u.batchedScrollDelta = s.batchedScrollDelta → u.accepted = s.accepted → u.Asked v := by
    intro hrelative hscroll u hu hrequests hsame hdelta haccepted
    apply h.of_caller hrequests hsame
    . rw [hu, hmotion]
      cases r with
      | relative deltaX deltaY => exact absurd rfl (hrelative deltaX deltaY)
      | _ => rfl
    . rw [hu, hdelta]
      cases r with
      | scroll scrollAmount => exact absurd rfl (hscroll scrollAmount)
      | _ => exact hsmall
    . right
      rw [hu, hrequest]
      rfl
    . rw [haccepted, houtcome]
      simp only [State.outcome, hu, hdelta]
      cases r with
      | scroll scrollAmount => exact absurd rfl (hscroll scrollAmount)
      | _ => exact ⟨rfl, rfl⟩
  unfold enter at hstep
  cases r with
  | relative deltaX deltaY =>
    rw [← Option.some.inj hstep]
    exact asked_enterRelative h hcaller
  | absolute x y width height =>
    rw [← Option.some.inj hstep]
    unfold enterAbsolute
    simp only
    split
    . refine h.of_caller rfl rfl hmotion.symm hsmall (Or.inl rfl) ?_
      rw [houtcome]
      refine ⟨rfl, ?_⟩
      simp only [State.outcome, Request.outcome]
      rw [ours_concat (by simp [PacketHolder.item, hapticsHolder]), List.append_nil]
    . exact hgo (by simp) (by simp) _ rfl rfl rfl rfl rfl
  | controller c =>
    simp only [enterController] at hstep
    split at hstep
    . rw [← Option.some.inj hstep]
      exact hgo (by simp) (by simp) _ rfl rfl rfl rfl rfl
    . next holder hcurrent =>
      split at hstep
      . split at hstep
        . rw [← Option.some.inj hstep]
          obtain ⟨hmajor, _⟩ := hinv.current _ holder hcurrent
          have hitem : (controllerHolder v c).item = .pad c := by
            simp [PacketHolder.item, controllerHolder_packet hmajor]
          refine h.of_caller rfl rfl hmotion.symm hsmall (Or.inl rfl) ?_
          rw [houtcome]
          refine ⟨rfl, ?_⟩
          simp only [State.outcome, Request.outcome]
          rw [← hitem, ours_concat (controller_item_ne_haptics v c), List.append_nil]
          rfl
        . rw [← Option.some.inj hstep]
          exact hgo (by simp) (by simp) _ rfl rfl rfl rfl rfl
      . contradiction
  | packet p =>
    rw [← Option.some.inj hstep]
    exact hgo (by simp) (by simp) _ rfl rfl rfl rfl rfl
  | scroll scrollAmount =>
    rw [← Option.some.inj hstep]
    obtain ⟨delta, hloop, hdelta⟩ := enterScroll_eq hsmall scrollAmount
    rw [← hdelta] at houtcome
    obtain ⟨c, hc, hcase⟩ := scrollLoop_eq { s with batchedScrollDelta := delta } scrollAmount
    rw [hloop, hc]
    simp only [LI_WHEEL_DELTA] at hcase
    rcases hcase with ⟨hturn, hcaller'⟩ | ⟨hturn, hcaller'⟩
    . have hfull : 120 ≤ delta.toInt.natAbs := by omega
      rw [hcaller']
      refine h.of_caller rfl rfl hmotion.symm hfull (Or.inr hrequest.symm) ?_
      rw [houtcome]
      exact ⟨rfl, rfl⟩
    . have hpart : delta.toInt.natAbs < 120 := by omega
      rw [hcaller']
      refine h.of_caller rfl rfl hmotion.symm hpart (Or.inl rfl) ?_
      have hrest := scroll_of_lt hpart
      rw [houtcome]
      simp only [State.outcome, Request.outcome, hrest, and_self]

theorem asked_allocate {r : Request} {malloc : Bool} (hcaller : s.caller = .allocating r)
    (htaken : (s.allocatePacketHolder malloc).fst.isSome = true)
    : (s.allocate r malloc).Asked v := by
  have houtcome : s.outcome v = r.outcome v s.batchedScrollDelta.toInt := by
    simp only [State.outcome, hcaller]
  have hturns := h.turns
  rw [hcaller] at hturns
  unfold allocate
  cases halloc : s.allocatePacketHolder malloc with
  | mk result u =>
    cases result with
    | none =>
      rw [halloc] at htaken
      contradiction
    | some holder =>
      obtain ⟨list, n, hu, _⟩ := allocatePacketHolder_eq_some halloc
      rw [hu]
      simp only
      split
      . next c =>
        refine h.of_caller rfl rfl (by rw [hcaller]; rfl) hturns (Or.inr (by rw [hcaller]; rfl)) ?_
        rw [houtcome]
        exact ⟨rfl, rfl⟩
      . refine h.of_caller rfl rfl ?_ ?_ (Or.inr (by rw [hcaller]; rfl)) ?_
        . rw [hcaller]
          cases r <;> rfl
        . cases r <;> exact hturns
        . rw [houtcome]
          exact ⟨rfl, rfl⟩

theorem asked_writeController {c : MultiController} {holder : Nat}
    (hcaller : s.caller = .writing c holder)
    : (s.writeController v c holder).Asked v := by
  have houtcome : s.outcome v = (Request.controller c).outcome v s.batchedScrollDelta.toInt := by
    simp only [State.outcome, hcaller]
  have hturns := h.turns
  rw [hcaller] at hturns
  unfold writeController
  simp only
  split <;>
    exact h.of_caller rfl rfl (by rw [hcaller]; rfl) hturns (Or.inr (by rw [hcaller]; rfl))
      (by rw [houtcome]; exact ⟨rfl, rfl⟩)

/- What a call has queued is what it asked for, or the first turn of the wheel. -/
theorem outcome_offering {r : Request} {holder : Nat} (hinv : s.Inv v)
    (hcaller : s.caller = .offering r holder)
    : r.outcome v s.batchedScrollDelta.toInt
        =
      ⟨({ s with caller := .accepted r }.outcome v).fst,
        s.itemOf holder :: ({ s with caller := .accepted r }.outcome v).snd⟩
        ∧ s.itemOf holder ≠ hapticsHolder.item := by
  have hcallerInv := hinv.caller
  rw [CallerInv, hcaller] at hcallerInv
  obtain ⟨hplain, hclean, hwritten⟩ := hcallerInv
  have hbranch := written_branch hplain hwritten
  have hitem : r.motion = none → s.itemOf holder = (s.holders holder).item := by
    intro hnone
    apply itemOf_eq_item
    . intro hbad
      have hmotion := (hbranch .relative).mp hbad
      rw [hnone] at hmotion
      contradiction
    . intro hbad
      have hmotion := (hbranch .absolute).mp hbad
      rw [hnone] at hmotion
      contradiction
  cases r with
  | relative deltaX deltaY =>
    have hmotion := h.motion hclean
    rw [hcaller] at hmotion
    rw [itemOf_relative hwritten, hmotion.left, hmotion.right]
    simp only [Caller.motion, Int16.toInt_toInt32]
    exact ⟨rfl, by simp [PacketHolder.item, hapticsHolder]⟩
  | absolute x y width height =>
    have hsame : s.currentAbsoluteMouseState = ⟨x, y, width, height, false⟩ := hclean
    rw [itemOf_absolute hwritten, hsame]
    exact ⟨rfl, by simp [PacketHolder.item, hapticsHolder]⟩
  | controller c =>
    rw [hitem rfl, hwritten.left]
    exact ⟨rfl, controller_item_ne_haptics v c⟩
  | packet p =>
    have hholder : s.holders holder = p := hwritten
    rw [hitem rfl, hholder]
    refine ⟨rfl, item_ne_haptics (h.own p ?_)⟩
    rw [hcaller]
    rfl
  | scroll scrollAmount =>
    have hholder : s.holders holder = scrollHolder s.scrollStep := hwritten
    have hturns : 120 ≤ s.batchedScrollDelta.toInt.natAbs := by
      have hturns := h.turns
      rw [hcaller] at hturns
      exact hturns
    obtain ⟨hitems, hrest⟩ := scroll_step s.scrollStep hturns s.scrollStep_eq
    rw [hitem rfl, hholder]
    refine ⟨?_, by simp [scrollHolder, PacketHolder.item, hapticsHolder]⟩
    simp only [Request.outcome, hitems, ← hrest]
    rfl

theorem asked_offer {r : Request} {holder : Nat} (hinv : s.Inv v)
    (hcaller : s.caller = .offering r holder)
    (htaken : (s.packetQueue.lbqOfferQueueItem holder).isOk = true)
    : (s.offer r holder).Asked v := by
  obtain ⟨houtcome, hours⟩ := outcome_offering h hinv hcaller
  have hoffering : s.outcome v = r.outcome v s.batchedScrollDelta.toInt := by
    simp only [State.outcome, hcaller]
  have hturns := h.turns
  rw [hcaller] at hturns
  unfold offer
  cases hoffer : s.packetQueue.lbqOfferQueueItem holder with
  | error code =>
    rw [hoffer] at htaken
    contradiction
  | ok queue =>
    refine h.of_caller rfl rfl ?_ ?_ ?_ ?_
    . rw [hcaller]
      cases r <;> rfl
    . cases r <;> exact hturns
    . right
      rw [hcaller]
      rfl
    . rw [hoffering, houtcome]
      refine ⟨rfl, ?_⟩
      rw [ours_concat hours, List.append_assoc]
      rfl

theorem asked_accept {r : Request} (hcaller : s.caller = .accepted r) : (s.accept r).Asked v := by
  have hend : ∀ c : Caller, r.motion = none → c.motion = ⟨0, 0⟩ → ∀ delta : Int32,
      c.Turns delta.toInt → (c.request = none ∨ c.request = s.caller.request)
      → s.outcome v = { s with caller := c, batchedScrollDelta := delta }.outcome v
      → { s with caller := c, batchedScrollDelta := delta }.Asked v := by
    intro c hr hmotion delta hturns hrequest houtcome
    refine h.of_caller rfl rfl ?_ hturns hrequest ?_
    . rw [hcaller]
      cases r with
      | relative deltaX deltaY => contradiction
      | _ => exact hmotion
    . rw [houtcome]
      exact ⟨rfl, rfl⟩
  have hturns := h.turns
  rw [hcaller] at hturns
  unfold accept
  cases r with
  | relative deltaX deltaY =>
    have houtcome := h.outcome
    simp only [State.outcome, hcaller] at houtcome
    constructor
    . exact houtcome
    . intro hclean
      contradiction
    . exact hturns
    . intro p hp
      contradiction
  | absolute x y width height =>
    refine h.of_caller rfl rfl (by rw [hcaller]; rfl) hturns (Or.inl rfl) ?_
    have houtcome : s.outcome v = ⟨s.batchedScrollDelta.toInt, []⟩ := by
      simp only [State.outcome, hcaller]
    rw [houtcome]
    exact ⟨rfl, rfl⟩
  | controller c =>
    refine hend .idle rfl rfl s.batchedScrollDelta hturns (Or.inl rfl) ?_
    simp only [State.outcome, hcaller]
  | packet p =>
    refine hend .idle rfl rfl s.batchedScrollDelta hturns (Or.inl rfl) ?_
    simp only [State.outcome, hcaller]
  | scroll scrollAmount =>
    simp only
    have hdelta := toInt_sub_scrollStep s
    generalize s.batchedScrollDelta - s.scrollStep.toInt32 = delta at hdelta ⊢
    have houtcome : s.outcome v = ⟨scrollRest delta.toInt, scrollItems delta.toInt⟩ := by
      simp only [State.outcome, hcaller, hdelta]
    obtain ⟨c, hc, hcase⟩ := scrollLoop_eq { s with batchedScrollDelta := delta } scrollAmount
    rw [hc]
    simp only [LI_WHEEL_DELTA] at hcase
    rcases hcase with ⟨hturn, hcaller'⟩ | ⟨hturn, hcaller'⟩
    . have hfull : 120 ≤ delta.toInt.natAbs := by omega
      rw [hcaller']
      refine hend _ rfl rfl delta hfull (Or.inr (by rw [hcaller]; rfl)) ?_
      rw [houtcome]
      rfl
    . have hpart : delta.toInt.natAbs < 120 := by omega
      rw [hcaller']
      refine hend _ rfl rfl delta hpart (Or.inl rfl) ?_
      have hrest := scroll_of_lt hpart
      rw [houtcome]
      simp only [State.outcome, hrest]

theorem asked_senderStep {ok : Bool} (hinv : s.Inv v) (hstep : s.senderStep ok = some t)
    : t.Asked v := by
  have hgo : ∀ u : State, u.caller = s.caller → u.requests = s.requests → u.accepted = s.accepted
      → u.batchedScrollDelta = s.batchedScrollDelta
      → u.currentRelativeMouseState = s.currentRelativeMouseState → u.Asked v := by
    intro u hcaller hrequests haccepted hscroll hrelative
    apply h.of_same hcaller hrequests (by rw [haccepted]) hscroll
    rw [hrelative]
    exact h.motion
  unfold senderStep at hstep
  cases hsender : s.sender with
  | waiting =>
    simp only [hsender] at hstep
    split at hstep
    . contradiction
    . rw [← Option.some.inj hstep]
      exact hgo _ rfl rfl rfl rfl rfl
    . rw [← Option.some.inj hstep]
      exact hgo _ rfl rfl rfl rfl rfl
  | took holder =>
    simp only [hsender] at hstep
    unfold process at hstep
    split at hstep
    . split at hstep
      . contradiction
      . rw [← Option.some.inj hstep]
        exact hgo _ rfl rfl rfl rfl rfl
    . next hpacket =>
      split at hstep
      . contradiction
      . next hmutex =>
        rw [← Option.some.inj hstep]
        have hbranch : s.branchOf holder = Motion.relative.branch := by
          rw [branchOf, hpacket]
          rfl
        have hpending : holder ∈ s.pending := by
          simp [pending, hsender, Sender.pending]
        have hdirty : s.currentRelativeMouseState.dirty = true :=
          (only_marker hinv hpending hbranch (by simpa using hmutex)).left
        unfold relativeRound
        simp only
        split
        . refine h.of_same (by rfl) (by rfl) (by rfl) (by rfl) ?_
          intro hclean
          have hclean' : s.currentRelativeMouseState.dirty = false := hclean
          rw [hdirty] at hclean'
          contradiction
        . next hzero =>
          rw [not_or, not_ne_iff, not_ne_iff] at hzero
          refine h.of_same (by rfl) (by rfl) (by rfl) (by rfl) ?_
          intro _
          -- no call is about to queue more motion, because it would hold the mutex
          have hmotion : s.caller.motion = ⟨0, 0⟩ := by
            unfold mutexHeld at hmutex
            cases hcaller : s.caller with
            | allocating r => cases r <;> simp_all [Request.isMotion, Caller.motion]
            | offering r other => cases r <;> simp_all [Request.isMotion, Caller.motion]
            | accepted r => cases r <;> simp_all [Request.isMotion, Caller.motion]
            | _ => rfl
          rw [hmotion]
          exact hzero
    . split at hstep
      . contradiction
      . rw [← Option.some.inj hstep]
        exact hgo _ rfl rfl rfl rfl rfl
    . rw [← Option.some.inj hstep]
      exact hgo _ rfl rfl rfl rfl rfl
  | sendingMove holder =>
    simp only [hsender, Option.some.injEq] at hstep
    rw [← hstep]
    unfold send
    split <;> exact hgo _ rfl rfl rfl rfl rfl
  | sending holder =>
    simp only [hsender, Option.some.injEq] at hstep
    rw [← hstep]
    unfold send
    split <;> exact hgo _ rfl rfl rfl rfl rfl
  | freeing holder exits =>
    simp only [hsender, Option.some.injEq] at hstep
    obtain ⟨list, hfree, _⟩ := freePacketHolder_eq s holder
    rw [← hstep, hfree]
    exact hgo _ rfl rfl rfl rfl rfl
  | exited => simp [hsender] at hstep

theorem asked_controlStep {malloc : Bool} (hinv : s.Inv v) (hstep : s.controlStep v malloc = some t)
    : t.Asked v := by
  have hgo : ∀ u : State, u.caller = s.caller → u.requests = s.requests → u.accepted = s.accepted
      → u.batchedScrollDelta = s.batchedScrollDelta
      → u.currentRelativeMouseState = s.currentRelativeMouseState → u.Asked v := by
    intro u hcaller hrequests haccepted hscroll hrelative
    apply h.of_same hcaller hrequests (by rw [haccepted]) hscroll
    rw [hrelative]
    exact h.motion
  unfold controlStep at hstep
  cases hcontrol : s.control with
  | enabling =>
    simp only [hcontrol, Option.some.injEq] at hstep
    rw [← hstep]
    unfold enableHaptics
    cases halloc : s.allocatePacketHolder malloc with
    | mk result u =>
      cases result with
      | none =>
        rw [allocatePacketHolder_eq_none halloc]
        exact hgo _ rfl rfl rfl rfl rfl
      | some holder =>
        obtain ⟨list, n, hu, _⟩ := allocatePacketHolder_eq_some halloc
        rw [hu]
        exact hgo _ rfl rfl rfl rfl rfl
  | offering holder =>
    simp only [hcontrol, Option.some.injEq] at hstep
    rw [← hstep]
    unfold offerHaptics
    cases hoffer : s.packetQueue.lbqOfferQueueItem holder with
    | error code => exact hgo _ rfl rfl rfl rfl rfl
    | ok queue =>
      have hitem : s.itemOf holder = hapticsHolder.item := by
        have hholder := hinv.haptics holder hcontrol
        unfold itemOf
        rw [hholder]
        rfl
      refine h.of_same (by rfl) (by rfl) ?_ (by rfl) h.motion
      simp only [hitem]
      exact ours_haptics s.accepted
  | refused holder =>
    simp only [hcontrol, Option.some.injEq] at hstep
    obtain ⟨list, hfree, _⟩ := freePacketHolder_eq s holder
    rw [← hstep, hfree]
    exact hgo _ rfl rfl rfl rfl rfl
  | joining =>
    simp only [hcontrol] at hstep
    split at hstep
    . rw [← Option.some.inj hstep]
      exact hgo _ rfl rfl rfl rfl rfl
    . contradiction
  | stopped => simp [hcontrol] at hstep
  | _ =>
    simp only [hcontrol, Option.some.injEq] at hstep
    rw [← hstep]
    exact hgo _ rfl rfl rfl rfl rfl

end

theorem asked_initializeInputStream (v : AppVersionQuad) (holders : Nat → PacketHolder)
    : (initializeInputStream holders).Asked v := by
  constructor
  . rfl
  . intro _
    exact ⟨rfl, rfl⟩
  . exact Nat.zero_lt_succ 119
  . intro p h
    contradiction

end State

def Caller.allocates (c : Caller) : Bool :=
  match c with
  | .allocating _ => true
  | _ => false

def Caller.offered (c : Caller) : Option Nat :=
  match c with
  | .offering _ holder => some holder
  | _ => none

/-
Every allocation succeeds, the queue takes every packet, every packet is sent, and no sum of the
motion overflows.
-/
def Taken (s : State) (e : Event) : Prop :=
  s.SumsFit ∧ match e with
    | .caller malloc =>
      (s.caller.allocates = true → (s.allocatePacketHolder malloc).fst.isSome = true)
        ∧ ∀ holder, holder ∈ s.caller.offered → (s.packetQueue.lbqOfferQueueItem holder).isOk = true
    | .sender ok => s.sender.inFlight = [] ∨ ok = true
    | _ => True

instance decidableTaken (s : State) (e : Event) : Decidable (Taken s e) :=
  match e with
  | .call _ => inferInstanceAs (Decidable (s.SumsFit ∧ True))
  | .caller malloc =>
    inferInstanceAs (Decidable (s.SumsFit
      ∧ (s.caller.allocates = true → (s.allocatePacketHolder malloc).fst.isSome = true)
        ∧ ∀ holder, holder ∈ s.caller.offered → (s.packetQueue.lbqOfferQueueItem holder).isOk = true))
  | .sender ok => inferInstanceAs (Decidable (s.SumsFit ∧ (s.sender.inFlight = [] ∨ ok = true)))
  | .control _ => inferInstanceAs (Decidable (s.SumsFit ∧ True))

theorem exact_of_taken (v : AppVersionQuad) {s : State} {e : Event} (h : Taken s e)
    : Exact v s e := by
  refine ⟨?_, h.left⟩
  cases e with
  | caller malloc =>
    intro holder hholder
    right
    apply h.right.right
    cases hcaller : s.caller with
    | offering r other =>
      rw [hcaller] at hholder
      cases r with
      | controller c => exact hholder
      | _ => contradiction
    | _ =>
      rw [hcaller] at hholder
      contradiction
  | sender ok => exact h.right
  | _ => trivial

theorem asked_step {v : AppVersionQuad} {s t : State} {e : Event} (h : s.Asked v) (hinv : s.Inv v)
    (htaken : Taken s e) (hstep : step v s e = some t)
    : t.Asked v := by
  unfold step at hstep
  cases e with
  | call c =>
    simp only at hstep
    split at hstep
    . next hidle =>
      rw [← Option.some.inj hstep]
      exact State.asked_call h c hidle
    . contradiction
  | sender ok => exact State.asked_senderStep h hinv hstep
  | control malloc => exact State.asked_controlStep h hinv hstep
  | caller malloc =>
    simp only at hstep
    unfold State.callerStep at hstep
    cases hcaller : s.caller with
    | idle => simp [hcaller] at hstep
    | entering r =>
      simp only [hcaller] at hstep
      exact State.asked_enter h hinv hcaller hstep
    | allocating r =>
      simp only [hcaller, Option.some.injEq] at hstep
      rw [← hstep]
      exact State.asked_allocate h hcaller (htaken.right.left (by rw [hcaller]; rfl))
    | writing c holder =>
      simp only [hcaller, Option.some.injEq] at hstep
      rw [← hstep]
      exact State.asked_writeController h hcaller
    | offering r holder =>
      simp only [hcaller, Option.some.injEq] at hstep
      rw [← hstep]
      exact State.asked_offer h hinv hcaller (htaken.right.right holder (by rw [hcaller]; rfl))
    | accepted r =>
      simp only [hcaller, Option.some.injEq] at hstep
      rw [← hstep]
      exact State.asked_accept h hcaller
    | refused r holder =>
      have hturns := h.turns
      rw [hcaller] at hturns
      exact False.elim hturns

/-
When a call has returned, the queue has accepted what was asked for by then and nothing else but the
packet that enables haptics.
-/
theorem requests_accepted {v : AppVersionQuad} {holders : Nat → PacketHolder} {events : List Event}
    {s : State} (hmeet : (machine v holders).StepsMeet Taken (machine v holders).init events)
    (hrun : (machine v holders).run events = some s) (hidle : s.caller = .idle)
    : asked v s.requests = ⟨s.batchedScrollDelta.toInt, ours s.accepted⟩ := by
  have hinvariant : s.Owned ∧ s.Inv v ∧ s.Asked v := by
    apply (machine v holders).runFrom_invariant_of_stepsMeet Taken
      (fun s => s.Owned ∧ s.Inv v ∧ s.Asked v) _ _ _ events _ hmeet hrun
    . intro s e t h htaken hstep
      obtain ⟨howned, hinv, hasked⟩ := h
      exact ⟨State.owned_step howned hstep,
        inv_step hinv howned (exact_of_taken v htaken) hstep,
        asked_step hasked hinv htaken hstep⟩
    . exact ⟨State.owned_initializeInputStream holders, State.inv_initializeInputStream v holders,
        State.asked_initializeInputStream v holders⟩
  have houtcome := hinvariant.right.right.outcome
  simpa only [State.outcome, hidle, List.append_nil] using houtcome

/- Half a turn of the wheel and one and a half more, which makes two turns. -/
theorem requests_accepted_scroll
    : ∃ s, (machine ⟨7, 1, 415, 0⟩ fun _ => hapticsHolder).run (List.replicate 3 (.control true)
            ++ callOf (.highResScroll 60) 1 ++ callOf (.highResScroll 190) 7) = some s
        ∧ asked ⟨7, 1, 415, 0⟩ s.requests = ⟨s.batchedScrollDelta.toInt, ours s.accepted⟩ := by
  have hidle : ((machine ⟨7, 1, 415, 0⟩ fun _ => hapticsHolder).run (List.replicate 3 (.control true)
      ++ callOf (.highResScroll 60) 1 ++ callOf (.highResScroll 190) 7)).map State.caller
      = some .idle := by
    decide +kernel
  obtain ⟨s, hrun, hcaller⟩ := Option.map_eq_some_iff.mp hidle
  exact ⟨s, hrun, requests_accepted (by decide +kernel) hrun hcaller⟩

end Stream
end Input

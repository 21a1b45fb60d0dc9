import PS3Moonlight.Lib.Transition
import Mathlib.Data.List.Basic
import Mathlib.Logic.Function.Basic

/-!
This module contains the blocking queue between the threads of a stream: its operations, and any
number of threads that work on it while one thread waits for its elements. The signal for the
waiting thread comes after the mutex is released, so other calls may come in between.
-/

namespace Threads

inductive LbqResult where
  | success
  | interrupted
  | boundExceeded
  | noElement
  | userWake
  deriving DecidableEq, Repr

/- The doubly linked list of entries is the list of their data. -/
structure LinkedBlockingQueue (α : Type) where
  items : List α
  sizeBound : Nat
  shutdown : Bool
  draining : Bool
  pendingUserWake : Bool
  deriving DecidableEq

namespace LinkedBlockingQueue

variable {α : Type}

def lbqInitialize (α : Type) (sizeBound : Nat) : LinkedBlockingQueue α where
  items := []
  sizeBound := sizeBound
  shutdown := false
  draining := false
  pendingUserWake := false

def currentSize (q : LinkedBlockingQueue α) : Nat :=
  q.items.length

def lbqSignalQueueShutdown (q : LinkedBlockingQueue α) : LinkedBlockingQueue α :=
  { q with shutdown := true }

def lbqSignalQueueDrain (q : LinkedBlockingQueue α) : LinkedBlockingQueue α :=
  { q with draining := true }

def lbqSignalQueueUserWake (q : LinkedBlockingQueue α) : LinkedBlockingQueue α :=
  { q with pendingUserWake := true }

def lbqFlushQueueItems (q : LinkedBlockingQueue α) : List α × LinkedBlockingQueue α :=
  ⟨q.items, { q with items := [] }⟩

def lbqOfferQueueItem (q : LinkedBlockingQueue α) (data : α)
    : Except LbqResult (LinkedBlockingQueue α) :=
  if q.shutdown || q.draining then
    .error .interrupted
  else if q.currentSize = q.sizeBound then
    .error .boundExceeded
  else
    .ok { q with items := q.items ++ [data] }

def lbqPeekQueueElement (q : LinkedBlockingQueue α) : Except LbqResult α :=
  if q.shutdown then
    .error .interrupted
  else
    match q.items with
    | [] => .error (if q.draining then .interrupted else .noElement)
    | data :: _ => .ok data

def lbqPollQueueElement (q : LinkedBlockingQueue α)
    : Except LbqResult (α × LinkedBlockingQueue α) :=
  if q.shutdown then
    .error .interrupted
  else
    match q.items with
    | [] => .error (if q.draining then .interrupted else .noElement)
    | data :: items => .ok ⟨data, { q with items := items }⟩

/- What ends the wait. -/
def waking (q : LinkedBlockingQueue α) : Bool :=
  !q.items.isEmpty || q.draining || q.shutdown || q.pendingUserWake

/- The rest of the call behind the loop that waits, `none` is the loop's decision to sleep. -/
def lbqWaitForQueueElement (q : LinkedBlockingQueue α)
    : Option (Except LbqResult α × LinkedBlockingQueue α) :=
  if q.waking then
    if q.shutdown then
      some ⟨.error .interrupted, q⟩
    else if q.pendingUserWake then
      some ⟨.error .userWake, { q with pendingUserWake := false }⟩
    else
      match q.items with
      | [] => some ⟨.error .interrupted, q⟩
      | data :: items => some ⟨.ok data, { q with items := items }⟩
  else
    none

theorem lbqOfferQueueItem_eq_ok {q t : LinkedBlockingQueue α} {data : α}
    (h : q.lbqOfferQueueItem data = .ok t)
    : q.shutdown = false ∧ q.draining = false ∧ q.items.length ≠ q.sizeBound
        ∧ t = { q with items := q.items ++ [data] } := by
  unfold lbqOfferQueueItem at h
  cases hs : q.shutdown || q.draining with
  | true => simp [hs] at h
  | false =>
    rw [Bool.or_eq_false_iff] at hs
    rw [if_neg (by simp [hs])] at h
    cases Decidable.em (q.currentSize = q.sizeBound) with
    | inl hbound => simp [hbound] at h
    | inr hbound =>
      rw [if_neg hbound, Except.ok.injEq] at h
      exact ⟨hs.left, hs.right, hbound, h.symm⟩

theorem lbqPollQueueElement_eq_ok {q t : LinkedBlockingQueue α} {data : α}
    (h : q.lbqPollQueueElement = .ok ⟨data, t⟩)
    : q.shutdown = false ∧ ∃ items, q.items = data :: items ∧ t = { q with items := items } := by
  unfold lbqPollQueueElement at h
  cases hs : q.shutdown with
  | true => simp [hs] at h
  | false =>
    cases hq : q.items with
    | nil => simp [hs, hq] at h
    | cons first items =>
      simp only [hs, hq, Bool.false_eq_true, if_false, Except.ok.injEq, Prod.mk.injEq] at h
      rw [← h.left]
      exact ⟨rfl, items, rfl, h.right.symm⟩

/- A peek sees what a poll would take. -/
theorem lbqPeekQueueElement_eq (q : LinkedBlockingQueue α)
    : q.lbqPeekQueueElement = q.lbqPollQueueElement.map Prod.fst := by
  unfold lbqPeekQueueElement lbqPollQueueElement
  split
  . rfl
  . cases q.items <;> rfl

theorem lbqWaitForQueueElement_eq_none {q : LinkedBlockingQueue α}
    (h : q.lbqWaitForQueueElement = none)
    : q.waking = false := by
  unfold lbqWaitForQueueElement at h
  cases hw : q.waking with
  | false => rfl
  | true =>
    rw [hw, if_pos rfl] at h
    repeat' split at h
    all_goals contradiction

/- A wait that ends takes the first element, or takes nothing. -/
theorem lbqWaitForQueueElement_eq_some {q t : LinkedBlockingQueue α} {answer : Except LbqResult α}
    (h : q.lbqWaitForQueueElement = some ⟨answer, t⟩)
    : (∃ data, answer = .ok data ∧ q.shutdown = false ∧ q.items = data :: t.items
          ∧ t = { q with items := t.items })
        ∨
      (∃ code, answer = .error code) ∧ t.items = q.items := by
  unfold lbqWaitForQueueElement at h
  cases hw : q.waking with
  | false => simp [hw] at h
  | true =>
    rw [hw, if_pos rfl] at h
    cases hs : q.shutdown with
    | true =>
      rw [hs, if_pos rfl, Option.some.injEq, Prod.mk.injEq] at h
      exact Or.inr ⟨⟨_, h.left.symm⟩, by rw [h.right]⟩
    | false =>
      rw [hs, if_neg (by simp)] at h
      cases hu : q.pendingUserWake with
      | true =>
        rw [hu, if_pos rfl, Option.some.injEq, Prod.mk.injEq] at h
        exact Or.inr ⟨⟨_, h.left.symm⟩, by rw [← h.right]⟩
      | false =>
        rw [hu, if_neg (by simp)] at h
        cases hq : q.items with
        | nil =>
          simp only [hq, Option.some.injEq, Prod.mk.injEq] at h
          exact Or.inr ⟨⟨_, h.left.symm⟩, by rw [← h.right, hq]⟩
        | cons first items =>
          simp only [hq, Option.some.injEq, Prod.mk.injEq] at h
          refine Or.inl ⟨first, h.left.symm, rfl, ?_, ?_⟩
          . rw [← h.right]
          . rw [← h.right]

end LinkedBlockingQueue

/-
The threads around one queue.
-/

inductive Call (α : Type) where
  | offer (data : α)
  | poll
  | flush
  | shutdown
  | drain
  | userWake

inductive Waiter where
  | outside
  | asleep
  | woken
  deriving DecidableEq, Repr

structure Shared (α : Type) where
  queue : LinkedBlockingQueue α
  waiter : Waiter
  signalling : Nat → Bool
  accepted : List α
  taken : List α

/-
`call` is what a call does until it releases the mutex, `signal` the signal after that, `wait` the
waiting thread from the mutex on until it sleeps or returns, and `spurious` a wake-up without a
signal.
-/
inductive Event (α : Type) where
  | call (thread : Nat) (c : Call α)
  | signal (thread : Nat)
  | wait
  | spurious

namespace Shared

variable {α : Type}

def start (sizeBound : Nat) : Shared α where
  queue := LinkedBlockingQueue.lbqInitialize α sizeBound
  waiter := .outside
  signalling := fun _ => false
  accepted := []
  taken := []

def signalFrom (s : Shared α) (thread : Nat) : Shared α :=
  { s with signalling := Function.update s.signalling thread true }

def call (s : Shared α) (thread : Nat) (c : Call α) : Shared α :=
  match c with
  | .offer data =>
    match s.queue.lbqOfferQueueItem data with
    | .error _ => s
    | .ok queue =>
      let next := { s with queue := queue, accepted := s.accepted ++ [data] }
      if s.queue.items.isEmpty then next.signalFrom thread else next
  | .poll =>
    match s.queue.lbqPollQueueElement with
    | .error _ => s
    | .ok result => { s with queue := result.snd, taken := s.taken ++ [result.fst] }
  | .flush =>
    let result := s.queue.lbqFlushQueueItems
    { s with queue := result.snd, taken := s.taken ++ result.fst }
  | .shutdown => { s with queue := s.queue.lbqSignalQueueShutdown }.signalFrom thread
  | .drain => { s with queue := s.queue.lbqSignalQueueDrain }.signalFrom thread
  | .userWake => { s with queue := s.queue.lbqSignalQueueUserWake }.signalFrom thread

def pltSignalConditionVariable (s : Shared α) (thread : Nat) : Shared α :=
  { s with
    signalling := Function.update s.signalling thread false
    waiter := if s.waiter = .asleep then .woken else s.waiter }

def wait (s : Shared α) : Shared α :=
  match s.queue.lbqWaitForQueueElement with
  | none => { s with waiter := .asleep }
  | some ⟨.ok data, queue⟩ =>
    { s with waiter := .outside, queue := queue, taken := s.taken ++ [data] }
  | some ⟨.error _, queue⟩ => { s with waiter := .outside, queue := queue }

def step (s : Shared α) (e : Event α) : Option (Shared α) :=
  match e with
  | .call thread c => if s.signalling thread then none else some (s.call thread c)
  | .signal thread => if s.signalling thread then some (s.pltSignalConditionVariable thread) else none
  | .wait => if s.waiter = .asleep then none else some s.wait
  | .spurious => if s.waiter = .asleep then some { s with waiter := .woken } else none

def machine (α : Type) (sizeBound : Nat) : Transition.Machine (Shared α) (Event α) where
  init := start sizeBound
  step := step

/-
No element is lost or goes out of order. A thread sleeps on something to do only while the signal
for it is on its way.
-/
structure Inv (s : Shared α) : Prop where
  order : s.taken ++ s.queue.items = s.accepted
  awake : s.waiter = .asleep → s.queue.waking = true → ∃ thread, s.signalling thread = true

theorem inv_start (sizeBound : Nat) : Inv (start sizeBound : Shared α) := by
  constructor
  . rfl
  . intro h
    contradiction

theorem exists_signalFrom (s : Shared α) (thread : Nat)
    : ∃ t, (s.signalFrom thread).signalling t = true := by
  refine ⟨thread, ?_⟩
  simp [signalFrom]

/- An offer to a queue that has elements leaves the signal to the call that brought the first one. -/
theorem inv_call {s : Shared α} (h : Inv s) (thread : Nat) (c : Call α) : Inv (s.call thread c) := by
  cases c with
  | offer data =>
    simp only [call]
    cases hoffer : s.queue.lbqOfferQueueItem data with
    | error code => exact h
    | ok queue =>
      have hqueue := (LinkedBlockingQueue.lbqOfferQueueItem_eq_ok hoffer).right.right.right
      have horder : s.taken ++ queue.items = s.accepted ++ [data] := by
        rw [hqueue, ← List.append_assoc, h.order]
      cases hempty : s.queue.items.isEmpty with
      | true =>
        simp only [if_true]
        constructor
        . exact horder
        . intro _ _
          apply exists_signalFrom
      | false =>
        simp only [Bool.false_eq_true, if_false]
        constructor
        . exact horder
        . intro hasleep _
          apply h.awake hasleep
          simp [LinkedBlockingQueue.waking, hempty]
  | poll =>
    simp only [call]
    cases hpoll : s.queue.lbqPollQueueElement with
    | error code => exact h
    | ok result =>
      obtain ⟨_, items, hitems, hqueue⟩ := LinkedBlockingQueue.lbqPollQueueElement_eq_ok hpoll
      constructor
      . have horder := h.order
        rw [hitems] at horder
        simp [hqueue, ← horder]
      . intro hasleep _
        apply h.awake hasleep
        simp [LinkedBlockingQueue.waking, hitems]
  | flush =>
    constructor
    . have horder := h.order
      simp [call, LinkedBlockingQueue.lbqFlushQueueItems, ← horder]
    . intro hasleep hwaking
      apply h.awake hasleep
      unfold LinkedBlockingQueue.waking at hwaking ⊢
      simp only [call, LinkedBlockingQueue.lbqFlushQueueItems, List.isEmpty_nil, Bool.not_true,
        Bool.false_or] at hwaking
      rw [Bool.or_assoc, Bool.or_assoc, ← Bool.or_assoc s.queue.draining, hwaking, Bool.or_true]
  | shutdown => exact ⟨h.order, fun _ _ => exists_signalFrom _ _⟩
  | drain => exact ⟨h.order, fun _ _ => exists_signalFrom _ _⟩
  | userWake => exact ⟨h.order, fun _ _ => exists_signalFrom _ _⟩

theorem inv_wait {s : Shared α} (h : Inv s) : Inv s.wait := by
  unfold wait
  cases hwait : s.queue.lbqWaitForQueueElement with
  | none =>
    constructor
    . exact h.order
    . intro _ hwaking
      have hsleep := LinkedBlockingQueue.lbqWaitForQueueElement_eq_none hwait
      simp only at hwaking
      rw [hsleep] at hwaking
      contradiction
  | some result =>
    rcases result with ⟨answer, queue⟩
    cases LinkedBlockingQueue.lbqWaitForQueueElement_eq_some hwait with
    | inl htaken =>
      obtain ⟨data, hanswer, _, hitems, _⟩ := htaken
      rw [hanswer]
      constructor
      . have horder := h.order
        rw [hitems] at horder
        simp [← horder]
      . intro hasleep
        contradiction
    | inr hnothing =>
      obtain ⟨⟨code, hanswer⟩, hitems⟩ := hnothing
      rw [hanswer]
      constructor
      . simp only
        rw [hitems]
        exact h.order
      . intro hasleep
        contradiction

theorem inv_step {s t : Shared α} {e : Event α} (h : Inv s) (hstep : s.step e = some t) : Inv t := by
  unfold step at hstep
  cases e with
  | call thread c =>
    simp only at hstep
    split at hstep
    . contradiction
    . rw [← Option.some.inj hstep]
      exact inv_call h thread c
  | signal thread =>
    simp only at hstep
    split at hstep
    . rw [← Option.some.inj hstep]
      constructor
      . exact h.order
      . intro hasleep
        simp only [pltSignalConditionVariable] at hasleep
        split at hasleep
        . contradiction
        . contradiction
    . contradiction
  | wait =>
    simp only at hstep
    split at hstep
    . contradiction
    . rw [← Option.some.inj hstep]
      exact inv_wait h
  | spurious =>
    simp only at hstep
    split at hstep
    . rw [← Option.some.inj hstep]
      exact ⟨h.order, fun hasleep => by contradiction⟩
    . contradiction

/-
Once every call has returned, the waiting thread sleeps only if there is nothing for it to do, and
what was accepted is what was taken and what waits, in order.
-/
theorem no_wakeup_lost {sizeBound : Nat} {s : Shared α} (h : (machine α sizeBound).Reachable s)
    : s.taken ++ s.queue.items = s.accepted
        ∧
      (s.waiter = .asleep → (∀ thread, s.signalling thread = false)
        → s.queue.items = [] ∧ s.queue.shutdown = false ∧ s.queue.draining = false
            ∧ s.queue.pendingUserWake = false) := by
  have hinv : Inv s := by
    apply h.invariant Inv
    . apply inv_start
    . intro s e t hs hstep
      exact inv_step hs hstep
  refine ⟨hinv.order, ?_⟩
  intro hasleep hreturned
  cases hwaking : s.queue.waking with
  | true =>
    obtain ⟨thread, hthread⟩ := hinv.awake hasleep hwaking
    rw [hreturned thread] at hthread
    contradiction
  | false =>
    simp only [LinkedBlockingQueue.waking, Bool.or_eq_false_iff, Bool.not_eq_false',
      List.isEmpty_iff] at hwaking
    exact ⟨hwaking.left.left.left, hwaking.left.right, hwaking.left.left.right, hwaking.right⟩

/- The second offer comes before the signal of the first one and sends none. -/
theorem no_wakeup_lost_between
    : ∃ s, (machine Nat 2).run
          [.wait, .call 0 (.offer 5), .call 1 (.offer 6), .signal 0, .wait, .wait, .wait] = some s
        ∧ s.taken ++ s.queue.items = s.accepted
        ∧ (s.waiter = .asleep → (∀ thread, s.signalling thread = false)
            → s.queue.items = [] ∧ s.queue.shutdown = false ∧ s.queue.draining = false
                ∧ s.queue.pendingUserWake = false) := by
  have hsome : ((machine Nat 2).run
      [.wait, .call 0 (.offer 5), .call 1 (.offer 6), .signal 0, .wait, .wait, .wait]).isSome
        = true := by
    decide +kernel
  obtain ⟨s, hrun⟩ := Option.isSome_iff_exists.mp hsome
  exact ⟨s, hrun, no_wakeup_lost ⟨_, hrun⟩⟩

end Shared
end Threads

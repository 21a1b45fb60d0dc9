import PS3Moonlight.Lib.Loop
import PS3Moonlight.Lib.Ring
import PS3Moonlight.Lib.Transition
import PS3Moonlight.Video.Basic
import Mathlib.Data.Finset.Card
import Mathlib.Data.Finset.Range

/-!
This module contains the pool of decoded pictures of `video.c`: the main thread decodes into
`vdec_frame_bufs[write_buf]` and publishes the buffer in the ready ring, the UI thread drains the
ring and displays `front_buf`. The sections under `frame_mutex` are one step each, the decoding
itself happens outside of the lock and is a step of its own.
-/

namespace Video

variable {φ : Type*}

structure FrameRing (φ : Type*) where
  vdecFrameBufs : Nat → φ
  frameReadyTime : Nat → UInt64
  frontBuf : Int
  writeBuf : Nat
  readyQueue : Nat → Nat
  readyHead : Nat
  readyTail : Nat
  readyCount : Nat
  stats : Stats
  -- whether `vdec_poll` is between `vdecGetPicture` and the section that publishes the picture
  decoded : Bool
  deriving Inhabited

namespace FrameRing

def resetVideoRuntimeState (r : FrameRing φ) : FrameRing φ :=
  { r with
    frontBuf := -1
    writeBuf := 0
    readyHead := 0
    readyTail := 0
    readyCount := 0
    stats := r.stats.reset
    decoded := false }

def getPicture (r : FrameRing φ) (picture : φ) (clock : Clock) : FrameRing φ :=
  { r with
    vdecFrameBufs := Function.update r.vdecFrameBufs r.writeBuf picture
    frameReadyTime :=
      if clock.showStats then
        Function.update r.frameReadyTime r.writeBuf clock.now
      else
        r.frameReadyTime
    stats := r.stats.popSubmitTime clock
    decoded := true }

/-
Without a free entry the oldest one is overwritten, the count stays as it is.
-/
def enqueue (r : FrameRing φ) (clock : Clock) : FrameRing φ :=
  let r' :=
    { r with
      readyQueue := Function.update r.readyQueue r.readyHead r.writeBuf
      readyHead := (r.readyHead + 1) % vdecFrameCount }
  if r.readyCount < vdecFrameCount - 2 then
    { r' with readyCount := r.readyCount + 1 }
  else
    { r' with
      readyTail := (r.readyTail + 1) % vdecFrameCount
      stats := r.stats.noteDropped clock }

def isFree (r : FrameRing φ) (nextWrite : Nat) : Bool :=
  (nextWrite : Int) != r.frontBuf
    &&
  (List.range r.readyCount).all fun j =>
    r.readyQueue ((r.readyTail + j) % vdecFrameCount) != nextWrite

def searchBody (r : FrameRing φ) (nextWrite : Nat) : Nat ⊕ Nat :=
  if r.isFree nextWrite then
    .inr nextWrite
  else
    .inl ((nextWrite + 1) % vdecFrameCount)

/-
The locked section of `vdec_poll`, `none` stands for a search that never finds a free buffer.
-/
def publish (r : FrameRing φ) (clock : Clock) : Option (FrameRing φ) :=
  let r := r.enqueue clock
  match Loop.iter r.searchBody vdecFrameCount ((r.writeBuf + 1) % vdecFrameCount) with
  | none => none
  | some nextWrite =>
    some
      { r with
        writeBuf := nextWrite
        stats := r.stats.noteDecoded clock
        decoded := false }

def drainBody (clock : Clock) (r : FrameRing φ) : FrameRing φ ⊕ FrameRing φ :=
  if 1 < r.readyCount then
    .inl
      { r with
        readyTail := (r.readyTail + 1) % vdecFrameCount
        readyCount := r.readyCount - 1
        stats := r.stats.noteDropped clock }
  else
    .inr r

/-
The locked section of `ps3video_draw`, `none` stands for a drain that never ends.
-/
def draw (r : FrameRing φ) (clock : Clock) : Option (FrameRing φ) :=
  if 0 < r.readyCount then
    match Loop.iter (drainBody clock) r.readyCount r with
    | none => none
    | some r =>
      let front := r.readyQueue r.readyTail
      some
        { r with
          frontBuf := front
          readyTail := (r.readyTail + 1) % vdecFrameCount
          readyCount := r.readyCount - 1
          stats := r.stats.noteShown clock (r.frameReadyTime front) }
  else
    some r

inductive Event (φ : Type*) where
  | getPicture (picture : φ) (clock : Clock)
  | publish (clock : Clock)
  | rollStats (clock : Clock)
  | draw (clock : Clock)

def step (r : FrameRing φ) (e : Event φ) : Option (FrameRing φ) :=
  match e with
  | .getPicture picture clock => if r.decoded then none else some (r.getPicture picture clock)
  | .publish clock => if r.decoded then r.publish clock else none
  | .rollStats clock => some { r with stats := r.stats.roll clock }
  | .draw clock => r.draw clock

/-
The two threads from a reset on, whatever the memory held before.
-/
def machine (r : FrameRing φ) : Transition.Machine (FrameRing φ) (Event φ) where
  init := r.resetVideoRuntimeState
  step := step

/-
The buffers that wait to be displayed, oldest first.
-/
def waiting (r : FrameRing φ) : List Nat :=
  Ring.window r.readyQueue vdecFrameCount r.readyTail r.readyCount

structure Inv (r : FrameRing φ) : Prop where
  nodup : r.waiting.Nodup
  lt : ∀ b, b ∈ r.waiting → b < vdecFrameCount
  front : r.frontBuf = -1 ∨ ∃ b, b < vdecFrameCount ∧ r.frontBuf = b ∧ b ∉ r.waiting
  head : r.readyHead = (r.readyTail + r.readyCount) % vdecFrameCount
  tail : r.readyTail < vdecFrameCount
  count : r.readyCount ≤ vdecFrameCount - 2
  write_lt : r.writeBuf < vdecFrameCount
  write_ne_front : (r.writeBuf : Int) ≠ r.frontBuf
  write_not_waiting : r.writeBuf ∉ r.waiting

@[simp]
theorem length_waiting (r : FrameRing φ) : r.waiting.length = r.readyCount := by
  simp [waiting]

theorem isFree_iff {r : FrameRing φ} {b : Nat}
    : r.isFree b = true ↔ (b : Int) ≠ r.frontBuf ∧ b ∉ r.waiting := by
  unfold isFree waiting
  rw [Ring.mem_window]
  simp

/-
How the operations change the waiting buffers.
-/

theorem waiting_enqueue {r : FrameRing φ} (h : r.Inv) (clock : Clock)
    : (r.enqueue clock).waiting
        =
      if r.readyCount < vdecFrameCount - 2 then
        r.waiting ++ [r.writeBuf]
      else
        r.waiting.drop 1 ++ [r.writeBuf] := by
  have hcount : r.readyCount < vdecFrameCount := by
    have := h.count
    unfold vdecFrameCount at *
    omega
  have hpush := @Ring.window_push _ r.readyQueue _ r.readyTail _ r.writeBuf hcount
  rw [← h.head] at hpush
  unfold enqueue
  dsimp only
  split
  . exact hpush
  . next hfull =>
    have hsome : 1 ≤ r.readyCount := by
      unfold vdecFrameCount at hfull
      omega
    have hdrop := congrArg (List.drop 1) hpush
    rw [Ring.drop_window _ _ _ (by omega)] at hdrop
    rw [List.drop_append_of_le_length (by simpa using hsome)] at hdrop
    exact hdrop

theorem drain_eq (clock : Clock) (r : FrameRing φ) (fuel : Nat) (htail : r.readyTail < vdecFrameCount)
    (hcount : 0 < r.readyCount) (hfuel : r.readyCount ≤ fuel)
    : ∃ stats,
        Loop.iter (drainBody clock) fuel r
          =
        some
          { r with
            readyTail := (r.readyTail + (r.readyCount - 1)) % vdecFrameCount
            readyCount := 1
            stats := stats } := by
  induction fuel generalizing r with
  | zero => omega
  | succ fuel ih =>
    cases Nat.lt_or_ge 1 r.readyCount with
    | inl hmore =>
      rw [Loop.iter_of_inl (by simp only [drainBody, hmore, ↓reduceIte]; rfl)]
      have hrest := ih
        { r with
          readyTail := (r.readyTail + 1) % vdecFrameCount
          readyCount := r.readyCount - 1
          stats := r.stats.noteDropped clock }
        (Nat.mod_lt _ (by decide)) (by dsimp only; omega) (by dsimp only; omega)
      have ⟨stats, hstats⟩ := hrest
      refine ⟨stats, ?_⟩
      rw [hstats]
      have htail : ((r.readyTail + 1) % vdecFrameCount + (r.readyCount - 1 - 1)) % vdecFrameCount
          = (r.readyTail + (r.readyCount - 1)) % vdecFrameCount := by
        rw [Nat.mod_add_mod]
        congr 1
        omega
      dsimp only
      rw [htail]
    | inr hlast =>
      have hone : r.readyCount = 1 := by omega
      refine ⟨r.stats, ?_⟩
      rw [Loop.iter_of_inr (by simp only [drainBody, hone, Nat.lt_irrefl, ↓reduceIte]; rfl)]
      rcases r with ⟨bufs, times, front, write, queue, head, tail, count, stats, decoded⟩
      dsimp only at hone htail
      simp [hone, Nat.mod_eq_of_lt htail]

/-
A draw that finds waiting buffers displays the newest one and forgets all others.
-/
theorem draw_of_pos {r : FrameRing φ} (h : r.Inv) (clock : Clock) (hcount : 0 < r.readyCount)
    : ∃ stats,
        r.draw clock
          =
        some
          { r with
            frontBuf := r.readyQueue ((r.readyTail + (r.readyCount - 1)) % vdecFrameCount)
            readyTail := (r.readyTail + r.readyCount) % vdecFrameCount
            readyCount := 0
            stats := stats } := by
  have ⟨stats, hstats⟩ := drain_eq clock r r.readyCount h.tail hcount (Nat.le_refl _)
  have htail : ((r.readyTail + (r.readyCount - 1)) % vdecFrameCount + 1) % vdecFrameCount
      = (r.readyTail + r.readyCount) % vdecFrameCount := by
    rw [Nat.mod_add_mod]
    congr 1
    omega
  refine ⟨stats.noteShown clock (r.frameReadyTime
    (r.readyQueue ((r.readyTail + (r.readyCount - 1)) % vdecFrameCount))), ?_⟩
  unfold draw
  rw [if_pos hcount, hstats]
  dsimp only
  rw [htail]

theorem draw_of_zero {r : FrameRing φ} (clock : Clock) (hcount : r.readyCount = 0)
    : r.draw clock = some r := by
  unfold draw
  rw [if_neg (by omega)]

/-
The search of `vdec_poll`: six buffers, at most four of them wait and one is displayed.
-/

theorem exists_free {r : FrameRing φ} (hcount : r.readyCount ≤ vdecFrameCount - 2)
    : ∃ b, b < vdecFrameCount ∧ r.isFree b = true := by
  let used := insert r.frontBuf.toNat r.waiting.toFinset
  have hcard : used.card < (Finset.range vdecFrameCount).card := by
    have hinsert := Finset.card_insert_le r.frontBuf.toNat r.waiting.toFinset
    have hwaiting := r.waiting.toFinset_card_le
    rw [length_waiting] at hwaiting
    rw [Finset.card_range]
    unfold vdecFrameCount at *
    dsimp only [used]
    omega
  have ⟨b, hb, hused⟩ := Finset.exists_mem_notMem_of_card_lt_card hcard
  simp only [used, Finset.mem_insert, List.mem_toFinset, not_or] at hused
  refine ⟨b, by simpa using hb, ?_⟩
  rw [isFree_iff]
  refine ⟨?_, hused.right⟩
  intro heq
  apply hused.left
  omega

theorem search_total {r : FrameRing φ} (hcount : r.readyCount ≤ vdecFrameCount - 2) (start : Nat)
    (hstart : start < vdecFrameCount)
    : ∃ b,
        Loop.iter r.searchBody vdecFrameCount start = some b
          ∧
        b < vdecFrameCount ∧ r.isFree b = true := by
  have ⟨free, hlt, hfree⟩ := exists_free hcount
  apply Loop.iter_total (fun i => i < vdecFrameCount)
    -- the distance to a free buffer
    (fun i => (free + vdecFrameCount - i) % vdecFrameCount)
  . intro i j hi hbody
    unfold searchBody at hbody
    split at hbody
    . simp at hbody
    . next hused =>
      injection hbody with hbody
      have hne : i ≠ free := by
        intro heq
        rw [heq] at hused
        contradiction
      rw [← hbody]
      unfold vdecFrameCount at *
      omega
  . intro i b hi hbody
    unfold searchBody at hbody
    split at hbody
    . next hfound =>
      injection hbody with hbody
      rw [← hbody]
      exact ⟨hi, hfound⟩
    . simp at hbody
  . exact hstart
  . unfold vdecFrameCount at *
    omega

theorem publish_total {r : FrameRing φ} (hcount : (r.enqueue clock).readyCount ≤ vdecFrameCount - 2)
    : ∃ b,
        r.publish clock
          =
        some
          { r.enqueue clock with
            writeBuf := b
            stats := (r.enqueue clock).stats.noteDecoded clock
            decoded := false }
          ∧
        b < vdecFrameCount ∧ (r.enqueue clock).isFree b = true := by
  have ⟨b, hb, hfree⟩ := search_total hcount (((r.enqueue clock).writeBuf + 1) % vdecFrameCount)
    (Nat.mod_lt _ (by decide))
  refine ⟨b, ?_, hfree⟩
  unfold publish
  dsimp only
  rw [hb]

/-
What one step preserves.
-/

theorem inv_resetVideoRuntimeState (r : FrameRing φ) : r.resetVideoRuntimeState.Inv where
  nodup := by simp [waiting, resetVideoRuntimeState]
  lt := by simp [waiting, resetVideoRuntimeState]
  front := by simp [resetVideoRuntimeState]
  head := by simp [resetVideoRuntimeState]
  tail := by simp [resetVideoRuntimeState, vdecFrameCount]
  count := by simp [resetVideoRuntimeState]
  write_lt := by simp [resetVideoRuntimeState, vdecFrameCount]
  write_ne_front := by simp [resetVideoRuntimeState]
  write_not_waiting := by simp [waiting, resetVideoRuntimeState]

theorem inv_getPicture {r : FrameRing φ} (h : r.Inv) (picture : φ) (clock : Clock)
    : (r.getPicture picture clock).Inv := by
  exact ⟨h.nodup, h.lt, h.front, h.head, h.tail, h.count, h.write_lt, h.write_ne_front,
    h.write_not_waiting⟩

theorem inv_rollStats {r : FrameRing φ} (h : r.Inv) (clock : Clock)
    : ({ r with stats := r.stats.roll clock } : FrameRing φ).Inv := by
  exact ⟨h.nodup, h.lt, h.front, h.head, h.tail, h.count, h.write_lt, h.write_ne_front,
    h.write_not_waiting⟩

theorem waiting_enqueue_eq_append {r : FrameRing φ} (h : r.Inv) (clock : Clock)
    : ∃ kept, kept.Sublist r.waiting ∧ (r.enqueue clock).waiting = kept ++ [r.writeBuf] := by
  rw [waiting_enqueue h]
  split
  . exact ⟨r.waiting, List.Sublist.refl _, rfl⟩
  . exact ⟨r.waiting.drop 1, List.drop_sublist _ _, rfl⟩

theorem readyCount_enqueue_le {r : FrameRing φ} (h : r.Inv) (clock : Clock)
    : (r.enqueue clock).readyCount ≤ vdecFrameCount - 2 := by
  have := h.count
  unfold enqueue
  dsimp only
  split
  . dsimp only
    omega
  . exact h.count

theorem readyHead_enqueue {r : FrameRing φ} (h : r.Inv) (clock : Clock)
    : (r.enqueue clock).readyHead
        =
      ((r.enqueue clock).readyTail + (r.enqueue clock).readyCount) % vdecFrameCount := by
  have hhead := h.head
  unfold enqueue
  dsimp only
  split
  . dsimp only
    rw [hhead, Nat.mod_add_mod, Nat.add_assoc]
  . dsimp only
    rw [hhead, Nat.mod_add_mod, Nat.mod_add_mod]
    congr 1
    omega

theorem readyTail_enqueue_lt {r : FrameRing φ} (h : r.Inv) (clock : Clock)
    : (r.enqueue clock).readyTail < vdecFrameCount := by
  unfold enqueue
  dsimp only
  split
  . exact h.tail
  . apply Nat.mod_lt
    decide

theorem frontBuf_enqueue (r : FrameRing φ) (clock : Clock)
    : (r.enqueue clock).frontBuf = r.frontBuf := by
  unfold enqueue
  dsimp only
  split <;> rfl

theorem inv_publish {r t : FrameRing φ} (h : r.Inv) (clock : Clock)
    (hstep : r.publish clock = some t)
    : t.Inv := by
  have ⟨b, hpublish, hb, hfree⟩ := publish_total (readyCount_enqueue_le h clock)
  have ⟨kept, hkept, hwaiting⟩ := waiting_enqueue_eq_append h clock
  rw [hpublish] at hstep
  injection hstep with hstep
  rw [isFree_iff] at hfree
  have hnot : r.writeBuf ∉ kept := fun hmem => h.write_not_waiting (hkept.subset hmem)
  -- the published buffer joins the ring at its end, a new one is free of front and ring
  have hw : t.waiting = kept ++ [r.writeBuf] := by
    rw [← hwaiting, ← hstep]
    rfl
  constructor
  . rw [hw, List.nodup_append]
    refine ⟨hkept.nodup h.nodup, by simp, ?_⟩
    intro x hx y hy
    simp only [List.mem_singleton] at hy
    intro heq
    rw [heq, hy] at hx
    contradiction
  . rw [hw]
    intro x hx
    simp only [List.mem_append, List.mem_singleton] at hx
    cases hx with
    | inl hx => exact h.lt x (hkept.subset hx)
    | inr hx =>
      rw [hx]
      exact h.write_lt
  . rw [← hstep]
    dsimp only
    rw [frontBuf_enqueue]
    cases h.front with
    | inl hnone => exact Or.inl hnone
    | inr hsome =>
      have ⟨f, hf, hfront, hnotf⟩ := hsome
      refine Or.inr ⟨f, hf, hfront, ?_⟩
      have hne := h.write_ne_front
      intro hmem
      change f ∈ (r.enqueue clock).waiting at hmem
      rw [hwaiting] at hmem
      simp only [List.mem_append, List.mem_singleton] at hmem
      cases hmem with
      | inl hmem => exact hnotf (hkept.subset hmem)
      | inr hmem => omega
  . rw [← hstep]
    apply readyHead_enqueue h clock
  . rw [← hstep]
    apply readyTail_enqueue_lt h clock
  . rw [← hstep]
    apply readyCount_enqueue_le h clock
  . rw [← hstep]
    exact hb
  . rw [← hstep]
    exact hfree.left
  . rw [← hstep]
    exact hfree.right

theorem inv_draw {r t : FrameRing φ} (h : r.Inv) (clock : Clock) (hstep : r.draw clock = some t)
    : t.Inv := by
  cases Nat.eq_zero_or_pos r.readyCount with
  | inl hzero =>
    rw [draw_of_zero clock hzero] at hstep
    injection hstep with hstep
    rw [← hstep]
    exact h
  | inr hpos =>
    have ⟨stats, hdraw⟩ := draw_of_pos h clock hpos
    rw [hdraw] at hstep
    injection hstep with hstep
    have hmem : r.readyQueue ((r.readyTail + (r.readyCount - 1)) % vdecFrameCount) ∈ r.waiting := by
      unfold waiting
      rw [Ring.mem_window]
      exact ⟨r.readyCount - 1, by omega, rfl⟩
    have hwaiting : t.waiting = [] := by
      rw [← hstep]
      rfl
    constructor
    . simp [hwaiting]
    . simp [hwaiting]
    . refine Or.inr ⟨_, h.lt _ hmem, ?_, ?_⟩
      . rw [← hstep]
      . simp [hwaiting]
    . rw [← hstep]
      dsimp only
      rw [h.head, Nat.add_zero, Nat.mod_mod]
    . rw [← hstep]
      apply Nat.mod_lt
      decide
    . rw [← hstep]
      dsimp only
      omega
    . rw [← hstep]
      exact h.write_lt
    . rw [← hstep]
      dsimp only
      intro heq
      apply h.write_not_waiting
      have : r.writeBuf = r.readyQueue ((r.readyTail + (r.readyCount - 1)) % vdecFrameCount) := by
        omega
      rw [this]
      exact hmem
    . simp [hwaiting]

theorem inv_step {r t : FrameRing φ} (h : r.Inv) (e : Event φ) (hstep : r.step e = some t)
    : t.Inv := by
  cases e with
  | getPicture picture clock =>
    simp only [step] at hstep
    split at hstep
    . simp at hstep
    . injection hstep with hstep
      rw [← hstep]
      apply inv_getPicture h picture clock
  | publish clock =>
    simp only [step] at hstep
    split at hstep
    . apply inv_publish h clock hstep
    . simp at hstep
  | rollStats clock =>
    simp only [step, Option.some.injEq] at hstep
    rw [← hstep]
    apply inv_rollStats h clock
  | draw clock => exact inv_draw h clock hstep

theorem inv_of_reachable {mem r : FrameRing φ} (h : (machine mem).Reachable r) : r.Inv := by
  apply h.invariant Inv
  . apply inv_resetVideoRuntimeState mem
  . intro s e t hs hstep
    apply inv_step hs e hstep

/-
Neither thread ever gets stuck in its locked section.
-/
theorem step_isSome {r : FrameRing φ} (h : r.Inv) (clock : Clock)
    : (r.draw clock).isSome ∧ (r.publish clock).isSome := by
  constructor
  . cases Nat.eq_zero_or_pos r.readyCount with
    | inl hzero => simp [draw_of_zero clock hzero]
    | inr hpos =>
      have ⟨stats, hdraw⟩ := draw_of_pos h clock hpos
      simp [hdraw]
  . have ⟨b, hpublish, _⟩ := publish_total (readyCount_enqueue_le h clock)
    simp [hpublish]

/-
Decoding only ever touches a buffer that is neither displayed nor waiting.
-/
theorem getPicture_frame {r : FrameRing φ} (h : r.Inv) (picture : φ) (clock : Clock) (b : Nat)
    (hb : (b : Int) = r.frontBuf ∨ b ∈ r.waiting)
    : (r.getPicture picture clock).vdecFrameBufs b = r.vdecFrameBufs b := by
  have hne : b ≠ r.writeBuf := by
    intro heq
    cases hb with
    | inl hfront =>
      rw [heq] at hfront
      apply h.write_ne_front hfront
    | inr hwaiting =>
      rw [heq] at hwaiting
      apply h.write_not_waiting hwaiting
  unfold getPicture
  dsimp only
  rw [Function.update_of_ne hne]

theorem frame_pool_safe (mem r : FrameRing φ) (h : (machine mem).Reachable r)
    : r.Inv
        ∧
      (∀ picture clock (b : Nat), (b : Int) = r.frontBuf ∨ b ∈ r.waiting
        → (r.getPicture picture clock).vdecFrameBufs b = r.vdecFrameBufs b)
        ∧
      (∀ clock,
        (Loop.iter (r.enqueue clock).searchBody vdecFrameCount
          (((r.enqueue clock).writeBuf + 1) % vdecFrameCount)).isSome) := by
  have hinv := inv_of_reachable h
  refine ⟨hinv, ?_, ?_⟩
  . intro picture clock b hb
    apply getPicture_frame hinv picture clock b hb
  . intro clock
    have ⟨b, hb, _⟩ := search_total (readyCount_enqueue_le hinv clock)
      (((r.enqueue clock).writeBuf + 1) % vdecFrameCount) (Nat.mod_lt _ (by decide))
    simp [hb]

theorem frame_pool_safe_publish_draw
    : ∃ r, (machine (default : FrameRing Nat)).run
        [.getPicture 7 default, .draw default, .publish default, .draw default] = some r
          ∧
        r.Inv := by
  have ⟨r, hr⟩ : ∃ r, (machine (default : FrameRing Nat)).run
      [.getPicture 7 default, .draw default, .publish default, .draw default] = some r := by
    exact ⟨_, rfl⟩
  exact ⟨r, hr, (frame_pool_safe default r ⟨_, hr⟩).left⟩

end FrameRing

end Video

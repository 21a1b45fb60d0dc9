import PS3Moonlight.Lib.Ring
import PS3Moonlight.Lib.DropQueue

/-!
This module contains the PCM ring buffer of `audio.c` that bridges the Opus decode callback and the
playback thread, and the proof that it is a bounded queue that drops its oldest floats. Every call
runs under `rb_mutex`, so a run is a sequence of whole calls. One of the 32768 slots is never
filled, the indices alone could not tell a full buffer from an empty one.
-/

namespace Audio

def ringBufferSize : Nat := 32768

theorem ringBufferSize_pos : 0 < ringBufferSize := by
  decide

/-
The element type is generic: the code only ever moves floats around.
-/
structure PcmRing (α : Type*) where
  audioRingBuffer : Nat → α
  rbWriteIdx : Nat
  rbReadIdx : Nat
  hwrite : rbWriteIdx < ringBufferSize
  hread : rbReadIdx < ringBufferSize

namespace PcmRing

variable {α : Type*}

-- C's `%` on ints, the index expressions of the source rely on their left operand not being negative
def wrap (i : Int) : Nat :=
  (i.tmod ringBufferSize).toNat

theorem wrap_lt (i : Int) : wrap i < ringBufferSize := by
  have := Int.tmod_lt_of_pos i (b := ringBufferSize) (by decide)
  have := ringBufferSize_pos
  unfold wrap
  omega

theorem wrap_ofNat (n : Nat) : wrap n = n % ringBufferSize := by
  unfold wrap
  rw [Int.tmod_eq_emod_of_nonneg (by omega)]
  omega

def freeSpace (rb : PcmRing α) : Int :=
  ((rb.rbReadIdx : Int) - rb.rbWriteIdx - 1 + ringBufferSize).tmod ringBufferSize

def available (rb : PcmRing α) : Int :=
  ((rb.rbWriteIdx : Int) - rb.rbReadIdx + ringBufferSize).tmod ringBufferSize

def setReadIdx (rb : PcmRing α) (i : Int) : PcmRing α :=
  { rb with rbReadIdx := wrap i, hread := wrap_lt i }

def put (rb : PcmRing α) (x : α) : PcmRing α :=
  { rb with
    audioRingBuffer := Function.update rb.audioRingBuffer rb.rbWriteIdx x
    rbWriteIdx := wrap (rb.rbWriteIdx + 1)
    hwrite := wrap_lt _ }

def rbWrite (rb : PcmRing α) (data : List α) : PcmRing α :=
  let rb :=
    if rb.freeSpace < data.length then
      let needed := data.length - rb.freeSpace
      rb.setReadIdx (rb.rbReadIdx + needed)
    else
      rb
  data.foldl put rb

def take (rb : PcmRing α) (numFloats : Nat) : PcmRing α × List α :=
  match numFloats with
  | 0 => ⟨rb, []⟩
  | numFloats + 1 =>
    let x := rb.audioRingBuffer rb.rbReadIdx
    let res := (rb.setReadIdx (rb.rbReadIdx + 1)).take numFloats
    ⟨res.fst, x :: res.snd⟩

def rbRead (rb : PcmRing α) (numFloats : Nat) : PcmRing α × Option (List α) :=
  if rb.available < numFloats then
    ⟨rb, none⟩
  else
    let res := rb.take numFloats
    let rb := res.fst
    let remaining := rb.available
    if 4096 < remaining then
      ⟨rb.setReadIdx (rb.rbWriteIdx - 1024 + ringBufferSize), some res.snd⟩
    else
      ⟨rb, some res.snd⟩

def step (rb : PcmRing α) (op : DropQueue.Op α) : PcmRing α × Option (List α) :=
  match op with
  | .push data => ⟨rb.rbWrite data, none⟩
  | .pull numFloats => rb.rbRead numFloats

/-
The state after `ps3_renderer_init`, whatever the static buffer holds.
-/
def init (audioRingBuffer : Nat → α) : PcmRing α where
  audioRingBuffer := audioRingBuffer
  rbWriteIdx := 0
  rbReadIdx := 0
  hwrite := ringBufferSize_pos
  hread := ringBufferSize_pos

def size (rb : PcmRing α) : Nat :=
  (rb.rbWriteIdx + ringBufferSize - rb.rbReadIdx) % ringBufferSize

def contents (rb : PcmRing α) : List α :=
  Ring.window rb.audioRingBuffer ringBufferSize rb.rbReadIdx rb.size

theorem size_lt (rb : PcmRing α) : rb.size < ringBufferSize := by
  unfold size
  apply Nat.mod_lt
  exact ringBufferSize_pos

@[simp]
theorem length_contents (rb : PcmRing α) : rb.contents.length = rb.size := by
  simp [contents]

theorem rbWriteIdx_eq (rb : PcmRing α)
    : rb.rbWriteIdx = (rb.rbReadIdx + rb.size) % ringBufferSize := by
  have := rb.hwrite
  have := rb.hread
  unfold size ringBufferSize at *
  omega

theorem available_eq_size (rb : PcmRing α) : rb.available = rb.size := by
  have := rb.hwrite
  have := rb.hread
  unfold available
  rw [Int.tmod_eq_emod_of_nonneg (by omega)]
  unfold size ringBufferSize at *
  omega

theorem freeSpace_eq (rb : PcmRing α) : rb.freeSpace = ringBufferSize - 1 - rb.size := by
  have := rb.hwrite
  have := rb.hread
  unfold freeSpace
  rw [Int.tmod_eq_emod_of_nonneg (by omega)]
  unfold size ringBufferSize at *
  omega

/-
What moving the read pointer by `n` buffered floats does, this is shared by the bulk advance of
`rb_write`, the copy loop of `rb_read` and its skip ahead.
-/
theorem size_setReadIdx (rb : PcmRing α) {n : Nat} (i : Int) (hn : n ≤ rb.size)
    (hi : wrap i = (rb.rbReadIdx + n) % ringBufferSize)
    : (rb.setReadIdx i).size = rb.size - n := by
  have := rb.hwrite
  have := rb.hread
  simp only [setReadIdx, size, hi] at *
  unfold ringBufferSize at *
  omega

theorem contents_setReadIdx (rb : PcmRing α) {n : Nat} (i : Int) (hn : n ≤ rb.size)
    (hi : wrap i = (rb.rbReadIdx + n) % ringBufferSize)
    : (rb.setReadIdx i).contents = rb.contents.drop n := by
  unfold contents
  rw [size_setReadIdx rb i hn hi]
  rw [Ring.drop_window _ _ _ hn]
  simp [setReadIdx, hi]

theorem size_put (rb : PcmRing α) (x : α) (h : rb.size + 1 < ringBufferSize)
    : (rb.put x).size = rb.size + 1 := by
  have := rb.hwrite
  have := rb.hread
  have hwrap : wrap (rb.rbWriteIdx + 1) = (rb.rbWriteIdx + 1) % ringBufferSize := by
    apply wrap_ofNat
  simp only [put, size, hwrap] at *
  unfold ringBufferSize at *
  omega

theorem contents_put (rb : PcmRing α) (x : α) (h : rb.size + 1 < ringBufferSize)
    : (rb.put x).contents = rb.contents ++ [x] := by
  unfold contents
  rw [size_put rb x h]
  simp only [put]
  rw [rbWriteIdx_eq rb]
  apply Ring.window_push
  apply size_lt

theorem contents_foldl_put (data : List α) (rb : PcmRing α)
    (h : rb.size + data.length < ringBufferSize)
    : (data.foldl put rb).contents = rb.contents ++ data := by
  induction data generalizing rb with
  | nil => simp
  | cons x data ih =>
    simp only [List.length_cons] at h
    rw [List.foldl_cons, ih]
    . rw [contents_put]
      . simp
      . omega
    . rw [size_put]
      . omega
      . omega

theorem contents_rbWrite (rb : PcmRing α) (data : List α) (h : data.length < ringBufferSize)
    : (rb.rbWrite data).contents
        =
      DropQueue.newest (ringBufferSize - 1) (rb.contents ++ data) := by
  have hsize := rb.size_lt
  unfold rbWrite DropQueue.newest
  rw [freeSpace_eq]
  dsimp only
  rw [List.length_append, length_contents]
  split
  . next hfull =>
    -- the number of floats the bulk advance discards never exceeds what is buffered
    have ⟨needed, hneeded⟩ : ∃ needed, needed = rb.size + data.length - (ringBufferSize - 1) := by
      exact ⟨_, rfl⟩
    have hle : needed ≤ rb.size := by omega
    have hcast : (rb.rbReadIdx : Int) + (data.length - (ringBufferSize - 1 - rb.size))
        = (rb.rbReadIdx + needed : Nat) := by
      omega
    have hwrap := wrap_ofNat (rb.rbReadIdx + needed)
    rw [hcast, ← hneeded]
    rw [contents_foldl_put]
    . rw [contents_setReadIdx rb _ hle hwrap]
      rw [List.drop_append_of_le_length]
      simpa using hle
    . rw [size_setReadIdx rb _ hle hwrap]
      omega
  . next hfits =>
    have hnone : rb.size + data.length - (ringBufferSize - 1) = 0 := by omega
    rw [hnone, List.drop_zero]
    apply contents_foldl_put
    omega

theorem take_eq (rb : PcmRing α) (n : Nat) (h : n ≤ rb.size)
    : (rb.take n).snd = rb.contents.take n ∧ (rb.take n).fst.contents = rb.contents.drop n := by
  induction n generalizing rb with
  | zero => simp [take]
  | succ n ih =>
    have hone : 1 ≤ rb.size := by omega
    have hwrap : wrap (rb.rbReadIdx + 1) = (rb.rbReadIdx + 1) % ringBufferSize := by
      apply wrap_ofNat
    have hrest := ih (rb.setReadIdx (rb.rbReadIdx + 1))
    rw [size_setReadIdx rb _ hone hwrap, contents_setReadIdx rb _ hone hwrap] at hrest
    specialize hrest (by omega)
    have hcons : rb.contents = rb.audioRingBuffer rb.rbReadIdx :: rb.contents.drop 1 := by
      rw [← contents_setReadIdx rb _ hone hwrap]
      unfold contents
      rw [size_setReadIdx rb _ hone hwrap]
      have hsucc : rb.size = rb.size - 1 + 1 := by omega
      conv =>
        lhs
        rw [hsucc, Ring.window_eq_cons]
      simp [setReadIdx, hwrap, Nat.mod_eq_of_lt rb.hread]
    simp only [take]
    constructor
    . rw [hrest.left]
      conv =>
        rhs
        rw [hcons]
      simp
    . rw [hrest.right]
      simp

theorem contents_rbRead (rb : PcmRing α) (n : Nat) (h : n ≤ rb.size)
    : (rb.rbRead n).snd = some (rb.contents.take n)
        ∧
      (rb.rbRead n).fst.contents = DropQueue.trim 4096 1024 (rb.contents.drop n) := by
  have htake := rb.take_eq n h
  have hlength : ((rb.take n).fst).size = rb.size - n := by
    rw [← length_contents, htake.right]
    simp
  unfold rbRead DropQueue.trim
  rw [available_eq_size]
  dsimp only
  rw [available_eq_size, if_neg (by omega), htake.left, hlength]
  simp only [List.length_drop, length_contents]
  split
  . next hskip =>
    rw [if_pos (by omega)]
    refine ⟨rfl, ?_⟩
    have hsize := (rb.take n).fst.size_lt
    have hidx := (rb.take n).fst.rbWriteIdx_eq
    have hread := (rb.take n).fst.hread
    have hle : rb.size - n - 1024 ≤ (rb.take n).fst.size := by omega
    -- counted from the read pointer the new one is `remaining - 1024` floats further on
    have hwrap : wrap ((rb.take n).fst.rbWriteIdx - 1024 + ringBufferSize)
        = ((rb.take n).fst.rbReadIdx + (rb.size - n - 1024)) % ringBufferSize := by
      have hcast : ((rb.take n).fst.rbWriteIdx : Int) - 1024 + ringBufferSize
          = ((rb.take n).fst.rbWriteIdx + ringBufferSize - 1024 : Nat) := by
        unfold ringBufferSize
        omega
      rw [hcast, wrap_ofNat, hidx]
      unfold ringBufferSize at *
      omega
    rw [contents_setReadIdx _ _ hle hwrap, htake.right]
    simp [DropQueue.newest]
  . rw [if_neg (by omega)]
    exact ⟨rfl, htake.right⟩

theorem rbRead_of_size_lt (rb : PcmRing α) (n : Nat) (h : rb.size < n)
    : rb.rbRead n = ⟨rb, none⟩ := by
  unfold rbRead
  rw [available_eq_size, if_pos (by omega)]

end PcmRing

/-
The queue the playback thread and the decode callback share, as `audio.c` configures it.
-/
abbrev PcmQueue (α : Type*) := DropQueue α (ringBufferSize - 1)

namespace PcmQueue

variable {α : Type*}

def step (q : PcmQueue α) (op : DropQueue.Op α) : PcmQueue α × Option (List α) :=
  DropQueue.step 4096 1024 q op

end PcmQueue

namespace PcmRing

variable {α : Type*}

def Refines (rb : PcmRing α) (q : PcmQueue α) : Prop :=
  rb.contents = q.items

theorem step_refines (rb : PcmRing α) (q : PcmQueue α) (op : DropQueue.Op α) (h : rb.Refines q)
    (hop : op.pushed.length < ringBufferSize)
    : (rb.step op).fst.Refines (q.step op).fst ∧ (rb.step op).snd = (q.step op).snd := by
  unfold Refines at h
  have hlength : rb.size = q.items.length := by
    rw [← h]
    simp
  cases op with
  | push data =>
    refine ⟨?_, rfl⟩
    simp only [Refines, step, PcmQueue.step, DropQueue.step, DropQueue.push]
    rw [contents_rbWrite rb data hop, h]
  | pull n =>
    simp only [Refines, step, PcmQueue.step, DropQueue.step]
    split
    . rw [rbRead_of_size_lt rb n (by omega)]
      exact ⟨h, rfl⟩
    . have hread := contents_rbRead rb n (by omega)
      rw [hread.left, hread.right, h]
      exact ⟨rfl, rfl⟩

theorem run_refines (audioRingBuffer : Nat → α) (ops : List (DropQueue.Op α))
    (hops : ∀ op, op ∈ ops → op.pushed.length ≤ 32767)
    : (Transition.trace step (init audioRingBuffer) ops).fst.Refines
          (Transition.trace PcmQueue.step (DropQueue.empty α (ringBufferSize - 1)) ops).fst
        ∧
      (Transition.trace step (init audioRingBuffer) ops).snd
        = (Transition.trace PcmQueue.step (DropQueue.empty α (ringBufferSize - 1)) ops).snd := by
  apply Transition.trace_refines step PcmQueue.step Refines (fun op => op.pushed.length ≤ 32767)
  . intro rb q op hrel hop
    apply step_refines rb q op hrel
    unfold ringBufferSize
    omega
  . simp [Refines, init, contents, size, DropQueue.empty, ringBufferSize]
  . exact hops

theorem pcmRing_refines_dropQueue (audioRingBuffer : Nat → α) (ops : List (DropQueue.Op α))
    (hops : ∀ op, op ∈ ops → op.pushed.length ≤ 32767)
    : let rb := (Transition.trace step (init audioRingBuffer) ops).fst
      let answers := (Transition.trace step (init audioRingBuffer) ops).snd
      let q := Transition.trace PcmQueue.step (DropQueue.empty α (ringBufferSize - 1)) ops
      rb.contents = q.fst.items
        ∧
      answers = q.snd
        ∧
      (DropQueue.delivered answers ++ rb.contents).Sublist (DropQueue.pushed ops)
        ∧
      (∀ n, rb.contents.length < n → rb.rbRead n = ⟨rb, none⟩)
        ∧
      (∀ n, (rb.rbRead n).snd.isSome → (rb.rbRead n).fst.contents.length ≤ 4096) := by
  intro rb answers q
  have hrefines : rb.Refines q.fst ∧ answers = q.snd := by
    apply run_refines
    exact hops
  refine ⟨hrefines.left, hrefines.right, ?_, ?_, ?_⟩
  . have hsublist := DropQueue.trace_sublist 4096 1024 (DropQueue.empty α (ringBufferSize - 1)) ops
    rw [hrefines.left, hrefines.right]
    exact hsublist
  . intro n hn
    apply rbRead_of_size_lt
    simpa using hn
  . intro n hn
    have hle : n ≤ rb.size := by
      apply Nat.le_of_not_lt
      intro hlt
      simp [rbRead_of_size_lt rb n hlt] at hn
    rw [(contents_rbRead rb n hle).right]
    apply DropQueue.length_trim_le
    omega

theorem pcmRing_refines_dropQueue_write_read
    : (Transition.trace step (init fun _ => 0) [.push [1, 2, 3], .pull 2]).snd
        =
      [none, some [1, 2]] := by
  have h := pcmRing_refines_dropQueue (fun _ => 0) [.push [1, 2, 3], .pull 2] (by
    intro op hop
    simp only [List.mem_cons, List.not_mem_nil, or_false] at hop
    cases hop with
    | inl hop => simp [hop, DropQueue.Op.pushed]
    | inr hop => simp [hop, DropQueue.Op.pushed])
  rw [h.right.left]
  decide

end PcmRing

end Audio

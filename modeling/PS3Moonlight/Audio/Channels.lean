import PS3Moonlight.Audio.RingBuffer
import Mathlib.Algebra.Group.Nat.Even

/-!
This module contains the order of the channels: whether the blocks that the playback thread takes out of
the PCM ring begin with a float of the left channel. All floats of the left channel are written at even
positions, and the ring is full with an odd number of floats.
-/

namespace Audio

def audioChannels : Nat := 2

def audioBlockSamples : Nat := 256

def maxOpusFrameSize : Nat := 5760

def blockFloats : Nat := audioChannels * audioBlockSamples

namespace PcmRing

variable {α : Type*}

/-
The calls of `audio_loop` and of the decode callback.
-/
def Stereo (op : DropQueue.Op α) : Prop :=
  match op with
  | .push data => Even data.length ∧ data.length ≤ audioChannels * maxOpusFrameSize
  | .pull n => n = blockFloats

/- The ring after some calls. -/
def after (audioRingBuffer : Nat → α) (ops : List (DropQueue.Op α)) : PcmRing α :=
  (Transition.trace step (init audioRingBuffer) ops).fst

/-
The position, in everything that was written, of the float at the read pointer.
-/
def position (audioRingBuffer : Nat → α) (ops : List (DropQueue.Op α)) : Nat :=
  (DropQueue.pushed ops).length - (after audioRingBuffer ops).size

/- A write that has to discard floats. -/
def Overflows (rb : PcmRing α) (data : List α) : Prop :=
  ringBufferSize ≤ rb.size + data.length

theorem length_pushed_le {op : DropQueue.Op α} (h : Stereo op) : op.pushed.length ≤ 32767 := by
  cases op with
  | push data =>
    have hlength := h.right
    unfold audioChannels maxOpusFrameSize at hlength
    simp only [DropQueue.Op.pushed]
    omega
  | pull n => simp [DropQueue.Op.pushed]

theorem after_concat (audioRingBuffer : Nat → α) (ops : List (DropQueue.Op α)) (op : DropQueue.Op α)
    : after audioRingBuffer (ops ++ [op]) = ((after audioRingBuffer ops).step op).fst := by
  unfold after
  apply Transition.trace_concat_fst

section

variable {audioRingBuffer : Nat → α} {ops : List (DropQueue.Op α)}

theorem after_refines (audioRingBuffer : Nat → α) (h : ∀ op, op ∈ ops → Stereo op)
    : (after audioRingBuffer ops).Refines
        (Transition.trace PcmQueue.step (DropQueue.empty α (ringBufferSize - 1)) ops).fst := by
  have hrefines := run_refines audioRingBuffer ops (fun op hop => length_pushed_le (h op hop))
  exact hrefines.left

/- What is buffered is always the end of what was written. -/
theorem contents_after (audioRingBuffer : Nat → α) (h : ∀ op, op ∈ ops → Stereo op)
    : (after audioRingBuffer ops).contents
          = (DropQueue.pushed ops).drop (position audioRingBuffer ops)
        ∧
      (after audioRingBuffer ops).size ≤ (DropQueue.pushed ops).length := by
  have hrefines := after_refines audioRingBuffer h
  have hsuffix := DropQueue.trace_suffix 4096 1024 (DropQueue.empty α (ringBufferSize - 1)) ops
    (List.suffix_refl [])
  rw [List.nil_append] at hsuffix
  have hcontents : (after audioRingBuffer ops).contents <:+ DropQueue.pushed ops := by
    rw [hrefines]
    exact hsuffix
  constructor
  . unfold position
    rw [← length_contents]
    apply List.suffix_iff_eq_drop.mp hcontents
  . rw [← length_contents]
    exact hcontents.length_le

end

/-
What one call does to the number of buffered floats.
-/

theorem size_rbWrite (rb : PcmRing α) (data : List α) (h : data.length < ringBufferSize)
    : (rb.rbWrite data).size = min (ringBufferSize - 1) (rb.size + data.length) := by
  rw [← length_contents, contents_rbWrite rb data h, DropQueue.length_newest, List.length_append,
    length_contents]

theorem size_rbRead (rb : PcmRing α) {n : Nat} (h : n ≤ rb.size)
    : (rb.rbRead n).fst.size = if 4096 < rb.size - n then 1024 else rb.size - n := by
  rw [← length_contents, (contents_rbRead rb n h).right, DropQueue.trim, List.length_drop,
    length_contents]
  split
  . rw [DropQueue.length_newest, List.length_drop, length_contents]
    omega
  . rw [List.length_drop, length_contents]

/- As long as no write has to discard floats, an even number of them is buffered. -/
theorem even_size_step {rb : PcmRing α} {op : DropQueue.Op α} (hop : Stereo op) (h : Even rb.size)
    (hfits : ∀ data, op = .push data → ¬ rb.Overflows data)
    : Even (rb.step op).fst.size := by
  cases op with
  | push data =>
    have hroom := hfits data rfl
    unfold Overflows at hroom
    simp only [step]
    rw [size_rbWrite rb data (by omega), Nat.min_eq_right (by omega)]
    apply h.add hop.left
  | pull n =>
    unfold Stereo at hop
    simp only [step]
    cases Nat.lt_or_ge rb.size n with
    | inl hshort =>
      rw [rbRead_of_size_lt rb n hshort]
      exact h
    | inr henough =>
      rw [size_rbRead rb henough]
      split
      . decide
      . rw [Nat.even_iff] at h ⊢
        rw [hop] at henough ⊢
        unfold blockFloats audioChannels audioBlockSamples at henough ⊢
        omega

/- A write that has to discard floats leaves the ring full, and so does every further write. -/
theorem full_of_overflows {rb : PcmRing α} {data : List α} (hlength : data.length < ringBufferSize)
    (h : rb.Overflows data)
    : (rb.rbWrite data).size = ringBufferSize - 1 := by
  unfold Overflows at h
  rw [size_rbWrite rb data hlength]
  omega

section

variable {audioRingBuffer : Nat → α} {ops : List (DropQueue.Op α)}

theorem even_length_pushed (h : ∀ op, op ∈ ops → Stereo op) : Even (DropQueue.pushed ops).length := by
  induction ops with
  | nil => simp [DropQueue.pushed]
  | cons op ops ih =>
    rw [List.forall_mem_cons] at h
    rw [DropQueue.pushed_cons, List.length_append]
    apply Even.add _ (ih h.right)
    cases op with
    | push data => exact h.left.left
    | pull n => simp [DropQueue.Op.pushed]

theorem even_position_iff (h : ∀ op, op ∈ ops → Stereo op)
    : Even (position audioRingBuffer ops) ↔ Even (after audioRingBuffer ops).size := by
  have hpushed := even_length_pushed h
  have hle := (contents_after audioRingBuffer h).right
  unfold position
  rw [Nat.even_iff] at hpushed ⊢
  rw [Nat.even_iff]
  omega

theorem even_size_after (h : ∀ op, op ∈ ops → Stereo op)
    (hfits : ∀ pre data post, ops = pre ++ .push data :: post
      → ¬ (after audioRingBuffer pre).Overflows data)
    : Even (after audioRingBuffer ops).size := by
  induction ops using List.reverseRecOn with
  | nil => simp [after, Transition.trace, init, size, ringBufferSize]
  | append_singleton ops op ih =>
    rw [after_concat]
    apply even_size_step
    . apply h
      simp
    . apply ih
      . intro other hother
        apply h
        simp [hother]
      . intro pre data post hops
        apply hfits pre data (post ++ [op])
        rw [hops]
        simp
    . intro data hop
      apply hfits ops data []
      rw [hop]

theorem full_after_writes {writes : List (DropQueue.Op α)} (hwrites : ∀ op, op ∈ writes → Stereo op)
    (hpush : ∀ op, op ∈ writes → ∃ data, op = .push data)
    (hfull : (after audioRingBuffer ops).size = ringBufferSize - 1)
    : (after audioRingBuffer (ops ++ writes)).size = ringBufferSize - 1 := by
  induction writes using List.reverseRecOn with
  | nil => simpa using hfull
  | append_singleton writes op ih =>
    have hstereo := hwrites op (by simp)
    have ⟨data, hdata⟩ := hpush op (by simp)
    have hrest : (after audioRingBuffer (ops ++ writes)).size = ringBufferSize - 1 := by
      apply ih
      . intro other hother
        apply hwrites
        simp [hother]
      . intro other hother
        apply hpush
        simp [hother]
    have hlength := length_pushed_le hstereo
    rw [hdata] at hlength ⊢
    rw [← List.append_assoc, after_concat]
    simp only [step]
    rw [size_rbWrite, hrest]
    . omega
    . unfold ringBufferSize
      simp only [DropQueue.Op.pushed] at hlength
      omega

/- The first read behind some calls. -/
theorem exists_first_pull (mid post : List (DropQueue.Op α)) (n : Nat)
    (hmid : ∀ op, op ∈ mid → Stereo op) (hn : n = blockFloats)
    : ∃ writes rest, mid ++ .pull n :: post = writes ++ .pull blockFloats :: rest
        ∧ (∀ op, op ∈ writes → op ∈ mid ∧ ∃ data, op = .push data) := by
  induction mid with
  | nil =>
    refine ⟨[], post, ?_, ?_⟩
    . rw [hn, List.nil_append]
    . simp
  | cons op mid ih =>
    rw [List.forall_mem_cons] at hmid
    cases op with
    | pull k =>
      refine ⟨[], mid ++ .pull n :: post, ?_, ?_⟩
      . have hk : k = blockFloats := hmid.left
        rw [hk]
        rfl
      . simp
    | push data =>
      have ⟨writes, rest, heq, hwrites⟩ := ih hmid.right
      refine ⟨.push data :: writes, rest, ?_, ?_⟩
      . rw [List.cons_append, heq]
        rfl
      . intro op hop
        rw [List.mem_cons] at hop
        cases hop with
        | inl hop =>
          rw [hop]
          exact ⟨List.mem_cons_self, data, rfl⟩
        | inr hop =>
          have hrest := hwrites op hop
          exact ⟨List.mem_cons_of_mem _ hrest.left, hrest.right⟩

/- A successful read returns the written floats from the position of the read pointer on. -/
theorem rbRead_eq_slice (h : ∀ op, op ∈ ops → Stereo op) {n : Nat} {block : List α}
    (hread : ((after audioRingBuffer ops).rbRead n).snd = some block)
    : block = ((DropQueue.pushed ops).drop (position audioRingBuffer ops)).take n := by
  cases Nat.lt_or_ge (after audioRingBuffer ops).size n with
  | inl hshort =>
    rw [rbRead_of_size_lt _ _ hshort] at hread
    simp at hread
  | inr henough =>
    rw [(contents_rbRead _ n henough).left, Option.some.injEq] at hread
    rw [← hread, (contents_after _ h).left]

end

/-
Every block begins with a float of the left channel exactly if no write that has to discard floats is
followed by a read.
-/
theorem blocks_begin_left_iff (audioRingBuffer : Nat → α) (ops : List (DropQueue.Op α))
    (hops : ∀ op, op ∈ ops → Stereo op)
    : (∀ pre post block,
        ops = pre ++ .pull blockFloats :: post
          → ((after audioRingBuffer pre).rbRead blockFloats).snd = some block
          → block = ((DropQueue.pushed pre).drop (position audioRingBuffer pre)).take blockFloats
              ∧ Even (position audioRingBuffer pre))
        ↔
      (∀ pre data mid post,
        ops = pre ++ .push data :: (mid ++ .pull blockFloats :: post)
          → ¬ (after audioRingBuffer pre).Overflows data) := by
  constructor
  . intro hleft pre data mid post heq hoverflows
    have hmem : ∀ op, op ∈ pre ++ .push data :: mid → Stereo op := by
      intro op hop
      apply hops
      rw [heq, ← List.cons_append, ← List.append_assoc, List.mem_append]
      exact Or.inl hop
    have ⟨writes, rest, hfirst, hwrites⟩ := exists_first_pull mid post blockFloats
      (fun op hop => hmem op (by simp [hop])) rfl
    have hdata : Stereo (.push data) := hmem _ (by simp)
    have hlength := length_pushed_le hdata
    simp only [DropQueue.Op.pushed] at hlength
    -- the ring is full behind the write, with an odd number of floats, and writes keep it full
    have hfull : (after audioRingBuffer (pre ++ [.push data])).size = ringBufferSize - 1 := by
      rw [after_concat]
      apply full_of_overflows _ hoverflows
      unfold ringBufferSize
      omega
    have hfull' := full_after_writes (fun op hop => hmem op (by simp [(hwrites op hop).left]))
      (fun op hop => (hwrites op hop).right) hfull
    have henough : blockFloats ≤ (after audioRingBuffer (pre ++ [.push data] ++ writes)).size := by
      rw [hfull']
      decide
    have hread := contents_rbRead _ _ henough
    have hsplit : ops = pre ++ [.push data] ++ writes ++ .pull blockFloats :: rest := by
      rw [heq, hfirst]
      simp
    have hblock := hleft _ rest _ hsplit hread.left
    rw [even_position_iff, hfull'] at hblock
    . exact absurd hblock.right (by decide)
    . intro op hop
      apply hmem
      simp only [List.mem_append, List.mem_singleton] at hop
      simp only [List.mem_append, List.mem_cons]
      cases hop with
      | inl hop =>
        cases hop with
        | inl hpre => exact Or.inl hpre
        | inr hpush => exact Or.inr (Or.inl hpush)
      | inr hwrite => exact Or.inr (Or.inr (hwrites op hwrite).left)
  . intro hfits pre post block heq hread
    have hpre : ∀ op, op ∈ pre → Stereo op := by
      intro op hop
      apply hops
      rw [heq, List.mem_append]
      exact Or.inl hop
    -- without an overflow the ring only ever gains and loses whole pairs
    refine ⟨rbRead_eq_slice hpre hread, ?_⟩
    rw [even_position_iff hpre]
    apply even_size_after hpre
    intro first data mid hfirst
    apply hfits first data mid post
    rw [heq, hfirst]
    simp

theorem blocks_begin_left_iff_one_block
    : ∃ block : List Rat,
        ((after (fun _ => 0) [.push (List.replicate 512 0)]).rbRead blockFloats).snd = some block
          ∧ block
              = ((DropQueue.pushed [.push (List.replicate 512 0)]).drop
                (position (fun _ => 0) [.push (List.replicate 512 (0 : Rat))])).take blockFloats
          ∧ Even (position (fun _ => 0) [.push (List.replicate 512 (0 : Rat))]) := by
  have hpush : Stereo (.push (List.replicate 512 (0 : Rat))) := by
    simp only [Stereo, List.length_replicate]
    decide
  have hops : ∀ op, op ∈ [.push (List.replicate 512 (0 : Rat)), .pull blockFloats] → Stereo op := by
    simp only [List.forall_mem_cons]
    exact ⟨hpush, rfl, by simp⟩
  have hsize : (after (fun _ => 0) [.push (List.replicate 512 (0 : Rat))]).size = 512 := by
    have hnone : (init fun _ => (0 : Rat)).size = 0 := by rfl
    simp only [after, Transition.trace, step]
    rw [size_rbWrite _ _ (by rw [List.length_replicate]; decide), hnone, List.length_replicate]
    decide
  have hread := contents_rbRead (after (fun _ => 0) [.push (List.replicate 512 (0 : Rat))]) blockFloats
    (by rw [hsize]; decide)
  refine ⟨_, hread.left, ?_⟩
  apply (blocks_begin_left_iff (fun _ => 0) [.push (List.replicate 512 0), .pull blockFloats]
    hops).mpr _ _ [] _ rfl hread.left
  intro pre data mid post heq
  cases pre with
  | nil =>
    injection heq with heq _
    injection heq with heq
    unfold Overflows
    rw [← heq, List.length_replicate]
    decide
  | cons op pre =>
    rw [List.cons_append, List.cons.injEq] at heq
    have hlength := congrArg List.length heq.right
    simp only [List.length_cons, List.length_append, List.length_nil] at hlength
    omega

/-
The playback thread stalls while three frames of 5760 samples arrive. The third one discards 1793 floats
and the next block begins with a float of the right channel.
-/
theorem block_begins_right
    : ¬ ∀ (audioRingBuffer : Nat → Rat) (ops : List (DropQueue.Op Rat)),
        (∀ op, op ∈ ops → Stereo op)
          → ∀ pre post block,
              ops = pre ++ .pull blockFloats :: post
                → ((after audioRingBuffer pre).rbRead blockFloats).snd = some block
                → block
                      = ((DropQueue.pushed pre).drop (position audioRingBuffer pre)).take blockFloats
                    ∧ Even (position audioRingBuffer pre) := by
  intro hclaim
  obtain ⟨frame, hframe⟩ : ∃ frame : List Rat, frame.length = 11520 := by
    exact ⟨List.replicate 11520 0, List.length_replicate⟩
  have hstereo : Stereo (.push frame) := by
    simp only [Stereo, hframe]
    decide
  have hwrites : ∀ op, op ∈ [DropQueue.Op.push frame, .push frame, .push frame] → Stereo op := by
    simpa using hstereo
  have hops : ∀ op, op ∈ [DropQueue.Op.push frame, .push frame, .push frame, .pull blockFloats]
      → Stereo op := by
    simp only [List.forall_mem_cons]
    exact ⟨hstereo, hstereo, hstereo, rfl, by simp⟩
  have hsmall : frame.length < ringBufferSize := by
    rw [hframe]
    decide
  have hsize : (after (fun _ => 0) [DropQueue.Op.push frame, .push frame, .push frame]).size
      = ringBufferSize - 1 := by
    have hnone : (init fun _ => (0 : Rat)).size = 0 := by rfl
    simp only [after, Transition.trace, step]
    rw [size_rbWrite _ _ hsmall, size_rbWrite _ _ hsmall, size_rbWrite _ _ hsmall, hnone, hframe]
    decide
  have henough : blockFloats
      ≤ (after (fun _ => 0) [DropQueue.Op.push frame, .push frame, .push frame]).size := by
    rw [hsize]
    decide
  have hread := contents_rbRead _ _ henough
  have hblock := hclaim (fun _ => 0) _ hops _ [] _ rfl hread.left
  rw [even_position_iff hwrites, hsize] at hblock
  exact absurd hblock.right (by decide)

end PcmRing
end Audio

import PS3Moonlight.Video.RtpStage

/-!
This module contains what the queue keeps for the block that it collects: no packet twice, each one
in the range of the block, and what the counters and the fast path say about them.
-/

namespace Video

namespace Rtp

open Connection Serial

namespace Queue

def numbers (queue : Queue) : List (BitVec 16) :=
  queue.pendingFecBlockList.map fun e => e.packet.sequenceNumber

def placeOf (queue : Queue) (entry : Entry) : Nat :=
  place queue.bufferLowestSequenceNumber entry

structure Window (queue : Queue) : Prop where
  total : queue.totalPackets < 2 ^ 12
  dataPackets : 0 < queue.totalPackets → 0 < queue.bufferDataPackets
  firstParity : queue.bufferFirstParitySequenceNumber
    = queue.bufferLowestSequenceNumber + BitVec.ofNat 16 queue.bufferDataPackets
  highest : queue.bufferHighestSequenceNumber
    = queue.bufferLowestSequenceNumber + BitVec.ofNat 16 queue.totalPackets - 1
  current : queue.multiFecCurrentBlockNumber < 4
  last : queue.multiFecLastBlockNumber < 4
  nodup : queue.numbers.Nodup
  range : ∀ e, e ∈ queue.pendingFecBlockList → queue.placeOf e < queue.totalPackets
  parity : ∀ e, e ∈ queue.pendingFecBlockList
    → (e.isParity = false ↔ queue.placeOf e < queue.bufferDataPackets)
  frame : ∀ e, e ∈ queue.pendingFecBlockList → e.packet.frameIndex = queue.currentFrameNumber
    ∧ e.packet.fecCurrentBlockNumber = queue.multiFecCurrentBlockNumber
  next : gap queue.bufferLowestSequenceNumber queue.nextContiguousSequenceNumber
    ≤ queue.totalPackets
  fast : queue.useFastQueuePath = true → ∀ e, e ∈ queue.pendingFecBlockList
    → queue.placeOf e < gap queue.bufferLowestSequenceNumber queue.nextContiguousSequenceNumber
  data : queue.receivedDataPackets ≤ queue.pendingFecBlockList.countP fun e => !e.isParity

theorem numbers_eq_place_nodup {queue : Queue} (h : queue.numbers.Nodup)
    : (queue.pendingFecBlockList.map queue.placeOf).Nodup := by
  have heq : queue.pendingFecBlockList.map queue.placeOf
      = queue.numbers.map fun n => gap queue.bufferLowestSequenceNumber n := by
    unfold numbers
    rw [List.map_map]
    rfl
  rw [heq]
  apply h.map
  intro a b hab
  exact eq_of_gap_eq hab

section

variable {queue next : Queue} {packet : Packet}

/- A packet that is neither before the next number nor behind the last one is in the block. -/
theorem place_lt_of_accepted (h : queue.Window)
    (hnext : isBefore packet.sequenceNumber queue.nextContiguousSequenceNumber = false)
    (hlast : isBefore queue.bufferHighestSequenceNumber packet.sequenceNumber = false)
    : gap queue.bufferLowestSequenceNumber packet.sequenceNumber < queue.totalPackets
        ∧ gap queue.bufferLowestSequenceNumber queue.nextContiguousSequenceNumber
          ≤ gap queue.bufferLowestSequenceNumber packet.sequenceNumber := by
  rw [isBefore_eq_false_iff] at hnext hlast
  have htotal := h.total
  have hcontiguous := h.next
  have hgap := gap_lt queue.bufferLowestSequenceNumber packet.sequenceNumber
  have hfrom := gap_trans_cases queue.bufferLowestSequenceNumber
    queue.nextContiguousSequenceNumber packet.sequenceNumber
  have hto := gap_trans_cases queue.bufferLowestSequenceNumber packet.sequenceNumber
    queue.bufferHighestSequenceNumber
  have hhighest : gap queue.bufferLowestSequenceNumber queue.bufferHighestSequenceNumber
      = if queue.totalPackets = 0 then 2 ^ 16 - 1 else queue.totalPackets - 1 := by
    rw [h.highest]
    unfold gap
    rw [BitVec.toNat_sub, BitVec.toNat_sub, BitVec.toNat_add, BitVec.toNat_ofNat]
    have hone : (1 : BitVec 16).toNat = 1 := rfl
    have hlt := queue.bufferLowestSequenceNumber.isLt
    rw [hone]
    split <;> omega
  rw [hhighest] at hto
  split at hto <;> omega

theorem isBefore_firstParity (h : queue.Window)
    (hrange : gap queue.bufferLowestSequenceNumber packet.sequenceNumber < queue.totalPackets)
    : isBefore packet.sequenceNumber queue.bufferFirstParitySequenceNumber = true
        ↔ gap queue.bufferLowestSequenceNumber packet.sequenceNumber < queue.bufferDataPackets := by
  have htotal := h.total
  have hdata : queue.bufferDataPackets ≤ queue.totalPackets := by
    unfold totalPackets
    omega
  have hparity : gap queue.bufferLowestSequenceNumber queue.bufferFirstParitySequenceNumber
      = queue.bufferDataPackets := by
    rw [h.firstParity]
    apply gap_add_ofNat
    omega
  rw [← hparity]
  apply isBefore_iff_gap_lt
  . omega
  . omega

/- What an operation leaves as it is. -/
structure Same (queue next : Queue) : Prop where
  completed : next.completedFecBlockList = queue.completedFecBlockList
  firstRecvTimeUs : next.bufferFirstRecvTimeUs = queue.bufferFirstRecvTimeUs
  lowest : next.bufferLowestSequenceNumber = queue.bufferLowestSequenceNumber
  highest : next.bufferHighestSequenceNumber = queue.bufferHighestSequenceNumber
  firstParity : next.bufferFirstParitySequenceNumber = queue.bufferFirstParitySequenceNumber
  dataPackets : next.bufferDataPackets = queue.bufferDataPackets
  parityPackets : next.bufferParityPackets = queue.bufferParityPackets
  frameNumber : next.currentFrameNumber = queue.currentFrameNumber
  multiFecCapable : next.multiFecCapable = queue.multiFecCapable
  current : next.multiFecCurrentBlockNumber = queue.multiFecCurrentBlockNumber
  last : next.multiFecLastBlockNumber = queue.multiFecLastBlockNumber
  frames : next.outputs.filter Output.isFrame = queue.outputs.filter Output.isFrame

theorem Same.refl (queue : Queue) : Same queue queue := by
  constructor <;> rfl

theorem Same.trans {last : Queue} (h : Same queue next) (h' : Same next last)
    : Same queue last := by
  constructor
  . rw [h'.completed, h.completed]
  . rw [h'.firstRecvTimeUs, h.firstRecvTimeUs]
  . rw [h'.lowest, h.lowest]
  . rw [h'.highest, h.highest]
  . rw [h'.firstParity, h.firstParity]
  . rw [h'.dataPackets, h.dataPackets]
  . rw [h'.parityPackets, h.parityPackets]
  . rw [h'.frameNumber, h.frameNumber]
  . rw [h'.multiFecCapable, h.multiFecCapable]
  . rw [h'.current, h.current]
  . rw [h'.last, h.last]
  . rw [h'.frames, h.frames]

theorem Same.totalPackets (h : Same queue next) : next.totalPackets = queue.totalPackets := by
  unfold Queue.totalPackets
  rw [h.dataPackets, h.parityPackets]

theorem Same.placeOf (h : Same queue next) (e : Entry) : next.placeOf e = queue.placeOf e := by
  unfold Queue.placeOf
  rw [h.lowest]

/- What an operation leaves as it is that only reports and counts. -/
structure Quiet (queue next : Queue) : Prop extends Same queue next where
  pending : next.pendingFecBlockList = queue.pendingFecBlockList
  nextContiguous : next.nextContiguousSequenceNumber = queue.nextContiguousSequenceNumber
  fast : next.useFastQueuePath = queue.useFastQueuePath

theorem Quiet.refl (queue : Queue) : Quiet queue queue := by
  exact ⟨Same.refl queue, rfl, rfl, rfl⟩

theorem Quiet.trans {last : Queue} (h : Quiet queue next) (h' : Quiet next last)
    : Quiet queue last := by
  refine ⟨h.toSame.trans h'.toSame, ?_, ?_, ?_⟩
  . rw [h'.pending, h.pending]
  . rw [h'.nextContiguous, h.nextContiguous]
  . rw [h'.fast, h.fast]

theorem Window.of_quiet (h : queue.Window) (hquiet : Quiet queue next)
    (hdata : next.receivedDataPackets ≤ queue.pendingFecBlockList.countP fun e => !e.isParity)
    : next.Window := by
  have hsame := hquiet.toSame
  have hpending := hquiet.pending
  have hnext := hquiet.nextContiguous
  have hfast := hquiet.fast
  constructor
  . rw [hsame.totalPackets]
    exact h.total
  . rw [hsame.totalPackets, hsame.dataPackets]
    exact h.dataPackets
  . rw [hsame.firstParity, hsame.lowest, hsame.dataPackets]
    exact h.firstParity
  . rw [hsame.highest, hsame.lowest, hsame.totalPackets]
    exact h.highest
  . rw [hsame.current]
    exact h.current
  . rw [hsame.last]
    exact h.last
  . unfold numbers
    rw [hpending]
    exact h.nodup
  . intro e he
    rw [hpending] at he
    rw [hsame.placeOf, hsame.totalPackets]
    exact h.range e he
  . intro e he
    rw [hpending] at he
    rw [hsame.placeOf, hsame.dataPackets]
    exact h.parity e he
  . intro e he
    rw [hpending] at he
    rw [hsame.frameNumber, hsame.current]
    exact h.frame e he
  . rw [hsame.lowest, hnext, hsame.totalPackets]
    exact h.next
  . intro hf e he
    rw [hpending] at he
    rw [hfast] at hf
    rw [hsame.placeOf, hsame.lowest, hnext]
    exact h.fast hf e he
  . rw [hpending]
    exact hdata

/- A new packet of the block joins the others. -/
theorem Window.add (h : queue.Window) (hsame : Same queue next) {entry : Entry}
    (hpending : next.pendingFecBlockList = queue.pendingFecBlockList ++ [entry])
    (hnew : entry.packet.sequenceNumber ∉ queue.numbers)
    (hrange : queue.placeOf entry < queue.totalPackets)
    (hparity : entry.isParity = false ↔ queue.placeOf entry < queue.bufferDataPackets)
    (hframe : entry.packet.frameIndex = queue.currentFrameNumber
      ∧ entry.packet.fecCurrentBlockNumber = queue.multiFecCurrentBlockNumber)
    (hnext : gap queue.bufferLowestSequenceNumber next.nextContiguousSequenceNumber
      ≤ queue.totalPackets)
    (hfast : next.useFastQueuePath = true → ∀ e, e ∈ next.pendingFecBlockList
      → queue.placeOf e < gap queue.bufferLowestSequenceNumber next.nextContiguousSequenceNumber)
    (hdata : next.receivedDataPackets = queue.receivedDataPackets)
    : next.Window := by
  have hmem : ∀ e, e ∈ next.pendingFecBlockList → e ∈ queue.pendingFecBlockList ∨ e = entry := by
    intro e he
    rw [hpending, List.mem_append, List.mem_singleton] at he
    exact he
  constructor
  . rw [hsame.totalPackets]
    exact h.total
  . rw [hsame.totalPackets, hsame.dataPackets]
    exact h.dataPackets
  . rw [hsame.firstParity, hsame.lowest, hsame.dataPackets]
    exact h.firstParity
  . rw [hsame.highest, hsame.lowest, hsame.totalPackets]
    exact h.highest
  . rw [hsame.current]
    exact h.current
  . rw [hsame.last]
    exact h.last
  . have hnumbers : next.numbers = queue.numbers ++ [entry.packet.sequenceNumber] := by
      unfold numbers
      rw [hpending, List.map_append]
      rfl
    rw [hnumbers, List.nodup_append]
    refine ⟨h.nodup, by simp, ?_⟩
    intro a ha b hb
    rw [List.mem_singleton] at hb
    intro heq
    rw [heq, hb] at ha
    exact hnew ha
  . intro e he
    rw [hsame.placeOf, hsame.totalPackets]
    rcases hmem e he with hold | heq
    . exact h.range e hold
    . rw [heq]
      exact hrange
  . intro e he
    rw [hsame.placeOf, hsame.dataPackets]
    rcases hmem e he with hold | heq
    . exact h.parity e hold
    . rw [heq]
      exact hparity
  . intro e he
    rw [hsame.frameNumber, hsame.current]
    rcases hmem e he with hold | heq
    . exact h.frame e hold
    . rw [heq]
      exact hframe
  . rw [hsame.lowest, hsame.totalPackets]
    exact hnext
  . intro hf e he
    rw [hsame.placeOf, hsame.lowest]
    exact hfast hf e he
  . rw [hdata, hpending, List.countP_append]
    exact Nat.le_trans h.data (Nat.le_add_right _ _)

theorem quiet_noteSequence (queue : Queue) (time : Nat) (outOfSequence : Bool)
    : Quiet queue (queue.noteSequence time outOfSequence)
        ∧ (queue.noteSequence time outOfSequence).receivedDataPackets
          = queue.receivedDataPackets := by
  unfold noteSequence
  split
  . exact ⟨⟨by constructor <;> rfl, rfl, rfl, rfl⟩, rfl⟩
  . split
    . exact ⟨⟨by constructor <;> rfl, rfl, rfl, rfl⟩, rfl⟩
    . exact ⟨Quiet.refl queue, rfl⟩

/- What `queuePacket` adds, if it adds anything: never a second packet of one number. -/
theorem queuePacket_eq_some {isParity isFecRecovery : Bool} (h : queue.Window)
    (hrange : gap queue.bufferLowestSequenceNumber packet.sequenceNumber < queue.totalPackets)
    (hparity : isParity = false
      ↔ gap queue.bufferLowestSequenceNumber packet.sequenceNumber < queue.bufferDataPackets)
    (hframe : packet.frameIndex = queue.currentFrameNumber
      ∧ packet.fecCurrentBlockNumber = queue.multiFecCurrentBlockNumber)
    (hqueue : queue.queuePacket packet isParity isFecRecovery = some next)
    : Same queue next ∧ next.Window ∧ next.receivedDataPackets = queue.receivedDataPackets
        ∧ ∃ entry, next.pendingFecBlockList = queue.pendingFecBlockList ++ [entry]
          ∧ entry.packet = packet ∧ entry.isParity = isParity := by
  unfold queuePacket at hqueue
  cases hplace : queue.placePacket packet with
  | none =>
    rw [hplace] at hqueue
    contradiction
  | some placed =>
    obtain ⟨placed, outOfSequence⟩ := placed
    simp only [hplace, Option.some.injEq] at hqueue
    -- what is placed knows whether the packet continues the ones before it
    have hplaced : Same queue placed ∧ placed.pendingFecBlockList = queue.pendingFecBlockList
        ∧ placed.receivedDataPackets = queue.receivedDataPackets
        ∧ packet.sequenceNumber ∉ queue.numbers
        ∧ gap queue.bufferLowestSequenceNumber placed.nextContiguousSequenceNumber
          ≤ queue.totalPackets
        ∧ (placed.useFastQueuePath = true
          → (∀ e, e ∈ queue.pendingFecBlockList → queue.placeOf e
              < gap queue.bufferLowestSequenceNumber placed.nextContiguousSequenceNumber)
            ∧ gap queue.bufferLowestSequenceNumber packet.sequenceNumber
              < gap queue.bufferLowestSequenceNumber placed.nextContiguousSequenceNumber) := by
      unfold placePacket at hplace
      cases hfast : queue.useFastQueuePath && packet.sequenceNumber
          == queue.nextContiguousSequenceNumber with
      | true =>
        rw [hfast, if_pos rfl, Option.some.injEq, Prod.mk.injEq] at hplace
        rw [Bool.and_eq_true, beq_iff_eq] at hfast
        rw [← hplace.left]
        have hsucc : gap queue.bufferLowestSequenceNumber (packet.sequenceNumber + 1)
            = gap queue.bufferLowestSequenceNumber packet.sequenceNumber + 1 := by
          have hadd := add_gap queue.bufferLowestSequenceNumber packet.sequenceNumber
          have htotal := h.total
          rw [← hadd, add_ofNat_succ, gap_add_ofNat _ (by omega),
            gap_add_ofNat _ (by omega)]
        refine ⟨by constructor <;> rfl, rfl, rfl, ?_, ?_, ?_⟩
        . intro hmem
          obtain ⟨e, he, hnumber⟩ := List.mem_map.mp hmem
          have hlt := h.fast hfast.left e he
          unfold placeOf place at hlt
          rw [hnumber, hfast.right] at hlt
          omega
        . simp only [hsucc]
          omega
        . intro _
          simp only [hsucc]
          refine ⟨?_, by omega⟩
          intro e he
          have hlt := h.fast hfast.left e he
          rw [← hfast.right] at hlt
          omega
      | false =>
        rw [hfast, if_neg (by simp)] at hplace
        split at hplace
        . contradiction
        . next hnone =>
          rw [Option.some.injEq, Prod.mk.injEq] at hplace
          rw [← hplace.left]
          refine ⟨by constructor <;> rfl, rfl, rfl, ?_, h.next, ?_⟩
          . intro hmem
            obtain ⟨e, he, hnumber⟩ := List.mem_map.mp hmem
            apply hnone
            rw [List.any_eq_true]
            exact ⟨e, he, by simp [hnumber]⟩
          . intro hcontra
            contradiction
    obtain ⟨hsame, hpending, hdata, hnew, hnext, hfast⟩ := hplaced
    have hnoted : ∃ noted, Same queue noted
        ∧ noted.pendingFecBlockList = queue.pendingFecBlockList
        ∧ noted.nextContiguousSequenceNumber = placed.nextContiguousSequenceNumber
        ∧ noted.useFastQueuePath = placed.useFastQueuePath
        ∧ noted.receivedDataPackets = queue.receivedDataPackets
        ∧ next = { noted with pendingFecBlockList := noted.pendingFecBlockList
            ++ [⟨packet, isParity, presentationTimeUs packet, 0⟩] } := by
      cases isFecRecovery with
      | true => exact ⟨placed, hsame, hpending, rfl, rfl, hdata, hqueue.symm⟩
      | false =>
        obtain ⟨hquiet, hdata'⟩ :=
          quiet_noteSequence placed (presentationTimeUs packet) outOfSequence
        exact ⟨_, hsame.trans hquiet.toSame, hquiet.pending.trans hpending, hquiet.nextContiguous,
          hquiet.fast, hdata'.trans hdata, hqueue.symm⟩
    obtain ⟨noted, hsamenoted, hpendingnoted, hnextnoted, hfastnoted, hdatanoted, heq⟩ := hnoted
    have hsamenext : Same queue next := by
      rw [heq]
      exact hsamenoted.trans (by constructor <;> rfl)
    have hpendingnext : next.pendingFecBlockList
        = queue.pendingFecBlockList ++ [⟨packet, isParity, presentationTimeUs packet, 0⟩] := by
      rw [heq, hpendingnoted]
    have hnextnext : next.nextContiguousSequenceNumber = placed.nextContiguousSequenceNumber := by
      rw [heq]
      exact hnextnoted
    have hdatanext : next.receivedDataPackets = queue.receivedDataPackets := by
      rw [heq]
      exact hdatanoted
    refine ⟨hsamenext, ?_, hdatanext, _, hpendingnext, rfl, rfl⟩
    apply h.add hsamenext hpendingnext hnew hrange hparity hframe
    . rw [hnextnext]
      exact hnext
    . intro hf e he
      have hfplaced : placed.useFastQueuePath = true := by
        rw [heq] at hf
        rw [← hfastnoted]
        exact hf
      obtain ⟨hold, hown⟩ := hfast hfplaced
      rw [hnextnext]
      rw [hpendingnext, List.mem_append, List.mem_singleton] at he
      rcases he with he | he
      . exact hold e he
      . rw [he]
        exact hown
    . exact hdatanext

end

end Queue

end Rtp

end Video

import PS3Moonlight.Video.RtpBlocks

/-!
This module contains the main result about the queue: whatever packets arrive, in whatever order, a
frame is only handed on when it is whole.
-/

namespace Video

namespace Rtp

open Connection Serial

/- The packet as the queue reads it, older hosts do not divide frames into blocks. -/
def Config.reads (config : Config) (packet : Packet) : Packet :=
  if config.appVersionQuad.atLeast 7 1 431 then
    packet
  else
    { packet with multiFecFlags := 0x10, multiFecBlocks := 0x00 }

/- The number of the first packet of the block, as the packet says. -/
def Packet.lowestSequenceNumber (p : Packet) : BitVec 16 :=
  p.sequenceNumber - BitVec.ofNat 16 p.fecIndex

/-
The data packets of the block that `opener` belongs to, a packet that arrived: as many as it says,
from the number on that it says, without a gap and in the order of their numbers.
-/
structure WholeBlock (arrived : List Packet) (frameIndex : UInt32) (number : Nat) (opener : Packet)
    (block : List Entry) : Prop where
  mem : opener ∈ arrived
  ofFrame : opener.frameIndex = frameIndex
  ofBlock : opener.fecCurrentBlockNumber = number
  pos : 0 < opener.fecDataPackets
  numbers : block.map (fun e => e.packet.sequenceNumber)
    = (List.range opener.fecDataPackets).map fun i =>
      opener.lowestSequenceNumber + BitVec.ofNat 16 i
  packets : ∀ e, e ∈ block → e.isParity = false ∧ e.packet.frameIndex = frameIndex
    ∧ e.packet.fecCurrentBlockNumber = number

/- The first blocks of a frame, one after the other, none of which is the last one. -/
def FirstBlocks (arrived : List Packet) (frameIndex : UInt32) (count : Nat) (packets : List Entry)
    : Prop :=
  ∃ blocks : List (List Entry), packets = blocks.flatten ∧ blocks.length = count
    ∧ ∀ (i : Nat) (block : List Entry), blocks[i]? = some block
      → ∃ opener, WholeBlock arrived frameIndex i opener block ∧ i < opener.fecLastBlockNumber

/- All blocks of a frame, up to the one that says that it is the last one. -/
def WholeFrame (arrived : List Packet) (packets : List Entry) : Prop :=
  ∃ (frameIndex : UInt32) (number : Nat) (first block : List Entry) (opener : Packet),
    packets = first ++ block ∧ FirstBlocks arrived frameIndex number first
      ∧ WholeBlock arrived frameIndex number opener block ∧ opener.fecLastBlockNumber ≤ number

section

variable {arrived : List Packet}

theorem FirstBlocks.nil (frameIndex : UInt32) : FirstBlocks arrived frameIndex 0 [] := by
  refine ⟨[], rfl, rfl, ?_⟩
  intro i block hblock
  contradiction

theorem FirstBlocks.concat {frameIndex : UInt32} {count : Nat} {packets block : List Entry}
    {opener : Packet} (h : FirstBlocks arrived frameIndex count packets)
    (hblock : WholeBlock arrived frameIndex count opener block)
    (hlast : count < opener.fecLastBlockNumber)
    : FirstBlocks arrived frameIndex (count + 1) (packets ++ block) := by
  obtain ⟨blocks, hpackets, hcount, hall⟩ := h
  refine ⟨blocks ++ [block], ?_, ?_, ?_⟩
  . rw [hpackets, List.flatten_append, List.flatten_singleton]
  . rw [List.length_append, hcount]
    rfl
  . intro i other hother
    cases Nat.lt_or_ge i blocks.length with
    | inl hlt =>
      rw [List.getElem?_append_left hlt] at hother
      exact hall i other hother
    | inr hge =>
      have hlt := (List.getElem?_eq_some_iff.mp hother).choose
      rw [List.length_append, List.length_singleton] at hlt
      have hend : i = blocks.length := by omega
      rw [hend, List.getElem?_concat_length, Option.some.injEq] at hother
      rw [hend, hcount, ← hother]
      exact ⟨opener, hblock, hlast⟩

namespace Queue

/- The packet that the block was opened with. -/
structure Opened (queue : Queue) (opener : Packet) : Prop where
  frameIndex : opener.frameIndex = queue.currentFrameNumber
  number : opener.fecCurrentBlockNumber = queue.multiFecCurrentBlockNumber
  last : opener.fecLastBlockNumber = queue.multiFecLastBlockNumber
  lowest : queue.bufferLowestSequenceNumber = opener.lowestSequenceNumber
  data : queue.bufferDataPackets = opener.fecDataPackets

/-
The invariant. What is pending belongs to one block of the current frame, which is as a packet said
that arrived. The blocks before that one are complete, and so were all frames that were handed on.
-/
structure Inv (queue : Queue) (config : Config) (arrived : List Packet) : Prop where
  window : queue.pendingFecBlockList ≠ [] → queue.Window
  opened : queue.pendingFecBlockList ≠ [] → ∃ opener ∈ arrived, queue.Opened opener
  received : queue.receivedDataPackets ≤ queue.bufferDataPackets
  capable : queue.multiFecCapable = config.appVersionQuad.atLeast 7 1 431
  completed : FirstBlocks arrived queue.currentFrameNumber queue.multiFecCurrentBlockNumber
    queue.completedFecBlockList
  frames : ∀ packets, Output.frame packets ∈ queue.outputs → WholeFrame arrived packets

theorem inv_rtpvInitializeQueue (config : Config)
    : (rtpvInitializeQueue config.appVersionQuad).Inv config arrived := by
  refine ⟨?_, ?_, Nat.le_refl 0, rfl, FirstBlocks.nil 1, ?_⟩
  . intro hpending
    contradiction
  . intro hpending
    contradiction
  . intro packets hpackets
    contradiction

section

variable {queue next : Queue} {packet : Packet} {config : Config}

/- A frame is among the outputs if and only if it is among those that are frames. -/
theorem frame_mem_of_filter {outputs outputs' : List Output}
    (h : outputs'.filter Output.isFrame = outputs.filter Output.isFrame) {packets : List Entry}
    (hmem : Output.frame packets ∈ outputs')
    : Output.frame packets ∈ outputs := by
  have hfilter : Output.frame packets ∈ outputs'.filter Output.isFrame :=
    List.mem_filter.mpr ⟨hmem, rfl⟩
  rw [h] at hfilter
  exact (List.mem_filter.mp hfilter).left

theorem Opened.of_same {opener : Packet} (h : queue.Opened opener) (hsame : Same queue next)
    : next.Opened opener := by
  constructor
  . rw [hsame.frameNumber, h.frameIndex]
  . rw [hsame.current, h.number]
  . rw [hsame.last, h.last]
  . rw [hsame.lowest, h.lowest]
  . rw [hsame.dataPackets, h.data]

theorem Inv.of_same (h : queue.Inv config arrived) {opener : Packet} (hopener : opener ∈ arrived)
    (hopened : queue.Opened opener) (hsame : Same queue next) (hwindow : next.Window)
    : next.Inv config arrived := by
  refine ⟨fun _ => hwindow, fun _ => ⟨opener, hopener, hopened.of_same hsame⟩,
    hwindow.received_le, ?_, ?_, ?_⟩
  . rw [hsame.multiFecCapable, h.capable]
  . rw [hsame.frameNumber, hsame.current, hsame.completed]
    exact h.completed
  . intro packets hpackets
    exact h.frames packets (frame_mem_of_filter hsame.frames hpackets)

theorem wholeBlock_of_staged (h : queue.Window) {opener : Packet} (hopener : opener ∈ arrived)
    (hopened : queue.Opened opener) (hdata : 0 < queue.bufferDataPackets) {staged : List Entry}
    (hstaged : Staged queue.bufferLowestSequenceNumber 0 queue.bufferDataPackets
      queue.pendingFecBlockList staged)
    : WholeBlock arrived queue.currentFrameNumber queue.multiFecCurrentBlockNumber opener
        staged := by
  refine ⟨hopener, hopened.frameIndex, hopened.number, ?_, ?_, ?_⟩
  . rw [← hopened.data]
    exact hdata
  . rw [hstaged.numbers, Nat.sub_zero, List.range_eq_range', hopened.data, hopened.lowest]
  . intro e he
    obtain ⟨source, hsource, _, hpacket, hparity⟩ := hstaged.sources e he
    rw [hpacket]
    exact ⟨hparity, h.frame source hsource⟩

theorem stageCompleteFecBlock_eq (h : queue.Window)
    (hall : ∀ i, i < queue.bufferDataPackets
      → ∃ e, e ∈ queue.pendingFecBlockList ∧ place queue.bufferLowestSequenceNumber e = i)
    : ∃ staged, queue.stageCompleteFecBlock
          = { queue with
              pendingFecBlockList := []
              completedFecBlockList := queue.completedFecBlockList ++ staged }
        ∧ Staged queue.bufferLowestSequenceNumber 0 queue.bufferDataPackets
          queue.pendingFecBlockList staged := by
  have htotal := h.total
  have hlt : queue.bufferDataPackets ≤ queue.totalPackets := Nat.le_add_right _ _
  have hstart : queue.bufferLowestSequenceNumber + BitVec.ofNat 16 0
      = queue.bufferLowestSequenceNumber := BitVec.add_zero _
  have hstage := stageLoop_eq (2 * queue.pendingFecBlockList.length) (by omega) (Nat.zero_le _)
    (by omega) (h.remaining hall)
  rw [hstart] at hstage
  exact hstage

/- A complete block is staged as a whole, and the last block of a frame completes the frame. -/
theorem inv_finishBlock (h : queue.Inv config arrived) {opener : Packet}
    (hopener : opener ∈ arrived) (hopened : queue.Opened opener) (hwindow : queue.Window)
    (hdata : 0 < queue.bufferDataPackets)
    (hall : ∀ i, i < queue.bufferDataPackets
      → ∃ e, e ∈ queue.pendingFecBlockList ∧ place queue.bufferLowestSequenceNumber e = i)
    : queue.finishBlock.Inv config arrived := by
  obtain ⟨staged, hstage, hstaged⟩ := stageCompleteFecBlock_eq hwindow hall
  have hblock := wholeBlock_of_staged hwindow hopener hopened hdata hstaged
  unfold finishBlock
  rw [hstage]
  simp only
  split
  . next hcurrent =>
    have hblocks := h.completed.concat hblock (hopened.last ▸ hcurrent)
    refine ⟨?_, ?_, h.received, h.capable, hblocks, h.frames⟩
    . intro hpending
      contradiction
    . intro hpending
      contradiction
  . next hlast =>
    refine ⟨?_, ?_, h.received, h.capable, FirstBlocks.nil _, ?_⟩
    . intro hpending
      contradiction
    . intro hpending
      contradiction
    . intro packets hpackets
      unfold submitCompletedFrame tell at hpackets
      rw [List.mem_append, List.mem_singleton] at hpackets
      rcases hpackets with hold | heq
      . exact h.frames packets hold
      . injection heq with heq
        rw [heq]
        refine ⟨_, _, _, _, opener, rfl, h.completed, hblock, ?_⟩
        rw [hopened.last]
        exact Nat.le_of_not_lt hlast

theorem quiet_countMissing (queue : Queue) (packet : Packet)
    : Quiet queue (queue.countMissing packet)
        ∧ (queue.countMissing packet).receivedDataPackets = queue.receivedDataPackets := by
  unfold countMissing
  split
  . exact ⟨⟨by constructor <;> rfl, rfl, rfl, rfl⟩, rfl⟩
  . split
    . exact ⟨⟨by constructor <;> rfl, rfl, rfl, rfl⟩, rfl⟩
    . exact ⟨⟨by constructor <;> rfl, rfl, rfl, rfl⟩, rfl⟩

theorem quiet_countPacket (queue : Queue) (packet : Packet)
    : Quiet queue (queue.countPacket packet)
        ∧ (queue.countPacket packet).receivedDataPackets
          = queue.receivedDataPackets
            + if isBefore packet.sequenceNumber queue.bufferFirstParitySequenceNumber then 1
              else 0 := by
  obtain ⟨hquiet, hreceived⟩ := quiet_countMissing queue packet
  unfold countPacket
  rw [← hquiet.firstParity]
  simp only
  split
  . refine ⟨hquiet.trans ⟨by constructor <;> rfl, rfl, rfl, rfl⟩, ?_⟩
    simp only
    rw [hreceived]
  . exact ⟨hquiet.trans ⟨by constructor <;> rfl, rfl, rfl, rfl⟩, hreceived⟩

/- A packet that is queued and counted is one more of the block. -/
theorem countPacket_of_queuePacket {queued : Queue} (h : queue.Window)
    (hrange : gap queue.bufferLowestSequenceNumber packet.sequenceNumber < queue.totalPackets)
    (hframe : packet.frameIndex = queue.currentFrameNumber
      ∧ packet.fecCurrentBlockNumber = queue.multiFecCurrentBlockNumber)
    (hqueue : queue.queuePacket packet
      (!isBefore packet.sequenceNumber queue.bufferFirstParitySequenceNumber) false = some queued)
    : Same queue (queued.countPacket packet)
        ∧ (queued.countPacket packet).Window
        ∧ (queued.countPacket packet).nextContiguousSequenceNumber
          = queued.nextContiguousSequenceNumber
        ∧ (queued.countPacket packet).receivedDataPackets = queue.receivedDataPackets
          + (if isBefore packet.sequenceNumber queue.bufferFirstParitySequenceNumber then 1 else 0)
        ∧ ∃ entry, (queued.countPacket packet).pendingFecBlockList
            = queue.pendingFecBlockList ++ [entry]
          ∧ entry.packet = packet := by
  obtain ⟨hsame, hqueued, hreceived, entry, hpending, hpacket, hparity⟩ :=
    queuePacket_eq_some h hrange (by rw [Bool.not_eq_false', isBefore_firstParity h hrange])
      hframe hqueue
  obtain ⟨hquiet, hcounted⟩ := quiet_countPacket queued packet
  rw [hreceived, hsame.firstParity] at hcounted
  refine ⟨hsame.trans hquiet.toSame, ?_, hquiet.nextContiguous, hcounted, entry,
    hquiet.pending.trans hpending, hpacket⟩
  apply hqueued.of_quiet hquiet
  rw [hcounted, hpending, List.countP_append, List.countP_singleton, hparity, Bool.not_not]
  exact Nat.add_le_add_right h.data _

/- A packet of the current block keeps the invariant, whether the queue takes it or not. -/
theorem inv_acceptPacket (h : queue.Inv config arrived) {opener : Packet}
    (hopener : opener ∈ arrived) (hopened : queue.Opened opener) (hwindow : queue.Window)
    (env : Env)
    (hnext : isBefore packet.sequenceNumber queue.nextContiguousSequenceNumber = false)
    (hframe : packet.frameIndex = queue.currentFrameNumber
      ∧ packet.fecCurrentBlockNumber = queue.multiFecCurrentBlockNumber)
    : (queue.acceptPacket config env packet).fst.Inv config arrived := by
  unfold acceptPacket
  split
  . exact h
  . next hlast =>
    rw [Bool.not_eq_true] at hlast
    obtain ⟨hrange, _⟩ := place_lt_of_accepted hwindow hnext hlast
    split
    . exact h
    . next queued hqueue =>
      obtain ⟨hsame, hcountwindow, _⟩ := countPacket_of_queuePacket hwindow hrange hframe hqueue
      have hresult := reconstructed_reconstructFrame hcountwindow config env
      have hall := hsame.trans hresult.same
      split
      . next result hresulteq =>
        rw [hresulteq] at hresult hall
        apply inv_finishBlock (h.of_same hopener hopened hall hresult.window) hopener
          (hopened.of_same hall) hresult.window
        . rw [hall.dataPackets]
          exact hwindow.dataPackets (by omega)
        . intro i hi
          rw [hresult.same.dataPackets] at hi
          rw [hresult.same.lowest]
          exact hresult.all rfl i hi
      . next result hresulteq =>
        rw [hresulteq] at hresult hall
        exact h.of_same hopener hopened hall hresult.window

theorem Window.gap_highest (h : queue.Window) (hpos : 0 < queue.totalPackets)
    : gap queue.bufferLowestSequenceNumber queue.bufferHighestSequenceNumber
        = queue.totalPackets - 1 := by
  have htotal := h.total
  have hhighest : queue.bufferHighestSequenceNumber = queue.bufferLowestSequenceNumber
      + BitVec.ofNat 16 (queue.totalPackets - 1) := by
    have hsucc : queue.totalPackets = (queue.totalPackets - 1) + 1 := by omega
    rw [h.highest, hsucc, ← add_ofNat_succ, BitVec.add_sub_cancel]
    rfl
  rw [hhighest, gap_add_ofNat _ (by omega)]

theorem fecIndex_lt (packet : Packet) : packet.fecIndex < 2 ^ 10 := by
  unfold Packet.fecIndex
  rw [UInt32.toNat_shiftRight, UInt32.toNat_and]
  have hand : packet.fecInfo.toNat &&& (0x3FF000 : UInt32).toNat ≤ 0x3FF000 := Nat.and_le_right
  have hshift : (12 : UInt32).toNat % 32 = 12 := rfl
  rw [hshift, Nat.shiftRight_eq_div_pow]
  omega

theorem fecDataPackets_lt (packet : Packet) : packet.fecDataPackets < 2 ^ 10 := by
  unfold Packet.fecDataPackets
  rw [UInt32.toNat_shiftRight, UInt32.toNat_and]
  have hand : packet.fecInfo.toNat &&& (0xFFC00000 : UInt32).toNat ≤ 0xFFC00000 := Nat.and_le_right
  have hshift : (22 : UInt32).toNat % 32 = 22 := rfl
  rw [hshift, Nat.shiftRight_eq_div_pow]
  omega

theorem fecPercentage_lt (packet : Packet) : packet.fecPercentage < 2 ^ 8 := by
  unfold Packet.fecPercentage
  rw [UInt32.toNat_shiftRight, UInt32.toNat_and]
  have hand : packet.fecInfo.toNat &&& (0xFF0 : UInt32).toNat ≤ 0xFF0 := Nat.and_le_right
  have hshift : (4 : UInt32).toNat % 32 = 4 := rfl
  rw [hshift, Nat.shiftRight_eq_div_pow]
  omega

theorem and_three_lt (a : UInt8) : (a &&& 0x3).toNat < 4 := by
  rw [UInt8.toNat_and]
  have hand : a.toNat &&& (3 : UInt8).toNat ≤ 3 := Nat.and_le_right
  omega

/- The parity of the largest block still fits. -/
theorem blockSize_lt (packet : Packet)
    : packet.fecDataPackets + (packet.fecDataPackets * packet.fecPercentage + 99) / 100
        < 2 ^ 12 := by
  have hdata := fecDataPackets_lt packet
  have hpercentage := fecPercentage_lt packet
  have hmul : packet.fecDataPackets * packet.fecPercentage ≤ 1023 * 255 :=
    Nat.mul_le_mul (by omega) (by omega)
  omega

/- After the headers of a packet of the frame that is expected, nothing is lost of the frame. -/
theorem firstBlocks_openFrame (h : queue.Inv config arrived)
    (hnumber : packet.fecCurrentBlockNumber = queue.expectedFecBlockNumber packet)
    : (queue.openFrame packet).pendingFecBlockList = []
        ∧ (queue.openFrame packet).currentFrameNumber = packet.frameIndex
        ∧ FirstBlocks arrived packet.frameIndex packet.fecCurrentBlockNumber
          (queue.openFrame packet).completedFecBlockList
        ∧ (queue.openFrame packet).outputs.filter Output.isFrame
          = queue.outputs.filter Output.isFrame := by
  unfold expectedFecBlockNumber at hnumber
  unfold openFrame
  simp only
  split at hnumber
  . next hcurrent =>
    rw [if_pos hcurrent]
    refine ⟨rfl, rfl, ?_, ?_⟩
    . rw [hnumber, ← hcurrent]
      exact h.completed
    . simp [tell, Output.isFrame]
  . next hother =>
    rw [if_neg hother, hnumber]
    split
    . refine ⟨rfl, rfl, FirstBlocks.nil _, ?_⟩
      simp [tell, Output.isFrame]
    . refine ⟨rfl, rfl, FirstBlocks.nil _, ?_⟩
      simp [tell, Output.isFrame]

theorem multiFecCapable_openFrame (queue : Queue) (packet : Packet)
    : (queue.openFrame packet).multiFecCapable = queue.multiFecCapable := by
  unfold openFrame
  simp only
  split
  . rfl
  . split
    . rfl
    . rfl

theorem window_openBlock (env : Env) (packet : Packet)
    (hpending : queue.pendingFecBlockList = [])
    : (queue.openBlock env packet).Window := by
  have hnone : ∀ e, ¬ e ∈ (queue.openBlock env packet).pendingFecBlockList := by
    intro e he
    unfold openBlock at he
    simp only [hpending] at he
    contradiction
  have hsize := blockSize_lt packet
  constructor
  . exact hsize
  . intro htotal
    change 0 < packet.fecDataPackets
    cases Nat.eq_zero_or_pos packet.fecDataPackets with
    | inl hzero =>
      -- no data, no parity
      change 0 < packet.fecDataPackets
        + (packet.fecDataPackets * packet.fecPercentage + 99) / 100 at htotal
      rw [hzero, Nat.zero_mul] at htotal
      omega
    | inr hpos => exact hpos
  . rfl
  . unfold openBlock totalPackets
    simp only
    rw [BitVec.add_assoc, ← BitVec.ofNat_add]
  . exact and_three_lt _
  . exact and_three_lt _
  . unfold numbers openBlock
    rw [hpending]
    exact List.nodup_nil
  . intro e he
    exact absurd he (hnone e)
  . intro e he
    exact absurd he (hnone e)
  . intro e he
    exact absurd he (hnone e)
  . unfold openBlock
    simp only [gap_self]
    exact Nat.zero_le _
  . intro _ e he
    exact absurd he (hnone e)
  . exact Nat.zero_le _

theorem Inv.reported (h : queue.Inv config arrived)
    : queue.reportFinalFrameFecStatus.Inv config arrived := by
  have hsame : Same queue queue.reportFinalFrameFecStatus := Same.tell queue _ rfl
  refine ⟨?_, ?_, h.received, h.capable, h.completed, ?_⟩
  . intro hpending
    exact (h.window hpending).tell rfl
  . intro hpending
    obtain ⟨opener, hopener, hopened⟩ := h.opened hpending
    exact ⟨opener, hopener, hopened.of_same hsame⟩
  . intro packets hpackets
    exact h.frames packets (frame_mem_of_filter hsame.frames hpackets)

theorem inv_dropFrame (h : queue.Inv config arrived) (nextFrameNumber : UInt32)
    : (queue.dropFrame nextFrameNumber).Inv config arrived
        ∧ (queue.dropFrame nextFrameNumber).pendingFecBlockList = [] := by
  have hframes : ∀ packets, Output.frame packets ∈ (queue.dropFrame nextFrameNumber).outputs
      → WholeFrame arrived packets := by
    intro packets hpackets
    apply h.frames
    apply frame_mem_of_filter _ hpackets
    unfold dropFrame
    simp only
    split
    . rfl
    . simp [tell, purge, Output.isFrame]
  unfold dropFrame at *
  simp only at *
  split
  . next hreported =>
    rw [if_pos hreported] at hframes
    refine ⟨⟨?_, ?_, h.received, h.capable, FirstBlocks.nil _, hframes⟩, rfl⟩
    . intro hpending
      contradiction
    . intro hpending
      contradiction
  . next hreported =>
    rw [if_neg hreported] at hframes
    refine ⟨⟨?_, ?_, h.received, h.capable, FirstBlocks.nil _, hframes⟩, rfl⟩
    . intro hpending
      contradiction
    . intro hpending
      contradiction

theorem Inv.reportPending (h : queue.Inv config arrived)
    : queue.reportPending.Inv config arrived := by
  unfold Queue.reportPending
  split
  . exact h
  . exact h.reported

theorem expectedFecBlockNumber_reportPending (queue : Queue) (packet : Packet)
    : queue.reportPending.expectedFecBlockNumber packet = queue.expectedFecBlockNumber packet := by
  unfold Queue.reportPending
  split <;> rfl

theorem inv_beginBlock_error (h : queue.Inv config arrived) {env : Env}
    (hresult : queue.beginBlock env packet = .error next)
    : next.Inv config arrived := by
  unfold beginBlock at hresult
  split at hresult
  . injection hresult with hresult
    rw [← hresult]
    exact (inv_dropFrame h.reportPending _).left
  . split at hresult
    . injection hresult with hresult
      rw [← hresult]
      exact (inv_dropFrame h.reportPending.reported _).left
    . contradiction

/- A new block begins empty, behind the blocks of its frame that are complete. -/
theorem inv_beginBlock_ok (h : queue.Inv config arrived) {env : Env} (hpacket : packet ∈ arrived)
    (hresult : queue.beginBlock env packet = .ok next)
    : next.Inv config arrived ∧ next.Window ∧ next.Opened packet
        ∧ next.nextContiguousSequenceNumber = packet.lowestSequenceNumber := by
  have hinv := h.reportPending
  unfold beginBlock at hresult
  split at hresult
  . contradiction
  . split at hresult
    . contradiction
    . next hexpected =>
      injection hresult with hresult
      rw [← hresult]
      rw [Decidable.not_not, ← expectedFecBlockNumber_reportPending] at hexpected
      obtain ⟨hempty, hcurrentframe, hblocks, hframes⟩ := firstBlocks_openFrame hinv hexpected
      have hwindow := window_openBlock env packet hempty
      have hopened : ((queue.reportPending.openFrame packet).openBlock env packet).Opened packet :=
        ⟨hcurrentframe.symm, rfl, rfl, rfl, rfl⟩
      refine ⟨⟨fun _ => hwindow, fun _ => ⟨packet, hpacket, hopened⟩, Nat.zero_le _, ?_, ?_, ?_⟩,
        hwindow, hopened, rfl⟩
      . exact (multiFecCapable_openFrame queue.reportPending packet).trans hinv.capable
      . rw [← hcurrentframe] at hblocks
        exact hblocks
      . intro packets hpackets
        exact hinv.frames packets (frame_mem_of_filter hframes hpackets)

theorem gap_lowestSequenceNumber (packet : Packet)
    : gap packet.lowestSequenceNumber packet.sequenceNumber = packet.fecIndex := by
  have hindex := fecIndex_lt packet
  have hadd := gap_add_ofNat packet.lowestSequenceNumber
    (show packet.fecIndex < 2 ^ 16 by omega)
  unfold Packet.lowestSequenceNumber at *
  rw [BitVec.sub_add_cancel] at hadd
  exact hadd

theorem inv_rtpvAddPacket (h : queue.Inv config arrived) (env : Env) (packet : Packet)
    (hpacket : config.reads packet ∈ arrived)
    : (queue.rtpvAddPacket config env packet).fst.Inv config arrived := by
  unfold rtpvAddPacket
  split
  . exact h
  . next hnext =>
    rw [Bool.not_eq_true] at hnext
    extract_lets fixed
    have hreads : config.reads packet = fixed := by
      unfold Config.reads fixed
      rw [h.capable]
    rw [hreads] at hpacket
    have hsequence : fixed.sequenceNumber = packet.sequenceNumber := by
      unfold fixed
      split <;> rfl
    split
    . exact h
    . split
      . exact h
      . split
        . split
          . next hresult => exact inv_beginBlock_error h hresult
          . next next hresult =>
            obtain ⟨hinv, hwindow, hopened, hlowest⟩ := inv_beginBlock_ok h hpacket hresult
            apply inv_acceptPacket hinv hpacket hopened hwindow env
            . have hindex := fecIndex_lt fixed
              rw [hlowest, isBefore_eq_false_iff, gap_lowestSequenceNumber]
              omega
            . exact ⟨hopened.frameIndex, hopened.number⟩
        . next hsame =>
          obtain ⟨hpending, hsame⟩ := not_or.mp hsame
          obtain ⟨hframe, hcurrent⟩ := not_or.mp hsame
          obtain ⟨opener, hopener, hopened⟩ := h.opened hpending
          apply inv_acceptPacket h hopener hopened (h.window hpending) env
          . rw [hsequence]
            exact hnext
          . exact ⟨(Decidable.not_not.mp hframe).symm, (Decidable.not_not.mp hcurrent).symm⟩

end

end Queue

/- The queue over a whole stream of packets. -/
def queueMachine (config : Config) : Transition.Machine Queue (Env × Packet) where
  init := rtpvInitializeQueue config.appVersionQuad
  step queue arrival := some (queue.rtpvAddPacket config arrival.fst arrival.snd).fst

section

variable {config : Config} {arrivals : List (Env × Packet)} {queue : Queue}

/- The packets that arrived, as the queue read them. -/
def arrivedPackets (config : Config) (arrivals : List (Env × Packet)) : List Packet :=
  arrivals.map fun arrival => config.reads arrival.snd

theorem inv_of_run (hrun : (queueMachine config).run arrivals = some queue)
    : queue.Inv config (arrivedPackets config arrivals) := by
  apply Transition.Machine.runFrom_invariant_of_stepsMeet (queueMachine config)
    (fun _ arrival => config.reads arrival.snd ∈ arrivedPackets config arrivals)
    (fun queue => queue.Inv config (arrivedPackets config arrivals)) _ _ queue arrivals _ _ hrun
  . intro s arrival t hinv hpacket hstep
    injection hstep with hstep
    rw [← hstep]
    exact Queue.inv_rtpvAddPacket hinv arrival.fst arrival.snd hpacket
  . exact Queue.inv_rtpvInitializeQueue config
  . apply Transition.Machine.stepsMeet_of_forall
    intro arrival harrival
    exact List.mem_map_of_mem harrival

/- Losses, duplicates and a different order never leave a gap in what is handed on. -/
theorem frames_whole (hrun : (queueMachine config).run arrivals = some queue)
    {packets : List Entry} (hframe : Output.frame packets ∈ queue.outputs)
    : WholeFrame (arrivedPackets config arrivals) packets := by
  exact (inv_of_run hrun).frames packets hframe

/- A frame of two blocks, the packets of the first one in the wrong order, and one of them twice. -/
def someArrival (sequenceNumber : BitVec 16) (multiFecBlocks : UInt8) (fecInfo : UInt32)
    : Env × Packet :=
  ⟨⟨1, none⟩,
    { header := 0x90
      packetType := 0
      sequenceNumber := sequenceNumber
      timestamp := 0
      ssrc := 0
      extension := 0
      streamPacketIndex := 0
      frameIndex := 1
      flags := FLAG_CONTAINS_PIC_DATA
      reserved := 0
      multiFecFlags := 0x10
      multiFecBlocks := multiFecBlocks
      fecInfo := fecInfo
      payload := [1, 2, 3] }⟩

def someConfig : Config where
  appVersionQuad := ⟨7, 1, 431, 0⟩
  packetSize := 32

def someArrivals : List (Env × Packet) :=
  [someArrival 8 0x40 0x00801000, someArrival 8 0x40 0x00801000,
    someArrival 7 0x40 0x00800000, someArrival 9 0x50 0x00400000]

def someFrame : List Entry :=
  [someArrival 7 0x40 0x00800000, someArrival 8 0x40 0x00801000,
    someArrival 9 0x50 0x00400000].map fun arrival => ⟨arrival.snd, false, 0, 1⟩

theorem frames_whole_someArrivals
    : ∃ queue, (queueMachine someConfig).run someArrivals = some queue
        ∧ Output.frame someFrame ∈ queue.outputs
        ∧ WholeFrame (arrivedPackets someConfig someArrivals) someFrame := by
  have hsome : ((queueMachine someConfig).run someArrivals).map
      (fun queue => decide (Output.frame someFrame ∈ queue.outputs)) = some true := by
    decide +kernel
  obtain ⟨queue, hrun, hmem⟩ := Option.map_eq_some_iff.mp hsome
  have hframe := of_decide_eq_true hmem
  exact ⟨queue, hrun, hframe, frames_whole hrun hframe⟩

/-
What is pending has its own place in the arrays of the reconstruction, and fits into them. No more
data packets are counted than there are.
-/
theorem pending_in_range (hrun : (queueMachine config).run arrivals = some queue)
    : (∀ e, e ∈ queue.pendingFecBlockList
          → gap queue.bufferLowestSequenceNumber e.packet.sequenceNumber < queue.totalPackets)
        ∧ (queue.pendingFecBlockList.map fun e =>
            gap queue.bufferLowestSequenceNumber e.packet.sequenceNumber).Nodup
        ∧ queue.receivedDataPackets ≤ queue.bufferDataPackets
        ∧ (queue.pendingFecBlockList ≠ []
          → gap queue.bufferLowestSequenceNumber queue.bufferHighestSequenceNumber + 1
            = queue.totalPackets) := by
  have hinv := inv_of_run hrun
  refine ⟨?_, ?_, hinv.received, ?_⟩
  . intro e he
    exact (hinv.window (List.ne_nil_of_mem he)).range e he
  . cases Decidable.em (queue.pendingFecBlockList = []) with
    | inl hnil =>
      rw [hnil]
      exact List.nodup_nil
    | inr hpending => exact Queue.numbers_eq_place_nodup (hinv.window hpending).nodup
  . intro hpending
    have hwindow := hinv.window hpending
    obtain ⟨e, he⟩ := List.exists_mem_of_ne_nil _ hpending
    have hrange := hwindow.range e he
    have hhighest := hwindow.gap_highest (by omega)
    omega

theorem pending_in_range_someArrivals
    : ∃ queue, (queueMachine someConfig).run (someArrivals.take 2) = some queue
        ∧ queue.pendingFecBlockList.length = 1
        ∧ (∀ e, e ∈ queue.pendingFecBlockList
          → gap queue.bufferLowestSequenceNumber e.packet.sequenceNumber < queue.totalPackets)
        ∧ (queue.pendingFecBlockList.map fun e =>
            gap queue.bufferLowestSequenceNumber e.packet.sequenceNumber).Nodup
        ∧ queue.receivedDataPackets ≤ queue.bufferDataPackets
        ∧ (queue.pendingFecBlockList ≠ []
          → gap queue.bufferLowestSequenceNumber queue.bufferHighestSequenceNumber + 1
            = queue.totalPackets) := by
  have hsome : ((queueMachine someConfig).run (someArrivals.take 2)).map
      (fun queue => queue.pendingFecBlockList.length) = some 1 := by
    decide +kernel
  obtain ⟨queue, hrun, hlength⟩ := Option.map_eq_some_iff.mp hsome
  exact ⟨queue, hrun, hlength, pending_in_range hrun⟩

end

end

end Rtp

end Video

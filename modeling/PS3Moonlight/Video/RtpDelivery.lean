import PS3Moonlight.Video.RtpFrames

/-!
This module contains the other half of the result about the queue: a block all of whose data packets
arrive, in whatever order, is not kept back, and with the last one the frame is handed on.
-/

namespace Video

namespace Rtp

open Connection Serial

/- What the packets of a block say about it. -/
structure Block where
  frameIndex : UInt32
  number : Nat
  last : Nat
  lowest : BitVec 16
  data : Nat

/- The packet is a data packet of the block. -/
structure Block.Has (b : Block) (p : Packet) : Prop where
  frameIndex : p.frameIndex = b.frameIndex
  number : p.fecCurrentBlockNumber = b.number
  last : p.fecLastBlockNumber = b.last
  data : p.fecDataPackets = b.data
  fecIndex : p.fecIndex = gap b.lowest p.sequenceNumber
  place : gap b.lowest p.sequenceNumber < b.data

namespace Queue

section

variable {queue next : Queue} {packet : Packet}

theorem nextContiguous_queuePacket {isParity isFecRecovery : Bool}
    (hqueue : queue.queuePacket packet isParity isFecRecovery = some next)
    : next.nextContiguousSequenceNumber = queue.nextContiguousSequenceNumber
        ∨ packet.sequenceNumber = queue.nextContiguousSequenceNumber
          ∧ next.nextContiguousSequenceNumber = packet.sequenceNumber + 1 := by
  unfold queuePacket at hqueue
  split at hqueue
  . contradiction
  . next placed outOfSequence hplace =>
    have hnoted : next.nextContiguousSequenceNumber = placed.nextContiguousSequenceNumber := by
      injection hqueue with hqueue
      rw [← hqueue]
      simp only
      split
      . rfl
      . exact (quiet_noteSequence placed _ outOfSequence).left.nextContiguous
    rw [hnoted]
    unfold placePacket at hplace
    split at hplace
    . next hfast =>
      injection hplace with hplace
      rw [Prod.mk.injEq] at hplace
      rw [Bool.and_eq_true, beq_iff_eq] at hfast
      rw [← hplace.left]
      exact Or.inr ⟨hfast.right, rfl⟩
    . split at hplace
      . contradiction
      . injection hplace with hplace
        rw [Prod.mk.injEq] at hplace
        rw [← hplace.left]
        exact Or.inl rfl

end

end Queue

/- The packets of the block that have arrived are pending, and nothing else is. -/
structure Collecting (b : Block) (start queue : Queue) (seen : List Packet) : Prop where
  window : queue.Window
  frameIndex : queue.currentFrameNumber = b.frameIndex
  number : queue.multiFecCurrentBlockNumber = b.number
  last : queue.multiFecLastBlockNumber = b.last
  lowest : queue.bufferLowestSequenceNumber = b.lowest
  data : queue.bufferDataPackets = b.data
  packets : queue.pendingFecBlockList.map Entry.packet = seen
  places : ∀ p, p ∈ seen → gap b.lowest p.sequenceNumber < b.data
  received : queue.receivedDataPackets = seen.length
  contiguous : ∀ i, i < gap b.lowest queue.nextContiguousSequenceNumber
    → b.lowest + BitVec.ofNat 16 i ∈ seen.map Packet.sequenceNumber
  completed : queue.completedFecBlockList = start.completedFecBlockList
  frames : queue.outputs.filter Output.isFrame = start.outputs.filter Output.isFrame
  capable : queue.multiFecCapable = true

section

variable {b : Block} {start queue next : Queue} {seen : List Packet} {packet : Packet}

theorem Collecting.of_quiet (h : Collecting b start queue seen) (hquiet : Queue.Quiet queue next)
    (hreceived : next.receivedDataPackets = queue.receivedDataPackets)
    : Collecting b start next seen := by
  have hsame := hquiet.toSame
  constructor
  . apply h.window.of_quiet hquiet
    rw [hreceived]
    exact h.window.data
  . rw [hsame.frameNumber, h.frameIndex]
  . rw [hsame.current, h.number]
  . rw [hsame.last, h.last]
  . rw [hsame.lowest, h.lowest]
  . rw [hsame.dataPackets, h.data]
  . rw [hquiet.pending, h.packets]
  . exact h.places
  . rw [hreceived, h.received]
  . rw [hquiet.nextContiguous]
    exact h.contiguous
  . rw [hsame.completed, h.completed]
  . rw [hsame.frames, h.frames]
  . rw [hsame.multiFecCapable, h.capable]

theorem Collecting.numbers (h : Collecting b start queue seen)
    : queue.numbers = seen.map Packet.sequenceNumber := by
  rw [← h.packets, List.map_map]
  rfl

theorem Collecting.length (h : Collecting b start queue seen)
    : queue.pendingFecBlockList.length = seen.length := by
  rw [← h.packets, List.length_map]

theorem Collecting.data_le (h : Collecting b start queue seen)
    : b.data ≤ queue.totalPackets ∧ queue.totalPackets < 2 ^ 12 := by
  rw [← h.data]
  exact ⟨Nat.le_add_right _ _, h.window.total⟩

/- A packet that has not arrived yet is not before the ones that arrived in sequence. -/
theorem Collecting.next_le (h : Collecting b start queue seen)
    (hnew : packet.sequenceNumber ∉ seen.map Packet.sequenceNumber)
    : gap b.lowest queue.nextContiguousSequenceNumber ≤ gap b.lowest packet.sequenceNumber := by
  apply Nat.le_of_not_lt
  intro hlt
  apply hnew
  have hmem := h.contiguous _ hlt
  rw [add_gap] at hmem
  exact hmem

theorem Collecting.not_before (h : Collecting b start queue seen) (hp : b.Has packet)
    (hnew : packet.sequenceNumber ∉ seen.map Packet.sequenceNumber)
    : isBefore packet.sequenceNumber queue.nextContiguousSequenceNumber = false := by
  rw [isBefore_eq_false_iff]
  have hle := h.next_le hnew
  have hdata := h.data_le
  have hplace := hp.place
  have hlt := gap_lt queue.nextContiguousSequenceNumber packet.sequenceNumber
  have hcases := gap_trans_cases b.lowest queue.nextContiguousSequenceNumber packet.sequenceNumber
  omega

theorem Collecting.not_behind (h : Collecting b start queue seen) (hp : b.Has packet)
    : isBefore queue.bufferHighestSequenceNumber packet.sequenceNumber = false := by
  have hdata := h.data_le
  have hplace := hp.place
  have hhighest := h.window.gap_highest (by omega)
  rw [h.lowest] at hhighest
  rw [← Bool.not_eq_true, isBefore_iff_gap_lt (a := b.lowest) (by omega) (by omega)]
  omega

/- A new packet of the block joins the others, and is counted. -/
theorem collecting_queuePacket (h : Collecting b start queue seen) (hp : b.Has packet)
    (hnew : packet.sequenceNumber ∉ seen.map Packet.sequenceNumber)
    : ∃ queued, queue.queuePacket packet
            (!isBefore packet.sequenceNumber queue.bufferFirstParitySequenceNumber) false
          = some queued
        ∧ Collecting b start (queued.countPacket packet) (seen ++ [packet]) := by
  have hdata := h.data_le
  have hplace := hp.place
  have hrange : gap queue.bufferLowestSequenceNumber packet.sequenceNumber
      < queue.totalPackets := by
    rw [h.lowest]
    omega
  have hframe : packet.frameIndex = queue.currentFrameNumber
      ∧ packet.fecCurrentBlockNumber = queue.multiFecCurrentBlockNumber := by
    rw [h.frameIndex, h.number]
    exact ⟨hp.frameIndex, hp.number⟩
  cases hqueue : queue.queuePacket packet
      (!isBefore packet.sequenceNumber queue.bufferFirstParitySequenceNumber) false with
  | none =>
    have hmem := Queue.mem_numbers_of_queuePacket hqueue
    rw [h.numbers] at hmem
    exact absurd hmem hnew
  | some queued =>
    refine ⟨queued, rfl, ?_⟩
    obtain ⟨hsame, hwindow, hnext, hreceived, entry, hpending, hpacket⟩ :=
      Queue.countPacket_of_queuePacket h.window hrange hframe hqueue
    have hbefore : isBefore packet.sequenceNumber queue.bufferFirstParitySequenceNumber = true := by
      rw [Queue.isBefore_firstParity h.window hrange, h.lowest, h.data]
      exact hplace
    constructor
    . exact hwindow
    . rw [hsame.frameNumber, h.frameIndex]
    . rw [hsame.current, h.number]
    . rw [hsame.last, h.last]
    . rw [hsame.lowest, h.lowest]
    . rw [hsame.dataPackets, h.data]
    . rw [hpending, List.map_append, h.packets, List.map_singleton, hpacket]
    . intro p hmem
      rw [List.mem_append, List.mem_singleton] at hmem
      rcases hmem with hold | heq
      . exact h.places p hold
      . rw [heq]
        exact hplace
    . rw [hreceived, hbefore, if_pos rfl, h.received, List.length_append, List.length_singleton]
    . intro i hi
      rw [List.map_append, List.mem_append]
      rw [hnext] at hi
      rcases Queue.nextContiguous_queuePacket hqueue with heq | ⟨hsequence, heq⟩
      . rw [heq] at hi
        exact Or.inl (h.contiguous i hi)
      . rw [heq, ← add_gap b.lowest packet.sequenceNumber, Queue.add_ofNat_succ,
          gap_add_ofNat _ (by omega)] at hi
        cases Nat.lt_or_eq_of_le (Nat.le_of_lt_succ hi) with
        | inl hlt =>
          rw [hsequence] at hlt
          exact Or.inl (h.contiguous i hlt)
        | inr hlast =>
          rw [hlast, add_gap]
          exact Or.inr (by simp)
    . rw [hsame.completed, h.completed]
    . rw [hsame.frames, h.frames]
    . rw [hsame.multiFecCapable, h.capable]

/- Before all have arrived the block waits, even if a loss is predicted. -/
theorem collecting_reconstructFrame_of_lt (h : Collecting b start queue seen)
    (hlt : seen.length < b.data) (config : Config) (env : Env)
    : ∃ waiting, queue.reconstructFrame config env = ⟨waiting, false⟩
        ∧ Collecting b start waiting seen := by
  unfold Queue.reconstructFrame
  simp only
  rw [if_pos (by rw [h.length, h.data]; exact hlt)]
  split
  . exact ⟨_, rfl, h.of_quiet (Queue.quiet_reportedLostFrame queue _) rfl⟩
  . exact ⟨_, rfl, h⟩

theorem collecting_reconstructFrame_of_eq (h : Collecting b start queue seen)
    (heq : seen.length = b.data) (config : Config) (env : Env)
    : ∃ complete, queue.reconstructFrame config env = ⟨complete, true⟩
        ∧ Collecting b start complete seen := by
  unfold Queue.reconstructFrame
  simp only
  rw [if_neg (by rw [h.length, h.data]; omega)]
  split
  . exact ⟨_, rfl, h⟩
  . next head pending hpending =>
    split
    . rw [if_pos (by simp only; rw [h.received, h.data]; exact heq)]
      exact ⟨_, rfl, h.of_quiet (Queue.quiet_receivedOosData queue head.presentationTimeUs) rfl⟩
    . rw [if_pos (by rw [h.received, h.data]; exact heq)]
      exact ⟨_, rfl, h⟩

end

/- The packets of a block in the order of their numbers. -/
structure Sorted (b : Block) (seen : List Packet) (staged : List Entry) : Prop where
  perm : (staged.map Entry.packet).Perm seen
  numbers : staged.map (fun e => e.packet.sequenceNumber)
    = (List.range b.data).map fun i => b.lowest + BitVec.ofNat 16 i

/- The block is behind those before it, or completes the frame. -/
structure Finished (b : Block) (start queue : Queue) (staged : List Entry) : Prop where
  pending : queue.pendingFecBlockList = []
  next : gap b.lowest queue.nextContiguousSequenceNumber ≤ b.data
  capable : queue.multiFecCapable = true
  block : b.number < b.last → queue.currentFrameNumber = b.frameIndex
    ∧ queue.multiFecCurrentBlockNumber = b.number + 1
    ∧ queue.completedFecBlockList = start.completedFecBlockList ++ staged
    ∧ queue.outputs.filter Output.isFrame = start.outputs.filter Output.isFrame
  frame : b.last ≤ b.number → queue.currentFrameNumber = b.frameIndex + 1
    ∧ queue.multiFecCurrentBlockNumber = 0
    ∧ queue.completedFecBlockList = []
    ∧ queue.outputs.filter Output.isFrame = start.outputs.filter Output.isFrame
      ++ [.frame (start.completedFecBlockList ++ staged)]

section

variable {b : Block} {start queue next : Queue} {seen : List Packet} {packet : Packet}

theorem sorted_of_staged (h : Collecting b start queue seen) (heq : seen.length = b.data)
    {staged : List Entry}
    (hstaged : Queue.Staged queue.bufferLowestSequenceNumber 0 queue.bufferDataPackets
      queue.pendingFecBlockList staged)
    : Sorted b seen staged := by
  have hnumbers : staged.map (fun e => e.packet.sequenceNumber)
      = (List.range b.data).map fun i => b.lowest + BitVec.ofNat 16 i := by
    rw [hstaged.numbers, Nat.sub_zero, List.range_eq_range', h.lowest, h.data]
  refine ⟨?_, hnumbers⟩
  have hlength : staged.length = b.data := by
    have hlength := congrArg List.length hnumbers
    rw [List.length_map, List.length_map, List.length_range] at hlength
    exact hlength
  have hnodup : (staged.map Entry.packet).Nodup := by
    apply List.Nodup.of_map Packet.sequenceNumber
    rw [List.map_map]
    change (staged.map fun e => e.packet.sequenceNumber).Nodup
    rw [hnumbers]
    apply List.Nodup.map_on _ List.nodup_range
    intro i hi j hj hij
    rw [List.mem_range] at hi hj
    have hdata := h.data_le
    have hgap := congrArg (gap b.lowest) hij
    rw [gap_add_ofNat _ (by omega), gap_add_ofNat _ (by omega)] at hgap
    exact hgap
  have hsub : staged.map Entry.packet ⊆ seen := by
    intro p hp
    obtain ⟨e, he, hpacket⟩ := List.mem_map.mp hp
    obtain ⟨source, hsource, _, hsame, _⟩ := hstaged.sources e he
    rw [← hpacket, hsame, ← h.packets]
    exact List.mem_map_of_mem hsource
  apply (List.subperm_of_subset hnodup hsub).perm_of_length_le
  rw [List.length_map]
  omega

theorem collecting_finishBlock (h : Collecting b start queue seen) (heq : seen.length = b.data)
    : ∃ staged, Sorted b seen staged ∧ Finished b start queue.finishBlock staged := by
  have hdata := h.data_le
  have hreceived : queue.receivedDataPackets = queue.bufferDataPackets := by
    rw [h.received, h.data, heq]
  have hall := fun (i : Nat) (hi : i < queue.bufferDataPackets) =>
    h.window.place_of_received hreceived hi
  obtain ⟨staged, hstage, hstaged⟩ := Queue.stageCompleteFecBlock_eq h.window hall
  have hnext : gap b.lowest queue.nextContiguousSequenceNumber ≤ b.data := by
    apply Nat.le_of_not_lt
    intro hlt
    -- the number behind the data did not arrive
    obtain ⟨p, hp, hnumber⟩ := List.mem_map.mp (h.contiguous b.data hlt)
    have hplace := h.places p hp
    rw [hnumber, gap_add_ofNat _ (by omega)] at hplace
    omega
  refine ⟨staged, sorted_of_staged h heq hstaged, ?_⟩
  unfold Queue.finishBlock
  rw [hstage]
  simp only
  rw [h.number, h.last]
  split
  . next hlt =>
    refine ⟨rfl, hnext, h.capable, ?_, fun hle => by omega⟩
    intro _
    refine ⟨h.frameIndex, rfl, ?_, h.frames⟩
    simp only
    rw [h.completed]
  . next hle =>
    refine ⟨rfl, hnext, h.capable, fun hlt => by omega, ?_⟩
    intro _
    refine ⟨?_, rfl, rfl, ?_⟩
    . change queue.currentFrameNumber + 1 = b.frameIndex + 1
      rw [h.frameIndex]
    . unfold Queue.submitCompletedFrame Queue.tell
      simp only
      rw [List.filter_append, h.frames, h.completed]
      rfl

/- The packet either is one more, or the last one. -/
theorem collecting_acceptPacket (h : Collecting b start queue seen) (hp : b.Has packet)
    (hnew : packet.sequenceNumber ∉ seen.map Packet.sequenceNumber) (config : Config) (env : Env)
    : (seen.length + 1 < b.data
          → Collecting b start (queue.acceptPacket config env packet).fst (seen ++ [packet]))
        ∧ (seen.length + 1 = b.data
          → ∃ staged, Sorted b (seen ++ [packet]) staged
            ∧ Finished b start (queue.acceptPacket config env packet).fst staged) := by
  obtain ⟨queued, hqueue, hcounted⟩ := collecting_queuePacket h hp hnew
  have hlength : (seen ++ [packet]).length = seen.length + 1 := by
    rw [List.length_append, List.length_singleton]
  unfold Queue.acceptPacket
  rw [if_neg (by rw [h.not_behind hp]; simp), hqueue]
  simp only
  constructor
  . intro hlt
    obtain ⟨waiting, hresult, hwaiting⟩ :=
      collecting_reconstructFrame_of_lt hcounted (by omega) config env
    rw [hresult]
    exact hwaiting
  . intro heq
    obtain ⟨complete, hresult, hcomplete⟩ :=
      collecting_reconstructFrame_of_eq hcounted (by omega) config env
    rw [hresult]
    exact collecting_finishBlock hcomplete (by omega)

theorem isBefore16_self (x : UInt32) : Queue.isBefore16 x x = false := by
  unfold Queue.isBefore16
  rw [isBefore_eq_false_iff, gap_self]
  exact Nat.zero_le _

theorem rtpvAddPacket_of_collecting (h : Collecting b start queue seen) (hseen : seen ≠ [])
    (hp : b.Has packet) (hnew : packet.sequenceNumber ∉ seen.map Packet.sequenceNumber)
    (config : Config) (env : Env)
    : queue.rtpvAddPacket config env packet = queue.acceptPacket config env packet := by
  have hframe : queue.currentFrameNumber = packet.frameIndex := by
    rw [h.frameIndex, hp.frameIndex]
  have hnumber : queue.multiFecCurrentBlockNumber = packet.fecCurrentBlockNumber := by
    rw [h.number, hp.number]
  have hpending : queue.pendingFecBlockList ≠ [] := by
    intro hnil
    apply hseen
    rw [← h.packets, hnil]
    rfl
  unfold Queue.rtpvAddPacket
  rw [if_neg (by rw [h.not_before hp hnew]; simp)]
  simp only [h.capable, if_true]
  rw [if_neg (by rw [hframe, isBefore16_self]; simp), if_neg (by omega), if_neg (by
    rintro (hnil | hother | hother)
    . exact hpending hnil
    . exact hother hframe
    . exact hother hnumber)]

/- Nothing is pending, and the block is the expected one or the first one of a later frame. -/
structure Ready (b : Block) (queue : Queue) : Prop where
  pending : queue.pendingFecBlockList = []
  number : queue.multiFecCurrentBlockNumber = b.number
  frame : queue.currentFrameNumber = b.frameIndex
    ∨ b.number = 0 ∧ Queue.isBefore16 b.frameIndex queue.currentFrameNumber = false
  next : gap queue.nextContiguousSequenceNumber b.lowest + b.data ≤ 2 ^ 15
  capable : queue.multiFecCapable = true

theorem Ready.not_before (h : Ready b queue) (hp : b.Has packet)
    : isBefore packet.sequenceNumber queue.nextContiguousSequenceNumber = false := by
  rw [isBefore_eq_false_iff]
  have hnext := h.next
  have hplace := hp.place
  have hlt := gap_lt queue.nextContiguousSequenceNumber packet.sequenceNumber
  have hcases := gap_trans_cases queue.nextContiguousSequenceNumber b.lowest packet.sequenceNumber
  omega

theorem Ready.expected (h : Ready b queue) (hp : b.Has packet)
    : packet.fecCurrentBlockNumber = queue.expectedFecBlockNumber packet := by
  unfold Queue.expectedFecBlockNumber
  rw [hp.number, hp.frameIndex]
  split
  . exact h.number.symm
  . next hother =>
    rcases h.frame with heq | hlater
    . exact absurd heq hother
    . exact hlater.left

theorem Ready.completed_openFrame {config : Config} {arrived : List Packet} (h : Ready b queue)
    (hinv : queue.Inv config arrived) (hp : b.Has packet)
    : (queue.openFrame packet).completedFecBlockList = queue.completedFecBlockList := by
  unfold Queue.openFrame
  simp only
  split
  . rfl
  . next hother =>
    have hempty : queue.completedFecBlockList = [] := by
      rcases h.frame with heq | hlater
      . rw [← hp.frameIndex] at heq
        exact absurd heq hother
      . have hblocks := hinv.completed
        rw [h.number, hlater.left] at hblocks
        obtain ⟨blocks, hpackets, hcount, _⟩ := hblocks
        rw [List.eq_nil_of_length_eq_zero hcount] at hpackets
        exact hpackets
    rw [hempty]
    split
    . rfl
    . rfl

theorem collecting_openBlock {config : Config} {arrived : List Packet} (h : Ready b queue)
    (hinv : queue.Inv config arrived) (hp : b.Has packet) (env : Env)
    : Collecting b queue ((queue.openFrame packet).openBlock env packet) [] := by
  obtain ⟨hpending, hframe, _, hframes⟩ := Queue.firstBlocks_openFrame hinv (h.expected hp)
  have hcompleted := h.completed_openFrame hinv hp
  have hcapable := Queue.multiFecCapable_openFrame queue packet
  have hlowest : packet.sequenceNumber - BitVec.ofNat 16 packet.fecIndex = b.lowest := by
    have hadd := add_gap b.lowest packet.sequenceNumber
    rw [← hp.fecIndex] at hadd
    rw [← hadd, BitVec.add_sub_cancel]
  constructor
  . exact Queue.window_openBlock env packet hpending
  . exact hframe.trans hp.frameIndex
  . exact hp.number
  . exact hp.last
  . exact hlowest
  . exact hp.data
  . change (queue.openFrame packet).pendingFecBlockList.map Entry.packet = []
    rw [hpending]
    rfl
  . intro p hmem
    contradiction
  . rfl
  . intro i hi
    change i < gap b.lowest (packet.sequenceNumber - BitVec.ofNat 16 packet.fecIndex) at hi
    rw [hlowest, gap_self] at hi
    contradiction
  . exact hcompleted
  . exact hframes
  . exact hcapable.trans h.capable

theorem rtpvAddPacket_of_ready (h : Ready b queue) (hp : b.Has packet) (config : Config)
    (env : Env)
    : queue.rtpvAddPacket config env packet
        = ((queue.openFrame packet).openBlock env packet).acceptPacket config env packet := by
  have hframe : Queue.isBefore16 packet.frameIndex queue.currentFrameNumber = false := by
    rw [hp.frameIndex]
    rcases h.frame with heq | hlater
    . rw [heq, isBefore16_self]
    . exact hlater.right
  have hbegin : queue.beginBlock env packet
      = .ok ((queue.openFrame packet).openBlock env packet) := by
    have hreport : queue.reportPending = queue := by
      unfold Queue.reportPending
      rw [if_pos h.pending]
    unfold Queue.beginBlock
    rw [if_neg (fun hand => hand.left h.pending), if_neg (fun hne => hne (h.expected hp)), hreport]
  unfold Queue.rtpvAddPacket
  rw [if_neg (by rw [h.not_before hp]; simp)]
  simp only [h.capable, if_true]
  rw [if_neg (by rw [hframe]; simp), if_neg (by rw [h.number, hp.number]; omega),
    if_pos (Or.inl h.pending), hbegin]

theorem not_mem_of_nodup {first : Env × Packet} {rest : List (Env × Packet)}
    (h : ((seen ++ (first :: rest).map Prod.snd).map Packet.sequenceNumber).Nodup)
    : first.snd.sequenceNumber ∉ seen.map Packet.sequenceNumber := by
  intro hmem
  rw [List.map_append] at h
  exact List.disjoint_of_nodup_append h hmem (by simp)

theorem runFrom_queueMachine (config : Config) (queue : Queue) (first : Env × Packet)
    (rest : List (Env × Packet))
    : (queueMachine config).runFrom queue (first :: rest)
        = (queueMachine config).runFrom (queue.rtpvAddPacket config first.fst first.snd).fst
          rest := by
  rfl

/- Over the packets that are still to come, the first of which is taken as one of the block. -/
theorem finished_of_run {config : Config} {opened : Queue} {first : Env × Packet}
    {rest : List (Env × Packet)} (h : Collecting b start opened seen)
    (hfirst : queue.rtpvAddPacket config first.fst first.snd
      = opened.acceptPacket config first.fst first.snd)
    (hhas : ∀ arrival, arrival ∈ first :: rest → b.Has arrival.snd)
    (hnodup : ((seen ++ (first :: rest).map Prod.snd).map Packet.sequenceNumber).Nodup)
    (hlength : (seen ++ (first :: rest).map Prod.snd).length = b.data)
    (hrun : (queueMachine config).runFrom queue (first :: rest) = some next)
    : ∃ staged, Sorted b (seen ++ (first :: rest).map Prod.snd) staged
        ∧ Finished b start next staged := by
  induction rest generalizing queue opened first seen with
  | nil =>
    obtain ⟨_, hlast⟩ := collecting_acceptPacket h (hhas first (by simp)) (not_mem_of_nodup hnodup)
      config first.fst
    rw [runFrom_queueMachine, hfirst, Transition.Machine.runFrom_nil, Option.some.injEq] at hrun
    rw [← hrun]
    exact hlast (by simpa using hlength)
  | cons second rest ih =>
    obtain ⟨hmore, _⟩ := collecting_acceptPacket h (hhas first (by simp)) (not_mem_of_nodup hnodup)
      config first.fst
    rw [runFrom_queueMachine, hfirst] at hrun
    have happend : seen ++ (first :: second :: rest).map Prod.snd
        = (seen ++ [first.snd]) ++ (second :: rest).map Prod.snd := by
      simp
    rw [happend] at hnodup hlength ⊢
    have hcollecting := hmore (by
      rw [List.length_append, List.length_append, List.length_singleton, List.map_cons,
        List.length_cons] at hlength
      omega)
    have hhas' : ∀ arrival, arrival ∈ second :: rest → b.Has arrival.snd := by
      intro arrival hmem
      exact hhas arrival (List.mem_cons_of_mem _ hmem)
    apply ih hcollecting _ hhas' hnodup hlength hrun
    exact rtpvAddPacket_of_collecting hcollecting (by simp) (hhas' second (by simp))
      (not_mem_of_nodup hnodup) config second.fst

/-
In any reachable state that is ready for the block, its data packets complete it in whichever order
they come: they are put behind the blocks before it, and if it is the last one, the frame is handed
on.
-/
theorem block_delivered {config : Config} {before arrivals : List (Env × Packet)}
    (hbefore : (queueMachine config).run before = some queue) (hready : Ready b queue)
    (hdata : 0 < b.data) (hhas : ∀ arrival, arrival ∈ arrivals → b.Has arrival.snd)
    (hnodup : (arrivals.map fun arrival => arrival.snd.sequenceNumber).Nodup)
    (hlength : arrivals.length = b.data)
    (hrun : (queueMachine config).runFrom queue arrivals = some next)
    : ∃ staged, Sorted b (arrivals.map Prod.snd) staged ∧ Finished b queue next staged := by
  cases arrivals with
  | nil =>
    rw [List.length_nil] at hlength
    omega
  | cons first rest =>
    have hp := hhas first (by simp)
    have hopened := collecting_openBlock hready (inv_of_run hbefore) hp first.fst
    apply finished_of_run hopened (rtpvAddPacket_of_ready hready hp config first.fst) hhas _ _ hrun
    . rw [List.nil_append, List.map_map]
      exact hnodup
    . rw [List.nil_append, List.length_map]
      exact hlength

/- The next block of the frame, or the first one of a later frame, in the numbers behind it. -/
structure Block.Follows (b later : Block) : Prop where
  behind : b.data ≤ gap b.lowest later.lowest
  near : gap b.lowest later.lowest + later.data ≤ 2 ^ 15
  block : b.number < b.last → later.frameIndex = b.frameIndex ∧ later.number = b.number + 1
  frame : b.last ≤ b.number
    → later.number = 0 ∧ Queue.isBefore16 later.frameIndex (b.frameIndex + 1) = false

theorem Finished.ready {later : Block} {staged : List Entry} (h : Finished b start queue staged)
    (hfollows : b.Follows later)
    : Ready later queue := by
  have hnumbers : gap queue.nextContiguousSequenceNumber later.lowest + later.data ≤ 2 ^ 15 := by
    have hnext := h.next
    have hbehind := hfollows.behind
    have hnear := hfollows.near
    have hlt := gap_lt queue.nextContiguousSequenceNumber later.lowest
    have hcases := gap_trans_cases b.lowest queue.nextContiguousSequenceNumber later.lowest
    omega
  cases Nat.lt_or_ge b.number b.last with
  | inl hlt =>
    obtain ⟨hframe, hnumber, _⟩ := h.block hlt
    obtain ⟨hsame, hsucc⟩ := hfollows.block hlt
    refine ⟨h.pending, ?_, Or.inl ?_, hnumbers, h.capable⟩
    . rw [hnumber, hsucc]
    . rw [hframe, hsame]
  | inr hge =>
    obtain ⟨hframe, hnumber, _⟩ := h.frame hge
    obtain ⟨hzero, hlater⟩ := hfollows.frame hge
    refine ⟨h.pending, ?_, Or.inr ⟨hzero, ?_⟩, hnumbers, h.capable⟩
    . rw [hnumber, hzero]
    . rw [hframe]
      exact hlater

/- A block, and its data packets as they arrive. -/
structure Sent where
  block : Block
  arrivals : List (Env × Packet)

structure Sent.Complete (sent : Sent) : Prop where
  pos : 0 < sent.block.data
  has : ∀ arrival, arrival ∈ sent.arrivals → sent.block.Has arrival.snd
  nodup : (sent.arrivals.map fun arrival => arrival.snd.sequenceNumber).Nodup
  length : sent.arrivals.length = sent.block.data

/- The frames that the blocks make up, behind the blocks that are there already. -/
def framesOf (completed : List Entry) (blocks : List (Block × List Entry)) : List Output :=
  match blocks with
  | [] => []
  | ⟨b, staged⟩ :: blocks =>
    if b.number < b.last then
      framesOf (completed ++ staged) blocks
    else
      .frame (completed ++ staged) :: framesOf [] blocks

theorem framesOf_cons (completed : List Entry) (b : Block) (staged : List Entry)
    (blocks : List (Block × List Entry))
    : framesOf completed (⟨b, staged⟩ :: blocks)
        = if b.number < b.last then
            framesOf (completed ++ staged) blocks
          else
            .frame (completed ++ staged) :: framesOf [] blocks := by
  rfl

theorem Finished.framesOf_completed {staged : List Entry} (h : Finished b start queue staged)
    (blocks : List (Block × List Entry))
    : start.outputs.filter Output.isFrame
          ++ framesOf start.completedFecBlockList (⟨b, staged⟩ :: blocks)
        = queue.outputs.filter Output.isFrame
          ++ framesOf queue.completedFecBlockList blocks := by
  rw [framesOf_cons]
  split
  . next hlt =>
    obtain ⟨_, _, hcompleted, houtputs⟩ := h.block hlt
    rw [hcompleted, houtputs]
  . next hge =>
    obtain ⟨_, _, hcompleted, houtputs⟩ := h.frame (by omega)
    rw [hcompleted, houtputs, List.append_assoc]
    rfl

/-
A stream whose data packets all arrive, those of each block in any order, is handed on frame by
frame: nothing is kept back, repeated or left out.
-/
theorem stream_delivered {config : Config} {before : List (Env × Packet)} {stream : List Sent}
    (hbefore : (queueMachine config).run before = some queue)
    (hready : ∀ first, stream.head? = some first → Ready first.block queue)
    (hfollows : (stream.map Sent.block).IsChain Block.Follows)
    (hcomplete : ∀ sent, sent ∈ stream → sent.Complete)
    (hrun : (queueMachine config).runFrom queue (stream.flatMap Sent.arrivals) = some next)
    : ∃ staged : List (List Entry), List.Forall₂
          (fun sent entries => Sorted sent.block (sent.arrivals.map Prod.snd) entries) stream staged
        ∧ next.outputs.filter Output.isFrame = queue.outputs.filter Output.isFrame
          ++ framesOf queue.completedFecBlockList ((stream.map Sent.block).zip staged) := by
  induction stream generalizing queue before with
  | nil =>
    rw [List.flatMap_nil, Transition.Machine.runFrom_nil, Option.some.injEq] at hrun
    refine ⟨[], List.Forall₂.nil, ?_⟩
    rw [hrun]
    exact (List.append_nil _).symm
  | cons sent stream ih =>
    rw [List.flatMap_cons, Transition.Machine.runFrom_append, Option.bind_eq_some_iff] at hrun
    obtain ⟨between, harrived, hrest⟩ := hrun
    have hsent := hcomplete sent (by simp)
    obtain ⟨entries, hsorted, hfinished⟩ := block_delivered hbefore (hready sent rfl) hsent.pos
      hsent.has hsent.nodup hsent.length harrived
    have hbetween : (queueMachine config).run (before ++ sent.arrivals) = some between := by
      unfold Transition.Machine.run at hbefore ⊢
      rw [Transition.Machine.runFrom_append, hbefore]
      exact harrived
    have hnext : ∀ first, stream.head? = some first → Ready first.block between := by
      intro first hfirst
      cases stream with
      | nil => contradiction
      | cons second stream =>
        rw [List.head?_cons, Option.some.injEq] at hfirst
        rw [← hfirst]
        exact hfinished.ready (List.isChain_cons_cons.mp hfollows).left
    obtain ⟨staged, hall, houtputs⟩ := ih hbetween hnext hfollows.tail
      (fun other hmem => hcomplete other (List.mem_cons_of_mem _ hmem)) hrest
    refine ⟨entries :: staged, List.Forall₂.cons hsorted hall, ?_⟩
    rw [houtputs, List.map_cons, List.zip_cons_cons]
    exact (hfinished.framesOf_completed _).symm

def someStream : List Sent :=
  [⟨⟨1, 0, 1, 7, 2⟩, [someArrival 8 0x40 0x00801000, someArrival 7 0x40 0x00800000]⟩,
    ⟨⟨1, 1, 1, 9, 1⟩, [someArrival 9 0x50 0x00400000]⟩]

theorem someStream_complete : ∀ sent, sent ∈ someStream → sent.Complete := by
  intro sent hmem
  rcases List.mem_pair.mp hmem with heq | heq
  . rw [heq]
    refine ⟨by decide, ?_, by decide, rfl⟩
    intro arrival harrival
    rcases List.mem_pair.mp harrival with hfirst | hsecond
    . rw [hfirst]
      constructor <;> decide
    . rw [hsecond]
      constructor <;> decide
  . rw [heq]
    refine ⟨by decide, ?_, by decide, rfl⟩
    intro arrival harrival
    rw [List.mem_singleton.mp harrival]
    constructor <;> decide

theorem stream_delivered_someStream
    : ∃ queue next staged, (queueMachine someConfig).run [] = some queue
        ∧ (queueMachine someConfig).runFrom queue (someStream.flatMap Sent.arrivals) = some next
        ∧ List.Forall₂
          (fun sent entries => Sorted sent.block (sent.arrivals.map Prod.snd) entries)
          someStream staged
        ∧ next.outputs.filter Output.isFrame = queue.outputs.filter Output.isFrame
          ++ framesOf queue.completedFecBlockList ((someStream.map Sent.block).zip staged) := by
  have hbefore : (queueMachine someConfig).run []
      = some (rtpvInitializeQueue someConfig.appVersionQuad) := by
    rfl
  have hsome : ((queueMachine someConfig).runFrom (rtpvInitializeQueue someConfig.appVersionQuad)
      (someStream.flatMap Sent.arrivals)).isSome = true := by
    rfl
  obtain ⟨next, hrun⟩ := Option.isSome_iff_exists.mp hsome
  have hready : ∀ first, someStream.head? = some first
      → Ready first.block (rtpvInitializeQueue someConfig.appVersionQuad) := by
    intro first hfirst
    injection hfirst with hfirst
    rw [← hfirst]
    exact ⟨rfl, rfl, Or.inl rfl, by decide, rfl⟩
  have hfollows : (someStream.map Sent.block).IsChain Block.Follows := by
    refine List.isChain_cons_cons.mpr ⟨?_, List.isChain_singleton _⟩
    refine ⟨by decide, by decide, fun _ => ⟨rfl, rfl⟩, fun hle => ?_⟩
    contradiction
  obtain ⟨staged, hsorted, houtputs⟩ :=
    stream_delivered hbefore hready hfollows someStream_complete hrun
  exact ⟨_, next, staged, hbefore, hrun, hsorted, houtputs⟩

end

end Rtp

end Video

import PS3Moonlight.Audio.RtpQueue
import PS3Moonlight.Lib.Bytes
import PS3Moonlight.Lib.Serial
import PS3Moonlight.Lib.Transition

/-!
This module contains the queue of the video stream, which collects the packets of a frame, one FEC
block after the other, recovers lost ones from the parity, and hands whole frames on in order.
-/

namespace Video

namespace Rtp

open Connection Fec Serial
open Audio.Rtp (shardOf bytesOf)

def FLAG_EXTENSION : UInt8 := 0x10

def FLAG_CONTAINS_PIC_DATA : UInt8 := 0x1

def FLAG_EOF : UInt8 := 0x2

def FLAG_SOF : UInt8 := 0x4

def MAX_RTP_HEADER_SIZE : Nat := 16

def SPECULATIVE_RFI_COOLDOWN_PERIOD_US : Nat := 300000000

def PTS_DIVISOR : Nat := 90

/- The sizes of the headers `RTP_PACKET` and `NV_VIDEO_PACKET`. -/
def sizeofRtpPacket : Nat := 12

def sizeofNvVideoPacket : Nat := 16

/-
`RTP_PACKET` with its extension, if it has one, and `NV_VIDEO_PACKET`, in the byte order of the
host, and the bytes behind them.
-/
structure Packet where
  header : UInt8
  packetType : UInt8
  sequenceNumber : BitVec 16
  timestamp : UInt32
  ssrc : UInt32
  extension : UInt32
  streamPacketIndex : UInt32
  frameIndex : UInt32
  flags : UInt8
  reserved : UInt8
  multiFecFlags : UInt8
  multiFecBlocks : UInt8
  fecInfo : UInt32
  payload : List UInt8
deriving DecidableEq, Repr

def Packet.dataOffset (p : Packet) : Nat :=
  if p.header &&& FLAG_EXTENSION ≠ 0 then sizeofRtpPacket + 4 else sizeofRtpPacket

def Packet.fecIndex (p : Packet) : Nat :=
  ((p.fecInfo &&& 0x3FF000) >>> 12).toNat

def Packet.fecDataPackets (p : Packet) : Nat :=
  ((p.fecInfo &&& 0xFFC00000) >>> 22).toNat

def Packet.fecPercentage (p : Packet) : Nat :=
  ((p.fecInfo &&& 0xFF0) >>> 4).toNat

def Packet.fecCurrentBlockNumber (p : Packet) : Nat :=
  ((p.multiFecBlocks >>> 4) &&& 0x3).toNat

def Packet.fecLastBlockNumber (p : Packet) : Nat :=
  ((p.multiFecBlocks >>> 6) &&& 0x3).toNat

/- The memory of a packet, which the parity is computed over. -/
def Packet.bytes (p : Packet) : List UInt8 :=
  [p.header, p.packetType, UInt8.ofNat (p.sequenceNumber.toNat / 256),
      UInt8.ofNat p.sequenceNumber.toNat]
    ++ Bytes.be32 p.timestamp.toNat ++ Bytes.be32 p.ssrc.toNat
    ++ (if p.header &&& FLAG_EXTENSION ≠ 0 then Bytes.be32 p.extension.toNat else [])
    ++ Bytes.be32 p.streamPacketIndex.toNat ++ Bytes.be32 p.frameIndex.toNat
    ++ [p.flags, p.reserved, p.multiFecFlags, p.multiFecBlocks]
    ++ Bytes.be32 p.fecInfo.toNat ++ p.payload

structure Entry where
  packet : Packet
  isParity : Bool
  presentationTimeUs : Nat
  receiveTimeUs : UInt64
deriving DecidableEq, Repr

structure FrameFecStatus where
  frameIndex : UInt32
  highestReceivedSequenceNumber : BitVec 16
  nextContiguousSequenceNumber : BitVec 16
  missingPacketsBeforeHighestReceived : UInt16
  totalDataPackets : UInt16
  totalParityPackets : UInt16
  receivedDataPackets : UInt16
  receivedParityPackets : UInt16
  fecPercentage : UInt8
  multiFecBlockIndex : UInt8
  multiFecBlockCount : UInt8
deriving DecidableEq, Repr

/- What the queue tells the control stream and the depacketizer. -/
inductive Output where
  | sawFrame (frameIndex : UInt32)
  | fecStatus (status : FrameFecStatus)
  | frameLost (frameNumber : UInt32) (speculative : Bool)
  | frame (packets : List Entry)
deriving DecidableEq, Repr

def Output.isFrame (output : Output) : Bool :=
  match output with
  | .frame _ => true
  | _ => false

/- The last field is a log. -/
structure Queue where
  pendingFecBlockList : List Entry
  completedFecBlockList : List Entry
  bufferFirstRecvTimeUs : UInt64
  bufferLowestSequenceNumber : BitVec 16
  bufferHighestSequenceNumber : BitVec 16
  bufferFirstParitySequenceNumber : BitVec 16
  bufferDataPackets : Nat
  bufferParityPackets : Nat
  receivedDataPackets : Nat
  receivedParityPackets : Nat
  receivedHighestSequenceNumber : BitVec 16
  fecPercentage : Nat
  nextContiguousSequenceNumber : BitVec 16
  missingPackets : UInt32
  useFastQueuePath : Bool
  reportedLostFrame : Bool
  currentFrameNumber : UInt32
  multiFecCapable : Bool
  multiFecCurrentBlockNumber : Nat
  multiFecLastBlockNumber : Nat
  lastOosFramePresentationTimestamp : Nat
  receivedOosData : Bool
  outputs : List Output

def rtpvInitializeQueue (appVersionQuad : AppVersionQuad) : Queue where
  pendingFecBlockList := []
  completedFecBlockList := []
  bufferFirstRecvTimeUs := 0
  bufferLowestSequenceNumber := 0
  bufferHighestSequenceNumber := 0
  bufferFirstParitySequenceNumber := 0
  bufferDataPackets := 0
  bufferParityPackets := 0
  receivedDataPackets := 0
  receivedParityPackets := 0
  receivedHighestSequenceNumber := 0
  fecPercentage := 0
  nextContiguousSequenceNumber := 0
  missingPackets := 0
  useFastQueuePath := false
  reportedLostFrame := false
  currentFrameNumber := 1
  multiFecCapable := appVersionQuad.atLeast 7 1 431
  multiFecCurrentBlockNumber := 0
  multiFecLastBlockNumber := 0
  lastOosFramePresentationTimestamp := 0
  receivedOosData := false
  outputs := []

/- What a call gets from outside: the clock, and the memory for lost packets if there is some. -/
structure Env where
  nowUs : UInt64
  memory : Option (Nat → List UInt8)

/- The parameters of the stream. -/
structure Config where
  appVersionQuad : AppVersionQuad
  packetSize : Nat

def Config.receiveSize (config : Config) : Nat :=
  config.packetSize + MAX_RTP_HEADER_SIZE

namespace Queue

def tell (queue : Queue) (output : Output) : Queue :=
  { queue with outputs := queue.outputs ++ [output] }

def reportFinalFrameFecStatus (queue : Queue) : Queue :=
  queue.tell (.fecStatus
    { frameIndex := queue.currentFrameNumber
      highestReceivedSequenceNumber := queue.receivedHighestSequenceNumber
      nextContiguousSequenceNumber := queue.nextContiguousSequenceNumber
      missingPacketsBeforeHighestReceived := queue.missingPackets.toUInt16
      totalDataPackets := UInt16.ofNat queue.bufferDataPackets
      totalParityPackets := UInt16.ofNat queue.bufferParityPackets
      receivedDataPackets := UInt16.ofNat queue.receivedDataPackets
      receivedParityPackets := UInt16.ofNat queue.receivedParityPackets
      fecPercentage := UInt8.ofNat queue.fecPercentage
      multiFecBlockIndex := UInt8.ofNat queue.multiFecCurrentBlockNumber
      multiFecBlockCount := UInt8.ofNat (queue.multiFecLastBlockNumber + 1) })

def presentationTimeUs (packet : Packet) : Nat :=
  packet.timestamp.toNat * 1000 / PTS_DIVISOR

/- Whether the packet is in sequence, nothing is said about a duplicate. -/
def placePacket (queue : Queue) (packet : Packet) : Option (Queue × Bool) :=
  if queue.useFastQueuePath && packet.sequenceNumber == queue.nextContiguousSequenceNumber then
    some ⟨{ queue with nextContiguousSequenceNumber := packet.sequenceNumber + 1 }, false⟩
  else if queue.pendingFecBlockList.any fun entry =>
      packet.sequenceNumber == entry.packet.sequenceNumber then
    none
  else
    some ⟨{ queue with useFastQueuePath := false },
      queue.pendingFecBlockList.any fun entry =>
        isBefore packet.sequenceNumber entry.packet.sequenceNumber⟩

def noteSequence (queue : Queue) (presentationTimeUs : Nat) (outOfSequence : Bool) : Queue :=
  if outOfSequence then
    { queue with
      lastOosFramePresentationTimestamp := presentationTimeUs
      receivedOosData := true }
  else if queue.receivedOosData ∧ presentationTimeUs
      > queue.lastOosFramePresentationTimestamp + SPECULATIVE_RFI_COOLDOWN_PERIOD_US then
    { queue with receivedOosData := false }
  else
    queue

def queuePacket (queue : Queue) (packet : Packet) (isParity isFecRecovery : Bool) : Option Queue :=
  match queue.placePacket packet with
  | none => none
  | some ⟨queue, outOfSequence⟩ =>
    let presentationTimeUs := presentationTimeUs packet
    let queue :=
      if isFecRecovery then queue else queue.noteSequence presentationTimeUs outOfSequence
    let entry : Entry :=
      { packet := packet
        isParity := isParity
        presentationTimeUs := presentationTimeUs
        receiveTimeUs := 0 }
    some { queue with pendingFecBlockList := queue.pendingFecBlockList ++ [entry] }

def totalPackets (queue : Queue) : Nat :=
  queue.bufferDataPackets + queue.bufferParityPackets

/- `packets[index]` -/
def shardAt (queue : Queue) (index : Nat) : Option Packet :=
  (queue.pendingFecBlockList.find? fun entry =>
    gap queue.bufferLowestSequenceNumber entry.packet.sequenceNumber == index).map Entry.packet

/- The packet in the memory of a recovered shard, after the fields that are set again. -/
def recoverPacket (queue : Queue) (config : Config) (head : Packet) (i : Nat) (bytes : List UInt8)
    : Packet :=
  let offset := head.dataOffset
  { header := head.header
    packetType := bytes.getD 1 0
    sequenceNumber := queue.bufferLowestSequenceNumber + BitVec.ofNat 16 i
    timestamp := head.timestamp
    ssrc := head.ssrc
    extension := UInt32.ofNat (Bytes.readBe32 bytes 12)
    streamPacketIndex := UInt32.ofNat (Bytes.readBe32 bytes offset)
    frameIndex := queue.currentFrameNumber
    flags := bytes.getD (offset + 8) 0
    reserved := bytes.getD (offset + 9) 0
    multiFecFlags := bytes.getD (offset + 10) 0
    multiFecBlocks :=
      UInt8.ofNat ((queue.multiFecLastBlockNumber <<< 2 ||| queue.multiFecCurrentBlockNumber) <<< 4)
    fecInfo := UInt32.ofNat (Bytes.readBe32 bytes (offset + 12))
    payload :=
      Bytes.read bytes (offset + sizeofNvVideoPacket) (config.packetSize - sizeofNvVideoPacket) }

/- The rudimentary checks of a recovered packet. -/
def saneRecovery (queue : Queue) (i : Nat) (packet : Packet) : Bool :=
  (i != 0 || packet.flags &&& FLAG_SOF != 0)
    && (i != queue.bufferDataPackets - 1 || packet.flags &&& FLAG_EOF != 0)
    && (i == 0 || queue.bufferDataPackets - 1 ≤ i || packet.flags &&& FLAG_CONTAINS_PIC_DATA != 0)
    && packet.flags &&& ~~~(FLAG_SOF ||| FLAG_EOF ||| FLAG_CONTAINS_PIC_DATA) == 0

/- After a packet that is not sane, the others are freed. -/
def queueRecovered (config : Config) (head : Packet) (shard : Nat → List UInt8)
    (state : Queue × Bool) (i : Nat) : Queue × Bool :=
  if state.snd then
    let packet := state.fst.recoverPacket config head i (shard i)
    if state.fst.saneRecovery i packet then
      ⟨(state.fst.queuePacket packet false true).getD state.fst, true⟩
    else
      ⟨state.fst, false⟩
  else
    state

def recover (queue : Queue) (config : Config) (head : Packet) (memory : Nat → List UInt8)
    (rs : ReedSolomon queue.bufferDataPackets queue.bufferParityPackets) : Queue × Bool :=
  let shardBytes := fun index => ((queue.shardAt index).map Packet.bytes).getD (memory index)
  let missing := fun index => (queue.shardAt index).isNone
  let result := reedSolomonReconstruct rs
    (Vector.ofFn fun i => shardOf config.receiveSize (shardBytes i.val))
    (Vector.ofFn fun j => shardOf config.receiveSize (shardBytes (queue.bufferDataPackets + j.val)))
    (fun i => missing i.val) (fun j => missing (queue.bufferDataPackets + j.val))
  let reported :=
    if queue.bufferDataPackets ≠ queue.receivedDataPackets then
      queue.reportFinalFrameFecStatus
    else
      queue
  if result.snd ≠ 0 then
    ⟨reported, false⟩
  else
    let shard := fun i =>
      if h : i < queue.bufferDataPackets then bytesOf (result.fst.get ⟨i, h⟩) else []
    ((List.range queue.bufferDataPackets).filter missing).foldl (queueRecovered config head shard)
      ⟨reported, true⟩

/- Whether the block is complete. -/
def reconstructFrame (queue : Queue) (config : Config) (env : Env) : Queue × Bool :=
  let neededPackets := queue.bufferDataPackets
  if queue.pendingFecBlockList.length < neededPackets then
    if !queue.reportedLostFrame && !queue.receivedOosData
        && decide (queue.missingPackets.toNat > queue.totalPackets - neededPackets) then
      let queue := queue.tell (.frameLost queue.currentFrameNumber true)
      ⟨{ queue with reportedLostFrame := true }, false⟩
    else
      ⟨queue, false⟩
  else
    match queue.pendingFecBlockList with
    | [] => ⟨queue, true⟩
    | head :: _ =>
      let queue :=
        if queue.reportedLostFrame && !queue.receivedOosData then
          { queue with
            receivedOosData := true
            lastOosFramePresentationTimestamp := head.presentationTimeUs }
        else
          queue
      if queue.receivedDataPackets = queue.bufferDataPackets then
        ⟨queue, true⟩
      else if config.appVersionQuad.major < 5 then
        ⟨queue, false⟩
      else
        match env.memory, reedSolomonNew queue.bufferDataPackets queue.bufferParityPackets with
        | some memory, some rs => queue.recover config head.packet memory rs
        | _, _ => ⟨queue, false⟩

/-
One pass over the pending packets: parity goes, the packet with the number is taken out, and else
the lowest number is found.
-/
def scan (nextSeqNum lowest : BitVec 16) (pending : List Entry)
    : List Entry × (Entry ⊕ BitVec 16) :=
  match pending with
  | [] => ⟨[], .inr lowest⟩
  | entry :: pending =>
    if entry.isParity then
      scan nextSeqNum lowest pending
    else if entry.packet.sequenceNumber = nextSeqNum then
      ⟨pending, .inl entry⟩
    else
      let lowest :=
        if isBefore entry.packet.sequenceNumber lowest then entry.packet.sequenceNumber else lowest
      let rest := scan nextSeqNum lowest pending
      ⟨entry :: rest.fst, rest.snd⟩

def stageLoop (fuel : Nat) (queue : Queue) (nextSeqNum : BitVec 16) : Queue :=
  match fuel, queue.pendingFecBlockList with
  | 0, _ => queue
  | _, [] => queue
  | fuel + 1, head :: pending =>
    match scan nextSeqNum head.packet.sequenceNumber (head :: pending) with
    | ⟨kept, .inl entry⟩ =>
      let entry := { entry with receiveTimeUs := queue.bufferFirstRecvTimeUs }
      stageLoop fuel
        { queue with
          pendingFecBlockList := kept
          completedFecBlockList := queue.completedFecBlockList ++ [entry] }
        (nextSeqNum + 1)
    | ⟨kept, .inr lowest⟩ => stageLoop fuel { queue with pendingFecBlockList := kept } lowest

/- Two passes for each packet are enough: the second one of two begins at the lowest number. -/
def stageCompleteFecBlock (queue : Queue) : Queue :=
  stageLoop (2 * queue.pendingFecBlockList.length) queue queue.bufferLowestSequenceNumber

def submitCompletedFrame (queue : Queue) : Queue :=
  { queue.tell (.frame queue.completedFecBlockList) with completedFecBlockList := [] }

def purge (queue : Queue) : Queue :=
  { queue with pendingFecBlockList := [], completedFecBlockList := [] }

def dropFrame (queue : Queue) (nextFrameNumber : UInt32) : Queue :=
  let queue := queue.purge
  let queue :=
    if queue.reportedLostFrame then
      queue
    else
      { queue.tell (.frameLost queue.currentFrameNumber false) with reportedLostFrame := true }
  { queue with currentFrameNumber := nextFrameNumber, multiFecCurrentBlockNumber := 0 }

/- What is left of the block before goes, and with a new frame what is left of the frame before. -/
def openFrame (queue : Queue) (packet : Packet) : Queue :=
  let queue := { queue with pendingFecBlockList := [] }
  let queue :=
    if queue.currentFrameNumber = packet.frameIndex then
      queue
    else
      let queue := { queue with completedFecBlockList := [] }
      if queue.currentFrameNumber + 1 ≠ packet.frameIndex ∨ queue.reportedLostFrame = false then
        queue.tell (.frameLost (packet.frameIndex - 1) false)
      else
        queue
  let queue := { queue with currentFrameNumber := packet.frameIndex }
  queue.tell (.sawFrame queue.currentFrameNumber)

def openBlock (queue : Queue) (env : Env) (packet : Packet) : Queue :=
  let lowest := packet.sequenceNumber - BitVec.ofNat 16 packet.fecIndex
  let parityPackets := (packet.fecDataPackets * packet.fecPercentage + 99) / 100
  let firstParity := lowest + BitVec.ofNat 16 packet.fecDataPackets
  { queue with
    bufferFirstRecvTimeUs := env.nowUs
    bufferLowestSequenceNumber := lowest
    nextContiguousSequenceNumber := lowest
    receivedDataPackets := 0
    receivedParityPackets := 0
    receivedHighestSequenceNumber := 0
    missingPackets := 0
    useFastQueuePath := true
    reportedLostFrame := false
    bufferDataPackets := packet.fecDataPackets
    fecPercentage := packet.fecPercentage
    bufferParityPackets := parityPackets
    bufferFirstParitySequenceNumber := firstParity
    bufferHighestSequenceNumber := firstParity + BitVec.ofNat 16 parityPackets - 1
    multiFecCurrentBlockNumber := packet.fecCurrentBlockNumber
    multiFecLastBlockNumber := packet.fecLastBlockNumber }

def expectedFecBlockNumber (queue : Queue) (packet : Packet) : Nat :=
  if queue.currentFrameNumber = packet.frameIndex then queue.multiFecCurrentBlockNumber else 0

/- The report about a block that is given up. -/
def reportPending (queue : Queue) : Queue :=
  if queue.pendingFecBlockList = [] then queue else queue.reportFinalFrameFecStatus

/- The queue for a new block, an error is a packet that is rejected. -/
def beginBlock (queue : Queue) (env : Env) (packet : Packet) : Except Queue Queue :=
  if queue.pendingFecBlockList ≠ [] ∧ queue.multiFecLastBlockNumber ≠ 0
      ∧ queue.currentFrameNumber = packet.frameIndex then
    .error (queue.reportPending.dropFrame (queue.currentFrameNumber + 1))
  else if packet.fecCurrentBlockNumber ≠ queue.expectedFecBlockNumber packet then
    .error (queue.reportPending.reportFinalFrameFecStatus.dropFrame (packet.frameIndex + 1))
  else
    .ok ((queue.reportPending.openFrame packet).openBlock env packet)

def countMissing (queue : Queue) (packet : Packet) : Queue :=
  if queue.pendingFecBlockList.length = 1 then
    { queue with
      missingPackets := queue.missingPackets
        + UInt32.ofNat (gap queue.bufferLowestSequenceNumber packet.sequenceNumber)
      receivedHighestSequenceNumber := packet.sequenceNumber }
  else if isBefore queue.receivedHighestSequenceNumber packet.sequenceNumber then
    { queue with
      missingPackets := queue.missingPackets
        + UInt32.ofNat (packet.sequenceNumber - queue.receivedHighestSequenceNumber - 1).toNat
      receivedHighestSequenceNumber := packet.sequenceNumber }
  else
    { queue with missingPackets := queue.missingPackets - 1 }

def countPacket (queue : Queue) (packet : Packet) : Queue :=
  let queue := queue.countMissing packet
  if isBefore packet.sequenceNumber queue.bufferFirstParitySequenceNumber then
    { queue with receivedDataPackets := queue.receivedDataPackets + 1 }
  else
    { queue with receivedParityPackets := queue.receivedParityPackets + 1 }

/- The next block of the frame, or the frame is complete. -/
def finishBlock (queue : Queue) : Queue :=
  let queue := queue.stageCompleteFecBlock
  if queue.multiFecCurrentBlockNumber < queue.multiFecLastBlockNumber then
    { queue with multiFecCurrentBlockNumber := queue.multiFecCurrentBlockNumber + 1 }
  else
    { queue.submitCompletedFrame with
      currentFrameNumber := queue.currentFrameNumber + 1
      multiFecCurrentBlockNumber := 0 }

/- The packet is in the range of the current block, or is the first one of a new block. -/
def acceptPacket (queue : Queue) (config : Config) (env : Env) (packet : Packet) : Queue × Bool :=
  if isBefore queue.bufferHighestSequenceNumber packet.sequenceNumber then
    ⟨queue, false⟩
  else
    match queue.queuePacket packet
        (!isBefore packet.sequenceNumber queue.bufferFirstParitySequenceNumber) false with
    | none => ⟨queue, false⟩
    | some queue =>
      match (queue.countPacket packet).reconstructFrame config env with
      | ⟨queue, true⟩ => ⟨queue.finishBlock, true⟩
      | ⟨queue, false⟩ => ⟨queue, true⟩

def isBefore16 (x y : UInt32) : Bool :=
  isBefore (BitVec.ofNat 16 x.toNat) (BitVec.ofNat 16 y.toNat)

/-
Whether the queue takes the packet. Packets too small for their headers are rejected as well, before
anything is read from them.
-/
def rtpvAddPacket (queue : Queue) (config : Config) (env : Env) (packet : Packet) : Queue × Bool :=
  if isBefore packet.sequenceNumber queue.nextContiguousSequenceNumber then
    ⟨queue, false⟩
  else
    let packet :=
      if queue.multiFecCapable then
        packet
      else
        { packet with multiFecFlags := 0x10, multiFecBlocks := 0x00 }
    if isBefore16 packet.frameIndex queue.currentFrameNumber then
      ⟨queue, false⟩
    else if packet.frameIndex = queue.currentFrameNumber
        ∧ packet.fecCurrentBlockNumber < queue.multiFecCurrentBlockNumber then
      ⟨queue, false⟩
    else if queue.pendingFecBlockList = [] ∨ queue.currentFrameNumber ≠ packet.frameIndex
        ∨ queue.multiFecCurrentBlockNumber ≠ packet.fecCurrentBlockNumber then
      match queue.beginBlock env packet with
      | .error queue => ⟨queue, false⟩
      | .ok queue => queue.acceptPacket config env packet
    else
      queue.acceptPacket config env packet

end Queue

end Rtp

end Video

import PS3Moonlight.Connection.AppVersion
import PS3Moonlight.Fec.Reconstruct
import PS3Moonlight.Lib.Serial
import PS3Moonlight.Lib.Transition

/-!
This module contains the queue of the audio stream, which puts the packets of RTP in order and
recovers lost ones from the parity: the blocks of four data and two parity shards, what is done with
a packet that arrives, and what the decoder is given.
-/

namespace Audio

namespace Rtp

open Fec Serial

def RTPA_DATA_SHARDS : Nat := 4

def RTPA_FEC_SHARDS : Nat := 2

def RTPA_TOTAL_SHARDS : Nat := RTPA_DATA_SHARDS + RTPA_FEC_SHARDS

def RTPA_CACHED_FEC_BLOCK_LIMIT : Nat := 4

def RTPQ_OOS_WAIT_TIME_MS : UInt64 := 10

def RTP_PAYLOAD_TYPE_AUDIO : UInt8 := 97

def RTP_PAYLOAD_TYPE_FEC : UInt8 := 127

def RTPQ_RET_PACKET_READY : Nat := 2

def RTPQ_RET_HANDLE_NOW : Nat := 4

/- The sizes of the headers `RTP_PACKET` and `AUDIO_FEC_HEADER`. -/
def sizeofRtpPacket : Nat := 12

def sizeofAudioFecHeader : Nat := 12

/- The header, in the byte order of the host, and the bytes behind it. -/
structure RtpPacket where
  header : UInt8
  packetType : UInt8
  sequenceNumber : BitVec 16
  timestamp : UInt32
  ssrc : UInt32
  payload : List UInt8
deriving DecidableEq, Repr

structure FecHeader where
  payloadType : UInt8
  baseSequenceNumber : BitVec 16
  baseTimestamp : UInt32
  ssrc : UInt32
deriving DecidableEq, Repr

/- `block->marks` is set for a shard that is missing, the two shards of parity after the data. -/
structure FecBlock where
  dataPackets : Nat → RtpPacket
  fecPackets : Nat → List UInt8
  marks : Nat → Bool
  fecHeader : FecHeader
  queueTimeUs : UInt64
  dataShardsReceived : Nat
  fecShardsReceived : Nat
  fullyReassembled : Bool
  nextDataPacketIndex : Nat
  allowDiscontinuity : Bool
  blockSize : Nat

structure Stats where
  packetCountAudio : UInt32
  packetCountFec : UInt32
  packetCountFecRecovered : UInt32
  packetCountFecFailed : UInt32
  packetCountOOS : UInt32
  packetCountInvalid : UInt32
  packetCountFecInvalid : UInt32
deriving DecidableEq, Repr

/- The list of the blocks from `blockHead` to `blockTail`, and the cached ones. -/
structure Queue where
  blocks : List FecBlock
  freeBlocks : List FecBlock
  freeBlockCount : Nat
  nextRtpSequenceNumber : BitVec 16
  oldestRtpBaseSequenceNumber : BitVec 16
  lastOosSequenceNumber : BitVec 16
  receivedOosData : Bool
  synchronizing : Bool
  incompatibleServer : Bool
  stats : Stats

/- What a block of memory holds before anything is written to it. -/
structure Slab where
  dataPackets : Nat → RtpPacket
  fecPackets : Nat → List UInt8

/- What a call gets from outside: the clock, and the memory if there is some. -/
structure Env where
  queueTimeUs : UInt64
  nowUs : UInt64
  slab : Option Slab

/- The matrix that is used instead of the computed one. -/
def openFecParity : Vector (Vector Gf 4) 2 :=
  #v[#v[Gf.ofByte 0x77, Gf.ofByte 0x40, Gf.ofByte 0x38, Gf.ofByte 0x0e],
    #v[Gf.ofByte 0xc7, Gf.ofByte 0xa7, Gf.ofByte 0x0d, Gf.ofByte 0x6c]]

def audioRs : ReedSolomon 4 2 where
  m := Vector.ofFn fun row =>
    Fin.addCases (fun i => (shardMatrix 4 2).get (i.castAdd 2)) openFecParity.get row
  parity := openFecParity

def rtpaInitializeQueue (appVersionQuad : Connection.AppVersionQuad) : Queue where
  blocks := []
  freeBlocks := []
  freeBlockCount := 0
  nextRtpSequenceNumber := 0
  oldestRtpBaseSequenceNumber := 0
  lastOosSequenceNumber := 0
  receivedOosData := false
  synchronizing := true
  incompatibleServer := !appVersionQuad.atLeast 7 1 415
  stats := ⟨0, 0, 0, 0, 0, 0, 0⟩

def allocateFecBlock (queue : Queue) (blockSize : Nat) (env : Env) : Queue × Option Slab :=
  match queue.freeBlocks with
  | block :: freeBlocks =>
    let queue := { queue with freeBlocks := freeBlocks, freeBlockCount := queue.freeBlockCount - 1 }
    if block.blockSize = blockSize then
      (queue, some ⟨block.dataPackets, block.fecPackets⟩)
    else
      (queue, env.slab)
  | [] => (queue, env.slab)

def freeFecBlockHead (queue : Queue) : Queue :=
  match queue.blocks with
  | [] => queue
  | blockHead :: blocks =>
    let queue := { queue with
      blocks := blocks
      oldestRtpBaseSequenceNumber := blockHead.fecHeader.baseSequenceNumber + 4
      synchronizing := false }
    if queue.freeBlockCount ≥ RTPA_CACHED_FEC_BLOCK_LIMIT then
      queue
    else
      { queue with
        freeBlocks := blockHead :: queue.freeBlocks
        freeBlockCount := queue.freeBlockCount + 1 }

/- The header of a parity packet, which stands behind the header of RTP. -/
def fecShardIndex (packet : RtpPacket) : Nat :=
  (packet.payload.getD 0 0).toNat

def fecHeaderOf (packet : RtpPacket) : FecHeader :=
  let byte := fun i => (packet.payload.getD i 0).toNat
  { payloadType := packet.payload.getD 1 0
    baseSequenceNumber := BitVec.ofNat 16 (256 * byte 2 + byte 3)
    baseTimestamp := UInt32.ofNat (256 * (256 * (256 * byte 4 + byte 5) + byte 6) + byte 7)
    ssrc := UInt32.ofNat (256 * (256 * (256 * byte 8 + byte 9) + byte 10) + byte 11) }

/-
Remember if packets came late, and forget it once 32767 packets have come without a late one.
-/
def noteOos (queue : Queue) (sequenceNumber : BitVec 16) : Queue :=
  if !queue.synchronizing && isBefore sequenceNumber queue.oldestRtpBaseSequenceNumber then
    { queue with
      lastOosSequenceNumber := sequenceNumber
      stats := { queue.stats with packetCountOOS := queue.stats.packetCountOOS + 1 }
      receivedOosData := true }
  else if queue.receivedOosData
      && isBefore queue.oldestRtpBaseSequenceNumber queue.lastOosSequenceNumber then
    { queue with receivedOosData := false }
  else
    queue

def countInvalid (queue : Queue) : Queue :=
  { queue with
    stats := { queue.stats with packetCountInvalid := queue.stats.packetCountInvalid + 1 } }

def countFecInvalid (queue : Queue) : Queue :=
  { queue with
    stats := { queue.stats with packetCountFecInvalid := queue.stats.packetCountFecInvalid + 1 } }

def countAudio (queue : Queue) : Queue :=
  { queue with
    stats := { queue.stats with packetCountAudio := queue.stats.packetCountAudio + 1 } }

def countFec (queue : Queue) : Queue :=
  { queue with
    stats := { queue.stats with packetCountFec := queue.stats.packetCountFec + 1 } }

/- The header of the block that a packet belongs to, and the size of its shards. -/
def blockHeader (queue : Queue) (packet : RtpPacket) (length : Nat) (duration : UInt32)
    : Queue × Option (FecHeader × Nat) :=
  if packet.packetType = RTP_PAYLOAD_TYPE_AUDIO then
    if length < sizeofRtpPacket then
      (countInvalid queue, none)
    else
      let queue := noteOos (countAudio queue) packet.sequenceNumber
      let base := packet.sequenceNumber / 4 * 4
      let behind := UInt32.ofNat (packet.sequenceNumber - base).toNat
      (queue, some
        ({ payloadType := packet.packetType
           baseSequenceNumber := base
           baseTimestamp := packet.timestamp - behind * duration
           ssrc := packet.ssrc }, length - sizeofRtpPacket))
  else if packet.packetType = RTP_PAYLOAD_TYPE_FEC then
    if length < sizeofRtpPacket + sizeofAudioFecHeader then
      (countFecInvalid queue, none)
    else
      let queue := countFec queue
      if fecShardIndex packet ≥ RTPA_FEC_SHARDS then
        (countFecInvalid queue, none)
      else if (fecHeaderOf packet).baseSequenceNumber % 4 ≠ 0 then
        ({ countFecInvalid queue with incompatibleServer := true }, none)
      else
        (queue, some (fecHeaderOf packet, length - sizeofRtpPacket - sizeofAudioFecHeader))
  else
    (queue, none)

inductive Place where
  | existing (i : Nat)
  | before (i : Nat)
deriving DecidableEq, Repr

/- The block with the number, or where it has to go. -/
def findBlock (blocks : List FecBlock) (base : BitVec 16) (i : Nat) : Place :=
  match blocks with
  | [] => .before i
  | block :: blocks =>
    if block.fecHeader.baseSequenceNumber = base then
      .existing i
    else if isBefore base block.fecHeader.baseSequenceNumber then
      .before i
    else
      findBlock blocks base (i + 1)

def newBlock (header : FecHeader) (blockSize : Nat) (queueTimeUs : UInt64) (slab : Slab)
    : FecBlock where
  dataPackets := slab.dataPackets
  fecPackets := slab.fecPackets
  marks := fun _ => true
  fecHeader := header
  queueTimeUs := queueTimeUs
  dataShardsReceived := 0
  fecShardsReceived := 0
  fullyReassembled := false
  nextDataPacketIndex := 0
  allowDiscontinuity := false
  blockSize := blockSize

/- The place in the list of the block that takes the packet, if one does. -/
def getFecBlockForRtpPacket (queue : Queue) (packet : RtpPacket) (length : Nat) (duration : UInt32)
    (env : Env) : Queue × Option Nat :=
  match blockHeader queue packet length duration with
  | (queue, none) => (queue, none)
  | (queue, some (header, blockSize)) =>
    if queue.synchronizing ∧ queue.oldestRtpBaseSequenceNumber = 0 then
      ({ queue with
        nextRtpSequenceNumber := header.baseSequenceNumber + 4
        oldestRtpBaseSequenceNumber := header.baseSequenceNumber + 4 }, none)
    else if isBefore header.baseSequenceNumber queue.oldestRtpBaseSequenceNumber then
      (queue, none)
    else
      match findBlock queue.blocks header.baseSequenceNumber 0 with
      | .existing i =>
        match queue.blocks[i]? with
        | none => (queue, none)
        | some block =>
          if block.blockSize ≠ blockSize then
            ({ countFecInvalid queue with incompatibleServer := true }, none)
          else if block.fullyReassembled then
            (queue, none)
          else
            (queue, some i)
      | .before i =>
        match allocateFecBlock queue blockSize env with
        | (queue, none) => (queue, none)
        | (queue, some slab) =>
          ({ queue with
            blocks := queue.blocks.insertIdx i (newBlock header blockSize env.queueTimeUs slab) },
            some i)

def shardOf (sz : Nat) (bytes : List UInt8) : Vector Gf sz :=
  Vector.ofFn fun i => Gf.ofByte (bytes.getD i 0)

def bytesOf {sz : Nat} (shard : Vector Gf sz) : List UInt8 :=
  shard.toList.map Gf.byte

/- The header of a recovered packet is made up from that of the block. -/
def recoverPacket (block : FecBlock) (duration : UInt32) (i : Nat) (payload : List UInt8)
    : RtpPacket where
  header := 0x80
  packetType := block.fecHeader.payloadType
  sequenceNumber := block.fecHeader.baseSequenceNumber + BitVec.ofNat 16 i
  timestamp := block.fecHeader.baseTimestamp + UInt32.ofNat i * duration
  ssrc := block.fecHeader.ssrc
  payload := payload

def completeFecBlock (block : FecBlock) (stats : Stats) (duration : UInt32)
    : FecBlock × Stats × Bool :=
  if block.dataShardsReceived + block.fecShardsReceived < RTPA_DATA_SHARDS then
    (block, stats, false)
  else if block.dataShardsReceived = RTPA_DATA_SHARDS then
    (block, stats, true)
  else
    let shards : Vector (Vector Gf block.blockSize) 4 :=
      Vector.ofFn fun i => shardOf block.blockSize (block.dataPackets i).payload
    let fecShards : Vector (Vector Gf block.blockSize) 2 :=
      Vector.ofFn fun i => shardOf block.blockSize (block.fecPackets i)
    let (shards, res) := reedSolomonReconstruct audioRs shards fecShards
      (fun i => block.marks i) (fun i => block.marks (RTPA_DATA_SHARDS + i))
    if res ≠ 0 then
      (block, stats, false)
    else
      let block := { block with
        dataPackets := fun i =>
          if h : i < 4 then
            if block.marks i then
              recoverPacket block duration i (bytesOf (shards.get ⟨i, h⟩))
            else
              block.dataPackets i
          else
            block.dataPackets i
        marks := fun i => if i < 4 then false else block.marks i }
      (block, { stats with
        packetCountFecRecovered := stats.packetCountFecRecovered
          + UInt32.ofNat (RTPA_DATA_SHARDS - block.dataShardsReceived) }, true)

/- `blockHead` has the packet that is next, or may be played with gaps. -/
def headReady (head : FecBlock) (next : BitVec 16) : Bool :=
  (!head.marks head.nextDataPacketIndex
    && head.fecHeader.baseSequenceNumber.toNat + head.nextDataPacketIndex == next.toNat)
  || head.allowDiscontinuity

def queueHasPacketReady (queue : Queue) : Bool :=
  match queue.blocks with
  | [] => false
  | head :: _ => headReady head queue.nextRtpSequenceNumber

def handleMissingPackets (queue : Queue) (duration : UInt32) (env : Env) : Queue :=
  match queue.blocks with
  | [] => queue
  | head :: rest =>
    if isBefore queue.nextRtpSequenceNumber head.fecHeader.baseSequenceNumber then
      { queue with
        nextRtpSequenceNumber := head.fecHeader.baseSequenceNumber
        oldestRtpBaseSequenceNumber := head.fecHeader.baseSequenceNumber }
    else if rest = [] then
      queue
    else if !queue.receivedOosData
        || env.nowUs - head.queueTimeUs
          > (duration * 4).toUInt64 + RTPQ_OOS_WAIT_TIME_MS * 1000 then
      { queue with
        stats := { queue.stats with
          packetCountFecFailed := queue.stats.packetCountFecFailed + 1 }
        blocks := { head with allowDiscontinuity := true } :: rest }
    else
      queue

/- A block that has enough shards is complete, and marked so. -/
def tryComplete (block : FecBlock) (stats : Stats) (duration : UInt32) : FecBlock × Stats :=
  match completeFecBlock block stats duration with
  | (block, stats, true) => ({ block with fullyReassembled := true }, stats)
  | (block, stats, false) => (block, stats)

/- If there is still nothing ready, the missing packets may be skipped. -/
def settle (queue : Queue) (duration : UInt32) (env : Env) : Queue × Nat :=
  let queue :=
    if queueHasPacketReady queue then queue else handleMissingPackets queue duration env
  (queue, if queueHasPacketReady queue then RTPQ_RET_PACKET_READY else 0)

def finishPacket (queue : Queue) (i : Nat) (block : FecBlock) (duration : UInt32) (env : Env)
    : Queue × Nat :=
  let (block, stats) := tryComplete block queue.stats duration
  settle { queue with blocks := queue.blocks.set i block, stats := stats } duration env

def storeData (block : FecBlock) (pos : Nat) (packet : RtpPacket) (length : Nat) : FecBlock :=
  { block with
    dataPackets := store block.dataPackets pos
      { packet with payload := packet.payload.take (length - sizeofRtpPacket) }
    marks := store block.marks pos false
    dataShardsReceived := block.dataShardsReceived + 1 }

def storeFec (block : FecBlock) (pos : Nat) (packet : RtpPacket) (length : Nat) : FecBlock :=
  { block with
    fecPackets := store block.fecPackets pos
      ((packet.payload.drop sizeofAudioFecHeader).take
        (length - sizeofRtpPacket - sizeofAudioFecHeader))
    marks := store block.marks (RTPA_DATA_SHARDS + pos) false
    fecShardsReceived := block.fecShardsReceived + 1 }

/- The packet is handed out at once, so its block counts it as read. -/
def takeInOrder (queue : Queue) (i : Nat) (block : FecBlock) (packet : RtpPacket) : Queue :=
  { queue with
    nextRtpSequenceNumber := packet.sequenceNumber + 1
    blocks := queue.blocks.set i
      { block with nextDataPacketIndex := block.nextDataPacketIndex + 1 } }

def addDataPacket (queue : Queue) (i : Nat) (block : FecBlock) (packet : RtpPacket) (length : Nat)
    (duration : UInt32) (env : Env) : Queue × Nat :=
  let pos := (packet.sequenceNumber - block.fecHeader.baseSequenceNumber).toNat
  if block.marks pos then
    let block := storeData block pos packet length
    -- The common case, the next packet in order, is handled at once.
    if packet.sequenceNumber = queue.nextRtpSequenceNumber then
      let queue := takeInOrder queue i block packet
      if queue.nextRtpSequenceNumber = block.fecHeader.baseSequenceNumber + 4 then
        (freeFecBlockHead queue, RTPQ_RET_HANDLE_NOW)
      else
        (queue, RTPQ_RET_HANDLE_NOW)
    else
      finishPacket queue i block duration env
  else
    (queue, 0)

def addFecPacket (queue : Queue) (i : Nat) (block : FecBlock) (packet : RtpPacket) (length : Nat)
    (duration : UInt32) (env : Env) : Queue × Nat :=
  let pos := fecShardIndex packet
  if block.marks (RTPA_DATA_SHARDS + pos) then
    finishPacket queue i (storeFec block pos packet length) duration env
  else
    (queue, 0)

def rtpaAddPacket (queue : Queue) (packet : RtpPacket) (length : Nat) (duration : UInt32)
    (env : Env) : Queue × Nat :=
  if queue.incompatibleServer then
    (queue, if packet.packetType = RTP_PAYLOAD_TYPE_AUDIO then RTPQ_RET_HANDLE_NOW else 0)
  else
    match getFecBlockForRtpPacket queue packet length duration env with
    | (queue, none) => (queue, 0)
    | (queue, some i) =>
      match queue.blocks[i]? with
      | none => (queue, 0)
      | some block =>
        if packet.packetType = RTP_PAYLOAD_TYPE_AUDIO then
          addDataPacket queue i block packet length duration env
        else
          addFecPacket queue i block packet length duration env

/- What the decoder is given: a packet, or the notice that one is lost. -/
inductive Delivery where
  | lost
  | packet (packet : RtpPacket)
deriving DecidableEq, Repr

/- The head moves on by one packet, and is freed after its last one. -/
def advanceHead (queue : Queue) (head : FecBlock) (rest : List FecBlock) : Queue :=
  let queue := { queue with
    nextRtpSequenceNumber := queue.nextRtpSequenceNumber + 1
    blocks := { head with nextDataPacketIndex := head.nextDataPacketIndex + 1 } :: rest }
  if head.nextDataPacketIndex + 1 = RTPA_DATA_SHARDS then freeFecBlockHead queue else queue

/- Copies the packet that is next out of the head, if it is ready and there is memory. -/
def takeReadyPacket (queue : Queue) (memory : Bool) : Queue × Option Delivery :=
  match queue.blocks with
  | [] => (queue, none)
  | head :: rest =>
    if headReady head queue.nextRtpSequenceNumber then
      if memory then
        (advanceHead queue head rest,
          some (.packet (head.dataPackets head.nextDataPacketIndex)))
      else
        (queue, none)
    else
      (queue, none)

def rtpaGetQueuedPacket (queue : Queue) (memory : Bool) : Queue × Option Delivery :=
  match queue.blocks with
  | [] => (queue, none)
  | head :: rest =>
    if head.allowDiscontinuity then
      if head.marks head.nextDataPacketIndex then
        if memory then
          (advanceHead queue head rest, some .lost)
        else
          (queue, none)
      else if head.nextDataPacketIndex = RTPA_DATA_SHARDS then
        takeReadyPacket (freeFecBlockHead queue) memory
      else
        takeReadyPacket queue memory
    else
      takeReadyPacket queue memory

/-
The thread that receives the audio
-/

def MAX_PACKET_SIZE : Nat := 1400

def UDP_RECV_POLL_TIMEOUT_MS : Nat := 100

/- What a call of `recvUdpSocket` ends with, or one of `RtpaGetQueuedPacket` while packets are ready. -/
inductive Event where
  | timeout
  | runt
  | received (packet : RtpPacket) (env : Env)
  | dequeue (memory : Bool)

/- `delivered` lists the calls of `decodeInputData` with the sequence numbers they stand for. -/
structure Receiver where
  queue : Queue
  receivedDataFromPeer : Bool
  waitingForAudioMs : Nat
  packetsToDrop : Nat
  draining : Bool
  delivered : List (BitVec 16 × Delivery)

def receivePacket (r : Receiver) (packet : RtpPacket) (duration : UInt32) (env : Env) : Receiver :=
  let r := { r with receivedDataFromPeer := true }
  if r.packetsToDrop > 0 then
    if packet.packetType = RTP_PAYLOAD_TYPE_AUDIO then
      { r with packetsToDrop := r.packetsToDrop - 1 }
    else
      r
  else
    let (queue, status) :=
      rtpaAddPacket r.queue packet (sizeofRtpPacket + packet.payload.length) duration env
    let r := { r with queue := queue }
    if status = RTPQ_RET_HANDLE_NOW then
      { r with delivered := r.delivered ++ [(packet.sequenceNumber, .packet packet)] }
    else
      { r with draining := status = RTPQ_RET_PACKET_READY }

def receiverStep (duration : UInt32) (r : Receiver) : Event → Option Receiver
  | .timeout =>
    if r.draining then
      none
    else if r.receivedDataFromPeer then
      some { r with packetsToDrop := 0 }
    else
      some { r with waitingForAudioMs := r.waitingForAudioMs + UDP_RECV_POLL_TIMEOUT_MS }
  | .runt => if r.draining then none else some r
  | .received packet env =>
    if r.draining ∨ sizeofRtpPacket + packet.payload.length > MAX_PACKET_SIZE then
      none
    else
      some (receivePacket r packet duration env)
  | .dequeue memory =>
    if r.draining then
      match rtpaGetQueuedPacket r.queue memory with
      | (queue, none) => some { r with queue := queue, draining := false }
      | (queue, some delivery) =>
        some { r with
          queue := queue
          delivered := r.delivered ++ [(r.queue.nextRtpSequenceNumber, delivery)] }
    else
      none

def receiver (appVersionQuad : Connection.AppVersionQuad) (duration : UInt32)
    : Transition.Machine Receiver Event where
  init :=
    { queue := rtpaInitializeQueue appVersionQuad
      receivedDataFromPeer := false
      waitingForAudioMs := 0
      packetsToDrop := 500 / duration.toNat
      draining := false
      delivered := [] }
  step := receiverStep duration

end Rtp

end Audio

import PS3Moonlight.Audio.RtpQueue

/-!
This module contains what the server sends: the packets of a stream of audio and the parity of their
blocks, in the format that the queue reads, and that the matrix of the queue recovers lost packets.
-/

namespace Audio

namespace Rtp

open Fec Serial

/-
The packets of a stream are counted without end; those of a block, four at a time, have one size.
-/
structure Stream where
  payload : Int → List UInt8
  blockSize : Int → Nat
  length_payload : ∀ n, (payload n).length = blockSize (n / 4)
  timestamp : UInt32
  ssrc : UInt32

def sequenceNumber (n : Int) : BitVec 16 :=
  BitVec.ofInt 16 n

def Stream.timestampOf (st : Stream) (duration : UInt32) (n : Int) : UInt32 :=
  st.timestamp + UInt32.ofInt n * duration

def Stream.dataPacket (st : Stream) (duration : UInt32) (n : Int) : RtpPacket where
  header := 0x80
  packetType := RTP_PAYLOAD_TYPE_AUDIO
  sequenceNumber := sequenceNumber n
  timestamp := st.timestampOf duration n
  ssrc := st.ssrc
  payload := st.payload n

def Stream.header (st : Stream) (duration : UInt32) (b : Int) : FecHeader where
  payloadType := RTP_PAYLOAD_TYPE_AUDIO
  baseSequenceNumber := sequenceNumber (4 * b)
  baseTimestamp := st.timestampOf duration (4 * b)
  ssrc := st.ssrc

def Stream.shards (st : Stream) (b : Int) : Vector (Vector Gf (st.blockSize b)) 4 :=
  Vector.ofFn fun i => shardOf (st.blockSize b) (st.payload (4 * b + i.val))

def Stream.parityShard (st : Stream) (b : Int) (j : Nat) : Vector Gf (st.blockSize b) :=
  (reedSolomonEncode audioRs (st.shards b) (Vector.replicate 2 (Vector.replicate _ 0)))[j]?.getD
    (Vector.replicate _ 0)

/- The bytes of a number, the highest one first. -/
def bigEndian (bytes n : Nat) : List UInt8 :=
  match bytes with
  | 0 => []
  | bytes + 1 => bigEndian bytes (n / 256) ++ [UInt8.ofNat n]

def FecHeader.bytes (header : FecHeader) (fecShardIndex : Nat) : List UInt8 :=
  [UInt8.ofNat fecShardIndex, header.payloadType] ++ bigEndian 2 header.baseSequenceNumber.toNat
    ++ bigEndian 4 header.baseTimestamp.toNat ++ bigEndian 4 header.ssrc.toNat

def Stream.fecPayload (st : Stream) (duration : UInt32) (b : Int) (j : Nat) : List UInt8 :=
  (st.header duration b).bytes j ++ bytesOf (st.parityShard b j)

/- What the queue may get from the stream; nothing is promised about the header before the parity. -/
inductive Stream.Sends (st : Stream) (duration : UInt32) : Int → RtpPacket → Prop where
  | data (n : Int) : Sends st duration (n / 4) (st.dataPacket duration n)
  | parity (b : Int) (j : Nat) (packet : RtpPacket) (index : j < 2)
      (type : packet.packetType = RTP_PAYLOAD_TYPE_FEC)
      (payload : packet.payload = st.fecPayload duration b j)
    : Sends st duration b packet

/-
The numbers
-/

theorem toNat_sequenceNumber (n : Int) : ((sequenceNumber n).toNat : Int) = n % 65536 := by
  unfold sequenceNumber
  rw [BitVec.toNat_ofInt]
  omega

theorem gap_sequenceNumber (m n : Int)
    : (gap (sequenceNumber m) (sequenceNumber n) : Int) = (n - m) % 65536 := by
  have hm := toNat_sequenceNumber m
  have hn := toNat_sequenceNumber n
  have hmlt := (sequenceNumber m).isLt
  have hnlt := (sequenceNumber n).isLt
  unfold gap
  rw [BitVec.toNat_sub]
  omega

theorem sequenceNumber_add (n : Int) (k : Nat)
    : sequenceNumber n + BitVec.ofNat 16 k = sequenceNumber (n + k) := by
  have hsum := toNat_sequenceNumber (n + k)
  have hn := toNat_sequenceNumber n
  have hlt := (sequenceNumber n).isLt
  have hsumlt := (sequenceNumber (n + k)).isLt
  apply BitVec.eq_of_toNat_eq
  rw [BitVec.toNat_add, BitVec.toNat_ofNat]
  omega

theorem sequenceNumber_base (n : Int) : sequenceNumber n / 4 * 4 = sequenceNumber (4 * (n / 4)) := by
  have hbase := toNat_sequenceNumber (4 * (n / 4))
  have hn := toNat_sequenceNumber n
  have hlt := (sequenceNumber n).isLt
  have hbaselt := (sequenceNumber (4 * (n / 4))).isLt
  have hfour : (4 : BitVec 16).toNat = 4 := by rfl
  apply BitVec.eq_of_toNat_eq
  rw [BitVec.toNat_mul, BitVec.toNat_udiv, hfour]
  omega

theorem toNat_sub_base (n : Int)
    : (((sequenceNumber n - sequenceNumber (4 * (n / 4))).toNat : Nat) : Int) = n % 4 := by
  have hgap := gap_sequenceNumber (4 * (n / 4)) n
  unfold gap at hgap
  omega

theorem timestampOf_add (st : Stream) (duration : UInt32) (n : Int) (k : Nat)
    : st.timestampOf duration n + UInt32.ofNat k * duration = st.timestampOf duration (n + k) := by
  have hk : UInt32.ofInt (k : Int) = UInt32.ofNat k := by
    apply UInt32.toNat_inj.mp
    rw [UInt32.ofInt, UInt32.toNat_ofNat', UInt32.toNat_ofNat']
    omega
  unfold Stream.timestampOf
  rw [UInt32.ofInt_add, hk]
  grind

/-
The format
-/

theorem shardOf_bytesOf {sz : Nat} (shard : Vector Gf sz) : shardOf sz (bytesOf shard) = shard := by
  apply get_ext
  intro i
  have hbyte : (bytesOf shard).getD i 0 = (shard.get i).byte := by
    simp [bytesOf, get_eq_getElem]
  unfold shardOf
  rw [get_ofFn, hbyte]
  rfl

theorem bytesOf_shardOf {bytes : List UInt8} {sz : Nat} (h : bytes.length = sz)
    : bytesOf (shardOf sz bytes) = bytes := by
  apply List.ext_getElem?
  intro i
  unfold bytesOf shardOf
  rw [List.getElem?_map, Vector.getElem?_toList, Vector.getElem?_ofFn]
  split
  . next hi =>
    have hbytes : bytes[i]? = some bytes[i] := List.getElem?_eq_getElem (by omega)
    simp only [Option.map_some, List.getD_eq_getElem?_getD, hbytes, Option.getD_some]
    rfl
  . next hi => simp [List.getElem?_eq_none (l := bytes) (by omega : bytes.length ≤ i)]

theorem length_bytesOf {sz : Nat} (shard : Vector Gf sz) : (bytesOf shard).length = sz := by
  simp [bytesOf]

theorem length_bytes (header : FecHeader) (j : Nat)
    : (header.bytes j).length = sizeofAudioFecHeader := by
  rfl

theorem fecShardIndex_of_payload {packet : RtpPacket} {header : FecHeader} {j : Nat}
    {rest : List UInt8} (hj : j < 256) (h : packet.payload = header.bytes j ++ rest)
    : fecShardIndex packet = j := by
  unfold fecShardIndex
  rw [h]
  show (UInt8.ofNat j).toNat = j
  rw [UInt8.toNat_ofNat_of_lt' hj]

theorem fecHeaderOf_of_payload {packet : RtpPacket} {header : FecHeader} {j : Nat}
    {rest : List UInt8} (h : packet.payload = header.bytes j ++ rest)
    : fecHeaderOf packet = header := by
  have hbase := header.baseSequenceNumber.isLt
  have htimestamp := header.baseTimestamp.toNat_lt
  have hssrc := header.ssrc.toNat_lt
  unfold fecHeaderOf
  rw [h]
  cases header with
  | mk payloadType base timestamp ssrc =>
    simp only [FecHeader.bytes, bigEndian, List.getD_eq_getElem?_getD, List.nil_append,
      List.cons_append, List.getElem?_cons_succ, List.getElem?_cons_zero, Option.getD_some,
      UInt8.toNat_ofNat', FecHeader.mk.injEq, true_and]
    refine ⟨?_, ?_, ?_⟩
    . apply BitVec.eq_of_toNat_eq
      rw [BitVec.toNat_ofNat]
      simp only at hbase
      omega
    . apply UInt32.toNat_inj.mp
      rw [UInt32.toNat_ofNat']
      simp only at htimestamp
      omega
    . apply UInt32.toNat_inj.mp
      rw [UInt32.toNat_ofNat']
      simp only at hssrc
      omega

/- What the queue makes of a packet of a block: its header and the size of its shards. -/
theorem blockHeader_of_sends {st : Stream} {duration : UInt32} {b : Int} {packet : RtpPacket}
    (h : st.Sends duration b packet) (queue : Queue)
    : (blockHeader queue packet (sizeofRtpPacket + packet.payload.length) duration).2
        = some (st.header duration b, st.blockSize b) := by
  cases h with
  | data n =>
    have hbase := toNat_sub_base n
    have hindex : (sequenceNumber n - sequenceNumber (4 * (n / 4))).toNat = (n % 4).toNat := by
      omega
    have htime := timestampOf_add st duration (4 * (n / 4)) (n % 4).toNat
    rw [show 4 * (n / 4) + ((n % 4).toNat : Int) = n by omega] at htime
    have haudio : (st.dataPacket duration n).packetType = RTP_PAYLOAD_TYPE_AUDIO := rfl
    unfold blockHeader
    rw [if_pos haudio, if_neg (by omega)]
    simp only [Stream.dataPacket, sequenceNumber_base, hindex, Option.some.injEq, Prod.mk.injEq,
      Stream.header, FecHeader.mk.injEq, true_and, and_true]
    constructor
    . rw [← htime]
      grind
    . rw [Nat.add_sub_cancel_left, st.length_payload]
  | parity b j packet index type payload =>
    have hlength : packet.payload.length = sizeofAudioFecHeader + st.blockSize b := by
      rw [payload, Stream.fecPayload, List.length_append, length_bytes, length_bytesOf]
    have haudio : ¬ packet.packetType = RTP_PAYLOAD_TYPE_AUDIO := by
      rw [type]
      decide
    have hj : ¬ fecShardIndex packet ≥ RTPA_FEC_SHARDS := by
      rw [fecShardIndex_of_payload (by omega) payload]
      unfold RTPA_FEC_SHARDS
      omega
    have haligned : ¬ (st.header duration b).baseSequenceNumber % 4 ≠ 0 := by
      have hbase := toNat_sequenceNumber (4 * b)
      rw [not_not]
      apply BitVec.eq_of_toNat_eq
      rw [BitVec.toNat_umod]
      show (sequenceNumber (4 * b)).toNat % 4 = 0
      omega
    unfold blockHeader
    rw [if_neg haudio, if_pos type, if_neg (by omega)]
    simp only
    rw [if_neg hj, fecHeaderOf_of_payload payload, if_neg haligned]
    simp only [Option.some.injEq, Prod.mk.injEq, true_and]
    omega

/-
The matrix
-/

theorem audioRs_parity_ne_zero
    : ∀ (j : Fin 2) (i : Fin 4), (audioRs.parity.get j).get i ≠ 0 := by
  decide +kernel

theorem audioRs_minor_ne_zero
    : ∀ i i' : Fin 4, i ≠ i' →
      (audioRs.parity.get 0).get i * (audioRs.parity.get 1).get i'
        ≠ (audioRs.parity.get 0).get i' * (audioRs.parity.get 1).get i := by
  decide +kernel

theorem audioRs_valid : audioRs.Valid := by
  constructor
  . decide
  . intro i c
    unfold audioRs
    rw [get_ofFn, Fin.addCases_left, get_shardMatrix_data]
  . intro j
    unfold audioRs
    rw [get_ofFn, Fin.addCases_right]
  . apply ErasureCode.mds_of_two_rows audioRs_parity_ne_zero
    intro i i' hne
    exact sub_ne_zero.mpr (audioRs_minor_ne_zero i i' hne)

theorem parityShard_get (st : Stream) (b : Int) (j : Fin 2) (k : Fin (st.blockSize b))
    : (st.parityShard b j).get k
      = dot (audioRs.parity.get j) fun c => ((st.shards b).get c).get k := by
  obtain ⟨shard, hshard, hget⟩ := reedSolomonEncode_getElem? audioRs_valid (st.shards b)
    (Vector.replicate 2 (Vector.replicate _ 0)) j
  unfold Stream.parityShard
  rw [hshard, Option.getD_some, hget]

end Rtp

end Audio

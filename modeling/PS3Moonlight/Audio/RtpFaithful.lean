import PS3Moonlight.Audio.RtpRecovery

/-!
This module contains the audio stream as a whole: a server that sends it, a network that loses,
repeats and reorders its packets, and the receiver. What is played was sent, in the order in which it
was sent, each packet at most once.
-/

namespace Audio

namespace Rtp

open Fec Serial Transition

variable {st : Stream} {duration : UInt32} {g : Int}

/- The oldest number is that of packet `g` of the stream, and the blocks hold what was sent. -/
structure Faithful (st : Stream) (duration : UInt32) (g : Int) (queue : Queue) : Prop where
  aligned : g % 4 = 0
  oldest : queue.oldestRtpBaseSequenceNumber = sequenceNumber g
  blocks : ∀ block ∈ queue.blocks, ∃ b,
    4 * b = g + gap queue.oldestRtpBaseSequenceNumber block.fecHeader.baseSequenceNumber
      ∧ Holds st duration b block
  compatible : queue.incompatibleServer = false

/- How far the queue is, as a distance from `oldest`. -/
def Queue.ahead (queue : Queue) (oldest : BitVec 16) : Nat :=
  gap oldest queue.oldestRtpBaseSequenceNumber
    + gap queue.oldestRtpBaseSequenceNumber queue.nextRtpSequenceNumber

/- A step of the queue, which plays `count` packets. -/
structure Moved (st : Stream) (duration : UInt32) (g : Int) (queue queue' : Queue) (count : Nat)
    : Prop where
  faithful : Faithful st duration
    (g + gap queue.oldestRtpBaseSequenceNumber queue'.oldestRtpBaseSequenceNumber) queue'
  next : gap queue.oldestRtpBaseSequenceNumber queue.nextRtpSequenceNumber + count
    ≤ queue'.ahead queue.oldestRtpBaseSequenceNumber

theorem Faithful.position {queue : Queue} (h : Faithful st duration g queue) {m : Int}
    (hgap : gap queue.oldestRtpBaseSequenceNumber (sequenceNumber m) ≤ 32767)
    (hnear : -32768 ≤ m - g ∧ m - g ≤ 32767)
    : m = g + gap queue.oldestRtpBaseSequenceNumber (sequenceNumber m) := by
  have hdistance := gap_sequenceNumber g m
  rw [h.oldest] at *
  omega

/- The oldest number moves on to one that is not behind any block. -/
theorem Faithful.move {queue queue' : Queue} (h : Faithful st duration g queue)
    (hmod : queue'.oldestRtpBaseSequenceNumber.toNat % 4 = 0)
    (hblocks : ∀ block ∈ queue'.blocks, ∃ b,
      4 * b = g + gap queue.oldestRtpBaseSequenceNumber block.fecHeader.baseSequenceNumber
        ∧ Holds st duration b block
        ∧ gap queue.oldestRtpBaseSequenceNumber queue'.oldestRtpBaseSequenceNumber
          ≤ gap queue.oldestRtpBaseSequenceNumber block.fecHeader.baseSequenceNumber)
    (hcompatible : queue'.incompatibleServer = false)
    : Faithful st duration
      (g + gap queue.oldestRtpBaseSequenceNumber queue'.oldestRtpBaseSequenceNumber) queue' := by
  have hold : queue.oldestRtpBaseSequenceNumber.toNat % 4 = 0 := by
    have hvalue := toNat_sequenceNumber g
    have haligned := h.aligned
    rw [h.oldest]
    omega
  have hgap := gap_mod_four hold hmod
  have haligned := h.aligned
  constructor
  . omega
  . rw [← sequenceNumber_add, ← h.oldest, add_gap]
  . intro block hblock
    obtain ⟨b, hb, hholds, hle⟩ := hblocks block hblock
    refine ⟨b, ?_, hholds⟩
    rw [gap_sub hle]
    omega
  . exact hcompatible

theorem Faithful.stay {queue queue' : Queue} (h : Faithful st duration g queue)
    (holdest : queue'.oldestRtpBaseSequenceNumber = queue.oldestRtpBaseSequenceNumber)
    (hblocks : ∀ block ∈ queue'.blocks, ∃ b,
      4 * b = g + gap queue.oldestRtpBaseSequenceNumber block.fecHeader.baseSequenceNumber
        ∧ Holds st duration b block)
    (hcompatible : queue'.incompatibleServer = false)
    : Faithful st duration g queue' := by
  constructor
  . exact h.aligned
  . rw [holdest, h.oldest]
  . rw [holdest]
    exact hblocks
  . exact hcompatible

/- A step that leaves the numbers alone. -/
theorem Moved.stay {queue queue' : Queue} (h : Faithful st duration g queue')
    (holdest : queue'.oldestRtpBaseSequenceNumber = queue.oldestRtpBaseSequenceNumber)
    (hnext : queue'.nextRtpSequenceNumber = queue.nextRtpSequenceNumber)
    : Moved st duration g queue queue' 0 := by
  constructor
  . rw [holdest, gap_self]
    simpa using h
  . unfold Queue.ahead
    rw [holdest, hnext, gap_self]
    omega

theorem SameOrder.faithful {queue queue' : Queue} (h : SameOrder queue queue')
    (hfaithful : Faithful st duration g queue)
    (hcompatible : queue'.incompatibleServer = queue.incompatibleServer)
    : Faithful st duration g queue' := by
  apply hfaithful.stay h.oldest
  . rw [h.blocks]
    exact hfaithful.blocks
  . rw [hcompatible, hfaithful.compatible]

/- The block of the number `b`, which may still take packets. -/
structure Found (st : Stream) (duration : UInt32) (g b : Int) (queue : Queue) (i : Nat)
    (block : FecBlock) : Prop where
  get : queue.blocks[i]? = some block
  position : 4 * b = g + gap queue.oldestRtpBaseSequenceNumber block.fecHeader.baseSequenceNumber
  holds : Holds st duration b block
  incomplete : block.fullyReassembled = false

/- The packets of the block are less than half a turn away from the oldest one. -/
def Near (queue : Queue) (g b : Int) : Prop :=
  ¬ queue.Starting → -32768 ≤ 4 * b - g ∧ 4 * b - g ≤ 32767

instance (queue : Queue) (g b : Int) : Decidable (Near queue g b) :=
  inferInstanceAs (Decidable (_ → _))

/- What looking for the block of a packet of the stream ends with. -/
inductive Sought (st : Stream) (duration : UInt32) (g b : Int) (queue queue' : Queue)
    : Option Nat → Prop where
  | started (starting : queue.Starting) (faithful : Faithful st duration (4 * b + 4) queue')
    : Sought st duration g b queue queue' none
  | dropped (started : ¬ queue.Starting) (same : SameOrder queue queue')
      (faithful : Faithful st duration g queue')
    : Sought st duration g b queue queue' none
  | found (started : ¬ queue.Starting) (i : Nat) (block : FecBlock)
      (oldest : queue'.oldestRtpBaseSequenceNumber = queue.oldestRtpBaseSequenceNumber)
      (next : queue'.nextRtpSequenceNumber = queue.nextRtpSequenceNumber)
      (faithful : Faithful st duration g queue') (found : Found st duration g b queue' i block)
    : Sought st duration g b queue queue' (some i)

theorem Lookup.sought {queue queue' : Queue} {played : List (BitVec 16)} {packet : RtpPacket}
    {env : Env} {result : Option Nat} {b : Int}
    (h : Lookup queue packet (sizeofRtpPacket + packet.payload.length) duration env queue' result)
    (hplaying : queue.Playing played) (hfaithful : Faithful st duration g queue)
    (hsends : st.Sends duration b packet) (hnear : Near queue g b)
    (hempty : queue.Starting → queue.blocks = [])
    : Sought st duration g b queue queue' result := by
  have hheader := blockHeader_of_sends hsends queue
  have hlookup := h
  -- A block with the number of the packet is that of the packet, not one a turn away from it.
  have hsame : ∀ block ∈ queue.blocks, ¬ queue.Starting →
      block.fecHeader.baseSequenceNumber = sequenceNumber (4 * b) →
      4 * b = g + gap queue.oldestRtpBaseSequenceNumber block.fecHeader.baseSequenceNumber
        ∧ Holds st duration b block := by
    intro block hmem hstarted hbase
    obtain ⟨b', hb', hholds⟩ := hfaithful.blocks block hmem
    have hbound := hplaying.sorted.left block hmem
    rw [hbase] at hbound hb' ⊢
    have hposition := hfaithful.position hbound (hnear hstarted)
    have heq : b' = b := by omega
    exact ⟨hposition, heq ▸ hholds⟩
  cases h with
  | rejected same compatible reason =>
    rw [hheader] at reason
    have hstarted := reason.resolve_left (by simp)
    exact Sought.dropped hstarted same (same.faithful hfaithful compatible)
  | unaligned same reason =>
    rw [hheader] at reason
    exact absurd reason (by simp)
  | mismatch same block header blockSize started found mem base size =>
    rw [hheader, Option.some.injEq, Prod.mk.injEq] at found
    rw [← found.left] at base
    exact absurd ((hsame block mem started base).right.size.trans found.right) size
  | resync header blockSize found start blocks next oldest synchronizing compatible =>
    rw [hheader, Option.some.injEq, Prod.mk.injEq] at found
    apply Sought.started start
    constructor
    . omega
    . rw [oldest, ← found.left]
      exact sequenceNumber_add (4 * b) 4
    . rw [blocks, hempty start]
      simp
    . rw [compatible, hfaithful.compatible]
  | existing same i block header blockSize started found get base size incomplete compatible =>
    rw [hheader, Option.some.injEq, Prod.mk.injEq] at found
    rw [← found.left] at base
    have hblock := hsame block (List.mem_of_getElem? get) started base
    apply Sought.found started i block same.oldest same.next (same.faithful hfaithful compatible)
    constructor
    . rw [same.blocks, get]
    . rw [same.oldest, hblock.left]
    . exact hblock.right
    . exact incomplete
  | inserted header blockSize slab first last started found split blocks next oldest synchronizing
      compatible bound before after =>
    rw [hheader, Option.some.injEq, Prod.mk.injEq] at found
    obtain ⟨hfirst, hsize⟩ := found
    rw [← hfirst, ← hsize] at blocks
    have hposition : 4 * b = g + gap queue.oldestRtpBaseSequenceNumber
        (st.header duration b).baseSequenceNumber := by
      rw [← hfirst] at bound
      exact hfaithful.position bound (hnear started)
    have hholds := newBlock_holds st duration b env.queueTimeUs slab
    apply Sought.found started first.length _ oldest next
    . apply hfaithful.stay oldest
      . intro block hblock
        rw [blocks, List.mem_append, List.mem_cons] at hblock
        have hold : block ∈ queue.blocks ∨ block
            = newBlock (st.header duration b) (st.blockSize b) env.queueTimeUs slab := by
          rw [split, List.mem_append]
          tauto
        cases hold with
        | inl hmem => exact hfaithful.blocks block hmem
        | inr heq =>
          rw [heq]
          exact ⟨b, hposition, hholds⟩
      . rw [compatible, hfaithful.compatible]
    . constructor
      . rw [blocks]
        simp
        rfl
      . rw [oldest]
        exact hposition
      . exact hholds
      . rfl

/-
The steps of the queue
-/

section

variable {queue queue' : Queue} {played : List (BitVec 16)}

theorem handleMissingPackets_moved (h : queue.Playing played)
    (hfaithful : Faithful st duration g queue) (env : Env)
    : Moved st duration g queue (handleMissingPackets queue duration env) 0 := by
  have hstay : Moved st duration g queue queue 0 := Moved.stay hfaithful rfl rfl
  have hsorted := h.sorted
  unfold handleMissingPackets
  split
  . exact hstay
  . next head rest hblocks =>
    have hmem : head ∈ queue.blocks := by simp [hblocks]
    have hkey : head.key ∈ queue.keys := List.mem_map_of_mem hmem
    split
    . next hbefore =>
      have hkeys : queue.keys = head.key :: rest.map FecBlock.key := by
        unfold Queue.keys
        rw [hblocks, List.map_cons]
      have hordered : Ordered queue.oldestRtpBaseSequenceNumber queue.nextRtpSequenceNumber
          (head.key :: rest.map FecBlock.key) := hkeys ▸ h.toOrdered
      have hzero := hordered.gap_next_eq_zero (hordered.ne_of_before hbefore)
      constructor
      . apply hfaithful.move
        . exact h.base_mod head.key hkey
        . intro block hblock
          obtain ⟨b, hb, hholds⟩ := hfaithful.blocks block hblock
          refine ⟨b, hb, hholds, ?_⟩
          have hpairs := hsorted.right
          simp only at hblock ⊢
          rw [hblocks] at hblock hpairs
          cases List.mem_cons.mp hblock with
          | inl heq => rw [heq]
          | inr hlater => exact Nat.le_of_lt (List.rel_of_pairwise_cons hpairs hlater)
        . exact hfaithful.compatible
      . rw [hzero]
        exact Nat.zero_le _
    . split
      . exact hstay
      . split
        . refine Moved.stay ?_ rfl rfl
          refine hfaithful.stay rfl ?_ hfaithful.compatible
          intro block hblock
          cases List.mem_cons.mp hblock with
          | inl heq =>
            obtain ⟨b, hb, hholds⟩ := hfaithful.blocks head hmem
            rw [heq]
            exact ⟨b, hb, hholds.congr rfl rfl rfl rfl rfl (fun hnew => ⟨hnew, rfl, rfl⟩)⟩
          | inr hlater =>
            apply hfaithful.blocks block
            rw [hblocks]
            exact List.mem_cons_of_mem head hlater
        . exact hstay

theorem settle_moved (h : queue.Playing played) (hfaithful : Faithful st duration g queue)
    (env : Env)
    : Moved st duration g queue (settle queue duration env).1 0 := by
  unfold settle
  simp only
  split
  . exact Moved.stay hfaithful rfl rfl
  . exact handleMissingPackets_moved h hfaithful env

/- A block takes a shard that was sent. -/
theorem Faithful.set (hfaithful : Faithful st duration g queue) {i : Nat} {block block' : FecBlock}
    {b : Int} (hfound : Found st duration g b queue i block)
    (hbase : block'.fecHeader.baseSequenceNumber = block.fecHeader.baseSequenceNumber)
    (hholds : Holds st duration b block') (hblocks : queue'.blocks = queue.blocks.set i block')
    (holdest : queue'.oldestRtpBaseSequenceNumber = queue.oldestRtpBaseSequenceNumber)
    (hcompatible : queue'.incompatibleServer = queue.incompatibleServer)
    : Faithful st duration g queue' := by
  apply hfaithful.stay holdest
  . intro other hother
    rw [hblocks] at hother
    cases List.mem_or_eq_of_mem_set hother with
    | inl hmem => exact hfaithful.blocks other hmem
    | inr heq =>
      rw [heq, hbase]
      exact ⟨b, hfound.position, hholds⟩
  . rw [hcompatible, hfaithful.compatible]

theorem finishPacket_moved (h : queue.Playing played) (hfaithful : Faithful st duration g queue)
    {i : Nat} {block block' : FecBlock} {b : Int} (hfound : Found st duration g b queue i block)
    (hkey : block'.key = block.key) (hnew : block'.fullyReassembled = false)
    (hholds : Holds st duration b block') (env : Env)
    : Moved st duration g queue (finishPacket queue i block' duration env).1 0 := by
  have hcompleted := (tryComplete_key block' queue.stats duration).trans hkey
  have hset := (hholds.tryComplete hnew queue.stats).left
  have hplaying : Queue.Playing { queue with
      blocks := queue.blocks.set i (tryComplete block' queue.stats duration).1
      stats := (tryComplete block' queue.stats duration).2 } played :=
    h.set hfound.get hcompleted rfl rfl rfl rfl
  have hmoved := settle_moved hplaying
    (hfaithful.set hfound (congrArg Key.base hcompleted) hset rfl rfl rfl) env
  exact ⟨hmoved.faithful, hmoved.next⟩

/- The next packet is played, and the block is freed after its last one. -/
theorem advance_moved (h : queue.Playing played) (hfaithful : Faithful st duration g queue)
    (queue' : Queue) (head : FecBlock) {rest : List FecBlock}
    (hkeys : queue.keys = head.key :: rest.map FecBlock.key)
    (hrest : ∀ block ∈ rest, block ∈ queue.blocks)
    (hbase : head.fecHeader.baseSequenceNumber = queue.oldestRtpBaseSequenceNumber)
    (hholds : ∃ b, 4 * b = g ∧ Holds st duration b head)
    (hblocks : queue'.blocks
      = { head with nextDataPacketIndex := head.nextDataPacketIndex + 1 } :: rest)
    (hnext : queue'.nextRtpSequenceNumber = queue.nextRtpSequenceNumber + 1)
    (holdest : queue'.oldestRtpBaseSequenceNumber = queue.oldestRtpBaseSequenceNumber)
    (hcompatible : queue'.incompatibleServer = queue.incompatibleServer)
    : (head.nextDataPacketIndex + 1 ≠ 4 → Moved st duration g queue queue' 1)
      ∧ (head.nextDataPacketIndex + 1 = 4 →
        Moved st duration g queue (freeFecBlockHead queue') 1) := by
  have hordered : Ordered queue.oldestRtpBaseSequenceNumber queue.nextRtpSequenceNumber
      (head.key :: rest.map FecBlock.key) := hkeys ▸ h.toOrdered
  have hgap := h.next_gap
  have hsucc : gap queue.oldestRtpBaseSequenceNumber (queue.nextRtpSequenceNumber + 1)
      = gap queue.oldestRtpBaseSequenceNumber queue.nextRtpSequenceNumber + 1 :=
    gap_succ (by omega)
  constructor
  . intro _
    constructor
    . rw [holdest, gap_self, Nat.cast_zero, add_zero]
      apply hfaithful.stay holdest
      . intro block hblock
        rw [hblocks] at hblock
        cases List.mem_cons.mp hblock with
        | inl heq =>
          obtain ⟨b, hb, hheld⟩ := hholds
          rw [heq]
          refine ⟨b, ?_, hheld.congr rfl rfl rfl rfl rfl (fun hnew => ⟨hnew, rfl, rfl⟩)⟩
          simp only [hbase, gap_self]
          omega
        | inr hmem =>
          obtain ⟨b, hb, hheld⟩ := hfaithful.blocks block (hrest block hmem)
          exact ⟨b, by omega, hheld⟩
      . rw [hcompatible, hfaithful.compatible]
    . unfold Queue.ahead
      rw [holdest, hnext, hsucc, gap_self]
      omega
  . intro hindex
    obtain ⟨hleft, hold, hsame, _, hcompat⟩ := freeFecBlockHead_fields hblocks
    have hdrop := hordered.drop hbase hindex
    have hend : (freeFecBlockHead queue').oldestRtpBaseSequenceNumber
        = queue.oldestRtpBaseSequenceNumber + 4 := by
      rw [hold]
      exact congrArg (fun base : BitVec 16 => base + 4) hbase
    have hfour : gap queue.oldestRtpBaseSequenceNumber (queue.oldestRtpBaseSequenceNumber + 4) = 4 :=
      gap_add_ofNat _ (by decide)
    constructor
    . apply hfaithful.move
      . rw [hold]
        exact hdrop.left.oldest_mod
      . intro block hblock
        rw [hleft] at hblock
        obtain ⟨b, hb, hheld⟩ := hfaithful.blocks block (hrest block hblock)
        refine ⟨b, hb, hheld, ?_⟩
        have hkey : block.key ∈ head.key :: rest.map FecBlock.key :=
          List.mem_cons_of_mem _ (List.mem_map_of_mem hblock)
        have hne : block.key.base ≠ queue.oldestRtpBaseSequenceNumber := by
          intro heq
          have hlt := List.rel_of_pairwise_cons hordered.sorted (List.mem_map_of_mem hblock)
          rw [heq, gap_self] at hlt
          omega
        have hge := hordered.gap_ge hkey hne
        rw [hend, hfour]
        exact hge
      . rw [hcompat, hcompatible, hfaithful.compatible]
    . unfold Queue.ahead
      rw [hsame, hend, hfour]
      omega

/- A packet that is handled at once is the next one of the stream. -/
def Took (st : Stream) (duration : UInt32) (g : Int) (queue : Queue) (packet : RtpPacket)
    (result : Queue × Nat) : Prop :=
  (result.2 = RTPQ_RET_HANDLE_NOW → Moved st duration g queue result.1 1
    ∧ packet = st.dataPacket duration
      (g + gap queue.oldestRtpBaseSequenceNumber queue.nextRtpSequenceNumber))
  ∧ (result.2 ≠ RTPQ_RET_HANDLE_NOW → Moved st duration g queue result.1 0)

theorem Took.of_ne {packet : RtpPacket} {result : Queue × Nat}
    (h : Moved st duration g queue result.1 0) (hne : result.2 ≠ RTPQ_RET_HANDLE_NOW)
    : Took st duration g queue packet result := by
  exact ⟨fun hnow => absurd hnow hne, fun _ => h⟩

theorem addDataPacket_took (h : queue.Playing played) (hfaithful : Faithful st duration g queue)
    {i : Nat} {block : FecBlock} {b : Int} (hfound : Found st duration g b queue i block)
    {pos : Nat} (hpos : pos < 4) (env : Env)
    : Took st duration g queue (st.dataPacket duration (4 * b + pos))
        (addDataPacket queue i block (st.dataPacket duration (4 * b + pos))
          (sizeofRtpPacket + (st.dataPacket duration (4 * b + pos)).payload.length) duration env) := by
  have hheader : block.fecHeader.baseSequenceNumber = sequenceNumber (4 * b) := by
    rw [hfound.holds.header]
    rfl
  have hdistance : gap (sequenceNumber (4 * b)) (sequenceNumber (4 * b + pos)) = pos := by
    have hgap := gap_sequenceNumber (4 * b) (4 * b + pos)
    omega
  have hbase : block.fecHeader.baseSequenceNumber
      = (st.dataPacket duration (4 * b + pos)).sequenceNumber / 4 * 4 := by
    show _ = sequenceNumber (4 * b + pos) / 4 * 4
    rw [hheader, sequenceNumber_base]
    congr 1
    omega
  have hindex : ((st.dataPacket duration (4 * b + pos)).sequenceNumber
      - block.fecHeader.baseSequenceNumber).toNat = pos := by
    rw [hheader]
    exact hdistance
  have hadded := addDataPacket_added h hfound.get hbase
    (sizeofRtpPacket + (st.dataPacket duration (4 * b + pos)).payload.length) duration env
  generalize addDataPacket queue i block _ _ duration env = result at hadded
  cases hadded with
  | repeated => exact Took.of_ne (Moved.stay hfaithful rfl rfl) zero_ne_handleNow
  | inOrder pos' mark number next rest front base queue' result blocks next' oldest synchronizing
      compatible more last =>
    rw [hindex] at number
    rw [← number] at mark blocks
    have hposition := hfound.position
    rw [base, gap_self] at hposition
    have hkeys : queue.keys = block.key :: rest.map FecBlock.key := by
      unfold Queue.keys
      rw [front, List.map_cons]
    have hheld := hfound.holds.storeData hfound.incomplete hpos mark
    have hadvance := advance_moved h hfaithful queue'
      (storeData block pos (st.dataPacket duration (4 * b + pos))
        (sizeofRtpPacket + (st.dataPacket duration (4 * b + pos)).payload.length)) hkeys
      (fun other hother => by rw [front]; exact List.mem_cons_of_mem block hother) base
      ⟨b, by omega, hheld⟩ blocks next' oldest compatible
    refine ⟨fun _ => ⟨?_, ?_⟩, fun hne => absurd rfl hne⟩
    . cases Decidable.em (block.nextDataPacketIndex + 1 = 4) with
      | inl hlast =>
        rw [last hlast]
        exact hadvance.right hlast
      | inr hmore =>
        rw [more hmore]
        exact hadvance.left hmore
    . rw [← next, ← base, hheader]
      show _ = st.dataPacket duration (g + gap (sequenceNumber (4 * b)) (sequenceNumber (4 * b + pos)))
      rw [hdistance]
      congr 1
      omega
  | stored pos' mark number =>
    rw [hindex] at number
    rw [← number] at mark ⊢
    have hheld := hfound.holds.storeData hfound.incomplete hpos mark
    have hkey := storeData_key block pos (st.dataPacket duration (4 * b + pos))
      (sizeofRtpPacket + (st.dataPacket duration (4 * b + pos)).payload.length)
    exact Took.of_ne (finishPacket_moved h hfaithful hfound hkey hfound.incomplete hheld env)
      (finishPacket_playing h hfound.get hkey duration env).right

theorem addFecPacket_took (h : queue.Playing played) (hfaithful : Faithful st duration g queue)
    {i : Nat} {block : FecBlock} {b : Int} (hfound : Found st duration g b queue i block)
    {packet : RtpPacket} {j : Nat} (hj : j < 2) (hpayload : packet.payload = st.fecPayload duration b j)
    (env : Env)
    : Took st duration g queue packet
        (addFecPacket queue i block packet (sizeofRtpPacket + packet.payload.length)
          duration env) := by
  unfold addFecPacket
  rw [fecShardIndex_of_payload (by omega) hpayload]
  simp only
  split
  . next hmark =>
    have hkey := storeFec_key block j packet (sizeofRtpPacket + packet.payload.length)
    have hheld := hfound.holds.storeFec hfound.incomplete hj hmark hpayload
    exact Took.of_ne (finishPacket_moved h hfaithful hfound hkey hfound.incomplete hheld env)
      (finishPacket_playing h hfound.get hkey duration env).right
  . exact Took.of_ne (Moved.stay hfaithful rfl rfl) zero_ne_handleNow

/- The packet that is played is the one of the stream, unless it is lost. -/
def Handed (st : Stream) (duration : UInt32) (n : Int) (delivery : Delivery) : Prop :=
  delivery = .lost ∨ delivery = .packet (st.dataPacket duration n)

theorem advanceHead_moved (h : queue.Playing played) (hfaithful : Faithful st duration g queue)
    {head : FecBlock} {rest : List FecBlock} (hblocks : queue.blocks = head :: rest)
    (hbase : head.fecHeader.baseSequenceNumber = queue.oldestRtpBaseSequenceNumber)
    : Moved st duration g queue (advanceHead queue head rest) 1 := by
  have hkeys : queue.keys = head.key :: rest.map FecBlock.key := by
    unfold Queue.keys
    rw [hblocks, List.map_cons]
  obtain ⟨b, hb, hheld⟩ := hfaithful.blocks head (by simp [hblocks])
  rw [hbase, gap_self] at hb
  have hadvance := advance_moved h hfaithful { queue with
      nextRtpSequenceNumber := queue.nextRtpSequenceNumber + 1
      blocks := { head with nextDataPacketIndex := head.nextDataPacketIndex + 1 } :: rest }
    head hkeys (fun other hother => by rw [hblocks]; exact List.mem_cons_of_mem head hother) hbase
    ⟨b, by omega, hheld⟩ rfl rfl rfl rfl
  unfold advanceHead
  simp only
  split
  . next hlast => exact hadvance.right hlast
  . next hmore => exact hadvance.left hmore

/- A packet that was played out of the queue. -/
def Gave (st : Stream) (duration : UInt32) (g : Int) (queue : Queue)
    (result : Queue × Option Delivery) : Prop :=
  match result with
  | (queue', none) => Moved st duration g queue queue' 0
  | (queue', some delivery) => Moved st duration g queue queue' 1
    ∧ Handed st duration
      (g + gap queue.oldestRtpBaseSequenceNumber queue.nextRtpSequenceNumber) delivery

theorem takeReadyPacket_gave (h : queue.Playing played) (hfaithful : Faithful st duration g queue)
    (hmarks : ∀ head rest, queue.blocks = head :: rest → head.allowDiscontinuity = true →
      head.marks head.nextDataPacketIndex = false)
    (memory : Bool)
    : Gave st duration g queue (takeReadyPacket queue memory) := by
  have hstay : Moved st duration g queue queue 0 := Moved.stay hfaithful rfl rfl
  unfold takeReadyPacket
  cases hblocks : queue.blocks with
  | nil => exact hstay
  | cons head rest =>
    simp only
    cases hready : headReady head queue.nextRtpSequenceNumber with
    | false => exact hstay
    | true =>
      cases memory with
      | false => exact hstay
      | true =>
        have hbase := headReady_base h hblocks hready
        refine ⟨advanceHead_moved h hfaithful hblocks hbase, Or.inr ?_⟩
        have hmem : head ∈ queue.blocks := by simp [hblocks]
        obtain ⟨b, hb, hheld⟩ := hfaithful.blocks head hmem
        rw [hbase, gap_self] at hb
        have hindex : head.nextDataPacketIndex = gap queue.oldestRtpBaseSequenceNumber
            queue.nextRtpSequenceNumber :=
          (h.index head.key (List.mem_map_of_mem hmem)).trans (if_pos hbase)
        have hmark : head.marks head.nextDataPacketIndex = false := by
          unfold headReady at hready
          rw [Bool.or_eq_true, Bool.and_eq_true] at hready
          cases hready with
          | inl hnumber => simpa using hnumber.left
          | inr hgaps => exact hmarks head rest hblocks hgaps
        rw [hheld.data _ (h.index_lt hmem) hmark, hindex]
        congr 2
        omega

theorem rtpaGetQueuedPacket_gave (h : queue.Playing played)
    (hfaithful : Faithful st duration g queue) (memory : Bool)
    : Gave st duration g queue (rtpaGetQueuedPacket queue memory) := by
  have hstay : Moved st duration g queue queue 0 := Moved.stay hfaithful rfl rfl
  unfold rtpaGetQueuedPacket
  cases hblocks : queue.blocks with
  | nil => exact hstay
  | cons head rest =>
    have hmem : head ∈ queue.blocks := by simp [hblocks]
    have htake : (head.allowDiscontinuity = true →
        head.marks head.nextDataPacketIndex = false) →
        Gave st duration g queue (takeReadyPacket queue memory) := by
      intro hmark
      apply takeReadyPacket_gave h hfaithful
      intro head' rest' hblocks' hgaps
      rw [hblocks] at hblocks'
      have heq := List.head_eq_of_cons_eq hblocks'
      rw [← heq] at hgaps ⊢
      exact hmark hgaps
    simp only
    cases hgaps : head.allowDiscontinuity with
    | false => exact htake (fun hgap => absurd (hgaps.symm.trans hgap) (by simp))
    | true =>
      have hbase := h.gaps head.key (List.mem_map_of_mem hmem) hgaps
      cases hmark : head.marks head.nextDataPacketIndex with
      | true =>
        cases memory with
        | false => exact hstay
        | true => exact ⟨advanceHead_moved h hfaithful hblocks hbase, Or.inl rfl⟩
      | false =>
        have hindex : head.nextDataPacketIndex ≠ RTPA_DATA_SHARDS :=
          Nat.ne_of_lt (h.index_lt hmem)
        simp only [hindex, if_false]
        exact htake (fun _ => hmark)

/- A packet of the stream starts the queue, or is taken by it. -/
theorem rtpaAddPacket_took (h : queue.Playing played) (hfaithful : Faithful st duration g queue)
    {packet : RtpPacket} {b : Int} (hsends : st.Sends duration b packet) (hnear : Near queue g b)
    (hempty : queue.Starting → queue.blocks = []) (env : Env)
    : (queue.Starting
        ∧ (rtpaAddPacket queue packet (sizeofRtpPacket + packet.payload.length) duration env).2
          ≠ RTPQ_RET_HANDLE_NOW
        ∧ Faithful st duration (4 * b + 4)
          (rtpaAddPacket queue packet (sizeofRtpPacket + packet.payload.length) duration env).1)
      ∨ (¬ queue.Starting ∧ Took st duration g queue packet
        (rtpaAddPacket queue packet (sizeofRtpPacket + packet.payload.length) duration env)) := by
  have hlookup := getFecBlockForRtpPacket_lookup h packet
    (sizeofRtpPacket + packet.payload.length) duration env
  have hfound := hlookup.playing h hempty
  have hsought := hlookup.sought h hfaithful hsends hnear hempty
  unfold rtpaAddPacket
  rw [hfaithful.compatible]
  simp only [Bool.false_eq_true, if_false]
  cases hresult : getFecBlockForRtpPacket queue packet
      (sizeofRtpPacket + packet.payload.length) duration env with
  | mk queue' result =>
    rw [hresult] at hsought hfound
    simp only at hsought hfound
    cases hsought with
    | started starting faithful => exact Or.inl ⟨starting, zero_ne_handleNow, faithful⟩
    | dropped started same faithful =>
      refine Or.inr ⟨started, Took.of_ne ?_ zero_ne_handleNow⟩
      exact Moved.stay faithful same.oldest same.next
    | found started i block oldest next faithful found =>
      have htook : ∀ result, Took st duration g queue' packet result →
          Took st duration g queue packet result := by
        intro result htook
        have hmoved : ∀ count, Moved st duration g queue' result.1 count →
            Moved st duration g queue result.1 count := by
          intro count hmoved
          have hfaithful' := hmoved.faithful
          have hnext' := hmoved.next
          rw [oldest] at hfaithful' hnext'
          rw [next] at hnext'
          exact ⟨hfaithful', hnext'⟩
        constructor
        . intro hnow
          have htaken := htook.left hnow
          rw [← oldest, ← next]
          exact ⟨hmoved 1 htaken.left, htaken.right⟩
        . intro hne
          exact hmoved 0 (htook.right hne)
      refine Or.inr ⟨started, ?_⟩
      simp only [found.get]
      apply htook
      cases hsends with
      | data n =>
        have hpos : n = 4 * (n / 4) + ((n % 4).toNat : Int) := by omega
        have haudio : (st.dataPacket duration n).packetType = RTP_PAYLOAD_TYPE_AUDIO := rfl
        rw [if_pos haudio]
        have hadd := addDataPacket_took hfound.left faithful found
          (show (n % 4).toNat < 4 by omega) env
        rw [← hpos] at hadd
        exact hadd
      | parity b j packet index type payload =>
        have haudio : ¬ packet.packetType = RTP_PAYLOAD_TYPE_AUDIO := by
          rw [type]
          decide
        rw [if_neg haudio]
        exact addFecPacket_took hfound.left faithful found index payload env

end

/-
The stream over the network
-/

/- What the receiver gets: any packet of the stream, whichever came before, or none. -/
inductive Arrival where
  | timeout
  | runt
  | data (n : Int) (env : Env)
  | parity (b : Int) (j : Fin 2) (rtp : RtpPacket) (env : Env)
  | dequeue (memory : Bool)

def Arrival.event (st : Stream) (duration : UInt32) : Arrival → Event
  | .timeout => .timeout
  | .runt => .runt
  | .data n env => .received (st.dataPacket duration n) env
  | .parity b j rtp env =>
    .received
      { rtp with packetType := RTP_PAYLOAD_TYPE_FEC, payload := st.fecPayload duration b j } env
  | .dequeue memory => .dequeue memory

def Arrival.block : Arrival → Option Int
  | .data n _ => some (n / 4)
  | .parity b _ _ _ => some b
  | _ => none

/- The packet of the stream that has the oldest number, once a packet was looked at. -/
def position (r : Receiver) (g : Int) (a : Arrival) (r' : Receiver) : Int :=
  if r.queue.Starting then
    match a.block with
    | some b => if r.packetsToDrop > 0 then g else 4 * b + 4
    | none => g
  else
    g + gap r.queue.oldestRtpBaseSequenceNumber r'.queue.oldestRtpBaseSequenceNumber

def overNetwork (st : Stream) (appVersionQuad : Connection.AppVersionQuad) (duration : UInt32)
    : Machine (Receiver × Int) Arrival where
  init := ⟨(receiver appVersionQuad duration).init, 0⟩
  step s a := (receiverStep duration s.1 (a.event st duration)).map fun r =>
    ⟨r, position s.1 s.2 a r⟩

/- No packet is late by half a turn of the numbers, and the queue has no blocks when it starts. -/
def Timely (s : Receiver × Int) (a : Arrival) : Prop :=
  (s.1.queue.Starting → s.1.queue.blocks = []) ∧ ∀ b ∈ a.block, Near s.1.queue s.2 b

instance (s : Receiver × Int) (a : Arrival) : Decidable (Timely s a) :=
  inferInstanceAs (Decidable (_ ∧ _))

/- What was played are packets of the stream before `bound`, in their order. -/
def Ascending (st : Stream) (duration : UInt32) (bound : Int)
    (delivered : List (BitVec 16 × Delivery)) : Prop :=
  ∃ ns : List Int, ns.Pairwise (· < ·) ∧ (∀ n ∈ ns, n < bound)
    ∧ List.Forall₂ (fun n d => d.1 = sequenceNumber n ∧ Handed st duration n d.2) ns delivered

theorem Ascending.mono {bound bound' : Int} {delivered : List (BitVec 16 × Delivery)}
    (h : Ascending st duration bound delivered) (hle : bound ≤ bound')
    : Ascending st duration bound' delivered := by
  obtain ⟨ns, hsorted, hbound, hdelivered⟩ := h
  exact ⟨ns, hsorted, fun n hn => Int.lt_of_lt_of_le (hbound n hn) hle, hdelivered⟩

theorem Ascending.append {bound bound' : Int} {delivered : List (BitVec 16 × Delivery)}
    (h : Ascending st duration bound delivered) {delivery : Delivery}
    (hhanded : Handed st duration bound delivery) (hlt : bound < bound')
    : Ascending st duration bound' (delivered ++ [(sequenceNumber bound, delivery)]) := by
  obtain ⟨ns, hsorted, hbound, hdelivered⟩ := h
  refine ⟨ns ++ [bound], ?_, ?_, ?_⟩
  . apply List.pairwise_append.mpr
    refine ⟨hsorted, List.pairwise_singleton _ _, ?_⟩
    intro n hn m hm
    rw [List.mem_singleton.mp hm]
    exact hbound n hn
  . intro n hn
    cases List.mem_append.mp hn with
    | inl hmem => exact Int.lt_trans (hbound n hmem) hlt
    | inr hlast => rw [List.mem_singleton.mp hlast]; exact hlt
  . exact List.rel_append hdelivered (List.Forall₂.cons ⟨rfl, hhanded⟩ List.Forall₂.nil)

theorem ascending_nil (bound : Int) : Ascending st duration bound [] := by
  exact ⟨[], List.Pairwise.nil, by simp, List.Forall₂.nil⟩

/- What holds in every state. -/
structure Heard (st : Stream) (duration : UInt32) (s : Receiver × Int) : Prop where
  playing : s.1.Playing
  faithful : Faithful st duration s.2 s.1.queue
  ascending : Ascending st duration
    (s.2 + gap s.1.queue.oldestRtpBaseSequenceNumber s.1.queue.nextRtpSequenceNumber) s.1.delivered

/- A queue without blocks that starts has not played anything. -/
theorem Heard.delivered_eq_nil {s : Receiver × Int} (h : Heard st duration s)
    (hstart : s.1.queue.Starting) (hempty : s.1.queue.blocks = [])
    : s.1.delivered = [] := by
  cases hdelivered : s.1.delivered with
  | nil => rfl
  | cons d rest =>
    have hkeys := h.playing.started hstart.left (by simp [hdelivered])
    unfold Queue.keys at hkeys
    rw [hempty] at hkeys
    exact absurd rfl hkeys

theorem Moved.ascending {queue queue' : Queue} (h : Moved st duration g queue queue' 0)
    {delivered : List (BitVec 16 × Delivery)}
    (hascending : Ascending st duration
      (g + gap queue.oldestRtpBaseSequenceNumber queue.nextRtpSequenceNumber) delivered)
    : Ascending st duration
      (g + gap queue.oldestRtpBaseSequenceNumber queue'.oldestRtpBaseSequenceNumber
        + gap queue'.oldestRtpBaseSequenceNumber queue'.nextRtpSequenceNumber) delivered := by
  have hnext := h.next
  unfold Queue.ahead at hnext
  exact hascending.mono (by omega)

theorem Moved.play {queue queue' : Queue} (h : Moved st duration g queue queue' 1)
    (hfaithful : Faithful st duration g queue) {delivered : List (BitVec 16 × Delivery)}
    (hascending : Ascending st duration
      (g + gap queue.oldestRtpBaseSequenceNumber queue.nextRtpSequenceNumber) delivered)
    {delivery : Delivery}
    (hhanded : Handed st duration
      (g + gap queue.oldestRtpBaseSequenceNumber queue.nextRtpSequenceNumber) delivery)
    : Ascending st duration
      (g + gap queue.oldestRtpBaseSequenceNumber queue'.oldestRtpBaseSequenceNumber
        + gap queue'.oldestRtpBaseSequenceNumber queue'.nextRtpSequenceNumber)
      (delivered ++ [(queue.nextRtpSequenceNumber, delivery)]) := by
  have hnext := h.next
  have hnumber : queue.nextRtpSequenceNumber = sequenceNumber
      (g + gap queue.oldestRtpBaseSequenceNumber queue.nextRtpSequenceNumber) := by
    rw [← sequenceNumber_add, ← hfaithful.oldest, add_gap]
  unfold Queue.ahead at hnext
  have happend := hascending.append hhanded (by omega : _ < g
    + gap queue.oldestRtpBaseSequenceNumber queue'.oldestRtpBaseSequenceNumber
    + gap queue'.oldestRtpBaseSequenceNumber queue'.nextRtpSequenceNumber)
  rw [← hnumber] at happend
  exact happend

/- The receiver looked at nothing. -/
theorem Heard.same {s : Receiver × Int} (h : Heard st duration s) {a : Arrival} {r : Receiver}
    (hblock : ∀ b ∈ a.block, s.1.packetsToDrop > 0) (hqueue : r.queue = s.1.queue)
    (hdelivered : r.delivered = s.1.delivered) (hplaying : r.Playing)
    : Heard st duration ⟨r, position s.1 s.2 a r⟩ := by
  have hposition : position s.1 s.2 a r = s.2 := by
    unfold position
    rw [hqueue, gap_self, Nat.cast_zero, add_zero]
    cases hresult : a.block with
    | none => rw [ite_self]
    | some b =>
      have hdrop := hblock b hresult
      simp only [hdrop, if_true, ite_self]
  rw [hposition]
  constructor
  . exact hplaying
  . exact hqueue ▸ h.faithful
  . simp only [hqueue, hdelivered]
    exact h.ascending

theorem Heard.receive {s : Receiver × Int} (h : Heard st duration s) {a : Arrival}
    {packet : RtpPacket} {env : Env} {b : Int} (hevent : a.block = some b)
    (hsends : st.Sends duration b packet) (htimely : Timely s a)
    (hplaying : (receivePacket s.1 packet duration env).Playing)
    : Heard st duration ⟨receivePacket s.1 packet duration env,
        position s.1 s.2 a (receivePacket s.1 packet duration env)⟩ := by
  have htook := rtpaAddPacket_took h.playing h.faithful hsends (htimely.right b hevent)
    htimely.left env
  cases Decidable.em (s.1.packetsToDrop > 0) with
  | inl hdrop =>
    have hqueue : (receivePacket s.1 packet duration env).queue = s.1.queue := by
      unfold receivePacket
      simp only [hdrop, if_true]
      split
      . rfl
      . rfl
    have hdelivered : (receivePacket s.1 packet duration env).delivered = s.1.delivered := by
      unfold receivePacket
      simp only [hdrop, if_true]
      split
      . rfl
      . rfl
    exact h.same (fun _ _ => hdrop) hqueue hdelivered hplaying
  | inr hlook =>
    cases hresult : rtpaAddPacket s.1.queue packet (sizeofRtpPacket + packet.payload.length)
        duration env with
    | mk queue status =>
      rw [hresult] at htook
      simp only at htook
      have hqueue : (receivePacket s.1 packet duration env).queue = queue := by
        unfold receivePacket
        simp only [hlook, if_false, hresult]
        split
        . rfl
        . rfl
      have hdelivered : (receivePacket s.1 packet duration env).delivered
          = if status = RTPQ_RET_HANDLE_NOW then
              s.1.delivered ++ [(packet.sequenceNumber, .packet packet)]
            else
              s.1.delivered := by
        unfold receivePacket
        simp only [hlook, if_false, hresult]
        split
        . rfl
        . rfl
      cases htook with
      | inl hstart =>
        obtain ⟨hstarting, hstatus, hfaithful⟩ := hstart
        have hposition : position s.1 s.2 a (receivePacket s.1 packet duration env)
            = 4 * b + 4 := by
          unfold position
          simp only [hstarting, if_true, hevent, hlook, if_false]
        have hnone := h.delivered_eq_nil hstarting (htimely.left hstarting)
        rw [hposition]
        refine ⟨hplaying, hqueue ▸ hfaithful, ?_⟩
        simp only [hdelivered, hstatus, if_false, hnone]
        exact ascending_nil _
      | inr hstarted =>
        obtain ⟨hstarted, htook⟩ := hstarted
        have hposition : position s.1 s.2 a (receivePacket s.1 packet duration env)
            = s.2 + gap s.1.queue.oldestRtpBaseSequenceNumber queue.oldestRtpBaseSequenceNumber := by
          unfold position
          rw [if_neg hstarted, hqueue]
        rw [hposition]
        cases Decidable.em (status = RTPQ_RET_HANDLE_NOW) with
        | inl hnow =>
          obtain ⟨hmoved, hpacket⟩ := htook.left hnow
          have hhanded := rtpaAddPacket_playing h.playing h.faithful.compatible htimely.left packet
            (sizeofRtpPacket + packet.payload.length) duration env
          rw [hresult] at hhanded
          have hnumber := (hhanded.left hnow).left
          refine ⟨hplaying, hqueue ▸ hmoved.faithful, ?_⟩
          simp only [hdelivered, hnow, if_true, hqueue]
          rw [hnumber]
          exact hmoved.play h.faithful h.ascending (Or.inr (congrArg Delivery.packet hpacket))
        | inr hne =>
          have hmoved := htook.right hne
          refine ⟨hplaying, hqueue ▸ hmoved.faithful, ?_⟩
          simp only [hdelivered, hne, if_false, hqueue]
          exact hmoved.ascending h.ascending

theorem Heard.dequeue {s : Receiver × Int} (h : Heard st duration s) (memory : Bool)
    (hempty : s.1.queue.Starting → s.1.queue.blocks = []) {queue : Queue}
    {delivery : Option Delivery} (hget : rtpaGetQueuedPacket s.1.queue memory = (queue, delivery))
    {r : Receiver} (hqueue : r.queue = queue)
    (hdelivered : r.delivered = s.1.delivered
      ++ (delivery.map fun d => (s.1.queue.nextRtpSequenceNumber, d)).toList)
    (hplaying : r.Playing)
    : Heard st duration ⟨r, position s.1 s.2 (.dequeue memory) r⟩ := by
  cases Decidable.em s.1.queue.Starting with
  | inl hstart =>
    unfold rtpaGetQueuedPacket at hget
    rw [hempty hstart] at hget
    obtain ⟨hsame, hnone⟩ := Prod.mk.inj hget
    rw [← hnone] at hdelivered
    exact h.same (by simp [Arrival.block]) (hqueue.trans hsame.symm) (by simpa using hdelivered)
      hplaying
  | inr hstarted =>
    have hgave := rtpaGetQueuedPacket_gave h.playing h.faithful memory
    rw [hget] at hgave
    have hposition : position s.1 s.2 (.dequeue memory) r
        = s.2 + gap s.1.queue.oldestRtpBaseSequenceNumber queue.oldestRtpBaseSequenceNumber := by
      unfold position
      rw [if_neg hstarted, hqueue]
    rw [hposition]
    cases delivery with
    | none =>
      refine ⟨hplaying, hqueue ▸ hgave.faithful, ?_⟩
      simp only [hqueue, hdelivered, Option.map_none, Option.toList_none, List.append_nil]
      exact hgave.ascending h.ascending
    | some d =>
      refine ⟨hplaying, hqueue ▸ hgave.left.faithful, ?_⟩
      simp only [hqueue, hdelivered, Option.map_some, Option.toList_some]
      exact hgave.left.play h.faithful h.ascending hgave.right

theorem heard_step {s s' : Receiver × Int} {appVersionQuad : Connection.AppVersionQuad} {a : Arrival}
    (h : Heard st duration s) (htimely : Timely s a)
    (hstep : (overNetwork st appVersionQuad duration).step s a = some s')
    : Heard st duration s' := by
  obtain ⟨r, hr, heq⟩ := Option.map_eq_some_iff.mp hstep
  have hplaying := receiverStep_playing h.playing ⟨h.faithful.compatible, htimely.left⟩ hr
  rw [← heq]
  cases a with
  | timeout =>
    simp only [Arrival.event, receiverStep] at hr
    split at hr
    . exact absurd hr (by simp)
    . split at hr
      . rw [← Option.some_inj.mp hr] at hplaying ⊢
        exact h.same (by simp [Arrival.block]) rfl rfl hplaying
      . rw [← Option.some_inj.mp hr] at hplaying ⊢
        exact h.same (by simp [Arrival.block]) rfl rfl hplaying
  | runt =>
    simp only [Arrival.event, receiverStep] at hr
    split at hr
    . exact absurd hr (by simp)
    . rw [← Option.some_inj.mp hr] at hplaying ⊢
      exact h.same (by simp [Arrival.block]) rfl rfl hplaying
  | data n env =>
    simp only [Arrival.event, receiverStep] at hr
    split at hr
    . exact absurd hr (by simp)
    . rw [← Option.some_inj.mp hr] at hplaying ⊢
      exact h.receive rfl (Stream.Sends.data n) htimely hplaying
  | parity b j rtp env =>
    simp only [Arrival.event, receiverStep] at hr
    split at hr
    . exact absurd hr (by simp)
    . rw [← Option.some_inj.mp hr] at hplaying ⊢
      exact h.receive rfl (Stream.Sends.parity b j _ j.isLt rfl rfl) htimely hplaying
  | dequeue memory =>
    simp only [Arrival.event, receiverStep] at hr
    split at hr
    . cases hget : rtpaGetQueuedPacket s.1.queue memory with
      | mk queue delivery =>
        rw [hget] at hr
        cases delivery with
        | none =>
          rw [← Option.some_inj.mp hr] at hplaying ⊢
          exact h.dequeue memory htimely.left hget rfl (by simp) hplaying
        | some d =>
          rw [← Option.some_inj.mp hr] at hplaying ⊢
          exact h.dequeue memory htimely.left hget rfl rfl hplaying
    . exact absurd hr (by simp)

theorem overNetwork_heard {appVersionQuad : Connection.AppVersionQuad} {arrivals : List Arrival}
    {s : Receiver × Int} (hversion : appVersionQuad.atLeast 7 1 415 = true)
    (hmeet : (overNetwork st appVersionQuad duration).StepsMeet Timely
      (overNetwork st appVersionQuad duration).init arrivals)
    (hrun : (overNetwork st appVersionQuad duration).run arrivals = some s)
    : Heard st duration s := by
  refine Machine.runFrom_invariant_of_stepsMeet _ Timely (Heard st duration) ?_ _ s arrivals ?_
    hmeet hrun
  . intro s a s' h htimely hstep
    exact heard_step h htimely hstep
  . constructor
    . constructor
      . exact ordered_nil rfl
      . exact List.IsChain.nil
      . intro a ha
        exact absurd ha (by simp [overNetwork, receiver])
      . intro _ hne
        exact absurd rfl hne
    . constructor
      . rfl
      . rfl
      . intro block hblock
        exact absurd hblock (by simp [overNetwork, receiver, rtpaInitializeQueue])
      . show (!appVersionQuad.atLeast 7 1 415) = false
        rw [hversion]
        rfl
    . exact ascending_nil _

/-
Whatever the network loses, repeats, reorders or holds back: what is played are packets of the
stream, as they were sent or as they were recovered, in their order and each at most once, or notices
that one is lost.
-/
theorem overNetwork_faithful (st : Stream) (appVersionQuad : Connection.AppVersionQuad)
    (duration : UInt32) (arrivals : List Arrival) (s : Receiver × Int)
    (hversion : appVersionQuad.atLeast 7 1 415 = true)
    (hmeet : (overNetwork st appVersionQuad duration).StepsMeet Timely
      (overNetwork st appVersionQuad duration).init arrivals)
    (hrun : (overNetwork st appVersionQuad duration).run arrivals = some s)
    : s.1.queue.incompatibleServer = false
      ∧ ∃ ns : List Int, ns.Pairwise (· < ·)
        ∧ List.Forall₂ (fun n d => d.1 = sequenceNumber n
            ∧ (d.2 = .lost ∨ d.2 = .packet (st.dataPacket duration n))) ns s.1.delivered := by
  have hheard := overNetwork_heard hversion hmeet hrun
  obtain ⟨ns, hsorted, _, hdelivered⟩ := hheard.ascending
  exact ⟨hheard.faithful.compatible, ns, hsorted, hdelivered⟩

/- Packets that are less than half a turn apart have times in their order. -/
theorem timestampOf_isBefore (st : Stream) {m n : Int} (hlt : m < n) (hnear : n - m ≤ 32767)
    (hduration : 0 < duration.toNat ∧ duration.toNat ≤ 65538)
    : isBefore (st.timestampOf duration m).toBitVec (st.timestampOf duration n).toBitVec
      = true := by
  obtain ⟨k, hk⟩ : ∃ k : Nat, n = m + k := ⟨(n - m).toNat, by omega⟩
  have hpos : 1 * duration.toNat ≤ k * duration.toNat := Nat.mul_le_mul_right _ (by omega)
  have hbound : k * duration.toNat ≤ 32767 * 65538 := Nat.mul_le_mul (by omega) hduration.right
  have hsmall : (UInt32.ofNat k).toNat = k := by
    apply UInt32.toNat_ofNat_of_lt'
    unfold UInt32.size
    omega
  have hproduct : (UInt32.ofNat k * duration).toNat = k * duration.toNat := by
    rw [UInt32.toNat_mul, hsmall, Nat.mod_eq_of_lt (by omega)]
  have hgap := gap_trans_cases (st.timestampOf duration m).toBitVec
    (st.timestampOf duration n).toBitVec (st.timestampOf duration m).toBitVec
  have hahead : gap (st.timestampOf duration m).toBitVec (st.timestampOf duration n).toBitVec
      = k * duration.toNat := by
    unfold gap
    rw [hk, ← timestampOf_add, UInt32.toBitVec_add, BitVec.add_comm, BitVec.add_sub_cancel]
    exact hproduct
  rw [isBefore_iff]
  rw [gap_self] at hgap
  omega

/-
The list passes every check if it is sorted behind the head and all of its blocks have the size, the
type and the source of the last one.
-/
theorem validBlocks_alike {lastSeqNum : BitVec 16} {lastTs : UInt32} {lastBlock : FecBlock}
    {blocks : List FecBlock}
    (hsorted : ∀ block ∈ blocks, isBefore lastSeqNum block.fecHeader.baseSequenceNumber = true
      ∧ isBefore lastTs.toBitVec block.fecHeader.baseTimestamp.toBitVec = true)
    (halike : ∀ block ∈ blocks, block.blockSize = lastBlock.blockSize
      ∧ block.fecHeader.payloadType = lastBlock.fecHeader.payloadType
      ∧ block.fecHeader.ssrc = lastBlock.fecHeader.ssrc)
    : validBlocks false lastSeqNum lastTs lastBlock blocks = true := by
  induction blocks generalizing lastBlock with
  | nil => rfl
  | cons block blocks ih =>
    obtain ⟨hnumber, htime⟩ := hsorted block List.mem_cons_self
    obtain ⟨hsize, htype, hssrc⟩ := halike block List.mem_cons_self
    have hrest : validBlocks false lastSeqNum lastTs block blocks = true := by
      apply ih
      . intro other hother
        exact hsorted other (List.mem_cons_of_mem block hother)
      . intro other hother
        rw [hsize, htype, hssrc]
        exact halike other (List.mem_cons_of_mem block hother)
    unfold validBlocks
    simp [hnumber, htime, hsize, htype, hssrc, hrest]

def counting : Stream where
  payload n := [UInt8.ofNat (n % 256).toNat]
  blockSize _ := 1
  length_payload _ := rfl
  timestamp := 90
  ssrc := 7

def spareMemory : Env :=
  ⟨0, 0, some ⟨fun _ => counting.dataPacket 5 0, fun _ => []⟩⟩

/- 9 comes twice, 10 is recovered from the parity, and 12, 13 and 15 are lost. -/
def lossyNetwork : List Arrival :=
  [.data 3 spareMemory, .timeout, .data 4 spareMemory, .data 8 spareMemory, .data 9 spareMemory,
    .data 9 spareMemory, .data 11 spareMemory, .parity 2 1 (counting.dataPacket 5 0) spareMemory,
    .dequeue true, .dequeue true, .dequeue true, .data 14 spareMemory, .data 16 spareMemory,
    .dequeue true, .dequeue true, .dequeue true]

theorem overNetwork_faithful_lossy
    : ∃ s, (overNetwork counting ⟨7, 1, 415, 0⟩ 5).run lossyNetwork = some s
      ∧ ∃ ns : List Int, ns.Pairwise (· < ·)
        ∧ List.Forall₂ (fun n d => d.1 = sequenceNumber n
            ∧ (d.2 = .lost ∨ d.2 = .packet (counting.dataPacket 5 n))) ns s.1.delivered := by
  have hsome : ((overNetwork counting ⟨7, 1, 415, 0⟩ 5).run lossyNetwork).isSome = true := by
    decide +kernel
  obtain ⟨s, hrun⟩ := Option.isSome_iff_exists.mp hsome
  exact ⟨s, hrun, (overNetwork_faithful counting ⟨7, 1, 415, 0⟩ 5 lossyNetwork s rfl
    (by decide +kernel) hrun).right⟩

example : ((overNetwork counting ⟨7, 1, 415, 0⟩ 5).run lossyNetwork).map (fun s => s.1.delivered)
    = some [(8, .packet (counting.dataPacket 5 8)), (9, .packet (counting.dataPacket 5 9)),
      (10, .packet (counting.dataPacket 5 10)), (11, .packet (counting.dataPacket 5 11)),
      (12, .lost), (13, .lost), (14, .packet (counting.dataPacket 5 14))] := by
  decide +kernel

end Rtp

end Audio

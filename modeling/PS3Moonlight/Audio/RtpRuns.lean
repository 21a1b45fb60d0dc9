import PS3Moonlight.Audio.RtpOrder

/-!
This module contains the runs of the audio queue: what the assertions of the source demand of the
list of the blocks holds in every state, and the packets are played in order, each at most once.
-/

namespace Audio

namespace Rtp

open Fec Serial Transition

def Queue.Playing (queue : Queue) (played : List (BitVec 16)) : Prop :=
  Rtp.Playing queue.oldestRtpBaseSequenceNumber queue.nextRtpSequenceNumber queue.synchronizing
    queue.keys played

/- What only counts packets, or remembers the late ones. -/
structure SameOrder (queue queue' : Queue) : Prop where
  blocks : queue'.blocks = queue.blocks
  oldest : queue'.oldestRtpBaseSequenceNumber = queue.oldestRtpBaseSequenceNumber
  next : queue'.nextRtpSequenceNumber = queue.nextRtpSequenceNumber
  synchronizing : queue'.synchronizing = queue.synchronizing

theorem SameOrder.refl (queue : Queue) : SameOrder queue queue := by
  exact ⟨rfl, rfl, rfl, rfl⟩

theorem SameOrder.trans {first second third : Queue} (h : SameOrder first second)
    (h' : SameOrder second third)
    : SameOrder first third := by
  exact ⟨h'.blocks.trans h.blocks, h'.oldest.trans h.oldest, h'.next.trans h.next,
    h'.synchronizing.trans h.synchronizing⟩

theorem SameOrder.playing {queue queue' : Queue} {played : List (BitVec 16)}
    (h : SameOrder queue queue') (hplaying : queue.Playing played)
    : queue'.Playing played := by
  unfold Queue.Playing Queue.keys at *
  rw [h.blocks, h.oldest, h.next, h.synchronizing]
  exact hplaying

theorem noteOos_same (queue : Queue) (s : BitVec 16) : SameOrder queue (noteOos queue s) := by
  unfold noteOos
  split
  . exact ⟨rfl, rfl, rfl, rfl⟩
  . split
    . exact ⟨rfl, rfl, rfl, rfl⟩
    . exact SameOrder.refl queue

theorem toNat_mod_four (b : BitVec 16) (h : ¬ b % 4 ≠ 0) : b.toNat % 4 = 0 := by
  have hzero := congrArg BitVec.toNat (not_not.mp h)
  rw [BitVec.toNat_umod] at hzero
  exact hzero

theorem blockHeader_same (queue : Queue) (packet : RtpPacket) (length : Nat) (duration : UInt32)
    : SameOrder queue (blockHeader queue packet length duration).1 := by
  unfold blockHeader
  split
  . split
    . exact ⟨rfl, rfl, rfl, rfl⟩
    . have hcount : SameOrder queue (countAudio queue) := ⟨rfl, rfl, rfl, rfl⟩
      exact hcount.trans (noteOos_same (countAudio queue) packet.sequenceNumber)
  . split
    . split
      . exact ⟨rfl, rfl, rfl, rfl⟩
      . simp only
        split
        . exact ⟨rfl, rfl, rfl, rfl⟩
        . split
          . exact ⟨rfl, rfl, rfl, rfl⟩
          . exact ⟨rfl, rfl, rfl, rfl⟩
    . exact SameOrder.refl queue

theorem blockHeader_base {queue : Queue} {packet : RtpPacket} {length : Nat} {duration : UInt32}
    {header : FecHeader} {blockSize : Nat}
    (h : (blockHeader queue packet length duration).2 = some (header, blockSize))
    : header.baseSequenceNumber.toNat % 4 = 0
      ∧ (packet.packetType = RTP_PAYLOAD_TYPE_AUDIO →
        header.baseSequenceNumber = packet.sequenceNumber / 4 * 4) := by
  unfold blockHeader at h
  split at h
  . split at h
    . exact absurd h (by simp)
    . simp only [Option.some.injEq, Prod.mk.injEq] at h
      rw [← h.left]
      refine ⟨?_, fun _ => rfl⟩
      have hbase := toNat_base packet.sequenceNumber
      show (packet.sequenceNumber / 4 * 4).toNat % 4 = 0
      omega
  . next hother =>
    split at h
    . split at h
      . exact absurd h (by simp)
      . simp only at h
        split at h
        . exact absurd h (by simp)
        . split at h
          . exact absurd h (by simp)
          . next hmod =>
            simp only [Option.some.injEq, Prod.mk.injEq] at h
            rw [← h.left]
            exact ⟨toNat_mod_four _ hmod, fun haudio => absurd haudio hother⟩
    . exact absurd h (by simp)

/- Where a block is, or between which ones it has to go. -/
theorem findBlock_cases {o base : BitVec 16} (hbase : gap o base ≤ 32767) (blocks : List FecBlock)
    (hgap : ∀ block ∈ blocks, gap o block.fecHeader.baseSequenceNumber ≤ 32767)
    (hsorted : blocks.Pairwise fun a b =>
      gap o a.fecHeader.baseSequenceNumber < gap o b.fecHeader.baseSequenceNumber) (k : Nat)
    : (∃ i block, findBlock blocks base k = .existing (k + i) ∧ blocks[i]? = some block
        ∧ block.fecHeader.baseSequenceNumber = base)
      ∨ (∃ first last, blocks = first ++ last ∧ findBlock blocks base k = .before (k + first.length)
        ∧ (∀ block ∈ first, gap o block.fecHeader.baseSequenceNumber < gap o base)
        ∧ (∀ block ∈ last, gap o base < gap o block.fecHeader.baseSequenceNumber)) := by
  induction blocks generalizing k with
  | nil => exact Or.inr ⟨[], [], rfl, rfl, by simp, by simp⟩
  | cons block blocks ih =>
    have hpairs := List.pairwise_cons.mp hsorted
    have hblock := hgap block List.mem_cons_self
    unfold findBlock
    cases Decidable.em (block.fecHeader.baseSequenceNumber = base) with
    | inl heq =>
      rw [if_pos heq]
      exact Or.inl ⟨0, block, rfl, rfl, heq⟩
    | inr hne =>
      rw [if_neg hne]
      have hiff := isBefore_iff_gap_lt (a := o) (x := base)
        (y := block.fecHeader.baseSequenceNumber) hbase hblock
      cases hbefore : isBefore base block.fecHeader.baseSequenceNumber with
      | true =>
        have hlt := hiff.mp hbefore
        refine Or.inr ⟨[], block :: blocks, rfl, rfl, by simp, ?_⟩
        intro other hother
        cases List.mem_cons.mp hother with
        | inl heq => rw [heq]; exact hlt
        | inr hmem => exact Nat.lt_trans hlt (hpairs.left other hmem)
      | false =>
        have hlt : gap o block.fecHeader.baseSequenceNumber < gap o base := by
          have hnot : ¬ gap o base < gap o block.fecHeader.baseSequenceNumber := by
            intro hlt
            rw [hiff.mpr hlt] at hbefore
            exact absurd hbefore (by simp)
          have hdiff : gap o block.fecHeader.baseSequenceNumber ≠ gap o base :=
            fun heq => hne (eq_of_gap_eq heq)
          omega
        have hrest := ih (fun other hother => hgap other (List.mem_cons_of_mem block hother))
          hpairs.right (k + 1)
        cases hrest with
        | inl hexisting =>
          obtain ⟨i, found, hfind, hget, hsame⟩ := hexisting
          refine Or.inl ⟨i + 1, found, ?_, hget, hsame⟩
          simp only [Bool.false_eq_true, if_false, hfind]
          congr 1
          omega
        | inr hbetween =>
          obtain ⟨first, last, hsplit, hfind, hfirst, hlast⟩ := hbetween
          refine Or.inr ⟨block :: first, last, by rw [hsplit]; rfl, ?_, ?_, hlast⟩
          . simp only [Bool.false_eq_true, if_false, hfind, List.length_cons]
            congr 1
            omega
          . intro other hother
            cases List.mem_cons.mp hother with
            | inl heq => rw [heq]; exact hlt
            | inr hmem => exact hfirst other hmem

theorem insertIdx_length {α : Type} (first last : List α) (x : α)
    : (first ++ last).insertIdx first.length x = first ++ x :: last := by
  induction first with
  | nil => simp
  | cons y first ih => simp [ih]

/- The queue has not found the block yet with which it starts. -/
def Queue.Starting (queue : Queue) : Prop :=
  queue.synchronizing = true ∧ queue.oldestRtpBaseSequenceNumber = 0

instance (queue : Queue) : Decidable queue.Starting :=
  inferInstanceAs (Decidable (_ ∧ _))

/- What looking for the block of a packet can end with. -/
inductive Lookup (queue : Queue) (packet : RtpPacket) (length : Nat) (duration : UInt32) (env : Env)
    : Queue → Option Nat → Prop where
  | rejected (queue' : Queue) (same : SameOrder queue queue')
      (compatible : queue'.incompatibleServer = queue.incompatibleServer)
      (reason : (blockHeader queue packet length duration).2 = none ∨ ¬ queue.Starting)
    : Lookup queue packet length duration env queue' none
  | unaligned (queue' : Queue) (same : SameOrder queue queue')
      (reason : (blockHeader queue packet length duration).2 = none)
    : Lookup queue packet length duration env queue' none
  | mismatch (queue' : Queue) (same : SameOrder queue queue') (block : FecBlock) (header : FecHeader)
      (blockSize : Nat) (started : ¬ queue.Starting)
      (found : (blockHeader queue packet length duration).2 = some (header, blockSize))
      (mem : block ∈ queue.blocks)
      (base : block.fecHeader.baseSequenceNumber = header.baseSequenceNumber)
      (size : block.blockSize ≠ blockSize)
    : Lookup queue packet length duration env queue' none
  | resync (queue' : Queue) (header : FecHeader) (blockSize : Nat)
      (found : (blockHeader queue packet length duration).2 = some (header, blockSize))
      (start : queue.Starting)
      (blocks : queue'.blocks = queue.blocks)
      (next : queue'.nextRtpSequenceNumber = header.baseSequenceNumber + 4)
      (oldest : queue'.oldestRtpBaseSequenceNumber = header.baseSequenceNumber + 4)
      (synchronizing : queue'.synchronizing = queue.synchronizing)
      (compatible : queue'.incompatibleServer = queue.incompatibleServer)
    : Lookup queue packet length duration env queue' none
  | existing (queue' : Queue) (same : SameOrder queue queue') (i : Nat) (block : FecBlock)
      (header : FecHeader) (blockSize : Nat) (started : ¬ queue.Starting)
      (found : (blockHeader queue packet length duration).2 = some (header, blockSize))
      (get : queue.blocks[i]? = some block)
      (base : block.fecHeader.baseSequenceNumber = header.baseSequenceNumber)
      (size : block.blockSize = blockSize) (incomplete : block.fullyReassembled = false)
      (compatible : queue'.incompatibleServer = queue.incompatibleServer)
    : Lookup queue packet length duration env queue' (some i)
  | inserted (queue' : Queue) (header : FecHeader) (blockSize : Nat) (slab : Slab)
      (first last : List FecBlock) (started : ¬ queue.Starting)
      (found : (blockHeader queue packet length duration).2 = some (header, blockSize))
      (split : queue.blocks = first ++ last)
      (blocks : queue'.blocks
        = first ++ newBlock header blockSize env.queueTimeUs slab :: last)
      (next : queue'.nextRtpSequenceNumber = queue.nextRtpSequenceNumber)
      (oldest : queue'.oldestRtpBaseSequenceNumber = queue.oldestRtpBaseSequenceNumber)
      (synchronizing : queue'.synchronizing = queue.synchronizing)
      (compatible : queue'.incompatibleServer = queue.incompatibleServer)
      (bound : gap queue.oldestRtpBaseSequenceNumber header.baseSequenceNumber ≤ 32767)
      (before : ∀ block ∈ first, gap queue.oldestRtpBaseSequenceNumber
          block.fecHeader.baseSequenceNumber
        < gap queue.oldestRtpBaseSequenceNumber header.baseSequenceNumber)
      (after : ∀ block ∈ last, gap queue.oldestRtpBaseSequenceNumber header.baseSequenceNumber
        < gap queue.oldestRtpBaseSequenceNumber block.fecHeader.baseSequenceNumber)
    : Lookup queue packet length duration env queue' (some first.length)

theorem blockHeader_compatible (queue : Queue) (packet : RtpPacket) (length : Nat)
    (duration : UInt32)
    : (blockHeader queue packet length duration).1.incompatibleServer = queue.incompatibleServer
      ∨ (blockHeader queue packet length duration).2 = none := by
  have hnote : ∀ q s, (noteOos q s).incompatibleServer = q.incompatibleServer := by
    intro q s
    unfold noteOos
    split
    . rfl
    . split
      . rfl
      . rfl
  unfold blockHeader
  split
  . split
    . exact Or.inl rfl
    . exact Or.inl (hnote _ _)
  . split
    . split
      . exact Or.inl rfl
      . simp only
        split
        . exact Or.inl rfl
        . split
          . exact Or.inr rfl
          . exact Or.inl rfl
    . exact Or.inl rfl

theorem allocateFecBlock_same (queue : Queue) (blockSize : Nat) (env : Env)
    : SameOrder queue (allocateFecBlock queue blockSize env).1
      ∧ (allocateFecBlock queue blockSize env).1.incompatibleServer
        = queue.incompatibleServer := by
  unfold allocateFecBlock
  split
  . simp only
    split
    . exact ⟨⟨rfl, rfl, rfl, rfl⟩, rfl⟩
    . exact ⟨⟨rfl, rfl, rfl, rfl⟩, rfl⟩
  . exact ⟨SameOrder.refl queue, rfl⟩

theorem Queue.Playing.sorted {queue : Queue} {played : List (BitVec 16)}
    (h : queue.Playing played)
    : (∀ block ∈ queue.blocks,
        gap queue.oldestRtpBaseSequenceNumber block.fecHeader.baseSequenceNumber ≤ 32767)
      ∧ queue.blocks.Pairwise fun a b =>
        gap queue.oldestRtpBaseSequenceNumber a.fecHeader.baseSequenceNumber
          < gap queue.oldestRtpBaseSequenceNumber b.fecHeader.baseSequenceNumber := by
  constructor
  . intro block hblock
    exact h.base_gap block.key (List.mem_map_of_mem hblock)
  . have hsorted := Ordered.sorted h.toOrdered
    unfold Queue.keys at hsorted
    rw [List.pairwise_map] at hsorted
    exact hsorted

theorem getFecBlockForRtpPacket_lookup {queue : Queue} {played : List (BitVec 16)}
    (h : queue.Playing played) (packet : RtpPacket) (length : Nat) (duration : UInt32) (env : Env)
    : Lookup queue packet length duration env
        (getFecBlockForRtpPacket queue packet length duration env).1
        (getFecBlockForRtpPacket queue packet length duration env).2 := by
  have hsame := blockHeader_same queue packet length duration
  have hcompatible := blockHeader_compatible queue packet length duration
  unfold getFecBlockForRtpPacket
  cases hheader : blockHeader queue packet length duration with
  | mk counted result =>
    rw [hheader] at hsame hcompatible
    cases result with
    | none =>
      cases hcompatible with
      | inl hsaved => exact Lookup.rejected _ hsame hsaved (Or.inl (by rw [hheader]))
      | inr hunaligned => exact Lookup.unaligned _ hsame (by rw [hheader])
    | some found =>
      obtain ⟨header, blockSize⟩ := found
      have hfound : (blockHeader queue packet length duration).2 = some (header, blockSize) := by
        rw [hheader]
      have hsaved : counted.incompatibleServer = queue.incompatibleServer := by
        cases hcompatible with
        | inl hsaved => exact hsaved
        | inr hunaligned => exact absurd hunaligned (by simp)
      simp only
      split
      . next hstart =>
        rw [hsame.synchronizing, hsame.oldest] at hstart
        exact Lookup.resync _ header blockSize hfound hstart hsame.blocks rfl rfl
          hsame.synchronizing hsaved
      . next hstart =>
        have hstarted : ¬ queue.Starting := by
          rw [hsame.synchronizing, hsame.oldest] at hstart
          exact hstart
        split
        . exact Lookup.rejected _ hsame hsaved (Or.inr hstarted)
        . next hnotbefore =>
          have hbound : gap queue.oldestRtpBaseSequenceNumber header.baseSequenceNumber ≤ 32767 := by
            rw [hsame.oldest, Bool.not_eq_true, isBefore_eq_false_iff] at hnotbefore
            exact hnotbefore
          have hsorted := h.sorted
          cases findBlock_cases hbound queue.blocks hsorted.left hsorted.right 0 with
          | inl hexisting =>
            obtain ⟨i, block, hfind, hget, hbase⟩ := hexisting
            rw [hsame.blocks, hfind, Nat.zero_add]
            simp only [hget]
            split
            . next hsize =>
              exact Lookup.mismatch _ ⟨hsame.blocks, hsame.oldest, hsame.next, hsame.synchronizing⟩
                block header blockSize hstarted hfound (List.mem_of_getElem? hget) hbase hsize
            . next hsize =>
              split
              . exact Lookup.rejected _ hsame hsaved (Or.inr hstarted)
              . next hincomplete =>
                exact Lookup.existing _ hsame i block header blockSize hstarted hfound hget hbase
                  (not_not.mp hsize) (Bool.not_eq_true _ ▸ hincomplete) hsaved
          | inr hbetween =>
            obtain ⟨first, last, hsplit, hfind, hfirst, hlast⟩ := hbetween
            rw [hsame.blocks, hfind, Nat.zero_add]
            have halloc := allocateFecBlock_same counted blockSize env
            simp only
            cases hresult : allocateFecBlock counted blockSize env with
            | mk allocated memory =>
              rw [hresult] at halloc
              have hall := hsame.trans halloc.left
              cases memory with
              | none => exact Lookup.rejected _ hall (halloc.right.trans hsaved) (Or.inr hstarted)
              | some slab =>
                have hblocks : allocated.blocks.insertIdx first.length
                    (newBlock header blockSize env.queueTimeUs slab)
                    = first ++ newBlock header blockSize env.queueTimeUs slab :: last := by
                  have hall : allocated.blocks = queue.blocks := hall.blocks
                  rw [hall, hsplit, insertIdx_length]
                exact Lookup.inserted _ header blockSize slab first last hstarted hfound hsplit
                  hblocks hall.next hall.oldest hall.synchronizing (halloc.right.trans hsaved)
                  hbound hfirst hlast

/- The queue after the lookup, and the block that takes the packet. -/
theorem Lookup.playing {queue queue' : Queue} {played : List (BitVec 16)} {packet : RtpPacket}
    {length : Nat} {duration : UInt32} {env : Env} {result : Option Nat}
    (h : Lookup queue packet length duration env queue' result) (hplaying : queue.Playing played)
    (hempty : queue.Starting → queue.blocks = [])
    : queue'.Playing played ∧ ∀ i, result = some i →
        ∃ block, queue'.blocks[i]? = some block
          ∧ queue'.nextRtpSequenceNumber = queue.nextRtpSequenceNumber
          ∧ (packet.packetType = RTP_PAYLOAD_TYPE_AUDIO →
            block.fecHeader.baseSequenceNumber = packet.sequenceNumber / 4 * 4) := by
  cases h with
  | rejected same compatible reason => exact ⟨same.playing hplaying, by simp⟩
  | unaligned same reason => exact ⟨same.playing hplaying, by simp⟩
  | mismatch same block header blockSize started found mem base size =>
    exact ⟨same.playing hplaying, by simp⟩
  | resync header blockSize found start blocks next oldest synchronizing compatible =>
    refine ⟨?_, by simp⟩
    have hnone := hempty start
    have hmod := (blockHeader_base found).left
    unfold Queue.Playing Queue.keys at *
    rw [blocks, next, oldest, synchronizing, hnone, start.left]
    rw [hnone, start.left] at hplaying
    apply hplaying.resync
    have hlt := header.baseSequenceNumber.isLt
    have hfour : (4 : BitVec 16).toNat = 4 := by rfl
    rw [BitVec.toNat_add, hfour]
    omega
  | existing same i block header blockSize started found get base size incomplete compatible =>
    refine ⟨same.playing hplaying, ?_⟩
    intro j hj
    refine ⟨block, ?_, same.next, ?_⟩
    . rw [same.blocks, ← Option.some_inj.mp hj, get]
    . intro haudio
      rw [base]
      exact (blockHeader_base found).right haudio
  | inserted header blockSize slab first last started found split blocks next oldest synchronizing
      compatible bound before after =>
    constructor
    . unfold Queue.Playing Queue.keys at *
      rw [split, List.map_append] at hplaying
      rw [blocks, next, oldest, synchronizing, List.map_append, List.map_cons]
      apply hplaying.insert (blockHeader_base found).left bound rfl rfl
      . intro l hl
        obtain ⟨block, hblock, heq⟩ := List.mem_map.mp hl
        rw [← heq]
        exact before block hblock
      . intro l hl
        obtain ⟨block, hblock, heq⟩ := List.mem_map.mp hl
        rw [← heq]
        exact after block hblock
    . intro j hj
      refine ⟨newBlock header blockSize env.queueTimeUs slab, ?_, next, ?_⟩
      . rw [blocks, ← Option.some_inj.mp hj]
        simp
      . exact (blockHeader_base found).right

theorem set_same {α : Type} {xs : List α} {i : Nat} {x : α} (h : xs[i]? = some x)
    : xs.set i x = xs := by
  induction xs generalizing i with
  | nil => rfl
  | cons y xs ih =>
    cases i with
    | zero =>
      have hxy : y = x := Option.some_inj.mp h
      rw [hxy]
      rfl
    | succ i =>
      rw [List.set_cons_succ, ih h]

/- Writing to a block that keeps its number and how far it was read leaves the order as it is. -/
theorem Queue.Playing.set {queue queue' : Queue} {played : List (BitVec 16)} {i : Nat}
    {block block' : FecBlock} (h : queue.Playing played) (hget : queue.blocks[i]? = some block)
    (hkey : block'.key = block.key) (hblocks : queue'.blocks = queue.blocks.set i block')
    (hnext : queue'.nextRtpSequenceNumber = queue.nextRtpSequenceNumber)
    (holdest : queue'.oldestRtpBaseSequenceNumber = queue.oldestRtpBaseSequenceNumber)
    (hsync : queue'.synchronizing = queue.synchronizing)
    : queue'.Playing played := by
  have hkeys : queue'.keys = queue.keys := by
    unfold Queue.keys
    rw [hblocks, List.map_set, hkey]
    apply set_same
    rw [List.getElem?_map, hget]
    rfl
  unfold Queue.Playing at *
  rw [hkeys, hnext, holdest, hsync]
  exact h

theorem handleMissingPackets_playing {queue : Queue} {played : List (BitVec 16)}
    (h : queue.Playing played) (duration : UInt32) (env : Env)
    : (handleMissingPackets queue duration env).Playing played := by
  unfold handleMissingPackets
  split
  . exact h
  . next head rest hblocks =>
    have hplaying := h
    unfold Queue.Playing Queue.keys at hplaying
    rw [hblocks, List.map_cons] at hplaying
    split
    . next hbefore =>
      have hskip := Playing.skip hplaying hbefore
      unfold Queue.Playing Queue.keys
      simp only [hblocks]
      exact hskip
    . next hbefore =>
      split
      . exact h
      . split
        . have hbase := hplaying.toOrdered.base_eq_of_not_before (Bool.not_eq_true _ ▸ hbefore)
          exact Playing.allowGaps hplaying hbase
        . exact h

theorem completeFecBlock_key (block : FecBlock) (stats : Stats) (duration : UInt32)
    : (completeFecBlock block stats duration).1.key = block.key := by
  unfold completeFecBlock
  split
  . rfl
  . split
    . rfl
    . simp only
      split
      . rfl
      . rfl

theorem tryComplete_key (block : FecBlock) (stats : Stats) (duration : UInt32)
    : (tryComplete block stats duration).1.key = block.key := by
  have hcomplete := completeFecBlock_key block stats duration
  unfold tryComplete
  cases hresult : completeFecBlock block stats duration with
  | mk completed rest =>
    obtain ⟨stats', complete⟩ := rest
    rw [hresult] at hcomplete
    cases complete with
    | true => exact hcomplete
    | false => exact hcomplete

theorem settle_playing {queue : Queue} {played : List (BitVec 16)} (h : queue.Playing played)
    (duration : UInt32) (env : Env)
    : (settle queue duration env).1.Playing played
      ∧ (settle queue duration env).2 ≠ RTPQ_RET_HANDLE_NOW := by
  have hstatus : ∀ ready : Bool,
      (if ready = true then RTPQ_RET_PACKET_READY else 0) ≠ RTPQ_RET_HANDLE_NOW := by decide
  unfold settle
  simp only
  constructor
  . split
    . exact h
    . exact handleMissingPackets_playing h duration env
  . exact hstatus _

theorem finishPacket_playing {queue : Queue} {played : List (BitVec 16)} {i : Nat}
    {block block' : FecBlock} (h : queue.Playing played) (hget : queue.blocks[i]? = some block)
    (hkey : block'.key = block.key) (duration : UInt32) (env : Env)
    : (finishPacket queue i block' duration env).1.Playing played
      ∧ (finishPacket queue i block' duration env).2 ≠ RTPQ_RET_HANDLE_NOW := by
  apply settle_playing
  exact h.set hget ((tryComplete_key block' queue.stats duration).trans hkey) rfl rfl rfl rfl

theorem freeFecBlockHead_fields {queue : Queue} {head : FecBlock} {rest : List FecBlock}
    (h : queue.blocks = head :: rest)
    : (freeFecBlockHead queue).blocks = rest
      ∧ (freeFecBlockHead queue).oldestRtpBaseSequenceNumber = head.fecHeader.baseSequenceNumber + 4
      ∧ (freeFecBlockHead queue).nextRtpSequenceNumber = queue.nextRtpSequenceNumber
      ∧ (freeFecBlockHead queue).synchronizing = false
      ∧ (freeFecBlockHead queue).incompatibleServer = queue.incompatibleServer := by
  unfold freeFecBlockHead
  rw [h]
  simp only
  split
  . exact ⟨rfl, rfl, rfl, rfl, rfl⟩
  . exact ⟨rfl, rfl, rfl, rfl, rfl⟩

/- The head of the queue, one packet further, and gone after its last one. -/
theorem advance_playing {queue : Queue} (queue' : Queue) {played : List (BitVec 16)}
    (head : FecBlock) {rest : List FecBlock} (h : queue.Playing played)
    (hkeys : queue.keys = head.key :: rest.map FecBlock.key)
    (hbase : head.fecHeader.baseSequenceNumber = queue.oldestRtpBaseSequenceNumber)
    (hblocks : queue'.blocks
      = { head with nextDataPacketIndex := head.nextDataPacketIndex + 1 } :: rest)
    (hnext : queue'.nextRtpSequenceNumber = queue.nextRtpSequenceNumber + 1)
    (holdest : queue'.oldestRtpBaseSequenceNumber = queue.oldestRtpBaseSequenceNumber)
    (hsync : queue'.synchronizing = queue.synchronizing)
    : (head.nextDataPacketIndex + 1 ≠ 4 → queue'.Playing
        (played ++ [queue.nextRtpSequenceNumber]))
      ∧ (head.nextDataPacketIndex + 1 = 4 →
        (freeFecBlockHead queue').Playing (played ++ [queue.nextRtpSequenceNumber])) := by
  have hplaying := h
  unfold Queue.Playing at hplaying
  rw [hkeys] at hplaying
  constructor
  . intro hindex
    have hplay := Playing.play hplaying hbase hindex
    unfold Queue.Playing Queue.keys
    rw [hblocks, hnext, holdest, hsync]
    exact hplay
  . intro hindex
    have hplay := Playing.playLast hplaying hbase hindex
    obtain ⟨hrest, hold, hsame, hdone, _⟩ := freeFecBlockHead_fields hblocks
    unfold Queue.Playing Queue.keys
    rw [hrest, hold, hsame, hdone, hnext]
    exact hplay

theorem advanceHead_playing {queue : Queue} {played : List (BitVec 16)} {head : FecBlock}
    {rest : List FecBlock} (h : queue.Playing played) (hblocks : queue.blocks = head :: rest)
    (hbase : head.fecHeader.baseSequenceNumber = queue.oldestRtpBaseSequenceNumber)
    : (advanceHead queue head rest).Playing (played ++ [queue.nextRtpSequenceNumber]) := by
  have hkeys : queue.keys = head.key :: rest.map FecBlock.key := by
    unfold Queue.keys
    rw [hblocks, List.map_cons]
  have hadvance := advance_playing { queue with
    nextRtpSequenceNumber := queue.nextRtpSequenceNumber + 1
    blocks := { head with nextDataPacketIndex := head.nextDataPacketIndex + 1 } :: rest }
    head h hkeys hbase rfl rfl rfl rfl
  unfold advanceHead
  simp only
  split
  . next hindex => exact hadvance.right hindex
  . next hindex => exact hadvance.left hindex

/- A packet that is ready is in the block that is the oldest. -/
theorem headReady_base {queue : Queue} {played : List (BitVec 16)} {head : FecBlock}
    {rest : List FecBlock} (h : queue.Playing played) (hblocks : queue.blocks = head :: rest)
    (hready : headReady head queue.nextRtpSequenceNumber = true)
    : head.fecHeader.baseSequenceNumber = queue.oldestRtpBaseSequenceNumber := by
  have hmem : head.key ∈ queue.keys := by
    unfold Queue.keys
    rw [hblocks]
    exact List.mem_cons_self
  cases Decidable.em (head.fecHeader.baseSequenceNumber = queue.oldestRtpBaseSequenceNumber) with
  | inl heq => exact heq
  | inr hne =>
    unfold headReady at hready
    rw [Bool.or_eq_true, Bool.and_eq_true, beq_iff_eq] at hready
    cases hready with
    | inl hnumber =>
      have hindex : head.nextDataPacketIndex = 0 := (h.index head.key hmem).trans (if_neg hne)
      rw [hindex, Nat.add_zero] at hnumber
      have hfar := h.toOrdered.gap_ge hmem hne
      have hnear := h.next_gap
      rw [← BitVec.eq_of_toNat_eq hnumber.right] at hnear
      exact absurd hfar (Nat.not_le.mpr hnear)
    | inr hgaps => exact h.gaps head.key hmem hgaps

theorem takeReadyPacket_playing {queue : Queue} {played : List (BitVec 16)}
    (h : queue.Playing played) (memory : Bool)
    : match takeReadyPacket queue memory with
      | (queue', none) => queue'.Playing played
      | (queue', some _) => queue'.Playing (played ++ [queue.nextRtpSequenceNumber]) := by
  unfold takeReadyPacket
  cases hblocks : queue.blocks with
  | nil => exact h
  | cons head rest =>
    simp only
    cases hready : headReady head queue.nextRtpSequenceNumber with
    | false => exact h
    | true =>
      cases memory with
      | false => exact h
      | true => exact advanceHead_playing h hblocks (headReady_base h hblocks hready)

theorem rtpaGetQueuedPacket_playing {queue : Queue} {played : List (BitVec 16)}
    (h : queue.Playing played) (memory : Bool)
    : match rtpaGetQueuedPacket queue memory with
      | (queue', none) => queue'.Playing played
      | (queue', some _) => queue'.Playing (played ++ [queue.nextRtpSequenceNumber]) := by
  have hready := takeReadyPacket_playing h memory
  unfold rtpaGetQueuedPacket
  cases hblocks : queue.blocks with
  | nil => exact h
  | cons head rest =>
    have hmem : head.key ∈ queue.keys := by
      unfold Queue.keys
      rw [hblocks]
      exact List.mem_cons_self
    simp only
    cases hgaps : head.allowDiscontinuity with
    | false => exact hready
    | true =>
      have hbase := h.gaps head.key hmem hgaps
      cases hmark : head.marks head.nextDataPacketIndex with
      | true =>
        cases memory with
        | false => exact h
        | true => exact advanceHead_playing h hblocks hbase
      | false =>
        have hindex : head.nextDataPacketIndex ≠ RTPA_DATA_SHARDS := by
          have hread : head.nextDataPacketIndex = gap queue.oldestRtpBaseSequenceNumber
              queue.nextRtpSequenceNumber := (h.index head.key hmem).trans (if_pos hbase)
          have hlt := h.next_gap
          unfold RTPA_DATA_SHARDS
          omega
        simp only [hindex, if_false]
        exact hready

/- The block of the next packet is the one in front. -/
theorem eq_zero_of_base_eq {queue : Queue} {played : List (BitVec 16)} (h : queue.Playing played)
    {i : Nat} {block : FecBlock} (hget : queue.blocks[i]? = some block)
    (hbase : block.fecHeader.baseSequenceNumber = queue.oldestRtpBaseSequenceNumber)
    : i = 0 ∧ ∃ rest, queue.blocks = block :: rest := by
  have hsorted := h.sorted.right
  cases hblocks : queue.blocks with
  | nil => simp [hblocks] at hget
  | cons head rest =>
    rw [hblocks] at hget hsorted
    cases i with
    | zero =>
      have hhead : head = block := Option.some_inj.mp hget
      exact ⟨rfl, rest, by rw [hhead]⟩
    | succ i =>
      have hmem : block ∈ rest := List.mem_of_getElem? hget
      have hlt := List.rel_of_pairwise_cons hsorted hmem
      rw [hbase, gap_self] at hlt
      omega

theorem storeData_key (block : FecBlock) (pos : Nat) (packet : RtpPacket) (length : Nat)
    : (storeData block pos packet length).key = block.key := by
  rfl

theorem storeFec_key (block : FecBlock) (pos : Nat) (packet : RtpPacket) (length : Nat)
    : (storeFec block pos packet length).key = block.key := by
  rfl

/- A packet is handled at once if it is the next one. -/
def Handled (queue : Queue) (played : List (BitVec 16)) (packet : RtpPacket)
    (result : Queue × Nat) : Prop :=
  (result.2 = RTPQ_RET_HANDLE_NOW → packet.sequenceNumber = queue.nextRtpSequenceNumber
    ∧ result.1.Playing (played ++ [packet.sequenceNumber]))
  ∧ (result.2 ≠ RTPQ_RET_HANDLE_NOW → result.1.Playing played)

theorem Handled.of_ne {queue : Queue} {played : List (BitVec 16)} {packet : RtpPacket}
    {result : Queue × Nat}
    (h : result.1.Playing played ∧ result.2 ≠ RTPQ_RET_HANDLE_NOW)
    : Handled queue played packet result := by
  exact ⟨fun hnow => absurd hnow h.right, fun _ => h.left⟩

theorem zero_ne_handleNow : 0 ≠ RTPQ_RET_HANDLE_NOW := by
  decide

/- What a packet of audio does to the block that takes it. -/
inductive Added (queue : Queue) (i : Nat) (block : FecBlock) (packet : RtpPacket) (length : Nat)
    (duration : UInt32) (env : Env) : Queue × Nat → Prop where
  | repeated : Added queue i block packet length duration env (queue, 0)
  | inOrder (pos : Nat) (mark : block.marks pos = true)
      (number : (packet.sequenceNumber - block.fecHeader.baseSequenceNumber).toNat = pos)
      (next : packet.sequenceNumber = queue.nextRtpSequenceNumber) (rest : List FecBlock)
      (front : queue.blocks = block :: rest)
      (base : block.fecHeader.baseSequenceNumber = queue.oldestRtpBaseSequenceNumber)
      (queue' result : Queue)
      (blocks : queue'.blocks = { storeData block pos packet length with
        nextDataPacketIndex := block.nextDataPacketIndex + 1 } :: rest)
      (next' : queue'.nextRtpSequenceNumber = queue.nextRtpSequenceNumber + 1)
      (oldest : queue'.oldestRtpBaseSequenceNumber = queue.oldestRtpBaseSequenceNumber)
      (synchronizing : queue'.synchronizing = queue.synchronizing)
      (compatible : queue'.incompatibleServer = queue.incompatibleServer)
      (more : block.nextDataPacketIndex + 1 ≠ 4 → result = queue')
      (last : block.nextDataPacketIndex + 1 = 4 → result = freeFecBlockHead queue')
    : Added queue i block packet length duration env (result, RTPQ_RET_HANDLE_NOW)
  | stored (pos : Nat) (mark : block.marks pos = true)
      (number : (packet.sequenceNumber - block.fecHeader.baseSequenceNumber).toNat = pos)
    : Added queue i block packet length duration env
        (finishPacket queue i (storeData block pos packet length) duration env)

theorem addDataPacket_added {queue : Queue} {played : List (BitVec 16)} {i : Nat}
    {block : FecBlock} (h : queue.Playing played) (hget : queue.blocks[i]? = some block)
    {packet : RtpPacket}
    (hbase : block.fecHeader.baseSequenceNumber = packet.sequenceNumber / 4 * 4)
    (length : Nat) (duration : UInt32) (env : Env)
    : Added queue i block packet length duration env
        (addDataPacket queue i block packet length duration env) := by
  unfold addDataPacket
  simp only
  generalize hnumber : (packet.sequenceNumber - block.fecHeader.baseSequenceNumber).toNat = pos
  split
  . next hmark =>
    split
    . next hnext =>
      have hfront := hbase
      rw [hnext, h.toOrdered.base_next] at hfront
      obtain ⟨hi, rest, hblocks⟩ := eq_zero_of_base_eq h hget hfront
      have hkeys : queue.keys = block.key :: rest.map FecBlock.key := by
        unfold Queue.keys
        rw [hblocks, List.map_cons]
      have hordered : Ordered queue.oldestRtpBaseSequenceNumber queue.nextRtpSequenceNumber
          (block.key :: rest.map FecBlock.key) := hkeys ▸ h.toOrdered
      have hindex : block.nextDataPacketIndex = gap queue.oldestRtpBaseSequenceNumber
          queue.nextRtpSequenceNumber :=
        (hordered.index block.key List.mem_cons_self).trans (if_pos hfront)
      have hlt := h.next_gap
      have hgap : gap queue.oldestRtpBaseSequenceNumber (queue.nextRtpSequenceNumber + 1)
          = block.nextDataPacketIndex + 1 := by
        rw [gap_succ (by omega), hindex]
      have hfour : gap queue.oldestRtpBaseSequenceNumber (queue.oldestRtpBaseSequenceNumber + 4) = 4 :=
        gap_add_ofNat _ (by decide)
      have hlist : (takeInOrder queue i (storeData block pos packet length) packet).blocks
          = { storeData block pos packet length with
            nextDataPacketIndex := block.nextDataPacketIndex + 1 } :: rest := by
        unfold takeInOrder
        rw [hi, hblocks]
        rfl
      have hnumber' : (takeInOrder queue i (storeData block pos packet length)
          packet).nextRtpSequenceNumber = queue.nextRtpSequenceNumber + 1 := by
        rw [← hnext]
        rfl
      split
      . next hend =>
        rw [hnumber'] at hend
        have hlast : block.nextDataPacketIndex + 1 = 4 := by
          rw [← hgap, ← hfour, ← hfront]
          exact congrArg _ hend
        exact Added.inOrder pos hmark hnumber hnext rest hblocks hfront _ _ hlist hnumber'
          rfl rfl rfl (fun hmore => absurd hlast hmore) (fun _ => rfl)
      . next hend =>
        rw [hnumber'] at hend
        have hmore : block.nextDataPacketIndex + 1 ≠ 4 := by
          intro hlast
          apply hend
          apply eq_of_gap_eq (a := queue.oldestRtpBaseSequenceNumber)
          show _ = gap _ (block.fecHeader.baseSequenceNumber + 4)
          rw [hgap, hfront, hfour, hlast]
        exact Added.inOrder pos hmark hnumber hnext rest hblocks hfront _ _ hlist hnumber'
          rfl rfl rfl (fun _ => rfl) (fun hlast => absurd hlast hmore)
    . exact Added.stored pos hmark hnumber
  . exact Added.repeated

theorem addDataPacket_playing {queue : Queue} {played : List (BitVec 16)} {i : Nat}
    {block : FecBlock} (h : queue.Playing played) (hget : queue.blocks[i]? = some block)
    {packet : RtpPacket}
    (hbase : block.fecHeader.baseSequenceNumber = packet.sequenceNumber / 4 * 4)
    (length : Nat) (duration : UInt32) (env : Env)
    : Handled queue played packet (addDataPacket queue i block packet length duration env) := by
  have hadded := addDataPacket_added h hget hbase length duration env
  generalize addDataPacket queue i block packet length duration env = result at hadded
  cases hadded with
  | repeated => exact Handled.of_ne ⟨h, zero_ne_handleNow⟩
  | inOrder pos mark number next rest front base queue' result blocks next' oldest synchronizing
      compatible more last =>
    have hkeys : queue.keys = block.key :: rest.map FecBlock.key := by
      unfold Queue.keys
      rw [front, List.map_cons]
    have hadvance := advance_playing queue' (storeData block pos packet length) h hkeys base blocks
      next' oldest synchronizing
    refine ⟨fun _ => ⟨next, ?_⟩, fun hne => absurd rfl hne⟩
    rw [next]
    cases Decidable.em (block.nextDataPacketIndex + 1 = 4) with
    | inl hlast =>
      rw [last hlast]
      exact hadvance.right hlast
    | inr hmore =>
      rw [more hmore]
      exact hadvance.left hmore
  | stored pos mark number =>
    have hkey := storeData_key block pos packet length
    exact Handled.of_ne (finishPacket_playing h hget hkey duration env)

theorem addFecPacket_playing {queue : Queue} {played : List (BitVec 16)} {i : Nat}
    {block : FecBlock} (h : queue.Playing played) (hget : queue.blocks[i]? = some block)
    (packet : RtpPacket) (length : Nat) (duration : UInt32) (env : Env)
    : Handled queue played packet (addFecPacket queue i block packet length duration env) := by
  unfold addFecPacket
  simp only
  split
  . have hkey := storeFec_key block (fecShardIndex packet) packet length
    exact Handled.of_ne (finishPacket_playing h hget hkey duration env)
  . exact Handled.of_ne ⟨h, zero_ne_handleNow⟩

theorem rtpaAddPacket_playing {queue : Queue} {played : List (BitVec 16)}
    (h : queue.Playing played) (hcompatible : queue.incompatibleServer = false)
    (hempty : queue.Starting → queue.blocks = [])
    (packet : RtpPacket) (length : Nat) (duration : UInt32) (env : Env)
    : Handled queue played packet (rtpaAddPacket queue packet length duration env) := by
  have hlookup := (getFecBlockForRtpPacket_lookup h packet length duration env).playing h hempty
  unfold rtpaAddPacket
  rw [hcompatible]
  simp only [Bool.false_eq_true, if_false]
  cases hfound : getFecBlockForRtpPacket queue packet length duration env with
  | mk found result =>
    rw [hfound] at hlookup
    cases result with
    | none => exact Handled.of_ne ⟨hlookup.left, zero_ne_handleNow⟩
    | some i =>
      obtain ⟨block, hget, hnext, hbase⟩ := hlookup.right i rfl
      have hhandled : ∀ status, Handled found played packet status →
          Handled queue played packet status := by
        intro status hstatus
        unfold Handled at *
        rw [← hnext]
        exact hstatus
      simp only [hget]
      split
      . next haudio =>
        exact hhandled _ (addDataPacket_playing hlookup.left hget (hbase haudio) length duration env)
      . exact hhandled _ (addFecPacket_playing hlookup.left hget packet length duration env)

/-
The receiver
-/

def Receiver.Playing (r : Receiver) : Prop :=
  r.queue.Playing (r.delivered.map Prod.fst)

/- The server is compatible, and the queue has no blocks when it synchronizes. -/
def Steady (r : Receiver) (_ : Event) : Prop :=
  r.queue.incompatibleServer = false
    ∧ (r.queue.Starting → r.queue.blocks = [])

instance (r : Receiver) (e : Event) : Decidable (Steady r e) :=
  inferInstanceAs (Decidable (_ ∧ _))

theorem receivePacket_playing {r : Receiver} (h : r.Playing) (packet : RtpPacket)
    (duration : UInt32) (env : Env) (hsteady : Steady r (.received packet env))
    : (receivePacket r packet duration env).Playing := by
  have hadd := rtpaAddPacket_playing h hsteady.left hsteady.right packet
    (sizeofRtpPacket + packet.payload.length) duration env
  unfold receivePacket
  simp only
  split
  . split
    . exact h
    . exact h
  . split
    . next hnow =>
      unfold Receiver.Playing
      rw [List.map_append]
      exact (hadd.left hnow).right
    . next hnow => exact hadd.right hnow

theorem receiverStep_playing {r r' : Receiver} {duration : UInt32} {e : Event} (h : r.Playing)
    (hsteady : Steady r e) (hstep : receiverStep duration r e = some r')
    : r'.Playing := by
  cases e with
  | timeout =>
    simp only [receiverStep] at hstep
    split at hstep
    . exact absurd hstep (by simp)
    . split at hstep
      . rw [← Option.some_inj.mp hstep]
        exact h
      . rw [← Option.some_inj.mp hstep]
        exact h
  | runt =>
    simp only [receiverStep] at hstep
    split at hstep
    . exact absurd hstep (by simp)
    . rw [← Option.some_inj.mp hstep]
      exact h
  | received packet env =>
    simp only [receiverStep] at hstep
    split at hstep
    . exact absurd hstep (by simp)
    . rw [← Option.some_inj.mp hstep]
      exact receivePacket_playing h packet duration env hsteady
  | dequeue memory =>
    have hget := rtpaGetQueuedPacket_playing h memory
    simp only [receiverStep] at hstep
    split at hstep
    . cases hresult : rtpaGetQueuedPacket r.queue memory with
      | mk queue delivery =>
        rw [hresult] at hget hstep
        cases delivery with
        | none =>
          rw [← Option.some_inj.mp hstep]
          exact hget
        | some delivery =>
          rw [← Option.some_inj.mp hstep]
          unfold Receiver.Playing
          rw [List.map_append]
          exact hget
    . exact absurd hstep (by simp)

theorem receiver_playing {appVersionQuad : Connection.AppVersionQuad} {duration : UInt32}
    {events : List Event} {r : Receiver}
    (hmeet : (receiver appVersionQuad duration).StepsMeet Steady
      (receiver appVersionQuad duration).init events)
    (hrun : (receiver appVersionQuad duration).run events = some r)
    : r.Playing := by
  refine Machine.runFrom_invariant_of_stepsMeet _ Steady Receiver.Playing ?_ _ r events ?_ hmeet hrun
  . intro r e r' h hsteady hstep
    exact receiverStep_playing h hsteady hstep
  . constructor
    . exact ordered_nil rfl
    . exact List.IsChain.nil
    . intro a ha
      exact absurd ha (by simp [receiver])
    . intro _ hne
      exact absurd rfl hne

def dataPacket (sequenceNumber : BitVec 16) : RtpPacket where
  header := 0x80
  packetType := RTP_PAYLOAD_TYPE_AUDIO
  sequenceNumber := sequenceNumber
  timestamp := 0
  ssrc := 0
  payload := [UInt8.ofNat sequenceNumber.toNat]

def received (sequenceNumber : BitVec 16) : Event :=
  .received (dataPacket sequenceNumber)
    ⟨0, 0, some ⟨fun _ => dataPacket 0, fun _ => []⟩⟩

/- 10 and the blocks from 16 to 23 are lost, 13 to 15 come too late, and 24 comes behind 25. -/
def lossyStream : List Event :=
  [received 3, .timeout, received 4, received 8, received 9, received 11, received 12,
    .dequeue true, .dequeue true, .dequeue true, .dequeue true, received 25,
    .dequeue true, .dequeue true, .dequeue true, .dequeue true, received 24,
    .dequeue true, .dequeue true]

/-
The part of the check of the source that goes over the list. It compares the numbers and the times
with those of the head, the rest with the block before.
-/
def validBlocks (fuzzing : Bool) (lastSeqNum : BitVec 16) (lastTs : UInt32) (lastBlock : FecBlock)
    (blocks : List FecBlock) : Bool :=
  match blocks with
  | [] => true
  | block :: blocks =>
    isBefore lastSeqNum block.fecHeader.baseSequenceNumber
      && (fuzzing || isBefore lastTs.toBitVec block.fecHeader.baseTimestamp.toBitVec)
      && (fuzzing || block.blockSize == lastBlock.blockSize)
      && (fuzzing || block.fecHeader.payloadType == lastBlock.fecHeader.payloadType)
      && (fuzzing || block.fecHeader.ssrc == lastBlock.fecHeader.ssrc)
      && validBlocks fuzzing lastSeqNum lastTs block blocks

/-
What a build with assertions checks around every change. A build for fuzzing leaves out what the
server can break, `LC_ASSERT_VT`.
-/
def validateFecBlockState (fuzzing : Bool) (queue : Queue) : Bool :=
  (!isBefore queue.nextRtpSequenceNumber queue.oldestRtpBaseSequenceNumber || queue.synchronizing)
    && match queue.blocks with
      | [] => true
      | head :: rest =>
        isBefore queue.nextRtpSequenceNumber
            (head.fecHeader.baseSequenceNumber + BitVec.ofNat 16 RTPA_DATA_SHARDS)
          && !isBefore head.fecHeader.baseSequenceNumber queue.oldestRtpBaseSequenceNumber
          && validBlocks fuzzing head.fecHeader.baseSequenceNumber head.fecHeader.baseTimestamp head
            rest

/- Any two blocks are in order, also those that are not next to each other. -/
def Sorted (blocks : List FecBlock) : Prop :=
  blocks.Pairwise fun a b =>
    isBefore a.fecHeader.baseSequenceNumber b.fecHeader.baseSequenceNumber = true

theorem Queue.Playing.pairwise_isBefore {queue : Queue} {played : List (BitVec 16)}
    (h : queue.Playing played)
    : Sorted queue.blocks := by
  obtain ⟨hgap, hsorted⟩ := h.sorted
  refine hsorted.imp_of_mem ?_
  intro a b ha hb hlt
  exact (isBefore_iff_gap_lt (hgap a ha) (hgap b hb)).mpr hlt

theorem validBlocks_fuzzing {lastSeqNum : BitVec 16} {blocks : List FecBlock}
    (h : ∀ block ∈ blocks, isBefore lastSeqNum block.fecHeader.baseSequenceNumber = true)
    (lastTs : UInt32) (lastBlock : FecBlock)
    : validBlocks true lastSeqNum lastTs lastBlock blocks = true := by
  induction blocks generalizing lastBlock with
  | nil => rfl
  | cons block blocks ih =>
    have hrest := ih (fun other hother => h other (List.mem_cons_of_mem block hother)) block
    unfold validBlocks
    rw [h block List.mem_cons_self, hrest]
    rfl

/- The block in front ends behind the next number, and not more than half a turn behind it. -/
theorem Queue.Playing.before_end {queue : Queue} {played : List (BitVec 16)} {head : FecBlock}
    (h : queue.Playing played) (hmem : head ∈ queue.blocks)
    : isBefore queue.nextRtpSequenceNumber (head.fecHeader.baseSequenceNumber + 4) = true := by
  have hkey : head.key ∈ queue.keys := List.mem_map_of_mem hmem
  have hbound := h.base_gap head.key hkey
  have hmod := gap_mod_four h.oldest_mod (h.base_mod head.key hkey)
  have hnext := h.next_gap
  have hfour : gap head.key.base (head.key.base + 4) = 4 := gap_add_ofNat _ (by decide)
  have hend := gap_trans_cases queue.oldestRtpBaseSequenceNumber head.key.base (head.key.base + 4)
  have hback := gap_trans_cases queue.oldestRtpBaseSequenceNumber (head.key.base + 4)
    queue.nextRtpSequenceNumber
  have hlt := gap_lt queue.oldestRtpBaseSequenceNumber (head.key.base + 4)
  have hturn := gap_lt (head.key.base + 4) queue.nextRtpSequenceNumber
  rw [isBefore_iff]
  show _ < gap (head.key.base + 4) _
  omega

theorem Queue.Playing.valid {queue : Queue} {played : List (BitVec 16)} (h : queue.Playing played)
    : validateFecBlockState true queue = true := by
  have hnext := h.next_gap
  have hsorted := h.pairwise_isBefore
  have hstart : isBefore queue.nextRtpSequenceNumber queue.oldestRtpBaseSequenceNumber = false := by
    rw [isBefore_eq_false_iff]
    omega
  unfold validateFecBlockState
  rw [hstart]
  cases hblocks : queue.blocks with
  | nil => rfl
  | cons head rest =>
    have hmem : head ∈ queue.blocks := by simp [hblocks]
    have hhead : isBefore head.fecHeader.baseSequenceNumber queue.oldestRtpBaseSequenceNumber
        = false := by
      rw [isBefore_eq_false_iff]
      exact h.sorted.left head hmem
    rw [hblocks] at hsorted
    have hrest := validBlocks_fuzzing (List.pairwise_cons.mp hsorted).left
      head.fecHeader.baseTimestamp head
    have hend := h.before_end hmem
    simp only [Bool.not_false, Bool.true_or, Bool.true_and, hhead, hrest, Bool.and_true]
    exact hend

/- Blocks that were read to their end are gone. -/
theorem Queue.Playing.index_lt {queue : Queue} {played : List (BitVec 16)}
    (h : queue.Playing played) {block : FecBlock} (hmem : block ∈ queue.blocks)
    : block.nextDataPacketIndex < RTPA_DATA_SHARDS := by
  have hindex := h.index block.key (List.mem_map_of_mem hmem)
  have hnext := h.next_gap
  have hread : block.nextDataPacketIndex = block.key.index := rfl
  rw [hread, hindex, RTPA_DATA_SHARDS]
  split
  . exact hnext
  . decide

/-
What a build for fuzzing asserts holds in every state, the blocks are sorted, and no packet is read
from behind the ones of a block.
-/
theorem receiver_valid (appVersionQuad : Connection.AppVersionQuad) (duration : UInt32)
    (events : List Event) (r : Receiver)
    (hmeet : (receiver appVersionQuad duration).StepsMeet Steady
      (receiver appVersionQuad duration).init events)
    (hrun : (receiver appVersionQuad duration).run events = some r)
    : validateFecBlockState true r.queue = true
      ∧ Sorted r.queue.blocks
      ∧ ∀ block ∈ r.queue.blocks, block.nextDataPacketIndex < RTPA_DATA_SHARDS := by
  have h := receiver_playing hmeet hrun
  exact ⟨h.valid, h.pairwise_isBefore, fun block hmem => h.index_lt hmem⟩

theorem receiver_valid_lossy
    : ∃ r, (receiver ⟨7, 1, 415, 0⟩ 5).run lossyStream = some r
      ∧ validateFecBlockState true r.queue = true
      ∧ Sorted r.queue.blocks
      ∧ ∀ block ∈ r.queue.blocks, block.nextDataPacketIndex < RTPA_DATA_SHARDS := by
  have hsome : ((receiver ⟨7, 1, 415, 0⟩ 5).run lossyStream).isSome = true := by decide +kernel
  obtain ⟨r, hrun⟩ := Option.isSome_iff_exists.mp hsome
  exact ⟨r, hrun, receiver_valid _ _ _ r (by decide +kernel) hrun⟩

/-
If the first block that is looked for is lost and the next one starts at 0, then the queue takes
the 0 for the sign that it has not synchronized yet, and does so again behind a block that it has.
-/
example : ((receiver ⟨7, 1, 415, 0⟩ 5).run
      [received 65529, .timeout, received 65530, received 1, received 2]).map
        (fun r => validateFecBlockState true r.queue)
    = some false := by
  decide +kernel

/- The times of these packets are all 0, which only a build for fuzzing does not mind. -/
example : ((receiver ⟨7, 1, 415, 0⟩ 5).run
      [received 3, .timeout, received 4, received 9, received 13]).map
        (fun r => (validateFecBlockState true r.queue, validateFecBlockState false r.queue))
    = some (true, false) := by
  decide +kernel

end Rtp

end Audio

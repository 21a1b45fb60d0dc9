import PS3Moonlight.Audio.RtpRuns

/-!
This module contains what the packets have to do with the order of the audio queue: a block keeps
each packet in the place of its number, received ones and recovered ones, so the packet that is
played is the one whose turn it is.
-/

namespace Audio

namespace Rtp

open Fec Serial Transition

/- The packets that a block has are those of their places. -/
def FecBlock.Labelled (block : FecBlock) : Prop :=
  ∀ i < 4, block.marks i = false →
    (block.dataPackets i).sequenceNumber
      = block.fecHeader.baseSequenceNumber + BitVec.ofNat 16 i

def Queue.Labelled (queue : Queue) : Prop :=
  ∀ block ∈ queue.blocks, block.Labelled

theorem newBlock_labelled (header : FecHeader) (blockSize : Nat) (queueTimeUs : UInt64)
    (slab : Slab)
    : (newBlock header blockSize queueTimeUs slab).Labelled := by
  intro i _ hmark
  exact absurd hmark (by simp [newBlock])

theorem storeData_labelled {block : FecBlock} (h : block.Labelled) {pos : Nat} {packet : RtpPacket}
    (hnumber : (packet.sequenceNumber - block.fecHeader.baseSequenceNumber).toNat = pos)
    (length : Nat)
    : (storeData block pos packet length).Labelled := by
  intro i hi hmark
  show (store block.dataPackets pos _ i).sequenceNumber = _
  cases Decidable.em (i = pos) with
  | inl heq =>
    rw [heq, store_self, ← hnumber]
    exact (add_gap block.fecHeader.baseSequenceNumber packet.sequenceNumber).symm
  | inr hne =>
    have hold : block.marks i = false := by
      rw [← store_of_ne block.marks false hne]
      exact hmark
    rw [store_of_ne _ _ hne]
    exact h i hi hold

theorem storeFec_labelled {block : FecBlock} (h : block.Labelled) (pos : Nat) (packet : RtpPacket)
    (length : Nat)
    : (storeFec block pos packet length).Labelled := by
  intro i hi hmark
  have hne : i ≠ RTPA_DATA_SHARDS + pos := by
    unfold RTPA_DATA_SHARDS
    omega
  have hold : block.marks i = false := by
    rw [← store_of_ne block.marks false hne]
    exact hmark
  exact h i hi hold

/- What is recovered gets the number of its place. -/
theorem completeFecBlock_labelled {block : FecBlock} (h : block.Labelled) (stats : Stats)
    (duration : UInt32)
    : (completeFecBlock block stats duration).1.Labelled := by
  unfold completeFecBlock
  split
  . exact h
  . split
    . exact h
    . simp only
      split
      . exact h
      . intro i hi _
        simp only [hi, dif_pos]
        split
        . rfl
        . next hmark => exact h i hi (Bool.not_eq_true _ ▸ hmark)

theorem tryComplete_labelled {block : FecBlock} (h : block.Labelled) (stats : Stats)
    (duration : UInt32)
    : (tryComplete block stats duration).1.Labelled := by
  have hcomplete := completeFecBlock_labelled h stats duration
  unfold tryComplete
  cases hresult : completeFecBlock block stats duration with
  | mk completed rest =>
    obtain ⟨stats', complete⟩ := rest
    rw [hresult] at hcomplete
    cases complete with
    | true => exact hcomplete
    | false => exact hcomplete

theorem handleMissingPackets_labelled {queue : Queue} (h : queue.Labelled) (duration : UInt32)
    (env : Env)
    : (handleMissingPackets queue duration env).Labelled := by
  unfold handleMissingPackets
  split
  . exact h
  . next head rest hblocks =>
    split
    . exact h
    . split
      . exact h
      . split
        . unfold Queue.Labelled at *
          rw [hblocks] at h
          intro block hblock
          cases List.mem_cons.mp hblock with
          | inl heq =>
            rw [heq]
            exact h head List.mem_cons_self
          | inr hmem => exact h block (List.mem_cons_of_mem head hmem)
        . exact h

theorem finishPacket_labelled {queue : Queue} {block : FecBlock} (h : queue.Labelled)
    (hblock : block.Labelled) (i : Nat) (duration : UInt32) (env : Env)
    : (finishPacket queue i block duration env).1.Labelled := by
  have hset : Queue.Labelled { queue with
      blocks := queue.blocks.set i (tryComplete block queue.stats duration).1
      stats := (tryComplete block queue.stats duration).2 } := by
    intro other hother
    cases List.mem_or_eq_of_mem_set hother with
    | inl hmem => exact h other hmem
    | inr heq =>
      rw [heq]
      exact tryComplete_labelled hblock queue.stats duration
  unfold finishPacket settle
  simp only
  split
  . exact hset
  . exact handleMissingPackets_labelled hset duration env

theorem freeFecBlockHead_labelled {queue : Queue} (h : queue.Labelled)
    : (freeFecBlockHead queue).Labelled := by
  cases hblocks : queue.blocks with
  | nil =>
    unfold freeFecBlockHead
    rw [hblocks]
    exact h
  | cons head rest =>
    intro block hblock
    rw [(freeFecBlockHead_fields hblocks).left] at hblock
    apply h block
    rw [hblocks]
    exact List.mem_cons_of_mem head hblock

/- Reading on in the head leaves its packets alone. -/
theorem advanceHead_labelled {queue : Queue} {head : FecBlock} {rest : List FecBlock}
    (h : queue.Labelled) (hblocks : queue.blocks = head :: rest)
    : (advanceHead queue head rest).Labelled := by
  have hnext : Queue.Labelled { queue with
      nextRtpSequenceNumber := queue.nextRtpSequenceNumber + 1
      blocks := { head with nextDataPacketIndex := head.nextDataPacketIndex + 1 } :: rest } := by
    unfold Queue.Labelled at h
    rw [hblocks] at h
    intro block hblock
    cases List.mem_cons.mp hblock with
    | inl heq =>
      rw [heq]
      exact h head List.mem_cons_self
    | inr hmem => exact h block (List.mem_cons_of_mem head hmem)
  unfold advanceHead
  simp only
  split
  . exact freeFecBlockHead_labelled hnext
  . exact hnext

/- A new block has no packets yet. -/
theorem Lookup.labelled {queue queue' : Queue} {packet : RtpPacket} {length : Nat}
    {duration : UInt32} {env : Env} {result : Option Nat}
    (h : Lookup queue packet length duration env queue' result) (hlabelled : queue.Labelled)
    : queue'.Labelled := by
  unfold Queue.Labelled at *
  cases h with
  | rejected same compatible reason => rwa [same.blocks]
  | unaligned same reason => rwa [same.blocks]
  | mismatch same block header blockSize started found mem base size => rwa [same.blocks]
  | resync header blockSize found start blocks next oldest synchronizing compatible =>
    rwa [blocks]
  | existing same i block header blockSize started found get base size incomplete compatible =>
    rwa [same.blocks]
  | inserted header blockSize slab first last started found split blocks next oldest synchronizing
      compatible bound before after =>
    rw [split] at hlabelled
    rw [blocks]
    intro block hblock
    rw [List.mem_append, List.mem_cons] at hblock
    rcases hblock with hfirst | heq | hlast
    . exact hlabelled block (List.mem_append_left last hfirst)
    . rw [heq]
      exact newBlock_labelled header blockSize env.queueTimeUs slab
    . exact hlabelled block (List.mem_append_right first hlast)

theorem addDataPacket_labelled {queue : Queue} {played : List (BitVec 16)} {i : Nat}
    {block : FecBlock} (h : queue.Playing played) (hlabelled : queue.Labelled)
    (hget : queue.blocks[i]? = some block) {packet : RtpPacket}
    (hbase : block.fecHeader.baseSequenceNumber = packet.sequenceNumber / 4 * 4)
    (length : Nat) (duration : UInt32) (env : Env)
    : (addDataPacket queue i block packet length duration env).1.Labelled := by
  have hblock := hlabelled block (List.mem_of_getElem? hget)
  have hadded := addDataPacket_added h hget hbase length duration env
  generalize addDataPacket queue i block packet length duration env = result at hadded
  cases hadded with
  | repeated => exact hlabelled
  | inOrder pos mark number next rest front base queue' result blocks next' oldest synchronizing
      compatible more last =>
    have hqueue' : queue'.Labelled := by
      unfold Queue.Labelled at *
      rw [front] at hlabelled
      rw [blocks]
      intro other hother
      cases List.mem_cons.mp hother with
      | inl heq =>
        rw [heq]
        exact storeData_labelled hblock number length
      | inr hmem => exact hlabelled other (List.mem_cons_of_mem block hmem)
    cases Decidable.em (block.nextDataPacketIndex + 1 = 4) with
    | inl hlast =>
      rw [last hlast]
      exact freeFecBlockHead_labelled hqueue'
    | inr hmore =>
      rw [more hmore]
      exact hqueue'
  | stored pos mark number =>
    exact finishPacket_labelled hlabelled (storeData_labelled hblock number length) i duration env

theorem addFecPacket_labelled {queue : Queue} {i : Nat} {block : FecBlock}
    (hlabelled : queue.Labelled) (hget : queue.blocks[i]? = some block) (packet : RtpPacket)
    (length : Nat) (duration : UInt32) (env : Env)
    : (addFecPacket queue i block packet length duration env).1.Labelled := by
  have hblock := hlabelled block (List.mem_of_getElem? hget)
  unfold addFecPacket
  simp only
  split
  . exact finishPacket_labelled hlabelled (storeFec_labelled hblock _ packet length) i duration env
  . exact hlabelled

theorem rtpaAddPacket_labelled {queue : Queue} {played : List (BitVec 16)}
    (h : queue.Playing played) (hlabelled : queue.Labelled)
    (hcompatible : queue.incompatibleServer = false)
    (hempty : queue.Starting → queue.blocks = [])
    (packet : RtpPacket) (length : Nat) (duration : UInt32) (env : Env)
    : (rtpaAddPacket queue packet length duration env).1.Labelled := by
  have hlookup := getFecBlockForRtpPacket_lookup h packet length duration env
  have hplaying := hlookup.playing h hempty
  have hfoundLabelled := hlookup.labelled hlabelled
  unfold rtpaAddPacket
  rw [hcompatible]
  simp only [Bool.false_eq_true, if_false]
  cases hfound : getFecBlockForRtpPacket queue packet length duration env with
  | mk found result =>
    rw [hfound] at hplaying hfoundLabelled
    cases result with
    | none => exact hfoundLabelled
    | some i =>
      obtain ⟨block, hget, hnext, hbase⟩ := hplaying.right i rfl
      simp only [hget]
      split
      . next haudio =>
        exact addDataPacket_labelled hplaying.left hfoundLabelled hget (hbase haudio) length
          duration env
      . exact addFecPacket_labelled hfoundLabelled hget packet length duration env

/- The packet that the oldest block has read up to is the next one. -/
theorem Queue.Playing.number_eq {queue : Queue} {played : List (BitVec 16)}
    (h : queue.Playing played) (hlabelled : queue.Labelled) {head : FecBlock}
    (hmem : head ∈ queue.blocks)
    (hbase : head.fecHeader.baseSequenceNumber = queue.oldestRtpBaseSequenceNumber)
    (hmark : head.marks head.nextDataPacketIndex = false)
    : (head.dataPackets head.nextDataPacketIndex).sequenceNumber = queue.nextRtpSequenceNumber := by
  have hindex : head.nextDataPacketIndex
      = gap queue.oldestRtpBaseSequenceNumber queue.nextRtpSequenceNumber :=
    (h.index head.key (List.mem_map_of_mem hmem)).trans (if_pos hbase)
  calc (head.dataPackets head.nextDataPacketIndex).sequenceNumber
      = head.fecHeader.baseSequenceNumber + BitVec.ofNat 16 head.nextDataPacketIndex :=
        hlabelled head hmem _ (h.index_lt hmem) hmark
    _ = queue.nextRtpSequenceNumber := by rw [hbase, hindex, add_gap]

/- What a call leaves in the queue, and the number of the packet that it hands over. -/
def HandsNext (queue : Queue) (result : Queue × Option Delivery) : Prop :=
  result.1.Labelled
    ∧ ∀ packet, result.2 = some (.packet packet) →
      packet.sequenceNumber = queue.nextRtpSequenceNumber

theorem takeReadyPacket_handsNext {queue : Queue} {played : List (BitVec 16)} {head : FecBlock}
    {rest : List FecBlock} (h : queue.Playing played) (hlabelled : queue.Labelled)
    (hblocks : queue.blocks = head :: rest)
    (hgaps : head.allowDiscontinuity = true → head.marks head.nextDataPacketIndex = false)
    (memory : Bool)
    : HandsNext queue (takeReadyPacket queue memory) := by
  have hmem : head ∈ queue.blocks := by simp [hblocks]
  unfold takeReadyPacket
  simp only [hblocks]
  split
  . next hready =>
    have hmark : head.marks head.nextDataPacketIndex = false := by
      have hcases := hready
      unfold headReady at hcases
      rw [Bool.or_eq_true, Bool.and_eq_true, Bool.not_eq_true'] at hcases
      cases hcases with
      | inl hnumber => exact hnumber.left
      | inr hallowed => exact hgaps hallowed
    split
    . refine ⟨advanceHead_labelled hlabelled hblocks, ?_⟩
      intro packet hpacket
      simp only [Option.some.injEq, Delivery.packet.injEq] at hpacket
      rw [← hpacket]
      exact h.number_eq hlabelled hmem (headReady_base h hblocks hready) hmark
    . exact ⟨hlabelled, by simp⟩
  . exact ⟨hlabelled, by simp⟩

theorem rtpaGetQueuedPacket_handsNext {queue : Queue} {played : List (BitVec 16)}
    (h : queue.Playing played) (hlabelled : queue.Labelled) (memory : Bool)
    : HandsNext queue (rtpaGetQueuedPacket queue memory) := by
  unfold rtpaGetQueuedPacket
  cases hblocks : queue.blocks with
  | nil => exact ⟨hlabelled, by simp⟩
  | cons head rest =>
    have hmem : head ∈ queue.blocks := by simp [hblocks]
    simp only
    split
    . split
      . split
        . exact ⟨advanceHead_labelled hlabelled hblocks, by simp⟩
        . exact ⟨hlabelled, by simp⟩
      . next hmark =>
        split
        . next hindex => exact absurd (h.index_lt hmem) (by omega)
        . apply takeReadyPacket_handsNext h hlabelled hblocks
          intro _
          exact Bool.not_eq_true _ ▸ hmark
    . next hgaps =>
      apply takeReadyPacket_handsNext h hlabelled hblocks
      intro hallowed
      exact absurd hallowed hgaps

/-
The receiver
-/

/- Each packet was handed over under its number. -/
def Numbered (delivered : List (BitVec 16 × Delivery)) : Prop :=
  ∀ n packet, (n, .packet packet) ∈ delivered → packet.sequenceNumber = n

theorem numbered_append {delivered : List (BitVec 16 × Delivery)} (h : Numbered delivered)
    {n : BitVec 16} {delivery : Delivery}
    (hnumber : ∀ packet, delivery = .packet packet → packet.sequenceNumber = n)
    : Numbered (delivered ++ [(n, delivery)]) := by
  intro m packet hmem
  cases List.mem_append.mp hmem with
  | inl hold => exact h m packet hold
  | inr hnew =>
    rw [List.mem_singleton, Prod.mk.injEq] at hnew
    rw [hnew.left]
    exact hnumber packet hnew.right.symm

structure Receiver.Labelled (r : Receiver) : Prop where
  playing : r.Playing
  queue : r.queue.Labelled
  numbered : Numbered r.delivered

theorem receivePacket_labelled {r : Receiver} (h : r.Labelled) (packet : RtpPacket)
    (duration : UInt32) (env : Env) (hsteady : Steady r (.received packet env))
    : (receivePacket r packet duration env).Labelled := by
  have hplaying := receivePacket_playing h.playing packet duration env hsteady
  have hadd := rtpaAddPacket_labelled h.playing h.queue hsteady.left hsteady.right packet
    (sizeofRtpPacket + packet.payload.length) duration env
  refine ⟨hplaying, ?_, ?_⟩
  . unfold receivePacket
    simp only
    split
    . split
      . exact h.queue
      . exact h.queue
    . split
      . exact hadd
      . exact hadd
  . unfold receivePacket
    simp only
    split
    . split
      . exact h.numbered
      . exact h.numbered
    . split
      . apply numbered_append h.numbered
        intro handed hhanded
        rw [← Delivery.packet.inj hhanded]
      . exact h.numbered

theorem receiverStep_labelled {r r' : Receiver} {duration : UInt32} {e : Event} (h : r.Labelled)
    (hsteady : Steady r e) (hstep : receiverStep duration r e = some r')
    : r'.Labelled := by
  have hplaying := receiverStep_playing h.playing hsteady hstep
  cases e with
  | timeout =>
    simp only [receiverStep] at hstep
    split at hstep
    . exact absurd hstep (by simp)
    . split at hstep
      . rw [← Option.some_inj.mp hstep]
        exact ⟨h.playing, h.queue, h.numbered⟩
      . rw [← Option.some_inj.mp hstep]
        exact ⟨h.playing, h.queue, h.numbered⟩
  | runt =>
    simp only [receiverStep] at hstep
    split at hstep
    . exact absurd hstep (by simp)
    . rw [← Option.some_inj.mp hstep]
      exact h
  | received packet env =>
    simp only [receiverStep] at hstep
    split at hstep
    . exact absurd hstep (by simp)
    . rw [← Option.some_inj.mp hstep]
      exact receivePacket_labelled h packet duration env hsteady
  | dequeue memory =>
    have hhands := rtpaGetQueuedPacket_handsNext h.playing h.queue memory
    simp only [receiverStep] at hstep
    split at hstep
    . cases hresult : rtpaGetQueuedPacket r.queue memory with
      | mk queue delivery =>
        rw [hresult] at hhands hstep
        cases delivery with
        | none =>
          rw [← Option.some_inj.mp hstep] at hplaying ⊢
          exact ⟨hplaying, hhands.left, h.numbered⟩
        | some delivery =>
          rw [← Option.some_inj.mp hstep] at hplaying ⊢
          refine ⟨hplaying, hhands.left, numbered_append h.numbered ?_⟩
          intro packet hpacket
          rw [hpacket] at hhands
          exact hhands.right packet rfl
    . exact absurd hstep (by simp)

theorem receiver_labelled {appVersionQuad : Connection.AppVersionQuad} {duration : UInt32}
    {events : List Event} {r : Receiver}
    (hmeet : (receiver appVersionQuad duration).StepsMeet Steady
      (receiver appVersionQuad duration).init events)
    (hrun : (receiver appVersionQuad duration).run events = some r)
    : r.Labelled := by
  refine Machine.runFrom_invariant_of_stepsMeet _ Steady Receiver.Labelled ?_ _ r events ?_ hmeet
    hrun
  . intro r e r' h hsteady hstep
    exact receiverStep_labelled h hsteady hstep
  . refine ⟨?_, ?_, ?_⟩
    . have hmeet : (receiver appVersionQuad duration).StepsMeet Steady
          (receiver appVersionQuad duration).init [] := trivial
      exact receiver_playing hmeet rfl
    . intro block hblock
      exact absurd hblock (by simp [receiver, rtpaInitializeQueue])
    . intro n packet hmem
      exact absurd hmem (by simp [receiver])

/-
The packets are played in order, none of them twice, and only whole blocks are left out.
-/
theorem receiver_plays_in_order (appVersionQuad : Connection.AppVersionQuad) (duration : UInt32)
    (events : List Event) (r : Receiver)
    (hmeet : (receiver appVersionQuad duration).StepsMeet Steady
      (receiver appVersionQuad duration).init events)
    (hrun : (receiver appVersionQuad duration).run events = some r)
    : (r.delivered.map Prod.fst).IsChain Follows
      ∧ ∀ n packet, (n, .packet packet) ∈ r.delivered → packet.sequenceNumber = n := by
  have h := receiver_labelled hmeet hrun
  exact ⟨h.playing.chain, h.numbered⟩

theorem receiver_plays_in_order_lossy
    : ∃ r, (receiver ⟨7, 1, 415, 0⟩ 5).run lossyStream = some r
      ∧ (r.delivered.map Prod.fst).IsChain Follows
      ∧ ∀ n packet, (n, .packet packet) ∈ r.delivered → packet.sequenceNumber = n := by
  have hsome : ((receiver ⟨7, 1, 415, 0⟩ 5).run lossyStream).isSome = true := by decide +kernel
  obtain ⟨r, hrun⟩ := Option.isSome_iff_exists.mp hsome
  exact ⟨r, hrun, receiver_plays_in_order _ _ _ r (by decide +kernel) hrun⟩

end Rtp

end Audio

import PS3Moonlight.Audio.RtpRuns
import PS3Moonlight.Audio.RtpSender

/-!
This module contains the proof that the blocks of the queue hold what was sent: the packets that
came, and the ones that were recovered with their headers.
-/

namespace Audio

namespace Rtp

open Fec Serial

/- A block holds what was sent, and as much of it as its counters say. -/
structure Holds (st : Stream) (duration : UInt32) (b : Int) (block : FecBlock) : Prop where
  header : block.fecHeader = st.header duration b
  size : block.blockSize = st.blockSize b
  data : ∀ i, i < 4 → block.marks i = false →
    block.dataPackets i = st.dataPacket duration (4 * b + i)
  fec : ∀ j, j < 2 → block.marks (4 + j) = false →
    block.fecPackets j = bytesOf (st.parityShard b j)
  dataShardsReceived : block.fullyReassembled = false →
    block.dataShardsReceived = (List.finRange 4).countP fun i => !block.marks i.val
  fecShardsReceived : block.fullyReassembled = false →
    block.fecShardsReceived = (List.finRange 2).countP fun j => !block.marks (4 + j.val)

/- One mark less is one shard more. -/
theorem countP_store {n : Nat} (marks : Nat → Bool) (f : Fin n → Nat) (hf : f.Injective)
    (l : List (Fin n)) (hnodup : l.Nodup) (x : Fin n) (hx : x ∈ l) (hmark : marks (f x) = true)
    : l.countP (fun i => !store marks (f x) false (f i)) = l.countP (fun i => !marks (f i)) + 1 := by
  induction l with
  | nil => simp at hx
  | cons y l ih =>
    have hpairs := List.nodup_cons.mp hnodup
    rw [List.countP_cons, List.countP_cons]
    cases Decidable.em (y = x) with
    | inl heq =>
      have hrest : l.countP (fun i => !store marks (f x) false (f i))
          = l.countP (fun i => !marks (f i)) := by
        apply List.countP_congr
        intro i hi
        have hne : f i ≠ f x := by
          intro hsame
          exact hpairs.left (heq ▸ hf hsame ▸ hi)
        rw [store_of_ne _ _ hne]
      rw [hrest, heq, store_self, hmark]
      rfl
    | inr hne =>
      have hmem : x ∈ l := (List.mem_cons.mp hx).resolve_left (Ne.symm hne)
      rw [ih hpairs.right hmem, store_of_ne _ _ (fun hsame => hne (hf hsame))]
      omega

theorem countP_eq_sub {n : Nat} (marks : Fin n → Bool)
    : ((List.finRange n).filter marks).length = n - (List.finRange n).countP fun i => !marks i := by
  have hsum := List.length_eq_countP_add_countP marks (l := List.finRange n)
  rw [List.length_finRange] at hsum
  have hsame : (List.finRange n).countP (fun i => !marks i)
      = (List.finRange n).countP (fun i => decide ¬ marks i = true) := by
    apply List.countP_congr
    intro i _
    simp
  rw [← List.countP_eq_length_filter, hsame]
  omega

theorem newBlock_holds (st : Stream) (duration : UInt32) (b : Int) (queueTimeUs : UInt64)
    (slab : Slab)
    : Holds st duration b
        (newBlock (st.header duration b) (st.blockSize b) queueTimeUs slab) := by
  constructor
  . rfl
  . rfl
  . intro i _ hmark
    exact absurd hmark (by simp [newBlock])
  . intro j _ hmark
    exact absurd hmark (by simp [newBlock])
  . intro _
    rfl
  . intro _
    rfl

section

variable {st : Stream} {duration : UInt32} {b : Int} {block : FecBlock}

/- Only the shards, their marks and the counters matter, not how far the block was read. -/
theorem Holds.congr {block' : FecBlock} (h : Holds st duration b block)
    (hheader : block'.fecHeader = block.fecHeader) (hsize : block'.blockSize = block.blockSize)
    (hdata : block'.dataPackets = block.dataPackets) (hfec : block'.fecPackets = block.fecPackets)
    (hmarks : block'.marks = block.marks)
    (hcounts : block'.fullyReassembled = false → block.fullyReassembled = false
      ∧ block'.dataShardsReceived = block.dataShardsReceived
      ∧ block'.fecShardsReceived = block.fecShardsReceived)
    : Holds st duration b block' := by
  constructor
  . rw [hheader, h.header]
  . rw [hsize, h.size]
  . rw [hmarks, hdata]
    exact h.data
  . rw [hmarks, hfec]
    exact h.fec
  . intro hnew
    obtain ⟨hold, hcount, _⟩ := hcounts hnew
    rw [hcount, hmarks, h.dataShardsReceived hold]
  . intro hnew
    obtain ⟨hold, _, hcount⟩ := hcounts hnew
    rw [hcount, hmarks, h.fecShardsReceived hold]

theorem Holds.storeData (h : Holds st duration b block) (hnew : block.fullyReassembled = false)
    {pos : Nat} (hpos : pos < 4) (hmark : block.marks pos = true)
    : Holds st duration b (storeData block pos (st.dataPacket duration (4 * b + pos))
        (sizeofRtpPacket + (st.dataPacket duration (4 * b + pos)).payload.length)) := by
  have hstored : (st.dataPacket duration (4 * b + pos)).payload.take
      (sizeofRtpPacket + (st.dataPacket duration (4 * b + pos)).payload.length - sizeofRtpPacket)
      = (st.dataPacket duration (4 * b + pos)).payload := by
    rw [Nat.add_sub_cancel_left, List.take_length]
  unfold Rtp.storeData
  rw [hstored]
  constructor
  . exact h.header
  . exact h.size
  . intro i hi hi'
    simp only at hi' ⊢
    cases Decidable.em (i = pos) with
    | inl heq => rw [heq, store_self]
    | inr hne =>
      rw [store_of_ne _ _ hne] at hi' ⊢
      exact h.data i hi hi'
  . intro j hj hj'
    simp only at hj'
    rw [store_of_ne _ _ (by omega)] at hj'
    exact h.fec j hj hj'
  . intro _
    have hcount := countP_store block.marks (fun i : Fin 4 => i.val) Fin.val_injective
      (List.finRange 4) (List.nodup_finRange 4) ⟨pos, hpos⟩ (List.mem_finRange _) hmark
    simp only
    rw [hcount, h.dataShardsReceived hnew]
  . intro _
    simp only
    rw [h.fecShardsReceived hnew]
    apply List.countP_congr
    intro j _
    rw [store_of_ne _ _ (by omega)]

theorem Holds.storeFec (h : Holds st duration b block) (hnew : block.fullyReassembled = false)
    {packet : RtpPacket} {j : Nat} (hj : j < 2) (hmark : block.marks (4 + j) = true)
    (hpayload : packet.payload = st.fecPayload duration b j)
    : Holds st duration b (storeFec block j packet (sizeofRtpPacket + packet.payload.length)) := by
  have hbytes := length_bytes (st.header duration b) j
  have hstored : (packet.payload.drop sizeofAudioFecHeader).take
      (sizeofRtpPacket + packet.payload.length - sizeofRtpPacket - sizeofAudioFecHeader)
      = bytesOf (st.parityShard b j) := by
    rw [hpayload, Stream.fecPayload, ← hbytes, List.drop_left, Nat.add_sub_cancel_left,
      List.length_append, Nat.add_sub_cancel_left, List.take_length]
  unfold Rtp.storeFec
  rw [hstored]
  constructor
  . exact h.header
  . exact h.size
  . intro i hi hi'
    simp only at hi'
    rw [store_of_ne _ _ (by unfold RTPA_DATA_SHARDS; omega)] at hi'
    exact h.data i hi hi'
  . intro k hk hk'
    simp only at hk' ⊢
    cases Decidable.em (k = j) with
    | inl heq => rw [heq, store_self]
    | inr hne =>
      rw [store_of_ne _ _ (by unfold RTPA_DATA_SHARDS; omega)] at hk'
      rw [store_of_ne _ _ hne]
      exact h.fec k hk hk'
  . intro _
    simp only
    rw [h.dataShardsReceived hnew]
    apply List.countP_congr
    intro i _
    rw [store_of_ne _ _ (by unfold RTPA_DATA_SHARDS; omega)]
  . intro _
    have hcount := countP_store block.marks (fun k : Fin 2 => 4 + k.val)
      (fun k l hkl => Fin.ext (Nat.add_left_cancel hkl)) (List.finRange 2) (List.nodup_finRange 2)
      ⟨j, hj⟩ (List.mem_finRange _) hmark
    simp only
    rw [h.fecShardsReceived hnew]
    exact hcount.symm

/-
Four shards of six are enough for the payloads of all packets.
-/
theorem Holds.reconstruct (h : Holds st duration b block) (hnew : block.fullyReassembled = false)
    (henough : 4 ≤ block.dataShardsReceived + block.fecShardsReceived)
    : ∃ shards, reedSolomonReconstruct audioRs
          (Vector.ofFn fun i : Fin 4 => shardOf block.blockSize (block.dataPackets i).payload)
          (Vector.ofFn fun i : Fin 2 => shardOf block.blockSize (block.fecPackets i))
          (fun i => block.marks i) (fun i => block.marks (RTPA_DATA_SHARDS + i)) = (shards, 0)
        ∧ ∀ i : Fin 4, bytesOf (shards.get i) = st.payload (4 * b + i.val) := by
  rw [h.dataShardsReceived hnew, h.fecShardsReceived hnew] at henough
  have hsize := h.size
  generalize block.blockSize = size at *
  subst hsize
  have hreconstruct : reedSolomonReconstruct audioRs
      (Vector.ofFn fun i : Fin 4 => shardOf (st.blockSize b) (block.dataPackets i).payload)
      (Vector.ofFn fun i : Fin 2 => shardOf (st.blockSize b) (block.fecPackets i))
      (fun i => block.marks i) (fun i => block.marks (RTPA_DATA_SHARDS + i))
      = (st.shards b, 0) := by
    apply reedSolomonReconstruct_eq audioRs_valid
    . intro i hi
      rw [get_ofFn, h.data i i.isLt hi]
      unfold Stream.shards
      rw [get_ofFn]
      rfl
    . intro j hj k
      rw [get_ofFn, h.fec j j.isLt hj, shardOf_bytesOf, parityShard_get]
    . rw [countP_eq_sub, ← List.countP_eq_length_filter]
      unfold RTPA_DATA_SHARDS
      omega
  refine ⟨st.shards b, hreconstruct, ?_⟩
  intro i
  unfold Stream.shards
  rw [get_ofFn]
  apply bytesOf_shardOf
  rw [st.length_payload]
  congr 1
  omega

theorem Holds.recoverPacket (h : Holds st duration b block) (i : Nat) {payload : List UInt8}
    (hpayload : payload = st.payload (4 * b + i))
    : recoverPacket block duration i payload = st.dataPacket duration (4 * b + i) := by
  have hnumber := sequenceNumber_add (4 * b) i
  have htime := timestampOf_add st duration (4 * b) i
  unfold Rtp.recoverPacket
  rw [h.header, hpayload]
  simp only [Stream.header, hnumber, htime]
  rfl

/- A block with enough shards is complete afterwards, and what it holds was sent. -/
theorem Holds.tryComplete (h : Holds st duration b block) (hnew : block.fullyReassembled = false)
    (stats : Stats)
    : Holds st duration b (tryComplete block stats duration).1
      ∧ (4 ≤ block.dataShardsReceived + block.fecShardsReceived →
        ∀ i, i < 4 → (tryComplete block stats duration).1.marks i = false) := by
  unfold Rtp.tryComplete completeFecBlock
  cases Decidable.em (block.dataShardsReceived + block.fecShardsReceived < RTPA_DATA_SHARDS) with
  | inl hfew =>
    rw [if_pos hfew]
    exact ⟨h, fun henough => absurd hfew (Nat.not_lt.mpr henough)⟩
  | inr henough =>
    rw [if_neg henough]
    cases Decidable.em (block.dataShardsReceived = RTPA_DATA_SHARDS) with
    | inl hall =>
      rw [if_pos hall]
      constructor
      . exact h.congr rfl rfl rfl rfl rfl (fun hdone => absurd hdone (by simp))
      . intro _ i hi
        rw [h.dataShardsReceived hnew] at hall
        have hlength := List.countP_eq_length.mp
          (hall.trans (List.length_finRange (n := 4)).symm) ⟨i, hi⟩ (List.mem_finRange _)
        simpa using hlength
    | inr hlost =>
      obtain ⟨shards, hreconstruct, hpayload⟩ := h.reconstruct hnew (Nat.not_lt.mp henough)
      rw [if_neg hlost]
      simp only [hreconstruct, ne_eq, not_true_eq_false, if_false]
      constructor
      . constructor
        . exact h.header
        . exact h.size
        . intro i hi _
          simp only [hi, dif_pos]
          cases hmark : block.marks i with
          | true => exact h.recoverPacket i (hpayload ⟨i, hi⟩)
          | false => exact h.data i hi hmark
        . intro j hj hmark
          have hbehind : ¬ 4 + j < 4 := by omega
          exact h.fec j hj (by simpa [hbehind] using hmark)
        . intro hdone
          exact absurd hdone (by simp)
        . intro hdone
          exact absurd hdone (by simp)
      . intro _ i hi
        simp [hi]

end

end Rtp

end Audio

import PS3Moonlight.Video.RtpWindow
import Mathlib.Data.List.Perm.Subperm

/-!
This module contains what makes a block complete: as many data packets as it has, or enough parity
to recover the lost ones, so that in the end each place of the block has its packet.
-/

namespace Video

namespace Rtp

open Connection Serial

namespace Queue

section

variable {queue next : Queue}

theorem Same.tell (queue : Queue) (output : Output) (h : output.isFrame = false)
    : Same queue (queue.tell output) := by
  constructor <;> try rfl
  unfold Queue.tell
  rw [List.filter_append, List.filter_cons_of_neg (by simp [h])]
  simp

theorem Quiet.tell (queue : Queue) (output : Output) (h : output.isFrame = false)
    : Quiet queue (queue.tell output) := by
  exact ⟨Same.tell queue output h, rfl, rfl, rfl⟩

/- A loss that is predicted. -/
theorem quiet_reportedLostFrame (queue : Queue) (frameNumber : UInt32)
    : Quiet queue { queue.tell (.frameLost frameNumber true) with reportedLostFrame := true } := by
  exact (Quiet.tell queue _ rfl).trans ⟨by constructor <;> rfl, rfl, rfl, rfl⟩

theorem quiet_receivedOosData (queue : Queue) (time : Nat)
    : Quiet queue
        { queue with receivedOosData := true, lastOosFramePresentationTimestamp := time } := by
  exact ⟨by constructor <;> rfl, rfl, rfl, rfl⟩

theorem Window.tell (h : queue.Window) {output : Output} (hframe : output.isFrame = false)
    : (queue.tell output).Window := by
  exact h.of_quiet (Quiet.tell queue output hframe) h.data

theorem Window.parity_of_place (h : queue.Window) {e : Entry}
    (he : e ∈ queue.pendingFecBlockList)
    (hplace : place queue.bufferLowestSequenceNumber e < queue.bufferDataPackets)
    : e.isParity = false := by
  exact (h.parity e he).mpr hplace

/- A packet at every place of the data is all that the staging needs. -/
theorem Window.remaining (h : queue.Window)
    (hall : ∀ i, i < queue.bufferDataPackets
      → ∃ e, e ∈ queue.pendingFecBlockList ∧ place queue.bufferLowestSequenceNumber e = i)
    : Remaining queue.bufferLowestSequenceNumber 0 queue.bufferDataPackets
        queue.pendingFecBlockList := by
  constructor
  . exact h.nodup
  . intro e he hdata
    exact ⟨Nat.zero_le _, (h.parity e he).mp hdata⟩
  . intro i _ hi
    obtain ⟨e, he, hplace⟩ := hall i hi
    refine ⟨e, he, ?_, hplace⟩
    apply h.parity_of_place he
    rw [hplace]
    exact hi

def dataPlaces (queue : Queue) : List Nat :=
  (queue.pendingFecBlockList.filter fun e => !e.isParity).map queue.placeOf

theorem length_dataPlaces (queue : Queue)
    : queue.dataPlaces.length = queue.pendingFecBlockList.countP fun e => !e.isParity := by
  unfold dataPlaces
  rw [List.length_map, ← List.countP_eq_length_filter]

/- The places of the data packets are different ones, and all in the block. -/
theorem Window.dataPlaces_subperm (h : queue.Window)
    : queue.dataPlaces.Subperm (List.range queue.bufferDataPackets) := by
  apply List.subperm_of_subset
  . apply List.Nodup.sublist _ (numbers_eq_place_nodup h.nodup)
    exact List.filter_sublist.map _
  . intro k hk
    obtain ⟨e, he, hplace⟩ := List.mem_map.mp hk
    obtain ⟨hpending, hdata⟩ := List.mem_filter.mp he
    rw [← hplace, List.mem_range]
    exact (h.parity e hpending).mp (by simpa using hdata)

theorem Window.received_le (h : queue.Window)
    : queue.receivedDataPackets ≤ queue.bufferDataPackets := by
  have hlength := h.dataPlaces_subperm.length_le
  rw [List.length_range, length_dataPlaces] at hlength
  exact Nat.le_trans h.data hlength

/- So that as many as the block has fill it. -/
theorem Window.place_of_received (h : queue.Window)
    (hreceived : queue.receivedDataPackets = queue.bufferDataPackets) {i : Nat}
    (hi : i < queue.bufferDataPackets)
    : ∃ e, e ∈ queue.pendingFecBlockList ∧ place queue.bufferLowestSequenceNumber e = i := by
  have hlength : (List.range queue.bufferDataPackets).length ≤ queue.dataPlaces.length := by
    rw [List.length_range, length_dataPlaces, ← hreceived]
    exact h.data
  have hplace : i ∈ queue.dataPlaces := by
    rw [(h.dataPlaces_subperm.perm_of_length_le hlength).mem_iff, List.mem_range]
    exact hi
  obtain ⟨e, he, heq⟩ := List.mem_map.mp hplace
  exact ⟨e, List.mem_of_mem_filter he, heq⟩

/- Only a packet that is there already is not queued. -/
theorem mem_numbers_of_queuePacket {packet : Packet} {isParity isFecRecovery : Bool}
    (h : queue.queuePacket packet isParity isFecRecovery = none)
    : packet.sequenceNumber ∈ queue.numbers := by
  unfold queuePacket at h
  split at h
  . next hplace =>
    unfold placePacket at hplace
    split at hplace
    . contradiction
    . split at hplace
      . next hany =>
        obtain ⟨e, he, hnumber⟩ := List.any_eq_true.mp hany
        rw [beq_iff_eq] at hnumber
        rw [hnumber]
        exact List.mem_map_of_mem he
      . contradiction
  . contradiction

/- The header of a recovered packet is that of its block. -/
theorem fecCurrentBlockNumber_recoverPacket (h : queue.Window) (config : Config) (head : Packet)
    (i : Nat) (bytes : List UInt8)
    : (queue.recoverPacket config head i bytes).fecCurrentBlockNumber
        = queue.multiFecCurrentBlockNumber := by
  have hall : ∀ last, last < 4 → ∀ current, current < 4
      → ((UInt8.ofNat ((last <<< 2 ||| current) <<< 4) >>> 4) &&& 0x3).toNat = current := by
    decide
  exact hall _ h.last _ h.current

/- What the recovery of some of the lost packets leads to. -/
structure Recovered (queue : Queue) (lost : List Nat) (result : Queue × Bool) : Prop where
  same : Same queue result.fst
  window : result.fst.Window
  kept : ∀ e, e ∈ queue.pendingFecBlockList → e ∈ result.fst.pendingFecBlockList
  all : result.snd = true → ∀ i, i ∈ lost
    → ∃ e, e ∈ result.fst.pendingFecBlockList ∧ place queue.bufferLowestSequenceNumber e = i

theorem recovered_queueRecovered (h : queue.Window) (config : Config) (head : Packet)
    (shard : Nat → List UInt8) (ok : Bool) {i : Nat} (hi : i < queue.bufferDataPackets)
    : Recovered queue [i] (queueRecovered config head shard ⟨queue, ok⟩ i)
        ∧ ((queueRecovered config head shard ⟨queue, ok⟩ i).snd = true → ok = true) := by
  have hskip : ∀ good : Bool, (good = false) → Recovered queue [i] ⟨queue, good⟩ := by
    intro good hgood
    refine ⟨Same.refl queue, h, fun e he => he, ?_⟩
    intro htrue
    rw [hgood] at htrue
    contradiction
  unfold queueRecovered
  cases ok with
  | false => exact ⟨hskip false rfl, fun hfalse => hfalse⟩
  | true =>
    simp only [if_true]
    split
    . refine ⟨?_, fun _ => trivial⟩
      have htotal := h.total
      have hdata : queue.bufferDataPackets ≤ queue.totalPackets := Nat.le_add_right _ _
      have hgap : gap queue.bufferLowestSequenceNumber
          (queue.recoverPacket config head i (shard i)).sequenceNumber = i := by
        exact gap_add_ofNat _ (by omega)
      cases hqueue : queue.queuePacket (queue.recoverPacket config head i (shard i)) false true with
      | none =>
        obtain ⟨e, he, hnumber⟩ := List.mem_map.mp (mem_numbers_of_queuePacket hqueue)
        refine ⟨Same.refl queue, h, fun e he => he, ?_⟩
        intro _ j hj
        rw [List.mem_singleton] at hj
        refine ⟨e, he, ?_⟩
        unfold place
        rw [hj, hnumber]
        exact hgap
      | some next =>
        obtain ⟨hsame, hwindow, _, entry, hpending, hpacket, _⟩ := queuePacket_eq_some h
          (by omega) (by simp only [true_iff]; omega)
          ⟨rfl, fecCurrentBlockNumber_recoverPacket h config head i (shard i)⟩ hqueue
        refine ⟨hsame, hwindow, ?_, ?_⟩
        . intro e he
          simp only [Option.getD_some]
          rw [hpending]
          exact List.mem_append_left _ he
        . intro _ j hj
          rw [List.mem_singleton] at hj
          refine ⟨entry, ?_, ?_⟩
          . simp only [Option.getD_some]
            rw [hpending]
            simp
          . unfold place
            rw [hj, hpacket]
            exact hgap
    . exact ⟨hskip false rfl, fun hfalse => absurd hfalse (by simp)⟩

theorem recovered_foldl (config : Config) (head : Packet) (shard : Nat → List UInt8)
    (lost : List Nat) (h : queue.Window) (ok : Bool)
    (hlost : ∀ i, i ∈ lost → i < queue.bufferDataPackets)
    : Recovered queue lost (lost.foldl (queueRecovered config head shard) ⟨queue, ok⟩)
        ∧ ((lost.foldl (queueRecovered config head shard) ⟨queue, ok⟩).snd = true → ok = true) := by
  induction lost generalizing queue ok with
  | nil =>
    refine ⟨⟨Same.refl queue, h, fun e he => he, ?_⟩, fun hok => hok⟩
    intro _ i hi
    contradiction
  | cons first lost ih =>
    rw [List.foldl_cons]
    obtain ⟨hfirst, hok⟩ :=
      recovered_queueRecovered h config head shard ok (hlost first (by simp))
    have hlost' : ∀ i, i ∈ lost
        → i < (queueRecovered config head shard ⟨queue, ok⟩ first).fst.bufferDataPackets := by
      intro i hi
      rw [hfirst.same.dataPackets]
      exact hlost i (List.mem_cons_of_mem _ hi)
    obtain ⟨hrest, hokrest⟩ := ih hfirst.window
      (queueRecovered config head shard ⟨queue, ok⟩ first).snd hlost'
    refine ⟨⟨hfirst.same.trans hrest.same, hrest.window, ?_, ?_⟩, fun htrue => hok (hokrest htrue)⟩
    . intro e he
      exact hrest.kept e (hfirst.kept e he)
    . intro htrue i hi
      rw [← hfirst.same.lowest]
      rcases List.mem_cons.mp hi with heq | hmem
      . obtain ⟨e, he, hplace⟩ := hfirst.all (hokrest htrue) i (by simp [heq])
        refine ⟨e, hrest.kept e he, ?_⟩
        rw [hfirst.same.lowest]
        exact hplace
      . exact hrest.all htrue i hmem

/- Whatever the check of a block comes to, the block stays what it is, and one that is complete has
a packet at each place. -/
structure Reconstructed (queue : Queue) (result : Queue × Bool) : Prop where
  same : Same queue result.fst
  window : result.fst.Window
  all : result.snd = true → ∀ i, i < queue.bufferDataPackets
    → ∃ e, e ∈ result.fst.pendingFecBlockList ∧ place queue.bufferLowestSequenceNumber e = i

theorem Reconstructed.of_false (hsame : Same queue next) (h : next.Window)
    : Reconstructed queue ⟨next, false⟩ := by
  refine ⟨hsame, h, ?_⟩
  intro hfalse
  contradiction

theorem Reconstructed.of_same {result : Queue × Bool} (hsame : Same queue next)
    (h : Reconstructed next result)
    : Reconstructed queue result := by
  refine ⟨hsame.trans h.same, h.window, ?_⟩
  rw [← hsame.dataPackets, ← hsame.lowest]
  exact h.all

theorem place_of_shardAt {index : Nat} (h : (queue.shardAt index).isNone = false)
    : ∃ e, e ∈ queue.pendingFecBlockList ∧ place queue.bufferLowestSequenceNumber e = index := by
  unfold shardAt at h
  rw [Option.isNone_map] at h
  cases hfind : queue.pendingFecBlockList.find? fun entry =>
      gap queue.bufferLowestSequenceNumber entry.packet.sequenceNumber == index with
  | none =>
    rw [hfind] at h
    contradiction
  | some e =>
    refine ⟨e, List.mem_of_find?_eq_some hfind, ?_⟩
    have hsome := List.find?_some hfind
    exact beq_iff_eq.mp hsome

theorem reconstructed_recover (h : queue.Window) (config : Config) (head : Packet)
    (memory : Nat → List UInt8)
    (rs : Fec.ReedSolomon queue.bufferDataPackets queue.bufferParityPackets)
    : Reconstructed queue (queue.recover config head memory rs) := by
  have hreported : ∀ reported, reported = queue.reportFinalFrameFecStatus ∨ reported = queue
      → Same queue reported ∧ reported.Window
        ∧ reported.pendingFecBlockList = queue.pendingFecBlockList := by
    intro reported heq
    rcases heq with heq | heq
    . rw [heq]
      exact ⟨Same.tell queue _ rfl, h.tell rfl, rfl⟩
    . rw [heq]
      exact ⟨Same.refl queue, h, rfl⟩
  unfold recover
  extract_lets shardBytes missing result reported shard
  obtain ⟨hsame, hwindow, hpending⟩ := hreported reported (by
    unfold reported
    split
    . exact Or.inl rfl
    . exact Or.inr rfl)
  split
  . exact Reconstructed.of_false hsame hwindow
  . obtain ⟨hrecovered, _⟩ := recovered_foldl config head shard
      ((List.range queue.bufferDataPackets).filter missing) hwindow true (by
        intro i hi
        rw [hsame.dataPackets]
        exact List.mem_range.mp (List.mem_of_mem_filter hi))
    refine ⟨hsame.trans hrecovered.same, hrecovered.window, ?_⟩
    intro htrue i hi
    rw [← hsame.lowest]
    cases hmissing : missing i with
    | true =>
      apply hrecovered.all htrue
      exact List.mem_filter.mpr ⟨List.mem_range.mpr hi, hmissing⟩
    | false =>
      obtain ⟨e, he, hplace⟩ := place_of_shardAt hmissing
      refine ⟨e, hrecovered.kept e ?_, ?_⟩
      . rw [hpending]
        exact he
      . rw [hsame.lowest]
        exact hplace

theorem reconstructed_reconstructFrame (h : queue.Window) (config : Config) (env : Env)
    : Reconstructed queue (queue.reconstructFrame config env) := by
  unfold reconstructFrame
  extract_lets neededPackets
  split
  . split
    . have hquiet := quiet_reportedLostFrame queue queue.currentFrameNumber
      exact Reconstructed.of_false hquiet.toSame (h.of_quiet hquiet h.data)
    . exact Reconstructed.of_false (Same.refl queue) h
  . next hneeded =>
    split
    . next hpending =>
      refine ⟨Same.refl queue, h, ?_⟩
      intro _ i hi
      rw [hpending, List.length_nil] at hneeded
      omega
    . next head pending hpending =>
      extract_lets noted
      have hnoted : Same queue noted ∧ noted.Window := by
        unfold noted
        split
        . have hquiet := quiet_receivedOosData queue head.presentationTimeUs
          exact ⟨hquiet.toSame, h.of_quiet hquiet h.data⟩
        . exact ⟨Same.refl queue, h⟩
      apply Reconstructed.of_same hnoted.left
      split
      . next hreceived =>
        refine ⟨Same.refl noted, hnoted.right, ?_⟩
        intro _ i hi
        exact hnoted.right.place_of_received hreceived hi
      . split
        . exact Reconstructed.of_false (Same.refl noted) hnoted.right
        . split
          . exact reconstructed_recover hnoted.right config head.packet _ _
          . exact Reconstructed.of_false (Same.refl noted) hnoted.right

end

end Queue

end Rtp

end Video

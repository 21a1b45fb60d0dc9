import PS3Moonlight.Video.RtpQueue

/-!
This module contains the staging of a complete block: whichever way its packets arrived, its data
packets leave in the order of their numbers, and its parity does not leave at all.
-/

namespace Video

namespace Rtp

open Serial

namespace Queue

/- The place of a packet in its block. -/
def place (lowest : BitVec 16) (entry : Entry) : Nat :=
  gap lowest entry.packet.sequenceNumber

theorem sequenceNumber_of_place {lowest : BitVec 16} {entry : Entry} {k : Nat}
    (h : place lowest entry = k)
    : entry.packet.sequenceNumber = lowest + BitVec.ofNat 16 k := by
  rw [← h]
  exact (add_gap lowest entry.packet.sequenceNumber).symm

/- The scan takes out the packet with the number. -/
theorem scan_eq_inl {next : BitVec 16} (lowest : BitVec 16) {pending : List Entry}
    (hnodup : (pending.map fun e => e.packet.sequenceNumber).Nodup)
    (hfound : ∃ e, e ∈ pending ∧ e.isParity = false ∧ e.packet.sequenceNumber = next)
    : ∃ kept entry, scan next lowest pending = ⟨kept, .inl entry⟩
        ∧ entry ∈ pending ∧ entry.isParity = false ∧ entry.packet.sequenceNumber = next
        ∧ kept.Sublist pending ∧ kept.length < pending.length
        ∧ (∀ e, e ∈ kept → e.packet.sequenceNumber ≠ next)
        ∧ ∀ e, e ∈ pending → e.isParity = false → e.packet.sequenceNumber ≠ next → e ∈ kept := by
  induction pending generalizing lowest with
  | nil => simp at hfound
  | cons first pending ih =>
    rw [List.map_cons, List.nodup_cons] at hnodup
    unfold scan
    cases hparity : first.isParity with
    | true =>
      simp only [if_true]
      have hlater : ∃ e, e ∈ pending ∧ e.isParity = false ∧ e.packet.sequenceNumber = next := by
        obtain ⟨e, he, hdata, hnumber⟩ := hfound
        rcases List.mem_cons.mp he with heq | hmem
        . rw [heq, hparity] at hdata
          contradiction
        . exact ⟨e, hmem, hdata, hnumber⟩
      obtain ⟨kept, entry, hscan, hentry, hdata, hnumber, hkept, hlength, hne, hrest⟩ :=
        ih lowest hnodup.right hlater
      refine ⟨kept, entry, hscan, List.mem_cons_of_mem _ hentry, hdata, hnumber,
        hkept.trans (List.sublist_cons_self _ _), ?_, hne, ?_⟩
      . rw [List.length_cons]
        omega
      . intro e he hdata' hnumber'
        rcases List.mem_cons.mp he with heq | hmem
        . rw [heq, hparity] at hdata'
          contradiction
        . exact hrest e hmem hdata' hnumber'
    | false =>
      simp only [Bool.false_eq_true, if_false]
      cases Decidable.em (first.packet.sequenceNumber = next) with
      | inl hnumber =>
        rw [if_pos hnumber]
        refine ⟨pending, first, rfl, by simp, hparity, hnumber, List.sublist_cons_self _ _,
          by simp, ?_, ?_⟩
        . intro e he heq
          apply hnodup.left
          rw [hnumber, ← heq]
          exact List.mem_map_of_mem he
        . intro e he _ hne
          rcases List.mem_cons.mp he with heq | hmem
          . rw [heq] at hne
            exact absurd hnumber hne
          . exact hmem
      | inr hother =>
        rw [if_neg hother]
        have hlater : ∃ e, e ∈ pending ∧ e.isParity = false ∧ e.packet.sequenceNumber = next := by
          obtain ⟨e, he, hdata, hnumber⟩ := hfound
          rcases List.mem_cons.mp he with heq | hmem
          . rw [heq] at hnumber
            exact absurd hnumber hother
          . exact ⟨e, hmem, hdata, hnumber⟩
        obtain ⟨kept, entry, hscan, hentry, hdata, hnumber, hkept, hlength, hne, hrest⟩ :=
          ih (if isBefore first.packet.sequenceNumber lowest then
            first.packet.sequenceNumber else lowest) hnodup.right hlater
        simp only [hscan]
        refine ⟨first :: kept, entry, rfl, List.mem_cons_of_mem _ hentry, hdata, hnumber,
          hkept.cons_cons _, ?_, ?_, ?_⟩
        . rw [List.length_cons, List.length_cons]
          omega
        . intro e he
          rcases List.mem_cons.mp he with heq | hmem
          . rw [heq]
            exact hother
          . exact hne e hmem
        . intro e he hdata' hnumber'
          rcases List.mem_cons.mp he with heq | hmem
          . rw [heq]
            simp
          . exact List.mem_cons_of_mem _ (hrest e hmem hdata' hnumber')

theorem scan_parity {next lowest : BitVec 16} {pending : List Entry}
    (h : ∀ e, e ∈ pending → e.isParity = true)
    : scan next lowest pending = ⟨[], .inr lowest⟩ := by
  induction pending with
  | nil => rfl
  | cons first pending ih =>
    unfold scan
    rw [if_pos (h first (by simp))]
    apply ih
    intro e he
    exact h e (List.mem_cons_of_mem _ he)

/- The data packets from the place `k` on are there, besides only parity. -/
structure Remaining (lowest : BitVec 16) (k data : Nat) (pending : List Entry) : Prop where
  nodup : (pending.map fun e => e.packet.sequenceNumber).Nodup
  range : ∀ e, e ∈ pending → e.isParity = false → k ≤ place lowest e ∧ place lowest e < data
  all : ∀ i, k ≤ i → i < data → ∃ e, e ∈ pending ∧ e.isParity = false ∧ place lowest e = i

theorem place_of_sequenceNumber {lowest : BitVec 16} {e : Entry} {k : Nat} (hk : k < 2 ^ 16)
    (h : e.packet.sequenceNumber = lowest + BitVec.ofNat 16 k)
    : place lowest e = k := by
  unfold place
  rw [h, gap_add_ofNat lowest hk]

/- What leaves: the data packets in order, with the time of the first packet of the block. -/
structure Staged (lowest : BitVec 16) (k data : Nat) (pending staged : List Entry) : Prop where
  numbers : staged.map (fun e => e.packet.sequenceNumber)
    = (List.range' k (data - k)).map fun i => lowest + BitVec.ofNat 16 i
  sources : ∀ e, e ∈ staged → ∃ source, source ∈ pending ∧ source.isParity = false
    ∧ e.packet = source.packet ∧ e.isParity = false

theorem add_ofNat_succ (a : BitVec 16) (k : Nat)
    : a + BitVec.ofNat 16 k + 1 = a + BitVec.ofNat 16 (k + 1) := by
  rw [BitVec.ofNat_add, ← BitVec.add_assoc]
  rfl

theorem stageLoop_of_nil {fuel : Nat} {queue : Queue} {next : BitVec 16}
    (h : queue.pendingFecBlockList = [])
    : stageLoop fuel queue next
        = { queue with
            pendingFecBlockList := []
            completedFecBlockList := queue.completedFecBlockList ++ [] } := by
  rw [List.append_nil]
  unfold stageLoop
  cases fuel with
  | zero =>
    simp only
    rw [← h]
  | succ fuel =>
    simp only [h]
    rw [← h]

theorem Remaining.eq_of_nil {lowest : BitVec 16} {k data : Nat} (hk : k ≤ data)
    (h : Remaining lowest k data [])
    : k = data := by
  cases Nat.lt_or_ge k data with
  | inl hlt =>
    obtain ⟨e, he, _⟩ := h.all k (Nat.le_refl k) hlt
    contradiction
  | inr hge => omega

theorem Staged.nil {lowest : BitVec 16} {data : Nat} {pending : List Entry}
    : Staged lowest data data pending [] := by
  constructor
  . rw [Nat.sub_self]
    rfl
  . intro e he
    contradiction

theorem stageLoop_eq (fuel : Nat) {k data : Nat} {queue : Queue} {lowest : BitVec 16}
    (hdata : data < 2 ^ 15) (hk : k ≤ data) (hfuel : queue.pendingFecBlockList.length ≤ fuel)
    (h : Remaining lowest k data queue.pendingFecBlockList)
    : ∃ staged, stageLoop fuel queue (lowest + BitVec.ofNat 16 k)
          = { queue with
              pendingFecBlockList := []
              completedFecBlockList := queue.completedFecBlockList ++ staged }
        ∧ Staged lowest k data queue.pendingFecBlockList staged := by
  induction fuel generalizing k queue with
  | zero =>
    have hnone : queue.pendingFecBlockList = [] := List.eq_nil_of_length_eq_zero (by omega)
    rw [hnone] at h
    rw [h.eq_of_nil hk]
    exact ⟨[], stageLoop_of_nil hnone, Staged.nil⟩
  | succ fuel ih =>
    cases hpending : queue.pendingFecBlockList with
    | nil =>
      rw [hpending] at h
      rw [h.eq_of_nil hk]
      exact ⟨[], stageLoop_of_nil hpending, Staged.nil⟩
    | cons head pending =>
      rw [hpending] at h hfuel
      cases Nat.lt_or_ge k data with
      | inl hlt =>
        obtain ⟨e, he, hedata, heplace⟩ := h.all k (Nat.le_refl k) hlt
        obtain ⟨kept, entry, hscan, hentry, hentrydata, hnumber, hkept, hlength, hne, hrest⟩ :=
          scan_eq_inl head.packet.sequenceNumber h.nodup
            ⟨e, he, hedata, sequenceNumber_of_place heplace⟩
        have hremaining : Remaining lowest (k + 1) data kept := by
          constructor
          . exact h.nodup.sublist (hkept.map _)
          . intro x hx hxdata
            have hrange := h.range x (hkept.subset hx) hxdata
            have hother : place lowest x ≠ k := by
              intro hplace
              exact hne x hx (sequenceNumber_of_place hplace)
            omega
          . intro i hi hidata
            obtain ⟨x, hx, hxdata, hxplace⟩ := h.all i (by omega) hidata
            refine ⟨x, hrest x hx hxdata ?_, hxdata, hxplace⟩
            intro hsame
            have hplace := place_of_sequenceNumber (by omega) hsame
            omega
        obtain ⟨staged, hloop, hstaged⟩ := @ih (k + 1)
          { queue with
            pendingFecBlockList := kept
            completedFecBlockList := queue.completedFecBlockList
              ++ [{ entry with receiveTimeUs := queue.bufferFirstRecvTimeUs }] }
          (by omega) (by simp only; rw [List.length_cons] at hlength hfuel; omega) hremaining
        refine ⟨{ entry with receiveTimeUs := queue.bufferFirstRecvTimeUs } :: staged, ?_, ?_⟩
        . unfold stageLoop
          rw [hpending]
          simp only [hscan]
          rw [add_ofNat_succ, hloop]
          simp
        . constructor
          . rw [List.map_cons, hstaged.numbers, hnumber]
            have hcount : data - k = (data - (k + 1)) + 1 := by omega
            rw [hcount, List.range'_succ, List.map_cons]
          . intro x hx
            rcases List.mem_cons.mp hx with heq | hmem
            . rw [heq]
              exact ⟨entry, hentry, hentrydata, rfl, hentrydata⟩
            . obtain ⟨source, hsource, hsame⟩ := hstaged.sources x hmem
              exact ⟨source, hkept.subset hsource, hsame⟩
      | inr hge =>
        have hend : k = data := by omega
        have hparity : ∀ x, x ∈ head :: pending → x.isParity = true := by
          intro x hx
          cases hx' : x.isParity with
          | true => rfl
          | false =>
            have hrange := h.range x hx hx'
            omega
        have hscan : scan (lowest + BitVec.ofNat 16 k) head.packet.sequenceNumber (head :: pending)
            = ⟨[], .inr head.packet.sequenceNumber⟩ := scan_parity hparity
        refine ⟨[], ?_, ?_⟩
        . unfold stageLoop
          rw [hpending]
          simp only [hscan]
          exact stageLoop_of_nil rfl
        . rw [hend]
          exact Staged.nil

end Queue

end Rtp

end Video

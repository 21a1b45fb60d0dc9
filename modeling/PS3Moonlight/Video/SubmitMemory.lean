import PS3Moonlight.Video.Submit

/-!
This module contains the memory safety of the submission: every write stays inside of the front
buffer, so that the buffers keep their sizes, and no statement changes a buffer that the hardware
still reads.
-/

namespace Video
namespace AnnexB

/-
The walk never leaves the bytes it was given, even if a sum of lengths wraps around.
-/
theorem walkBody_inside {length : Nat} {w w' : Walk} (hlength : length + 4 < 2 ^ 32)
    (hsize : length ≤ w.mem.length) (hpos : w.pos ≤ length) (h : walkBody length w = .inl w')
    : w'.mem.length = w.mem.length ∧ w'.pos ≤ length := by
  unfold walkBody at h
  dsimp only at h
  split at h
  . next hroom =>
    split at h
    . simp at h
    . next hgood =>
      injection h with h
      rw [← h]
      rw [Nat.mod_eq_of_lt (by omega)] at hroom
      constructor
      . apply Bytes.length_write
        rw [length_startCode]
        omega
      . dsimp only
        omega
  . simp at h

theorem walk_inside {length fuel : Nat} {w w' : Walk} (hlength : length + 4 < 2 ^ 32)
    (hsize : length ≤ w.mem.length) (hpos : w.pos ≤ length)
    (h : Loop.iter (walkBody length) fuel w = some w')
    : w'.mem.length = w.mem.length ∧ w'.pos ≤ length := by
  apply Loop.iter_invariant (fun v => v.mem.length = w.mem.length ∧ v.pos ≤ length)
    (fun v => v.mem.length = w.mem.length ∧ v.pos ≤ length) _ _ ⟨rfl, hpos⟩ h
  . intro v v' hv hbody
    have hnext := walkBody_inside hlength (by omega) hv.right hbody
    rw [hv.left] at hnext
    exact hnext
  . intro v v' hv hbody
    unfold walkBody at hbody
    dsimp only at hbody
    split at hbody
    . split at hbody
      . injection hbody with hbody
        rw [← hbody]
        exact hv
      . simp at hbody
    . injection hbody with hbody
      rw [← hbody]
      exact hv

theorem convert_inside {mem : List UInt8} {size length : Nat} {c : Conversion}
    (hlength : length + 4 < 2 ^ 32) (hmem : mem.length = size) (hsize : length ≤ size)
    (h : convert mem size length = some c)
    : c.mem.length = size ∧ c.length ≤ size := by
  unfold convert at h
  split at h
  . split at h
    . simp at h
    . next w hwalk =>
      have hw := walk_inside hlength (by simpa [hmem] using hsize) (Nat.zero_le _) hwalk
      rw [hmem] at hw
      split at h
      . split at h
        . next hroom =>
          have hshift : (Bytes.write w.mem 4 (Bytes.read w.mem 0 length)).length = size := by
            rw [Bytes.length_write]
            . exact hw.left
            . simp only [Bytes.read, List.drop_zero, List.length_take]
              omega
          injection h with h
          rw [← h]
          dsimp only
          constructor
          . rw [Bytes.length_write]
            . exact hshift
            . rw [hshift, length_startCode]
              omega
          . exact hroom
        . injection h with h
          rw [← h]
          exact ⟨hw.left, hsize⟩
      . injection h with h
        rw [← h]
        exact ⟨hw.left, hsize⟩
  . injection h with h
    rw [← h]
    exact ⟨hmem, hsize⟩

end AnnexB

namespace Submission

/- What the program counter knows about the lengths it carries. -/
def Inside (s : Submission) : Prop :=
  match s.pc with
  | .entered decodeUnit => u32 decodeUnit.fullLength ≤ vdecDecodeBufMax
  | .growing decodeUnit => u32 decodeUnit.fullLength ≤ vdecDecodeBufMax
  | .copying decodeUnit _ length =>
    u32 decodeUnit.fullLength ≤ vdecDecodeBufMax ∧ length ≤ s.decodeBufferSize
  | .framing length => length ≤ vdecDecodeBufMax ∧ length ≤ s.decodeBufferSize
  | _ => True

structure Bounded (s : Submission) : Prop where
  front : s.vdecFront < vdecBufCount
  allocated : s.Allocated
  inside : s.Inside

theorem Allocated.store {s : Submission} (h : s.Allocated) (hfront : s.vdecFront < vdecBufCount)
    {mem : List UInt8} (hmem : mem.length = s.decodeBufferSize)
    : (s.store mem).Allocated where
  distinct := h.distinct
  length := by
    intro i hi
    simp only [Submission.store, Function.update_apply]
    split
    . next heq =>
      rw [h.distinct i s.vdecFront hi hfront heq, hmem]
      rfl
    . apply h.length i hi

theorem Allocated.replaceFront {s : Submission} (h : s.Allocated) {block : Block} {size : Nat}
    (hfresh : s.isFresh block size = true)
    : (s.replaceFront block size).Allocated := by
  rw [isFresh_iff] at hfresh
  constructor
  . intro i j hi hj heq
    simp only [Submission.replaceFront, Function.update_apply] at heq
    split at heq
    . split at heq
      . omega
      . exact absurd heq.symm (hfresh.right j hj)
    . split at heq
      . exact absurd heq (hfresh.right i hi)
      . apply h.distinct i j hi hj heq
  . intro i hi
    simp only [Submission.replaceFront]
    cases Nat.decEq i s.vdecFront with
    | isTrue heq => simp [heq, hfresh.left]
    | isFalse hne =>
      rw [Function.update_of_ne hne, Function.update_of_ne hne]
      rw [Function.update_of_ne (hfresh.right i hi)]
      apply h.length i hi

theorem Bounded.move {s t : Submission} (h : s.Bounded) (hbuf : t.vdecBuf = s.vdecBuf)
    (hsize : t.vdecBufSize = s.vdecBufSize) (hheap : t.heap = s.heap)
    (hfront : t.vdecFront = s.vdecFront) (hinside : t.Inside)
    : t.Bounded where
  front := by
    rw [hfront]
    exact h.front
  allocated := by
    constructor
    . rw [hbuf]
      exact h.allocated.distinct
    . rw [hbuf, hsize, hheap]
      exact h.allocated.length
  inside := hinside

theorem enter_bounded {s : Submission} (h : s.Bounded) (decodeUnit : Option DecodeUnit)
    (clock : Clock)
    : (s.enter decodeUnit clock).Bounded := by
  unfold enter
  split
  . exact h.move rfl rfl rfl rfl trivial
  . split
    . exact h.move rfl rfl rfl rfl trivial
    . next hlength =>
      refine h.move rfl rfl rfl rfl ?_
      simp only [Inside]
      omega

theorem checkPending_bounded {s : Submission} (h : s.Bounded) (decodeUnit : DecodeUnit)
    (clock : Clock) (hpc : s.pc = .entered decodeUnit)
    : (s.checkPending decodeUnit clock).Bounded := by
  have hinside := h.inside
  rw [Inside, hpc] at hinside
  unfold checkPending
  split
  . exact h.move rfl rfl rfl rfl trivial
  . exact h.move rfl rfl rfl rfl hinside

theorem grow_bounded {s t : Submission} (h : s.Bounded) (decodeUnit : DecodeUnit)
    (memalign : Nat → Option Block) (hpc : s.pc = .growing decodeUnit)
    (hstep : s.grow decodeUnit memalign = some t)
    : t.Bounded := by
  have hinside := h.inside
  rw [Inside, hpc] at hinside
  unfold grow at hstep
  split at hstep
  . split at hstep
    . injection hstep with hstep
      rw [← hstep]
      exact h.move rfl rfl rfl rfl trivial
    . split at hstep
      . next hfresh =>
        have hallocated := h.allocated.replaceFront hfresh
        injection hstep with hstep
        rw [← hstep]
        exact ⟨h.front, ⟨hallocated.distinct, hallocated.length⟩, hinside, Nat.zero_le _⟩
      . simp at hstep
  . injection hstep with hstep
    rw [← hstep]
    exact h.move rfl rfl rfl rfl ⟨hinside, Nat.zero_le _⟩

theorem copyEntry_bounded {s : Submission} (h : s.Bounded) (decodeUnit : DecodeUnit)
    (entry : List Entry) (length : Nat) (hpc : s.pc = .copying decodeUnit entry length)
    : (s.copyEntry decodeUnit entry length).Bounded := by
  have hinside := h.inside
  rw [Inside, hpc] at hinside
  cases entry with
  | nil =>
    unfold copyEntry
    dsimp only
    split
    . exact h.move rfl rfl rfl rfl trivial
    . refine h.move rfl rfl rfl rfl ⟨?_, hinside.right⟩
      omega
  | cons entry next =>
    unfold copyEntry
    dsimp only
    split
    . exact h.move rfl rfl rfl rfl trivial
    . next data _ =>
      split
      . exact h.move rfl rfl rfl rfl trivial
      . next hroom =>
        dsimp only at hinside
        have hsize : s.decodeBuffer.length = s.decodeBufferSize := h.allocated.length _ h.front
        have hwrite : (Bytes.write s.decodeBuffer length
            (Bytes.read data 0 (u32 entry.length))).length = s.decodeBufferSize := by
          rw [Bytes.length_write]
          . exact hsize
          . simp only [Bytes.read, List.drop_zero, List.length_take]
            omega
        have hstore := h.allocated.store h.front hwrite
        refine ⟨h.front, ⟨hstore.distinct, hstore.length⟩, hinside.left, ?_⟩
        show length + u32 entry.length ≤ s.decodeBufferSize
        omega

theorem frame_bounded {s t : Submission} (h : s.Bounded) (length : Nat)
    (hpc : s.pc = .framing length) (hstep : s.frame length = some t)
    : t.Bounded := by
  have hinside := h.inside
  rw [Inside, hpc] at hinside
  dsimp only at hinside
  have hlength : length + 4 < 2 ^ 32 := by
    unfold vdecDecodeBufMax at hinside
    omega
  unfold frame at hstep
  split at hstep
  . simp at hstep
  . next c hc =>
    have hinsideC := AnnexB.convert_inside hlength (h.allocated.length _ h.front) hinside.right hc
    have hstore := h.allocated.store h.front hinsideC.left
    split at hstep
    . injection hstep with hstep
      rw [← hstep]
      exact ⟨h.front, ⟨hstore.distinct, hstore.length⟩, trivial⟩
    . injection hstep with hstep
      rw [← hstep]
      exact ⟨h.front, ⟨hstore.distinct, hstore.length⟩, trivial⟩

theorem decodeAu_bounded {s : Submission} (h : s.Bounded) (au : VdecAU) (rc : UInt32) (failed : Pc)
    (hfailed : Inside { s with pc := failed })
    : (s.decodeAu au rc failed).Bounded := by
  unfold decodeAu
  split
  . exact h.move rfl rfl rfl rfl trivial
  . exact h.move rfl rfl rfl rfl hfailed

theorem proceed_bounded {s t : Submission} (h : s.Bounded) (env : Env)
    (hstep : s.proceed env = some t)
    : t.Bounded := by
  unfold proceed at hstep
  split at hstep
  . simp at hstep
  . next decodeUnit hpc =>
    injection hstep with hstep
    rw [← hstep]
    apply checkPending_bounded h decodeUnit env.clock hpc
  . next decodeUnit hpc => exact grow_bounded h decodeUnit env.memalign hpc hstep
  . next decodeUnit entry length hpc =>
    injection hstep with hstep
    rw [← hstep]
    apply copyEntry_bounded h decodeUnit entry length hpc
  . next length hpc => exact frame_bounded h length hpc hstep
  . injection hstep with hstep
    rw [← hstep]
    exact h.move rfl rfl rfl rfl trivial
  . next au hpc =>
    injection hstep with hstep
    rw [← hstep]
    apply decodeAu_bounded h
    split
    . trivial
    . trivial
  . next au hpc =>
    injection hstep with hstep
    rw [← hstep]
    apply decodeAu_bounded h
    trivial
  . injection hstep with hstep
    rw [← hstep]
    exact h.move rfl rfl rfl rfl trivial
  . injection hstep with hstep
    rw [← hstep]
    refine ⟨?_, ⟨h.allocated.distinct, h.allocated.length⟩, trivial⟩
    apply Nat.mod_lt
    decide
  . simp at hstep

/-
Callbacks do not touch the memory, not even the one that reports an error.
-/
theorem vdecCallback_bounded {s t : Submission} (h : s.Bounded) (msgtype : Callback)
    (hstep : s.vdecCallback msgtype = some t)
    : t.Bounded := by
  unfold vdecCallback at hstep
  split at hstep
  . injection hstep with hstep
    rw [← hstep]
    exact h.move rfl rfl rfl rfl h.inside
  . split at hstep
    . simp at hstep
    . split at hstep
      . injection hstep with hstep
        rw [← hstep]
        exact h.move rfl rfl rfl rfl h.inside
      . injection hstep with hstep
        rw [← hstep]
        exact h.move rfl rfl rfl rfl h.inside
  . injection hstep with hstep
    rw [← hstep]
    exact h.move rfl rfl rfl rfl h.inside
  . injection hstep with hstep
    rw [← hstep]
    exact h.move rfl rfl rfl rfl h.inside

theorem step_bounded {s t : Submission} (h : s.Bounded) (e : Event) (hstep : s.step e = some t)
    : t.Bounded := by
  unfold step at hstep
  split at hstep
  . split at hstep
    . injection hstep with hstep
      rw [← hstep]
      apply enter_bounded h
    . injection hstep with hstep
      rw [← hstep]
      apply enter_bounded h
    . simp at hstep
  . apply proceed_bounded h _ hstep
  . apply vdecCallback_bounded h _ hstep

theorem bounded_of_runFrom {v s t : Submission} {events : List Event} (h : s.Bounded)
    (hrun : (machine v).runFrom s events = some t)
    : t.Bounded := by
  apply (machine v).runFrom_invariant_of_stepsMeet (fun _ _ => True) Bounded
  . intro s e t hs _ hstep
    apply step_bounded hs e hstep
  . exact h
  . apply (machine v).stepsMeet_of_forall (fun _ => True)
    simp
  . exact hrun

theorem bounded_of_reachable {v s : Submission} (hallocated : v.Allocated)
    (h : (machine v).Reachable s)
    : s.Bounded := by
  have ⟨events, hrun⟩ := h
  apply bounded_of_runFrom _ hrun
  exact ⟨(by decide : 0 < vdecBufCount), ⟨hallocated.distinct, hallocated.length⟩, trivial⟩

/-
What a step can do to the memory of the ring.
-/

structure SameMemory (s t : Submission) : Prop where
  heap : t.heap = s.heap
  vdecBufSize : t.vdecBufSize = s.vdecBufSize

theorem enter_memory (s : Submission) (decodeUnit : Option DecodeUnit) (clock : Clock)
    : s.SameMemory (s.enter decodeUnit clock) := by
  unfold enter
  split
  . exact ⟨rfl, rfl⟩
  . split
    . exact ⟨rfl, rfl⟩
    . exact ⟨rfl, rfl⟩

theorem vdecCallback_memory {s t : Submission} {msgtype : Callback}
    (hstep : s.vdecCallback msgtype = some t)
    : s.SameMemory t := by
  unfold vdecCallback at hstep
  split at hstep
  . injection hstep with hstep
    rw [← hstep]
    exact ⟨rfl, rfl⟩
  . split at hstep
    . simp at hstep
    . split at hstep
      . injection hstep with hstep
        rw [← hstep]
        exact ⟨rfl, rfl⟩
      . injection hstep with hstep
        rw [← hstep]
        exact ⟨rfl, rfl⟩
  . injection hstep with hstep
    rw [← hstep]
    exact ⟨rfl, rfl⟩
  . injection hstep with hstep
    rw [← hstep]
    exact ⟨rfl, rfl⟩

/- A statement of the submission replaces the front buffer, writes into it, or leaves the memory alone. -/
inductive MemoryMove (s t : Submission) : Prop where
  | same (h : s.SameMemory t)
  | grown (decodeUnit : DecodeUnit) (block : Block) (hpc : s.pc = .growing decodeUnit)
      (hfresh : s.isFresh block (newSize decodeUnit) = true)
      (h : (s.replaceFront block (newSize decodeUnit)).SameMemory t)
  | stored (mem : List UInt8) (htouches : s.pc.touchesFront = true) (h : (s.store mem).SameMemory t)

theorem decodeAu_memory (s : Submission) (au : VdecAU) (rc : UInt32) (failed : Pc)
    : s.SameMemory (s.decodeAu au rc failed) := by
  unfold decodeAu
  split
  . exact ⟨rfl, rfl⟩
  . exact ⟨rfl, rfl⟩

theorem grow_memory {s t : Submission} {decodeUnit : DecodeUnit} {memalign : Nat → Option Block}
    (hpc : s.pc = .growing decodeUnit) (hstep : s.grow decodeUnit memalign = some t)
    : s.MemoryMove t := by
  unfold grow at hstep
  split at hstep
  . split at hstep
    . injection hstep with hstep
      rw [← hstep]
      exact MemoryMove.same ⟨rfl, rfl⟩
    . next block _ =>
      split at hstep
      . next hfresh =>
        injection hstep with hstep
        rw [← hstep]
        exact MemoryMove.grown decodeUnit block hpc hfresh ⟨rfl, rfl⟩
      . simp at hstep
  . injection hstep with hstep
    rw [← hstep]
    exact MemoryMove.same ⟨rfl, rfl⟩

theorem copyEntry_memory (s : Submission) (decodeUnit : DecodeUnit) (entry : List Entry) (length : Nat)
    (htouches : s.pc.touchesFront = true)
    : s.MemoryMove (s.copyEntry decodeUnit entry length) := by
  unfold copyEntry
  split
  . split
    . exact MemoryMove.same ⟨rfl, rfl⟩
    . exact MemoryMove.same ⟨rfl, rfl⟩
  . split
    . exact MemoryMove.same ⟨rfl, rfl⟩
    . split
      . exact MemoryMove.same ⟨rfl, rfl⟩
      . exact MemoryMove.stored _ htouches ⟨rfl, rfl⟩

theorem frame_memory {s t : Submission} {length : Nat} (htouches : s.pc.touchesFront = true)
    (hstep : s.frame length = some t)
    : s.MemoryMove t := by
  unfold frame at hstep
  split at hstep
  . simp at hstep
  . split at hstep
    . injection hstep with hstep
      rw [← hstep]
      exact MemoryMove.stored _ htouches ⟨rfl, rfl⟩
    . injection hstep with hstep
      rw [← hstep]
      exact MemoryMove.stored _ htouches ⟨rfl, rfl⟩

theorem proceed_memory {s t : Submission} {env : Env} (hstep : s.proceed env = some t)
    : s.MemoryMove t := by
  unfold proceed at hstep
  cases hpc : s.pc <;> simp only [hpc, reduceCtorEq, Option.some.injEq] at hstep
  case growing decodeUnit => apply grow_memory hpc hstep
  case framing length =>
    apply frame_memory _ hstep
    rw [hpc]
    rfl
  all_goals rw [← hstep]
  case entered decodeUnit =>
    unfold checkPending
    split
    . exact MemoryMove.same ⟨rfl, rfl⟩
    . exact MemoryMove.same ⟨rfl, rfl⟩
  case copying decodeUnit entry length =>
    apply copyEntry_memory
    rw [hpc]
    rfl
  case decoding au => exact MemoryMove.same (decodeAu_memory s au _ _)
  case retrying au => exact MemoryMove.same (decodeAu_memory s au _ _)
  all_goals exact MemoryMove.same ⟨rfl, rfl⟩

/-
A statement of the submission writes to no buffer of the ring but the front one, and to that one only
while it concatenates and converts.
-/
theorem proceed_heap {s t : Submission} (env : Env) (slot : Nat) (hslot : slot < vdecBufCount)
    (hfront : s.pc.touchesFront = true → s.vdecBuf slot ≠ s.vdecBuf s.vdecFront)
    (hstep : s.proceed env = some t)
    : t.heap (s.vdecBuf slot) = s.heap (s.vdecBuf slot) := by
  cases proceed_memory hstep with
  | same hsame => rw [hsame.heap]
  | grown decodeUnit block _ hfresh hgrown =>
    rw [isFresh_iff] at hfresh
    rw [hgrown.heap]
    apply Function.update_of_ne (hfresh.right slot hslot)
  | stored mem htouches hstored =>
    rw [hstored.heap]
    apply Function.update_of_ne (hfront htouches)

/-
What the hardware reads for an accepted unit stays as it was submitted until the unit is completed.
-/
theorem step_keeps_accepted {s t : Submission} (h : s.Inv) (e : Event) (hstep : s.step e = some t)
    (au : VdecAU) (hau : au ∈ s.hardware)
    : t.heap au.packetAddr = s.heap au.packetAddr := by
  have hmem : au.packetAddr ∈ s.hardware.map VdecAU.packetAddr := List.mem_map_of_mem hau
  have ⟨start, hwindow, _⟩ := h.window
  have ⟨j, _, hslot⟩ := Ring.mem_window.mp (hwindow ▸ hmem)
  unfold step at hstep
  split at hstep
  . split at hstep
    . injection hstep with hstep
      rw [← hstep, (enter_memory s _ _).heap]
    . injection hstep with hstep
      rw [← hstep, (enter_memory s _ _).heap]
    . simp at hstep
  . rw [← hslot]
    apply proceed_heap _ _ (Nat.mod_lt _ (by decide)) _ hstep
    intro htouches heq
    apply h.front_not_mem (Pc.claimed_of_touchesFront htouches)
    rw [← heq, hslot]
    exact hmem
  . rw [(vdecCallback_memory hstep).heap]

end Submission
end Video

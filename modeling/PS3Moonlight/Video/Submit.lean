import PS3Moonlight.Lib.Ring
import PS3Moonlight.Lib.Transition
import PS3Moonlight.Video.AnnexB
import PS3Moonlight.Video.Basic

/-!
This module contains the submission of decode units to VDEC: `ps3_video_submit_decode_unit` statement
by statement on the decoder thread, `vdec_callback` landing anywhere between two statements, and the
hardware's queue of accepted units, which still reads the bitstream buffers behind them.
-/

namespace Video

def vdecDecodeBufMax : Nat := 4 * 1024 * 1024

def drOk : Int := 0

def drNeedIdr : Int := -1

def vdecErrorBusy : UInt32 := 0x80610004

/- The conversion of C to `u32`. -/
def u32 (n : Int) : Nat :=
  (n % 2 ^ 32).toNat

abbrev Address := UInt32

structure Entry where
  data : Option (List UInt8)
  length : Int

structure DecodeUnit where
  fullLength : Int
  bufferList : List Entry

structure VdecAU where
  packetAddr : Address
  packetSize : Nat
  deriving DecidableEq

structure Block where
  address : Address
  bytes : List UInt8

inductive Callback where
  | auDone
  | picOut
  | seqDone
  | error

/-
What one statement of the submission meets: the statistics' clock, the allocator and the decoder.
-/
structure Env where
  clock : Clock
  memalign : Nat → Option Block
  vdecDecodeAu : VdecAU → UInt32

namespace Submission

/-
Where the decoder thread is. It calls `vdecDecodeAu` at `decoding` and once more at `retrying`.
-/
inductive Pc where
  | idle
  | entered (decodeUnit : DecodeUnit)
  | growing (decodeUnit : DecodeUnit)
  | copying (decodeUnit : DecodeUnit) (entry : List Entry) (length : Nat)
  | framing (length : Nat)
  | submitting (au : VdecAU)
  | decoding (au : VdecAU)
  | retrying (au : VdecAU)
  | rejected
  | accepted
  | returned (code : Int)

inductive Event where
  | call (decodeUnit : Option DecodeUnit) (clock : Clock)
  | proceed (env : Env)
  | callback (msgtype : Callback)

end Submission

open Submission

structure Submission where
  vdecBuf : Nat → Address
  vdecBufSize : Nat → Nat
  heap : Address → List UInt8
  vdecFront : Nat
  vdecBack : Nat
  vdecAuPending : Int
  vdecPicoutPending : Bool
  vdecSeqDone : Bool
  stats : Stats
  pc : Pc
  -- the accepted units that are not completed, oldest first
  hardware : List VdecAU

namespace Submission

def resetVideoRuntimeState (s : Submission) : Submission :=
  { s with
    vdecFront := 0
    vdecBack := 0
    vdecAuPending := 0
    vdecPicoutPending := false
    vdecSeqDone := false
    stats := s.stats.reset
    pc := .idle
    hardware := [] }

def decodeBuffer (s : Submission) : List UInt8 :=
  s.heap (s.vdecBuf s.vdecFront)

def decodeBufferSize (s : Submission) : Nat :=
  s.vdecBufSize s.vdecFront

def store (s : Submission) (mem : List UInt8) : Submission :=
  { s with heap := Function.update s.heap (s.vdecBuf s.vdecFront) mem }

def enter (s : Submission) (decodeUnit : Option DecodeUnit) (clock : Clock) : Submission :=
  match decodeUnit with
  | none => { s with pc := .returned drOk }
  | some decodeUnit =>
    if decodeUnit.fullLength ≤ 0 ∨ vdecDecodeBufMax < u32 decodeUnit.fullLength then
      { s with pc := .returned drOk }
    else
      { s with stats := s.stats.noteSubmitted clock, pc := .entered decodeUnit }

def checkPending (s : Submission) (decodeUnit : DecodeUnit) (clock : Clock) : Submission :=
  if vdecBufCount ≤ s.vdecAuPending then
    { s with stats := s.stats.noteDropped clock, pc := .returned drNeedIdr }
  else
    { s with pc := .growing decodeUnit }

/-
A block that `memalign` returns has the requested size and is none of those in use.
-/
def isFresh (s : Submission) (block : Block) (size : Nat) : Bool :=
  block.bytes.length == size
    &&
  (List.range vdecBufCount).all fun slot => s.vdecBuf slot != block.address

def replaceFront (s : Submission) (block : Block) (size : Nat) : Submission :=
  { s with
    heap := Function.update s.heap block.address block.bytes
    vdecBuf := Function.update s.vdecBuf s.vdecFront block.address
    vdecBufSize := Function.update s.vdecBufSize s.vdecFront size }

def needed (decodeUnit : DecodeUnit) : Nat :=
  (u32 decodeUnit.fullLength + 64) % 2 ^ 32

def newSize (decodeUnit : DecodeUnit) : Nat :=
  (needed decodeUnit + 2048) % 2 ^ 32

def grow (s : Submission) (decodeUnit : DecodeUnit) (memalign : Nat → Option Block)
    : Option Submission :=
  if s.decodeBufferSize < needed decodeUnit then
    match memalign (newSize decodeUnit) with
    | none => some { s with pc := .returned drOk }
    | some block =>
      if s.isFresh block (newSize decodeUnit) then
        some
          { s.replaceFront block (newSize decodeUnit) with
            pc := .copying decodeUnit decodeUnit.bufferList 0 }
      else
        none
  else
    some { s with pc := .copying decodeUnit decodeUnit.bufferList 0 }

def copyEntry (s : Submission) (decodeUnit : DecodeUnit) (entry : List Entry) (length : Nat)
    : Submission :=
  match entry with
  | [] =>
    if length = 0 ∨ length ≠ u32 decodeUnit.fullLength then
      { s with pc := .returned drOk }
    else
      { s with pc := .framing length }
  | entry :: next =>
    match entry.data with
    | none => { s with pc := .returned drOk }
    | some data =>
      if s.decodeBufferSize - length < u32 entry.length then
        { s with pc := .returned drOk }
      else
        let src := Bytes.read data 0 (u32 entry.length)
        { s.store (Bytes.write s.decodeBuffer length src) with
          pc := .copying decodeUnit next (length + u32 entry.length) }

/- `none` stands for a walk over the length fields that never ends. -/
def frame (s : Submission) (length : Nat) : Option Submission :=
  match AnnexB.convert s.decodeBuffer s.decodeBufferSize length with
  | none => none
  | some c =>
    if c.submit then
      some { s.store c.mem with pc := .submitting ⟨s.vdecBuf s.vdecFront, c.length⟩ }
    else
      some { s.store c.mem with pc := .returned drOk }

/- `vdecDecodeAu` answers zero exactly if the hardware takes the unit. -/
def decodeAu (s : Submission) (au : VdecAU) (rc : UInt32) (failed : Pc) : Submission :=
  if rc = 0 then
    { s with hardware := s.hardware ++ [au], pc := .accepted }
  else
    { s with pc := failed }

def proceed (s : Submission) (env : Env) : Option Submission :=
  match s.pc with
  | .idle => none
  | .entered decodeUnit => some (s.checkPending decodeUnit env.clock)
  | .growing decodeUnit => s.grow decodeUnit env.memalign
  | .copying decodeUnit entry length => some (s.copyEntry decodeUnit entry length)
  | .framing length => s.frame length
  | .submitting au => some { s with vdecAuPending := s.vdecAuPending + 1, pc := .decoding au }
  | .decoding au =>
    let rc := env.vdecDecodeAu au
    some (s.decodeAu au rc (if rc = vdecErrorBusy then .retrying au else .rejected))
  | .retrying au => some (s.decodeAu au (env.vdecDecodeAu au) .rejected)
  | .rejected =>
    some
      { s with
        stats := s.stats.noteDropped env.clock
        vdecAuPending := s.vdecAuPending - 1
        pc := .returned drNeedIdr }
  | .accepted =>
    some
      { s with
        stats := s.stats.pushSubmitTime env.clock
        vdecBack := s.vdecFront
        vdecFront := (s.vdecFront + 1) % vdecBufCount
        pc := .returned drOk }
  | .returned _ => none

/-
The hardware completes its units in the order it took them and reports each one once.
-/
def vdecCallback (s : Submission) (msgtype : Callback) : Option Submission :=
  match msgtype with
  | .picOut => some { s with vdecPicoutPending := true }
  | .auDone =>
    match s.hardware with
    | [] => none
    | _ :: hardware =>
      if 0 < s.vdecAuPending then
        some { s with vdecAuPending := s.vdecAuPending - 1, hardware := hardware }
      else
        some { s with hardware := hardware }
  | .seqDone => some { s with vdecSeqDone := true }
  | .error => some { s with vdecAuPending := 0, vdecSeqDone := true }

def step (s : Submission) (e : Event) : Option Submission :=
  match e with
  | .call decodeUnit clock =>
    match s.pc with
    | .idle => some (s.enter decodeUnit clock)
    | .returned _ => some (s.enter decodeUnit clock)
    | _ => none
  | .proceed env => s.proceed env
  | .callback msgtype => s.vdecCallback msgtype

/-
The decoder thread and the callbacks from a reset on.
-/
def machine (s : Submission) : Transition.Machine Submission Event where
  init := s.resetVideoRuntimeState
  step := step

/-
The buffers of the ring are different blocks of the sizes the module remembers.
-/
structure Allocated (s : Submission) : Prop where
  distinct : ∀ i j, i < vdecBufCount → j < vdecBufCount → s.vdecBuf i = s.vdecBuf j → i = j
  length : ∀ i, i < vdecBufCount → (s.heap (s.vdecBuf i)).length = s.vdecBufSize i

namespace Pc

/- Whether `vdec_au_pending` already counts a unit that the hardware has not taken. -/
def counted (pc : Pc) : Nat :=
  match pc with
  | .decoding _ => 1
  | .retrying _ => 1
  | .rejected => 1
  | _ => 0

/- Whether the thread has passed the check for a free slot and not been given an answer. -/
def claimed (pc : Pc) : Nat :=
  match pc with
  | .growing _ => 1
  | .copying _ _ _ => 1
  | .framing _ => 1
  | .submitting _ => 1
  | .decoding _ => 1
  | .retrying _ => 1
  | .rejected => 1
  | _ => 0

/- Whether the next statement replaces the front buffer or writes into it. -/
def touchesFront (pc : Pc) : Bool :=
  match pc with
  | .growing _ => true
  | .copying _ _ _ => true
  | .framing _ => true
  | _ => false

def handedIn (pc : Pc) : Option VdecAU :=
  match pc with
  | .submitting au => some au
  | .decoding au => some au
  | .retrying au => some au
  | _ => none

def isAccepted (pc : Pc) : Bool :=
  match pc with
  | .accepted => true
  | _ => false

/- Whether the thread is outside of the function. -/
def atRest (pc : Pc) : Bool :=
  match pc with
  | .idle => true
  | .returned _ => true
  | _ => false

theorem counted_le_claimed (pc : Pc) : pc.counted ≤ pc.claimed := by
  cases pc <;> simp [counted, claimed]

theorem isAccepted_of_claimed {pc : Pc} (h : pc.claimed = 1) : pc.isAccepted = false := by
  cases pc <;> simp_all [claimed, isAccepted]

theorem claimed_of_touchesFront {pc : Pc} (h : pc.touchesFront = true) : pc.claimed = 1 := by
  cases pc <;> simp_all [touchesFront, claimed]

end Pc

/-
The slot behind the buffers that were handed to the hardware.
-/
def nextSlot (s : Submission) : Nat :=
  if s.pc.isAccepted then (s.vdecFront + 1) % vdecBufCount else s.vdecFront

/-
The accepted units occupy the slots right before the front one, and there are never more of them than
the counter says.
-/
structure Inv (s : Submission) : Prop where
  front : s.vdecFront < vdecBufCount
  distinct : ∀ i j, i < vdecBufCount → j < vdecBufCount → s.vdecBuf i = s.vdecBuf j → i = j
  window : ∃ start,
    s.hardware.map VdecAU.packetAddr
        =
      Ring.window s.vdecBuf vdecBufCount start s.hardware.length
      ∧
    s.nextSlot = (start + s.hardware.length) % vdecBufCount
  pending : s.vdecAuPending = s.hardware.length + s.pc.counted
  bound : s.hardware.length + s.pc.claimed ≤ vdecBufCount
  handedIn : ∀ au, s.pc.handedIn = some au → au.packetAddr = s.vdecBuf s.vdecFront

/-
Most statements only move the program counter on.
-/
theorem Inv.move {s t : Submission} (h : s.Inv) (hbuf : t.vdecBuf = s.vdecBuf)
    (hfront : t.vdecFront = s.vdecFront) (hpending : t.vdecAuPending = s.vdecAuPending)
    (hhardware : t.hardware = s.hardware) (hcounted : t.pc.counted = s.pc.counted)
    (hbound : s.hardware.length + t.pc.claimed ≤ vdecBufCount)
    (haccepted : t.pc.isAccepted = s.pc.isAccepted)
    (hau : ∀ au, t.pc.handedIn = some au → au.packetAddr = s.vdecBuf s.vdecFront)
    : t.Inv where
  front := by
    rw [hfront]
    exact h.front
  distinct := by
    rw [hbuf]
    exact h.distinct
  window := by
    have ⟨start, hwindow, hnext⟩ := h.window
    refine ⟨start, ?_⟩
    unfold nextSlot at hnext ⊢
    rw [hbuf, hhardware, hfront, haccepted]
    exact ⟨hwindow, hnext⟩
  pending := by
    rw [hpending, hhardware, hcounted]
    exact h.pending
  bound := by
    rw [hhardware]
    exact hbound
  handedIn := by
    rw [hbuf, hfront]
    exact hau

/-
As long as a slot is claimed, at most three units are with the hardware and the front buffer is none
of theirs.
-/
theorem Inv.front_not_mem {s : Submission} (h : s.Inv) (hclaimed : s.pc.claimed = 1)
    : s.vdecBuf s.vdecFront ∉ s.hardware.map VdecAU.packetAddr := by
  have ⟨start, hwindow, hnext⟩ := h.window
  have hbound := h.bound
  unfold nextSlot at hnext
  rw [Pc.isAccepted_of_claimed hclaimed] at hnext
  rw [hwindow, Ring.mem_window]
  intro hmem
  have ⟨j, hj, heq⟩ := hmem
  have hslot : (start + j) % vdecBufCount = s.vdecFront := by
    apply h.distinct _ _ _ h.front heq
    apply Nat.mod_lt
    decide
  have : j = s.hardware.length := by
    have hoffset : (start + j) % vdecBufCount = (start + s.hardware.length) % vdecBufCount := by
      rw [hslot, ← hnext]
      rfl
    apply Ring.offset_injective _ _ hoffset
    . omega
    . omega
  omega

/-
Before the counter is incremented a call may return at any time.
-/
theorem Inv.leave {s t : Submission} (h : s.Inv) (hbuf : t.vdecBuf = s.vdecBuf)
    (hfront : t.vdecFront = s.vdecFront) (hpending : t.vdecAuPending = s.vdecAuPending)
    (hhardware : t.hardware = s.hardware) (hcounted : s.pc.counted = 0)
    (haccepted : s.pc.isAccepted = false) (code : Int) (hpc : t.pc = .returned code)
    : t.Inv := by
  apply h.move hbuf hfront hpending hhardware
  . rw [hpc, hcounted]
    rfl
  . rw [hpc]
    exact Nat.le_trans (Nat.le_add_right _ _) h.bound
  . rw [hpc, haccepted]
    rfl
  . simp [hpc, Pc.handedIn]

/-
While a slot is claimed, a statement that neither counts nor hands in a unit may do anything to the
contents of the memory.
-/
theorem Inv.carryOn {s t : Submission} (h : s.Inv) (hbuf : t.vdecBuf = s.vdecBuf)
    (hfront : t.vdecFront = s.vdecFront) (hpending : t.vdecAuPending = s.vdecAuPending)
    (hhardware : t.hardware = s.hardware) (hcounted : t.pc.counted = s.pc.counted)
    (hclaimed : s.pc.claimed = 1) (hclaimed' : t.pc.claimed = 1)
    (hau : ∀ au, t.pc.handedIn = some au → au.packetAddr = s.vdecBuf s.vdecFront)
    : t.Inv := by
  apply h.move hbuf hfront hpending hhardware hcounted _ _ hau
  . rw [hclaimed', ← hclaimed]
    exact h.bound
  . rw [Pc.isAccepted_of_claimed hclaimed, Pc.isAccepted_of_claimed hclaimed']

theorem enter_inv {s : Submission} (h : s.Inv) (decodeUnit : Option DecodeUnit) (clock : Clock)
    (hcounted : s.pc.counted = 0) (haccepted : s.pc.isAccepted = false)
    : (s.enter decodeUnit clock).Inv := by
  have hbound := h.bound
  unfold enter
  split
  . exact h.leave rfl rfl rfl rfl hcounted haccepted drOk rfl
  . split
    . exact h.leave rfl rfl rfl rfl hcounted haccepted drOk rfl
    . refine h.move rfl rfl rfl rfl hcounted.symm ?_ haccepted.symm ?_
      . simp only [Pc.claimed]
        omega
      . simp [Pc.handedIn]

theorem checkPending_inv {s : Submission} (h : s.Inv) (decodeUnit : DecodeUnit) (clock : Clock)
    (hpc : s.pc = .entered decodeUnit)
    : (s.checkPending decodeUnit clock).Inv := by
  have hpending := h.pending
  have hcounted : s.pc.counted = 0 := by simp [hpc, Pc.counted]
  have haccepted : s.pc.isAccepted = false := by simp [hpc, Pc.isAccepted]
  unfold checkPending
  split
  . exact h.leave rfl rfl rfl rfl hcounted haccepted drNeedIdr rfl
  . next hfree =>
    refine h.move rfl rfl rfl rfl ?_ ?_ ?_ ?_
    . rw [hcounted]
      rfl
    . simp only [Pc.claimed]
      omega
    . rw [haccepted]
      rfl
    . simp [Pc.handedIn]

theorem isFresh_iff {s : Submission} {block : Block} {size : Nat}
    : s.isFresh block size = true
        ↔
      block.bytes.length = size ∧ ∀ slot, slot < vdecBufCount → s.vdecBuf slot ≠ block.address := by
  simp [isFresh]

/-
Replacing the front buffer changes no slot that the hardware still reads.
-/
theorem replaceFront_inv {s : Submission} (h : s.Inv) (block : Block) (size : Nat) (pc : Pc)
    (hfresh : s.isFresh block size = true) (hclaimed : s.pc.claimed = 1)
    (hcounted : s.pc.counted = 0) (hpc : pc.claimed = 1 ∧ pc.counted = 0)
    (hhanded : pc.handedIn = none)
    : Inv { s.replaceFront block size with pc := pc } := by
  rw [isFresh_iff] at hfresh
  have hbound := h.bound
  have haccepted := Pc.isAccepted_of_claimed hclaimed
  have haccepted' := Pc.isAccepted_of_claimed hpc.left
  constructor
  . exact h.front
  . intro i j hi hj heq
    simp only [replaceFront, Function.update_apply] at heq
    split at heq
    . split at heq
      . omega
      . exact absurd heq.symm (hfresh.right j hj)
    . split at heq
      . exact absurd heq (hfresh.right i hi)
      . apply h.distinct i j hi hj heq
  . have ⟨start, hwindow, hnext⟩ := h.window
    refine ⟨start, ?_, ?_⟩
    . simp only [nextSlot, haccepted, Bool.false_eq_true, ↓reduceIte] at hnext
      simp only [replaceFront]
      rw [hwindow, hnext]
      symm
      apply Ring.window_update_of_le
      . omega
      . omega
    . simp only [nextSlot, haccepted, haccepted'] at hnext ⊢
      exact hnext
  . have := h.pending
    simp only [replaceFront]
    omega
  . simp only [replaceFront]
    omega
  . simp [hhanded]

theorem grow_inv {s t : Submission} (h : s.Inv) (decodeUnit : DecodeUnit)
    (memalign : Nat → Option Block) (hpc : s.pc = .growing decodeUnit)
    (hstep : s.grow decodeUnit memalign = some t)
    : t.Inv := by
  have hcounted : s.pc.counted = 0 := by simp [hpc, Pc.counted]
  have hclaimed : s.pc.claimed = 1 := by simp [hpc, Pc.claimed]
  unfold grow at hstep
  split at hstep
  . split at hstep
    . injection hstep with hstep
      rw [← hstep]
      exact h.leave rfl rfl rfl rfl hcounted (Pc.isAccepted_of_claimed hclaimed) drOk rfl
    . split at hstep
      . next hfresh =>
        injection hstep with hstep
        rw [← hstep]
        apply replaceFront_inv h _ _ _ hfresh hclaimed hcounted
        . simp [Pc.claimed, Pc.counted]
        . simp [Pc.handedIn]
      . simp at hstep
  . injection hstep with hstep
    rw [← hstep]
    refine h.carryOn rfl rfl rfl rfl ?_ hclaimed ?_ ?_
    . rw [hcounted]
      rfl
    . simp [Pc.claimed]
    . simp [Pc.handedIn]

theorem copyEntry_inv {s : Submission} (h : s.Inv) (decodeUnit : DecodeUnit) (entry : List Entry)
    (length : Nat) (hpc : s.pc = .copying decodeUnit entry length)
    : (s.copyEntry decodeUnit entry length).Inv := by
  have hcounted : s.pc.counted = 0 := by simp [hpc, Pc.counted]
  have hclaimed : s.pc.claimed = 1 := by simp [hpc, Pc.claimed]
  have haccepted := Pc.isAccepted_of_claimed hclaimed
  unfold copyEntry
  split
  . split
    . exact h.leave rfl rfl rfl rfl hcounted haccepted drOk rfl
    . refine h.carryOn rfl rfl rfl rfl hcounted.symm hclaimed ?_ ?_
      . simp [Pc.claimed]
      . simp [Pc.handedIn]
  . split
    . exact h.leave rfl rfl rfl rfl hcounted haccepted drOk rfl
    . split
      . exact h.leave rfl rfl rfl rfl hcounted haccepted drOk rfl
      . refine h.carryOn rfl rfl rfl rfl hcounted.symm hclaimed ?_ ?_
        . simp [Pc.claimed]
        . simp [Pc.handedIn]

theorem frame_inv {s t : Submission} (h : s.Inv) (length : Nat) (hpc : s.pc = .framing length)
    (hstep : s.frame length = some t)
    : t.Inv := by
  have hcounted : s.pc.counted = 0 := by simp [hpc, Pc.counted]
  have hclaimed : s.pc.claimed = 1 := by simp [hpc, Pc.claimed]
  unfold frame at hstep
  split at hstep
  . simp at hstep
  . split at hstep
    . injection hstep with hstep
      rw [← hstep]
      refine h.carryOn rfl rfl rfl rfl hcounted.symm hclaimed ?_ ?_
      . simp [Pc.claimed]
      . intro au hau
        injection hau with hau
        rw [← hau]
    . injection hstep with hstep
      rw [← hstep]
      exact h.leave rfl rfl rfl rfl hcounted (Pc.isAccepted_of_claimed hclaimed) drOk rfl

/-
An accepted unit extends the hardware's window by the front slot.
-/
theorem accept_inv {s : Submission} (h : s.Inv) (au : VdecAU) (hclaimed : s.pc.claimed = 1)
    (hcounted : s.pc.counted = 1) (hau : s.pc.handedIn = some au)
    : Inv { s with hardware := s.hardware ++ [au], pc := .accepted } := by
  have ⟨start, hwindow, hnext⟩ := h.window
  have hbound := h.bound
  have hpending := h.pending
  simp only [nextSlot, Pc.isAccepted_of_claimed hclaimed, Bool.false_eq_true, ↓reduceIte] at hnext
  constructor
  . exact h.front
  . exact h.distinct
  . refine ⟨start, ?_, ?_⟩
    . dsimp only
      rw [List.length_append, List.length_singleton, Ring.window_succ, List.map_append, hwindow]
      rw [← hnext, ← h.handedIn au hau]
      rfl
    . simp only [nextSlot, Pc.isAccepted, ↓reduceIte, List.length_append, List.length_singleton]
      rw [hnext, Nat.mod_add_mod, Nat.add_assoc]
  . simp only [Pc.counted, List.length_append, List.length_singleton]
    omega
  . simp only [Pc.claimed, List.length_append, List.length_singleton]
    omega
  . simp [Pc.handedIn]

theorem decodeAu_inv {s : Submission} (h : s.Inv) (au : VdecAU) (rc : UInt32) (failed : Pc)
    (hclaimed : s.pc.claimed = 1) (hcounted : s.pc.counted = 1) (hau : s.pc.handedIn = some au)
    (hfailed : failed = .retrying au ∨ failed = .rejected)
    : (s.decodeAu au rc failed).Inv := by
  unfold decodeAu
  split
  . apply accept_inv h au hclaimed hcounted hau
  . cases hfailed with
    | inl hbusy =>
      rw [hbusy]
      refine h.carryOn rfl rfl rfl rfl hcounted.symm hclaimed ?_ ?_
      . simp [Pc.claimed]
      . intro other hother
        injection hother with hother
        rw [← hother]
        apply h.handedIn au hau
    | inr hrejected =>
      rw [hrejected]
      refine h.carryOn rfl rfl rfl rfl hcounted.symm hclaimed ?_ ?_
      . simp [Pc.claimed]
      . simp [Pc.handedIn]

/-
The three statements that change the counter or the front index.
-/

theorem count_inv {s : Submission} (h : s.Inv) (au : VdecAU) (hpc : s.pc = .submitting au)
    : Inv { s with vdecAuPending := s.vdecAuPending + 1, pc := .decoding au } := by
  have ⟨start, hwindow, hnext⟩ := h.window
  have hbound := h.bound
  have hpending := h.pending
  have hau := h.handedIn
  simp only [nextSlot, hpc, Pc.isAccepted] at hnext
  rw [hpc] at hbound hpending hau
  constructor
  . exact h.front
  . exact h.distinct
  . exact ⟨start, hwindow, hnext⟩
  . simp only [Pc.counted] at hpending ⊢
    omega
  . exact hbound
  . exact hau

theorem rollBack_inv {s : Submission} (h : s.Inv) (stats : Stats) (hpc : s.pc = .rejected)
    : Inv
        { s with
          stats := stats
          vdecAuPending := s.vdecAuPending - 1
          pc := .returned drNeedIdr } := by
  have ⟨start, hwindow, hnext⟩ := h.window
  have hbound := h.bound
  have hpending := h.pending
  simp only [nextSlot, hpc, Pc.isAccepted] at hnext
  rw [hpc] at hbound hpending
  constructor
  . exact h.front
  . exact h.distinct
  . exact ⟨start, hwindow, hnext⟩
  . simp only [Pc.counted] at hpending ⊢
    omega
  . simp only [Pc.claimed] at hbound ⊢
    omega
  . simp [Pc.handedIn]

theorem cycle_inv {s : Submission} (h : s.Inv) (stats : Stats) (hpc : s.pc = .accepted)
    : Inv
        { s with
          stats := stats
          vdecBack := s.vdecFront
          vdecFront := (s.vdecFront + 1) % vdecBufCount
          pc := .returned drOk } := by
  have ⟨start, hwindow, hnext⟩ := h.window
  have hpending := h.pending
  have hbound := h.bound
  simp only [nextSlot, hpc, Pc.isAccepted, ↓reduceIte] at hnext
  rw [hpc] at hpending hbound
  constructor
  . apply Nat.mod_lt
    decide
  . exact h.distinct
  . exact ⟨start, hwindow, hnext⟩
  . exact hpending
  . exact hbound
  . simp [Pc.handedIn]

theorem proceed_inv {s t : Submission} (h : s.Inv) (env : Env) (hstep : s.proceed env = some t)
    : t.Inv := by
  unfold proceed at hstep
  split at hstep
  . simp at hstep
  . next decodeUnit hpc =>
    injection hstep with hstep
    rw [← hstep]
    apply checkPending_inv h decodeUnit env.clock hpc
  . next decodeUnit hpc => exact grow_inv h decodeUnit env.memalign hpc hstep
  . next decodeUnit entry length hpc =>
    injection hstep with hstep
    rw [← hstep]
    apply copyEntry_inv h decodeUnit entry length hpc
  . next length hpc => exact frame_inv h length hpc hstep
  . next au hpc =>
    injection hstep with hstep
    rw [← hstep]
    apply count_inv h au hpc
  . next au hpc =>
    injection hstep with hstep
    rw [← hstep]
    apply decodeAu_inv h
    . simp [hpc, Pc.claimed]
    . simp [hpc, Pc.counted]
    . simp [hpc, Pc.handedIn]
    . split
      . left
        rfl
      . right
        rfl
  . next au hpc =>
    injection hstep with hstep
    rw [← hstep]
    apply decodeAu_inv h
    . simp [hpc, Pc.claimed]
    . simp [hpc, Pc.counted]
    . simp [hpc, Pc.handedIn]
    . right
      rfl
  . next hpc =>
    injection hstep with hstep
    rw [← hstep]
    apply rollBack_inv h _ hpc
  . next hpc =>
    injection hstep with hstep
    rw [← hstep]
    apply cycle_inv h _ hpc
  . simp at hstep

/-
A completed unit leaves the window at its old end, wherever the submission is.
-/
theorem vdecCallback_inv {s t : Submission} (h : s.Inv) (msgtype : Callback)
    (hmsg : msgtype ≠ .error) (hstep : s.vdecCallback msgtype = some t)
    : t.Inv := by
  have hbound := h.bound
  unfold vdecCallback at hstep
  split at hstep
  . injection hstep with hstep
    rw [← hstep]
    exact h.move rfl rfl rfl rfl rfl hbound rfl h.handedIn
  . split at hstep
    . simp at hstep
    . next au hardware hhardware =>
      have ⟨start, hwindow, hnext⟩ := h.window
      have hpending := h.pending
      rw [hhardware] at hwindow hnext hpending hbound
      rw [List.length_cons] at hwindow hnext hpending hbound
      rw [Ring.window_eq_cons, List.map_cons] at hwindow
      injection hwindow with _ hwindow
      rw [if_pos (by omega)] at hstep
      injection hstep with hstep
      rw [← hstep]
      constructor
      . exact h.front
      . exact h.distinct
      . refine ⟨(start + 1) % vdecBufCount, hwindow, ?_⟩
        rw [Nat.mod_add_mod, Nat.add_assoc, Nat.add_comm 1]
        exact hnext
      . dsimp only
        omega
      . dsimp only
        omega
      . exact h.handedIn
  . injection hstep with hstep
    rw [← hstep]
    exact h.move rfl rfl rfl rfl rfl hbound rfl h.handedIn
  . contradiction

theorem step_inv {s t : Submission} (h : s.Inv) (e : Event) (hevent : e ≠ .callback .error)
    (hstep : s.step e = some t)
    : t.Inv := by
  unfold step at hstep
  split at hstep
  . split at hstep
    . next hpc =>
      injection hstep with hstep
      rw [← hstep]
      apply enter_inv h
      . simp [hpc, Pc.counted]
      . simp [hpc, Pc.isAccepted]
    . next hpc =>
      injection hstep with hstep
      rw [← hstep]
      apply enter_inv h
      . simp [hpc, Pc.counted]
      . simp [hpc, Pc.isAccepted]
    . simp at hstep
  . apply proceed_inv h _ hstep
  . next msgtype =>
    apply vdecCallback_inv h msgtype _ hstep
    intro herror
    rw [herror] at hevent
    contradiction

theorem init_inv {s : Submission} (h : s.Allocated) : s.resetVideoRuntimeState.Inv where
  front := (by decide : 0 < vdecBufCount)
  distinct := h.distinct
  window := ⟨0, rfl, rfl⟩
  pending := rfl
  bound := (by decide : 0 + 0 ≤ vdecBufCount)
  handedIn := by simp [resetVideoRuntimeState, Pc.handedIn]

theorem inv_of_run {v s : Submission} {events : List Event} (hallocated : v.Allocated)
    (hevents : ∀ e, e ∈ events → e ≠ .callback .error)
    (hrun : (machine v).run events = some s)
    : s.Inv := by
  apply (machine v).runFrom_invariant_of_stepsMeet (fun _ e => e ≠ .callback .error) Inv
  . intro s e t h hevent hstep
    apply step_inv h e hevent hstep
  . apply init_inv hallocated
  . exact (machine v).stepsMeet_of_forall _ _ _ hevents
  . exact hrun

/-
Counter and ownership together: the counter is the number of accepted units that are not completed,
and one more only while the thread has counted a unit that the hardware has not taken.
-/
theorem pending_units_keep_their_buffers (v s : Submission) (events : List Event)
    (hallocated : v.Allocated) (hevents : ∀ e, e ∈ events → e ≠ .callback .error)
    (hrun : (machine v).run events = some s)
    : s.vdecAuPending = s.hardware.length + s.pc.counted
        ∧
      0 ≤ s.vdecAuPending ∧ s.vdecAuPending ≤ vdecBufCount
        ∧
      (s.pc.touchesFront = true
        → s.vdecBuf s.vdecFront ∉ s.hardware.map VdecAU.packetAddr) := by
  have h := inv_of_run hallocated hevents hrun
  have hpending := h.pending
  have hbound := h.bound
  refine ⟨hpending, by omega, ?_, ?_⟩
  . have := s.pc.counted_le_claimed
    omega
  . intro htouches
    apply h.front_not_mem
    apply Pc.claimed_of_touchesFront htouches

/- Four different buffers of one size, as `ps3_video_setup` leaves them. -/
def fourBuffers (size : Nat) : Submission where
  vdecBuf slot := slot.toUInt32
  vdecBufSize _ := size
  heap _ := List.replicate size 0
  vdecFront := 0
  vdecBack := 0
  vdecAuPending := 0
  vdecPicoutPending := false
  vdecSeqDone := false
  stats := default
  pc := .idle
  hardware := []

theorem fourBuffers_allocated (size : Nat) : (fourBuffers size).Allocated where
  distinct := by
    intro i j hi hj heq
    have hnat := congrArg UInt32.toNat heq
    simp only [fourBuffers, Nat.toUInt32, UInt32.toNat_ofNat'] at hnat
    unfold vdecBufCount at hi hj
    omega
  length := by simp [fourBuffers]

/- No allocation and a decoder that always gives the same answer. -/
def answering (rc : UInt32) : Env where
  clock := default
  memalign _ := none
  vdecDecodeAu _ := rc

def shortUnit : DecodeUnit where
  fullLength := 4
  bufferList := [⟨some [0, 0, 1, 9], 4⟩]

theorem pending_units_keep_their_buffers_second_unit
    : ∃ s,
        (machine (fourBuffers 128)).run
            (.call (some shortUnit) default :: List.replicate 8 (.proceed (answering 0))
              ++ [.call (some shortUnit) default, .proceed (answering 0)])
          = some s
          ∧
        s.hardware.length = 1
          ∧
        s.pc.touchesFront = true
          ∧
        s.vdecBuf s.vdecFront ∉ s.hardware.map VdecAU.packetAddr := by
  let events : List Event :=
    .call (some shortUnit) default :: List.replicate 8 (.proceed (answering 0))
      ++ [.call (some shortUnit) default, .proceed (answering 0)]
  have ⟨s, hrun, hone, htouches⟩ : ∃ s, (machine (fourBuffers 128)).run events = some s
      ∧ s.hardware.length = 1 ∧ s.pc.touchesFront = true := by
    exact ⟨_, rfl, rfl, rfl⟩
  have hevents : ∀ e, e ∈ events → e ≠ .callback .error := by
    simp [events]
  have h := pending_units_keep_their_buffers _ s events (fourBuffers_allocated 128) hevents hrun
  exact ⟨s, hrun, hone, htouches, h.right.right.right htouches⟩

namespace Pc

/- Whether the thread has incremented the counter and `vdecDecodeAu` has not returned for good. -/
def inDecodeAu (pc : Pc) : Bool :=
  match pc with
  | .decoding _ => true
  | .retrying _ => true
  | _ => false

end Pc

/-
The decoder is busy twice: `vdecDecodeAu` has returned and the unit is not accepted, but the counter
is only decremented two statements later.
-/
theorem pending_overcounts_rejected_unit
    : ¬ ∀ (v s : Submission) (events : List Event),
        v.Allocated → (∀ e, e ∈ events → e ≠ .callback .error)
          → (machine v).run events = some s
          → s.vdecAuPending = s.hardware.length
              ∨ s.pc.inDecodeAu = true ∧ s.vdecAuPending = s.hardware.length + 1 := by
  intro hclaim
  let events : List Event :=
    .call (some shortUnit) default :: List.replicate 8 (.proceed (answering vdecErrorBusy))
  have ⟨s, hrun, hhardware, hpending, hpc⟩ : ∃ s, (machine (fourBuffers 128)).run events = some s
      ∧ s.hardware = [] ∧ s.vdecAuPending = 1 ∧ s.pc = .rejected := by
    exact ⟨_, rfl, rfl, rfl, rfl⟩
  have h := hclaim _ s events (fourBuffers_allocated 128) (by simp [events]) hrun
  rw [hhardware, hpending, hpc] at h
  simp [Pc.inDecodeAu] at h

end Submission
end Video

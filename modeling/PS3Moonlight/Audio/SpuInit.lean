import PS3Moonlight.Audio.SpuOpus
import PS3Moonlight.Lib.Transition

/-!
This module contains the resources that `spu_opus_init` acquires one after the other and what
`spu_opus_shutdown`, which is also its cleanup, gives back. Everything but the locks and buffers is only
given back if `g_initialized` is set, which is the last thing that happens in the initialization.
-/

namespace Audio
namespace SpuInit

open SpuOpus (Status)

/-
What the calls of one initialization answer. The last field is whether the worker's decoder could be
created, there is nothing if the worker did not answer within the timeout.
-/
structure Outcomes where
  sysMutexCreate : Int
  cmdBuffer : Bool
  opusBuffer : Bool
  pcmBuffer : Bool
  sysSpuInitialize : Int
  sysSpuImageImport : Int
  sysSpuThreadGroupCreate : Int
  sysSpuThreadInitialize : Int
  sysSpuThreadGroupStart : Int
  decoder : Option Bool

inductive ReturnCode where
  | zero
  | minusOne
  | enomem
  | etimedout
  | sys (ret : Int)
deriving DecidableEq

/-
The variables of the module with the kernel objects behind them. The flag `freedInUse` is a history
variable: a buffer was freed while the group was running.
-/
structure Resources where
  gInitialized : Bool
  gBridgeMutex : Bool
  gCmd : Bool
  gBounceOpus : Bool
  gBouncePcm : Bool
  image : Bool
  group : Bool
  running : Bool
  registered : Bool
  status : Status
  freedInUse : Bool
deriving DecidableEq

def idle : Resources where
  gInitialized := false
  gBridgeMutex := false
  gCmd := false
  gBounceOpus := false
  gBouncePcm := false
  image := false
  group := false
  running := false
  registered := false
  status := .idle
  freedInUse := false

/- The status goes with the command block. -/
def freeBuffers (s : Resources) : Resources :=
  { s with
    gCmd := false
    gBounceOpus := false
    gBouncePcm := false
    status := .idle
    freedInUse := s.freedInUse || s.running && (s.gCmd || s.gBounceOpus || s.gBouncePcm) }

/- The join waits for the worker, so nothing is running behind it. -/
def spuOpusShutdown (s : Resources) : Resources :=
  let s :=
    if s.gInitialized then
      { s with
        registered := false, running := false, group := false, image := false, gInitialized := false }
    else
      s
  { freeBuffers s with gBridgeMutex := false }

/- What the worker writes into the command block for INIT, as long as it did not the block is busy. -/
def initStatus (decoder : Option Bool) : Status :=
  match decoder with
  | none => .busy
  | some created => if created then .ok else .err

def spuOpusInit (o : Outcomes) (s : Resources) : Resources × ReturnCode :=
  if s.gInitialized then
    ⟨s, .zero⟩
  else if o.sysMutexCreate ≠ 0 then
    ⟨s, .minusOne⟩
  else
    let s :=
      { s with
        gBridgeMutex := true, gCmd := o.cmdBuffer, gBounceOpus := o.opusBuffer
        gBouncePcm := o.pcmBuffer }
    if !s.gCmd || !s.gBounceOpus || !s.gBouncePcm then
      ⟨spuOpusShutdown s, .enomem⟩
    -- what sysSpuInitialize answers is only printed
    else if o.sysSpuImageImport ≠ 0 then
      ⟨spuOpusShutdown s, .sys o.sysSpuImageImport⟩
    else
      let s := { s with image := true, status := .idle }
      if o.sysSpuThreadGroupCreate ≠ 0 then
        ⟨spuOpusShutdown s, .sys o.sysSpuThreadGroupCreate⟩
      else
        let s := { s with group := true }
        if o.sysSpuThreadInitialize ≠ 0 then
          ⟨spuOpusShutdown s, .sys o.sysSpuThreadInitialize⟩
        else
          let s := { s with registered := true }
          if o.sysSpuThreadGroupStart ≠ 0 then
            ⟨spuOpusShutdown s, .sys o.sysSpuThreadGroupStart⟩
          else
            -- the loop that waits ends with the first status that is not busy
            let s := { s with running := true, status := initStatus o.decoder }
            if s.status = .busy then
              ⟨spuOpusShutdown s, .etimedout⟩
            else
              ⟨{ s with gInitialized := true }, .zero⟩

/- Nothing is left behind by a failed initialization. -/
structure Undone (s : Resources) : Prop where
  group : s.group = false
  running : s.running = false
  image : s.image = false
  registered : s.registered = false
  freedInUse : s.freedInUse = false

instance decidableUndone (s : Resources) : Decidable (Undone s) :=
  decidable_of_iff (s.group = false ∧ s.running = false ∧ s.image = false ∧ s.registered = false
    ∧ s.freedInUse = false)
    ⟨fun h => ⟨h.left, h.right.left, h.right.right.left, h.right.right.right.left,
      h.right.right.right.right⟩, fun h => ⟨h.group, h.running, h.image, h.registered, h.freedInUse⟩⟩

structure AllOrNothing (r : Resources × ReturnCode) : Prop where
  zero_iff : r.snd = .zero ↔ r.fst.status = .ok
  undone : r.snd ≠ .zero → Undone r.fst

/- The steps before the group, the only ones that the cleanup undoes without `g_initialized`. -/
def Outcomes.failsEarly (o : Outcomes) : Prop :=
  o.sysMutexCreate ≠ 0 ∨ (!o.cmdBuffer || !o.opusBuffer || !o.pcmBuffer) = true
    ∨ o.sysSpuImageImport ≠ 0

def Outcomes.succeeds (o : Outcomes) : Prop :=
  o.sysSpuThreadGroupCreate = 0 ∧ o.sysSpuThreadInitialize = 0 ∧ o.sysSpuThreadGroupStart = 0
    ∧ o.decoder = some true

/- Everything that is acquired before the image. -/
def acquired (o : Outcomes) : Resources :=
  { idle with
    gBridgeMutex := true, gCmd := o.cmdBuffer, gBounceOpus := o.opusBuffer
    gBouncePcm := o.pcmBuffer }

/- The worker runs and has answered. -/
def ready (status : Status) : Resources where
  gInitialized := true
  gBridgeMutex := true
  gCmd := true
  gBounceOpus := true
  gBouncePcm := true
  image := true
  group := true
  running := true
  registered := true
  status := status
  freedInUse := false

/-
The ways out of an initialization.
-/
inductive Exit (o : Outcomes) : Resources × ReturnCode → Prop where
  | noMutex (h : o.failsEarly) : Exit o ⟨idle, .minusOne⟩
  | early (code : ReturnCode) (h : o.failsEarly) (hcode : code ≠ .zero)
    : Exit o ⟨spuOpusShutdown (acquired o), code⟩
  | late (s : Resources) (code : ReturnCode) (h : ¬o.failsEarly) (hfails : ¬o.succeeds)
      (hcode : code ≠ .zero) (hinit : s.gInitialized = false) (himage : s.image = true)
    : Exit o ⟨spuOpusShutdown s, code⟩
  | answered (created : Bool) (hsucceeds : o.succeeds ↔ created = true) (h : ¬o.failsEarly)
    : Exit o ⟨ready (initStatus (some created)), .zero⟩

theorem spuOpusInit_exit (o : Outcomes) : Exit o (spuOpusInit o idle) := by
  unfold spuOpusInit
  rw [if_neg (by simp [idle])]
  split
  . next hmutex => exact Exit.noMutex (Or.inl hmutex)
  . next hmutex =>
    dsimp only
    split
    . next hbuffers =>
      exact Exit.early _ (Or.inr (Or.inl hbuffers)) (by simp)
    . next hbuffers =>
      split
      . next himport => exact Exit.early _ (Or.inr (Or.inr himport)) (by simp)
      . next himport =>
        have hearly : ¬o.failsEarly := by
          simp only [Outcomes.failsEarly, not_or]
          exact ⟨hmutex, hbuffers, himport⟩
        split
        . next hgroup =>
          refine Exit.late _ _ hearly ?_ (by simp) rfl rfl
          intro h
          exact hgroup h.left
        . next hgroup =>
          split
          . next hthread =>
            refine Exit.late _ _ hearly ?_ (by simp) rfl rfl
            intro h
            exact hthread h.right.left
          . next hthread =>
            split
            . next hstart =>
              refine Exit.late _ _ hearly ?_ (by simp) rfl rfl
              intro h
              exact hstart h.right.right.left
            . next hstart =>
              cases hdecoder : o.decoder with
              | none =>
                refine Exit.late _ _ hearly ?_ (by simp) rfl rfl
                intro h
                simp [Outcomes.succeeds, hdecoder] at h
              | some created =>
                have hanswered : initStatus (some created) ≠ .busy := by
                  cases created <;> simp [initStatus]
                have hacquired : o.cmdBuffer = true ∧ o.opusBuffer = true ∧ o.pcmBuffer = true := by
                  simpa [and_assoc] using hbuffers
                rw [if_neg hanswered]
                simp only [hacquired.left, hacquired.right.left, hacquired.right.right]
                apply Exit.answered created _ hearly
                simp [Outcomes.succeeds, hdecoder, not_not.mp hgroup, not_not.mp hthread,
                  not_not.mp hstart]

/-
Without `g_initialized` the cleanup leaves the image, the group and the registration alone.
-/
theorem spuOpusShutdown_of_not_initialized {s : Resources} (h : s.gInitialized = false)
    : spuOpusShutdown s = { freeBuffers s with gBridgeMutex := false } := by
  simp [spuOpusShutdown, h]

theorem not_undone_of_image {s : Resources} (hinit : s.gInitialized = false) (h : s.image = true)
    : ¬Undone (spuOpusShutdown s) := by
  rw [spuOpusShutdown_of_not_initialized hinit]
  intro hundone
  have himage := hundone.image
  simp [freeBuffers, h] at himage

theorem spuOpusInit_allOrNothing_iff (o : Outcomes)
    : AllOrNothing (spuOpusInit o idle) ↔ o.failsEarly ∨ o.succeeds := by
  have hexit := spuOpusInit_exit o
  generalize spuOpusInit o idle = r at hexit
  cases hexit with
  | noMutex h =>
    refine ⟨fun _ => Or.inl h, fun _ => ?_⟩
    exact ⟨by simp [idle], fun _ => by decide⟩
  | early code h hcode =>
    refine ⟨fun _ => Or.inl h, fun _ => ?_⟩
    refine ⟨by simp [spuOpusShutdown, freeBuffers, acquired, idle, hcode], fun _ => ?_⟩
    constructor <;> simp [spuOpusShutdown, freeBuffers, acquired, idle]
  | late s code h hfails hcode hinit himage =>
    constructor
    . intro hall
      exact absurd (hall.undone hcode) (not_undone_of_image hinit himage)
    . intro hmeets
      cases hmeets with
      | inl hearly => contradiction
      | inr hsucceeds => contradiction
  | answered created hsucceeds h =>
    constructor
    . intro hall
      have hok := hall.zero_iff.mp rfl
      right
      rw [hsucceeds]
      simpa [ready, initStatus] using hok
    . intro hmeets
      cases hmeets with
      | inl hearly => contradiction
      | inr hok =>
        rw [hsucceeds] at hok
        rw [hok]
        exact ⟨by simp [ready, initStatus], fun hne => absurd rfl hne⟩

def allSucceed : Outcomes where
  sysMutexCreate := 0
  cmdBuffer := true
  opusBuffer := true
  pcmBuffer := true
  sysSpuInitialize := 0
  sysSpuImageImport := 0
  sysSpuThreadGroupCreate := 0
  sysSpuThreadInitialize := 0
  sysSpuThreadGroupStart := 0
  decoder := some true

/-
A group that cannot be created leaves the image open, a worker that does not answer in time runs on
without its buffers, and a worker that answers with an error passes for an initialized one.
-/
theorem spuOpusInit_not_allOrNothing
    : ¬AllOrNothing (spuOpusInit { allSucceed with sysSpuThreadGroupCreate := -2147418110 } idle)
        ∧
      ¬AllOrNothing (spuOpusInit { allSucceed with decoder := none } idle)
        ∧
      ¬AllOrNothing (spuOpusInit { allSucceed with decoder := some false } idle) := by
  refine ⟨?_, ?_, ?_⟩
  . intro h
    exact absurd (h.undone (by decide)).image (by decide)
  . intro h
    exact absurd (h.undone (by decide)).freedInUse (by decide)
  . intro h
    exact absurd (h.zero_iff.mp (by decide)) (by decide)

/-
Any number of initializations and shutdowns: while every initialization either fails early or
succeeds, the module has either nothing or everything.
-/

inductive Call where
  | init (o : Outcomes)
  | shutdown

def step (s : Resources) (call : Call) : Option Resources :=
  match call with
  | .init o => some (spuOpusInit o s).fst
  | .shutdown => some (spuOpusShutdown s)

def machine : Transition.Machine Resources Call where
  init := idle
  step := step

def Meets (s : Resources) (call : Call) : Prop :=
  match call with
  | .init o => s.gInitialized = false → o.failsEarly ∨ o.succeeds
  | .shutdown => True

def Whole (s : Resources) : Prop :=
  s = idle ∨ s = ready .ok

theorem spuOpusShutdown_acquired (o : Outcomes) : spuOpusShutdown (acquired o) = idle := by
  simp [spuOpusShutdown, freeBuffers, acquired, idle]

theorem whole_step {s t : Resources} {call : Call} (h : Whole s) (hmeets : Meets s call)
    (hstep : step s call = some t)
    : Whole t := by
  cases call with
  | shutdown =>
    injection hstep with hstep
    rw [← hstep]
    left
    cases h with
    | inl hidle =>
      rw [hidle]
      decide
    | inr hready =>
      rw [hready]
      decide
  | init o =>
    injection hstep with hstep
    rw [← hstep]
    cases h with
    | inl hidle =>
      rw [hidle] at hmeets ⊢
      have hfate := hmeets rfl
      have hexit := spuOpusInit_exit o
      generalize spuOpusInit o idle = r at hexit
      cases hexit with
      | noMutex => exact Or.inl rfl
      | early => exact Or.inl (spuOpusShutdown_acquired o)
      | late _ _ hearly hfails => exact absurd hfate (not_or.mpr ⟨hearly, hfails⟩)
      | answered created hsucceeds hearly =>
        rw [or_iff_right hearly, hsucceeds] at hfate
        rw [hfate]
        exact Or.inr rfl
    | inr hready =>
      rw [hready]
      exact Or.inr rfl

theorem whole_of_stepsMeet {calls : List Call} {s : Resources}
    (hmeet : machine.StepsMeet Meets machine.init calls) (hrun : machine.run calls = some s)
    : Whole s := by
  apply machine.runFrom_invariant_of_stepsMeet Meets Whole _ machine.init s calls _ hmeet hrun
  . intro s call t h hmeets hstep
    exact whole_step h hmeets hstep
  . exact Or.inl rfl

end SpuInit
end Audio

import PS3Moonlight.Audio.SpuOpusMatching

/-!
This module contains the shutdown of the SPU Opus bridge. QUIT is one store into the command block,
which the worker overwrites whenever it writes its own copy back, so the worker only hears of it if
it is not busy with an older command at that moment.
-/

namespace Audio
namespace SpuOpus

variable {δ : Type}

/- The PPU waits in sysSpuThreadGroupJoin for a worker that waits for a signal. -/
def Hung (s : Bridge δ) : Prop :=
  s.ppu = .joining ∧ s.spu = .waiting ∧ s.signal1 = none

/- The worker holds a copy of the command block that it is going to write back. -/
def Spu.holding (spu : Spu) : Bool :=
  match spu with
  | .dispatching => true
  | .gettingPacket => true
  | .decoding => true
  | .puttingPcm _ => true
  | .puttingCmd => true
  | _ => false

/- The next statement of the PPU is the store of QUIT. -/
def Ppu.storesQuit (ppu : Ppu) : Bool :=
  match ppu with
  | .quitStoring => true
  | _ => false

/- QUIT is not stored while the worker holds a copy of the block. -/
def Heard (s : Bridge δ) (e : Event) : Prop :=
  match e with
  | .ppu _ => (s.ppu.storesQuit && s.spu.holding) = false
  | _ => True

instance decidableHeard (s : Bridge δ) (e : Event) : Decidable (Heard s e) :=
  match e with
  | .ppu _ => inferInstanceAs (Decidable (_ = _))
  | .spu _ => isTrue trivial
  | .call _ => isTrue trivial
  | .shutdown => isTrue trivial

/- QUIT is in the block that the worker is going to read, or the worker has read it. -/
def Quitting (s : Bridge δ) : Prop :=
  match s.spu with
  | .waiting => s.gCmd.cmd = .quit
  | .fetching => s.gCmd.cmd = .quit
  | .dispatching => s.lsCmd.cmd = .quit
  | .quitting => True
  | .exited => True
  | _ => False

/- The signal is sent after QUIT was stored, so the worker wakes up for it. -/
def QuitHeard (s : Bridge δ) : Prop :=
  match s.ppu with
  | .quitSignalling => Quitting s
  | .joining => Quitting s ∧ (s.spu = .waiting → s.signal1.isSome = true)
  | _ => True

/-
The worker on its way to the exit, it never comes back to the signal register.
-/
theorem quitting_spuStep {d : Decoder δ} {s t : Bridge δ} {ticks : UInt32} (h : Quitting s)
    (hstep : s.spuStep d ticks = some t)
    : Quitting t ∧ t.spu ≠ .waiting := by
  unfold Quitting at h
  unfold Bridge.spuStep at hstep
  cases hspu : s.spu <;> simp only [hspu, Option.some.injEq, reduceCtorEq] at hstep h
  case waiting =>
    split at hstep
    . simp at hstep
    . injection hstep with hstep
      rw [← hstep]
      exact ⟨h, by simp⟩
  case fetching =>
    rw [← hstep]
    exact ⟨h, by simp⟩
  case dispatching =>
    rw [← hstep]
    unfold Bridge.dispatch
    rw [h]
    exact ⟨trivial, by simp⟩
  case quitting =>
    rw [← hstep]
    exact ⟨trivial, by simp⟩

theorem quitHeard_spuStep {d : Decoder δ} {s t : Bridge δ} {ticks : UInt32} (h : QuitHeard s)
    (hstep : s.spuStep d ticks = some t)
    : QuitHeard t := by
  unfold QuitHeard at h ⊢
  rw [spuStep_ppu hstep]
  cases hppu : s.ppu <;> simp only [hppu] at h ⊢
  case quitSignalling => exact (quitting_spuStep h hstep).left
  case joining =>
    have ⟨hquitting, hawake⟩ := quitting_spuStep h.left hstep
    refine ⟨hquitting, ?_⟩
    intro hspu
    contradiction

/- Whatever the worker does outside of its copy, it finds QUIT the next time it looks. -/
theorem quitting_store {s : Bridge δ} (hspu : s.spu.holding = false)
    : Quitting { s with gCmd := { s.gCmd with cmd := .quit }, ppu := .quitSignalling } := by
  unfold Quitting
  cases h : s.spu <;> simp only [h, Spu.holding, reduceCtorEq] at hspu ⊢

theorem storeInit_cmd (cmd : CommandBlock) (sampleRate channels : UInt32) (stores : Nat)
    (h : cmd.cmd ≠ .quit)
    : (Bridge.storeInit cmd sampleRate channels stores).cmd ≠ .quit := by
  unfold Bridge.storeInit
  split <;> first | exact h | simp

theorem storeDecode_cmd (cmd : CommandBlock) (inLen stores : Nat) (h : cmd.cmd ≠ .quit)
    : (Bridge.storeDecode cmd inLen stores).cmd ≠ .quit := by
  unfold Bridge.storeDecode
  split <;> first | exact h | simp

/- QUIT is in the block already, the signal is next or has been sent. -/
def Ppu.closing (ppu : Ppu) : Bool :=
  match ppu with
  | .quitSignalling => true
  | .joining => true
  | _ => false

/- What a statement of the PPU means to a worker that may have to hear of QUIT. -/
inductive PpuMove (s : Bridge δ) : Bridge δ → Prop where
  | quitStored (hppu : s.ppu = .quitStoring)
    : PpuMove s { s with gCmd := { s.gCmd with cmd := .quit }, ppu := .quitSignalling }
  | quitSignalled (hppu : s.ppu = .quitSignalling)
    : PpuMove s { s with signal1 := some .quit, ppu := .joining }
  | other (t : Bridge δ) (hclosing : t.ppu.closing = false) (hspu : t.spu = s.spu)
      (hlsCmd : t.lsCmd = s.lsCmd) (hdecoder : t.gMsDecoder = s.gMsDecoder)
      (hcmd : s.gCmd.cmd ≠ .quit → t.gCmd.cmd ≠ .quit)
    : PpuMove s t

theorem ppuStep_move {s t : Bridge δ} {sampleRate channels : UInt32} {timeout : Bool}
    (hstep : s.ppuStep sampleRate channels timeout = some t)
    : PpuMove s t := by
  unfold Bridge.ppuStep at hstep
  cases hppu : s.ppu <;> simp only [hppu, Option.some.injEq, reduceCtorEq] at hstep
  case initStoring stores =>
    rw [← hstep]
    refine PpuMove.other _ ?_ rfl rfl rfl ?_
    . cases Nat.decLt stores 5 with
      | isTrue hmore => simp [hmore, Ppu.closing]
      | isFalse hlast => simp [hlast, Ppu.closing]
    . apply storeInit_cmd
  case storing call stores =>
    rw [← hstep]
    refine PpuMove.other _ ?_ rfl rfl rfl ?_
    . cases Nat.decLt stores 4 with
      | isTrue hmore => simp [hmore, Ppu.closing]
      | isFalse hlast => simp [hlast, Ppu.closing]
    . apply storeDecode_cmd
  case initPolling | copyingIn call | polling call =>
    split at hstep
    . injection hstep with hstep
      rw [← hstep]
      exact PpuMove.other _ rfl rfl rfl rfl id
    . injection hstep with hstep
      rw [← hstep]
      exact PpuMove.other _ rfl rfl rfl rfl id
  case initChecking | checking call =>
    rw [← hstep]
    cases timeout with
    | true => exact PpuMove.other _ rfl rfl rfl rfl id
    | false => exact PpuMove.other _ rfl rfl rfl rfl id
  case quitStoring =>
    rw [← hstep]
    apply PpuMove.quitStored hppu
  case quitSignalling =>
    rw [← hstep]
    apply PpuMove.quitSignalled hppu
  case joining =>
    split at hstep
    . injection hstep with hstep
      rw [← hstep]
      exact PpuMove.other _ rfl rfl rfl rfl id
    . contradiction
  all_goals
    rw [← hstep]
    exact PpuMove.other _ rfl rfl rfl rfl id

theorem quitHeard_of_not_closing {s : Bridge δ} (h : s.ppu.closing = false) : QuitHeard s := by
  unfold QuitHeard
  cases hppu : s.ppu <;> simp only [hppu, Ppu.closing, reduceCtorEq] at h ⊢

theorem quitHeard_ppuStep {s t : Bridge δ} {sampleRate channels : UInt32} {timeout : Bool}
    (h : QuitHeard s) (hheard : Heard s (.ppu timeout))
    (hstep : s.ppuStep sampleRate channels timeout = some t)
    : QuitHeard t := by
  cases ppuStep_move hstep with
  | quitStored hppu =>
    -- the only statement that needs the condition: no copy is on its way back
    apply quitting_store
    simpa [Heard, hppu, Ppu.storesQuit] using hheard
  | quitSignalled hppu =>
    unfold QuitHeard at h
    rw [hppu] at h
    exact ⟨h, by simp⟩
  | other _ hclosing _ _ _ _ => apply quitHeard_of_not_closing hclosing

theorem quitHeard_step {d : Decoder δ} {sampleRate channels : UInt32} {s t : Bridge δ} {e : Event}
    (h : QuitHeard s) (hheard : Heard s e) (hstep : step d sampleRate channels s e = some t)
    : QuitHeard t := by
  unfold step at hstep
  cases e with
  | ppu timeout => exact quitHeard_ppuStep h hheard hstep
  | spu ticks => exact quitHeard_spuStep h hstep
  | call call =>
    dsimp only at hstep
    split at hstep
    . injection hstep with hstep
      rw [← hstep]
      unfold Bridge.callDecode
      split
      . trivial
      . trivial
    . simp at hstep
  | shutdown =>
    dsimp only at hstep
    split at hstep
    . injection hstep with hstep
      rw [← hstep]
      cases hinitialized : s.gInitialized with
      | true => simp [QuitHeard]
      | false => simp [QuitHeard]
    . simp at hstep

theorem QuitHeard.not_hung {s : Bridge δ} (h : QuitHeard s) : ¬ Hung s := by
  intro hhung
  have ⟨hppu, hspu, hsignal⟩ := hhung
  unfold QuitHeard at h
  rw [hppu] at h
  have hsome := h.right hspu
  rw [hsignal] at hsome
  contradiction

/-
In every run that stores QUIT while the worker does not hold a copy of the command block, the PPU
never waits for a worker that nothing will wake up.
-/
theorem heard_quit_never_hangs (d : Decoder δ) (sampleRate channels : UInt32) (s t : Bridge δ)
    (events : List Event)
    (hmeet : (machine d sampleRate channels s).StepsMeet Heard
      (machine d sampleRate channels s).init events)
    (hrun : (machine d sampleRate channels s).run events = some t)
    : ¬ Hung t := by
  apply QuitHeard.not_hung
  apply (machine d sampleRate channels s).runFrom_invariant_of_stepsMeet Heard QuitHeard _ _ _
    events _ hmeet hrun
  . intro s e t h hheard hstep
    apply quitHeard_step h hheard hstep
  . trivial

theorem heard_quit_never_hangs_one_call
    : ∃ t : Bridge Unit,
        (machine silence 48000 2 freshBridge).run
            (initialise ++ [.call (oneByteCall 0xE4)] ++ List.replicate 7 (.ppu false)
              ++ List.replicate 7 (.spu 0) ++ List.replicate 5 (.ppu false)
              ++ [.shutdown, .ppu false, .ppu false])
          = some t
          ∧
        t.ppu = .joining ∧ ¬ Hung t := by
  let events := initialise ++ [.call (oneByteCall 0xE4)] ++ List.replicate 7 (.ppu false)
    ++ List.replicate 7 (.spu 0) ++ List.replicate 5 (.ppu false)
    ++ [.shutdown, .ppu false, .ppu false]
  obtain ⟨t, hrun, hjoining⟩ : ∃ t : Bridge Unit,
      (machine silence 48000 2 freshBridge).run events = some t ∧ t.ppu = .joining := by
    exact ⟨_, rfl, rfl⟩
  refine ⟨t, hrun, hjoining, ?_⟩
  apply heard_quit_never_hangs silence 48000 2 freshBridge t events _ hrun
  decide

/-
The call is given up while the worker decodes, and the bridge is shut down. The worker writes DECODE
over QUIT, takes the signal for one more packet and waits for the next one.
-/
theorem late_answer_overwrites_quit
    : ¬ ∀ (δ : Type) (d : Decoder δ) (sampleRate channels : UInt32) (s t : Bridge δ)
          (events : List Event),
        (machine d sampleRate channels s).run events = some t → ¬ Hung t := by
  intro hclaim
  let events := initialise ++ [.call (oneByteCall 0xE4)] ++ List.replicate 7 (.ppu false)
    ++ List.replicate 5 (.spu 0) ++ [.ppu false, .ppu true, .shutdown]
    ++ List.replicate 2 (.ppu false) ++ List.replicate 9 (.spu 0)
  obtain ⟨t, hrun, hhung⟩ : ∃ t : Bridge Unit,
      (machine silence 48000 2 freshBridge).run events = some t ∧ Hung t := by
    exact ⟨_, rfl, rfl, rfl, rfl⟩
  apply hclaim Unit silence 48000 2 freshBridge t events hrun hhung

/-
The condition is exact: a QUIT that is stored later is lost, and the worker comes back to the signal
register without having seen it.
-/

/- QUIT is only stored while the worker holds a copy of the block. -/
def Late (s : Bridge δ) (e : Event) : Prop :=
  match e with
  | .ppu _ => (s.ppu.storesQuit && !s.spu.holding) = false
  | _ => True

/- The worker has not read QUIT and will not find it in the block it is going to read. -/
def Deaf (s : Bridge δ) : Prop :=
  match s.spu with
  | .waiting => s.gCmd.cmd ≠ .quit
  | .fetching => s.gCmd.cmd ≠ .quit
  | .gettingPacket => s.lsCmd.cmd ≠ .quit ∧ s.gMsDecoder.isSome = true
  | .decoding => s.lsCmd.cmd ≠ .quit ∧ s.gMsDecoder.isSome = true
  | .quitting => False
  | .exited => False
  | _ => s.lsCmd.cmd ≠ .quit

/- The number of statements until the worker is back at the signal register. -/
def Spu.remaining (spu : Spu) : Nat :=
  match spu with
  | .fetching => 6
  | .dispatching => 5
  | .gettingPacket => 4
  | .decoding => 3
  | .puttingPcm _ => 2
  | .puttingCmd => 1
  | _ => 0

/- The number of statements until the worker blocks. -/
def Bridge.remaining (s : Bridge δ) : Nat :=
  s.spu.remaining + if s.signal1.isSome then 7 else 0

theorem deaf_startDecode {s : Bridge δ} (hcmd : s.lsCmd.cmd ≠ .quit)
    (hdecoder : s.gMsDecoder.isSome = true)
    : Deaf s.startDecode := by
  unfold Bridge.startDecode
  split
  . exact ⟨hcmd, hdecoder⟩
  . exact ⟨hcmd, hdecoder⟩

theorem deaf_dispatch {d : Decoder δ} {s : Bridge δ} (hcmd : s.lsCmd.cmd ≠ .quit)
    : Deaf (s.dispatch d) := by
  unfold Bridge.dispatch
  split
  . contradiction
  . exact hcmd
  . split
    . next hdecoder =>
      apply deaf_startDecode hcmd
      rw [hdecoder]
      rfl
    . dsimp only
      split
      . exact deaf_startDecode hcmd rfl
      . exact hcmd
  . exact hcmd

theorem startDecode_remaining (s : Bridge δ)
    : s.startDecode.signal1 = s.signal1 ∧ s.startDecode.spu.remaining ≤ 4 := by
  unfold Bridge.startDecode
  refine ⟨rfl, ?_⟩
  dsimp only
  split
  . simp [Spu.remaining]
  . simp [Spu.remaining]

theorem dispatch_remaining (d : Decoder δ) {s : Bridge δ} (hcmd : s.lsCmd.cmd ≠ .quit)
    : (s.dispatch d).signal1 = s.signal1 ∧ (s.dispatch d).spu.remaining ≤ 4 := by
  unfold Bridge.dispatch
  split
  . contradiction
  . simp [Spu.remaining]
  . split
    . apply startDecode_remaining
    . dsimp only
      split
      . apply startDecode_remaining
      . simp [Spu.remaining, Bridge.fail]
  . simp [Spu.remaining]

theorem decodeFrame_remaining (d : Decoder δ) (s : Bridge δ) (decoder : δ)
    : (s.decodeFrame d decoder).signal1 = s.signal1
        ∧
      (s.decodeFrame d decoder).spu.remaining ≤ 2 := by
  unfold Bridge.decodeFrame
  dsimp only
  split
  . simp [Spu.remaining]
  . simp [Spu.remaining, Bridge.fail]

theorem deaf_decodeFrame (d : Decoder δ) {s : Bridge δ} (decoder : δ) (hcmd : s.lsCmd.cmd ≠ .quit)
    : Deaf (s.decodeFrame d decoder) := by
  unfold Bridge.decodeFrame
  dsimp only
  split
  . exact hcmd
  . exact hcmd

theorem remaining_lt {s t : Bridge δ} (hsignal : t.signal1 = s.signal1)
    (hspu : t.spu.remaining < s.spu.remaining)
    : t.remaining < s.remaining := by
  unfold Bridge.remaining
  rw [hsignal]
  omega

/- Unless it is blocked, the worker moves on, and it stays deaf. -/
theorem deaf_spuStep (d : Decoder δ) {s : Bridge δ} (ticks : UInt32) (h : Deaf s)
    : s.spu = .waiting ∧ s.signal1 = none
        ∨
      ∃ t, s.spuStep d ticks = some t ∧ Deaf t ∧ t.remaining < s.remaining := by
  unfold Deaf at h
  unfold Bridge.spuStep
  cases hspu : s.spu <;> simp only [hspu] at h ⊢
  case waiting =>
    cases hsignal : s.signal1 with
    | none => simp
    | some command =>
      right
      exact ⟨_, rfl, h, by simp [Bridge.remaining, Spu.remaining, hspu, hsignal]⟩
  case fetching =>
    right
    refine ⟨_, rfl, h, remaining_lt rfl ?_⟩
    rw [hspu]
    simp [Spu.remaining]
  case dispatching =>
    right
    have ⟨hsignal, hle⟩ := dispatch_remaining d h
    refine ⟨_, rfl, deaf_dispatch h, remaining_lt hsignal ?_⟩
    rw [hspu]
    apply Nat.lt_succ_of_le hle
  case gettingPacket =>
    right
    refine ⟨_, rfl, h, remaining_lt rfl ?_⟩
    rw [hspu]
    simp [Spu.remaining, Bridge.getPacket]
  case decoding =>
    right
    have ⟨decoder, hdecoder⟩ := Option.isSome_iff_exists.mp h.right
    have ⟨hsignal, hle⟩ := decodeFrame_remaining d s decoder
    rw [hdecoder]
    refine ⟨_, rfl, deaf_decodeFrame d decoder h.left, remaining_lt hsignal ?_⟩
    rw [hspu]
    apply Nat.lt_succ_of_le hle
  case puttingPcm decoded =>
    right
    refine ⟨_, rfl, h, remaining_lt rfl ?_⟩
    rw [hspu]
    simp [Spu.remaining, Bridge.putPcm]
  case puttingCmd =>
    right
    refine ⟨_, rfl, h, remaining_lt rfl ?_⟩
    rw [hspu]
    simp [Spu.remaining]

/- While the PPU waits for its exit, a deaf worker runs until nothing wakes it up any more. -/
theorem hangs_of_deaf (d : Decoder δ) (sampleRate channels : UInt32) (s t : Bridge δ)
    (hdeaf : Deaf t) (hppu : t.ppu = .joining)
    : ∃ u events, (machine d sampleRate channels s).runFrom t events = some u ∧ Hung u := by
  induction hremaining : t.remaining using Nat.strongRecOn generalizing t with
  | ind remaining ih =>
    cases deaf_spuStep d 0 hdeaf with
    | inl hblocked => exact ⟨t, [], rfl, hppu, hblocked⟩
    | inr hmoves =>
      have ⟨next, hstep, hdeaf, hlt⟩ := hmoves
      have hppu := (spuStep_ppu hstep).trans hppu
      have ⟨u, events, hrun, hhung⟩ := ih next.remaining (hremaining ▸ hlt) next hdeaf hppu rfl
      refine ⟨u, .spu 0 :: events, ?_, hhung⟩
      rw [Transition.Machine.runFrom_cons]
      have hnext : (machine d sampleRate channels s).step t (.spu 0) = some next := hstep
      rw [hnext]
      exact hrun

theorem deaf_ppuStep {s t : Bridge δ} {sampleRate channels : UInt32} {timeout : Bool}
    (h : Deaf s) (hlate : Late s (.ppu timeout))
    (hstep : s.ppuStep sampleRate channels timeout = some t)
    : Deaf t := by
  unfold Deaf at h ⊢
  cases ppuStep_move hstep with
  | quitStored hppu =>
    -- QUIT goes into a block that the copy of the worker is going to overwrite
    have hholding : s.spu.holding = true := by
      simpa [Late, hppu, Ppu.storesQuit] using hlate
    cases hspu : s.spu <;> simp only [hspu, Spu.holding, reduceCtorEq] at h hholding ⊢
    all_goals exact h
  | quitSignalled _ => exact h
  | other _ _ hspu hlsCmd hdecoder hcmd =>
    rw [hspu, hlsCmd, hdecoder]
    cases hspu : s.spu <;> simp only [hspu] at h ⊢
    case waiting => exact hcmd h
    case fetching => exact hcmd h
    all_goals exact h

theorem deaf_step {d : Decoder δ} {sampleRate channels : UInt32} {s t : Bridge δ} {e : Event}
    (h : Deaf s) (hlate : Late s e) (hstep : step d sampleRate channels s e = some t)
    : Deaf t := by
  unfold step at hstep
  cases e with
  | ppu timeout => exact deaf_ppuStep h hlate hstep
  | spu ticks =>
    cases deaf_spuStep d ticks h with
    | inl hblocked =>
      dsimp only at hstep
      rw [spuStep_of_idle hblocked.left hblocked.right] at hstep
      contradiction
    | inr hmoves =>
      have ⟨next, hnext, hdeaf, _⟩ := hmoves
      simp only [hnext, Option.some.injEq] at hstep
      rw [← hstep]
      exact hdeaf
  | call call =>
    dsimp only at hstep
    split at hstep
    . injection hstep with hstep
      rw [← hstep]
      unfold Bridge.callDecode
      split
      . exact h
      . exact h
    . simp at hstep
  | shutdown =>
    dsimp only at hstep
    split at hstep
    . injection hstep with hstep
      rw [← hstep]
      exact h
    . simp at hstep

/-
Every run that stores QUIT while the worker holds a copy of the command block can only be continued
to a state in which the two wait for each other.
-/
theorem late_quit_hangs (d : Decoder δ) (sampleRate channels : UInt32) (s t : Bridge δ)
    (events : List Event)
    (hmeet : (machine d sampleRate channels s).StepsMeet Late
      (machine d sampleRate channels s).init events)
    (hrun : (machine d sampleRate channels s).run events = some t) (hppu : t.ppu = .joining)
    : ∃ u rest, (machine d sampleRate channels s).runFrom t rest = some u ∧ Hung u := by
  apply hangs_of_deaf d sampleRate channels s t _ hppu
  apply (machine d sampleRate channels s).runFrom_invariant_of_stepsMeet Late Deaf _ _ _
    events _ hmeet hrun
  . intro s e t h hlate hstep
    apply deaf_step h hlate hstep
  . simp [Deaf, machine, Bridge.start]

end SpuOpus
end Audio

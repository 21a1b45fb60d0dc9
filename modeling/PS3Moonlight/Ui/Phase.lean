import PS3Moonlight.Ui.Attempt

/-!
This module contains the phases of an attempt: an abstraction of the main thread that only keeps whether
an attempt still looks at `ui_state` before it does something the user would notice.
-/

namespace Ui

/-
What an attempt is up to. In the phases `listing`, `launching` and `failing` it no longer looks at
`ui_state` before it writes `ui_state` or starts the stream.
-/
inductive Phase where
  | idle
  | starting
  | connecting
  | listing
  | selecting
  | launching
  | failing
  deriving DecidableEq

def Phase.committed (p : Phase) : Bool :=
  match p with
  | .listing => true
  | .launching => true
  | .failing => true
  | _ => false

@[simp]
theorem Phase.committed_idle : Phase.committed .idle = false := by
  rfl

@[simp]
theorem Phase.committed_starting : Phase.committed .starting = false := by
  rfl

@[simp]
theorem Phase.committed_connecting : Phase.committed .connecting = false := by
  rfl

@[simp]
theorem Phase.committed_selecting : Phase.committed .selecting = false := by
  rfl

def Request.phase (r : Request) : Phase :=
  match r with
  | .resume => .selecting
  | .cancel => .selecting
  | .launch => .selecting
  | _ => .connecting

def Look.phase (l : Look) : Phase :=
  match l with
  | .launchFailed => .selecting
  | _ => .connecting

def MainPc.phase (pc : MainPc) : Phase :=
  match pc with
  | .running => .idle
  | .ifPairing => .idle
  | .terminated => .idle
  | .hvInitAddress => .starting
  | .hvInitFiles => .connecting
  | .randomPin => .connecting
  | .connect r => r.phase
  | .pollState r _ => r.phase
  | .pollRunning r _ => r.phase
  | .poll r _ => r.phase
  | .exchange r => r.phase
  | .retryUuid _ => .connecting
  | .retryState _ => .connecting
  | .look l => l.phase
  | .ifStillPairing => .connecting
  | .setAppList => .listing
  | .setActiveIdx => .listing
  | .setUnconfirmed => .listing
  | .resetAppSelection => .listing
  | .setApplist => .listing
  | .liStartConnection => .launching
  | .liStarting => .launching
  | .setStreaming => .launching
  | .setStreamError => .launching
  | .setError => .failing
  | _ => .selecting

/- The statements that no cancelled attempt may get to. -/
def MainPc.forbidden (pc : MainPc) : Bool :=
  match pc with
  | .setApplist => true
  | .setStreaming => true
  | .setStreamError => true
  | .setError => true
  | .liStartConnection => true
  | _ => false

def MainPc.inAttempt (pc : MainPc) : Bool :=
  pc.phase ≠ .idle

/-
The statements after which nothing but the statement itself keeps an attempt from one of the committed
phases: a call that fails without a look at `ui_state`, a look that does not find the address screen,
the app list, and the launch.
-/
def MainThread.commits (m : MainThread) (s : Shared) (o : Outcome) : Bool :=
  match m.pc, o with
  | .randomPin, o => !o.isOk
  | .look .initFailed, _ => s.uiState ≠ .ipEntry
  | .look .appListFailed, _ => s.uiState ≠ .ipEntry
  | .look .launchFailed, _ => s.uiState ≠ .ipEntry
  | .ifStillPairing, _ => s.uiState = .pairing
  | .exchange .appList, .apps (_ :: _) => true
  | .sessionKeys, o => !o.isOk
  | .exchange .resume, .ok => true
  | .exchange .launch, .ok => true
  | .ifConnectedRunning, _ => !s.uiRunning
  | .ifConnected, o => !o.isOk
  | _, _ => false

/-
The phases in the order an attempt goes through them.
-/
inductive Phase.Next (u : UiState) (commits : Bool) : Phase → Phase → UiState → Prop where
  | stay (p : Phase) : p ≠ .starting → p ≠ .failing → Next u commits p p u
  | begin : u = .pairing → Next u commits .idle .starting u
  | address : Next u commits .starting .connecting u
  | giveUp : u ≠ .pairing → Next u commits .connecting .idle u
  | listing : commits = true → Next u commits .connecting .listing u
  | fail (p : Phase) : p = .connecting ∨ p = .selecting → commits = true → Next u commits p .failing u
  | listed : Next u commits .listing .selecting .applist
  | launching : commits = true → Next u commits .selecting .launching u
  | startFailed : Next u commits .launching .failing u
  | streaming : Next u commits .launching .selecting .streaming
  | streamFailed : Next u commits .launching .selecting .error
  | exitCombo : Next u commits .selecting .selecting .ipEntry
  | leave : Next u commits .selecting .idle u
  | stopped : Next u commits .selecting .idle .ipEntry
  | failed : Next u commits .failing .idle .error

namespace Phase.Next

/-
What is known of the phase before.
-/

theorem commits_of_committed {u u' : UiState} {commits : Bool} {p p' : Phase}
    (h : Next u commits p p' u') (hcommitted : p'.committed = true)
    : p.committed = true ∨ commits = true := by
  cases h with
  | stay => exact Or.inl hcommitted
  | listing hcommits => exact Or.inr hcommits
  | fail _ _ hcommits => exact Or.inr hcommits
  | launching hcommits => exact Or.inr hcommits
  | startFailed => exact Or.inl rfl
  | _ => simp [committed] at hcommitted

theorem starting {u u' : UiState} {commits : Bool} {p : Phase} (h : Next u commits p .starting u')
    : p = .idle ∧ u = .pairing ∧ u' = u := by
  cases h with
  | stay _ hne => exact absurd rfl hne
  | begin hpairing => exact ⟨rfl, hpairing, rfl⟩

theorem pairing {u : UiState} {commits : Bool} {p p' : Phase} (h : Next u commits p p' .pairing)
    : u = .pairing ∧ (p' = .idle → p = .idle ∨ p = .selecting) := by
  cases h with
  | giveUp hne => exact absurd rfl hne
  | leave => exact ⟨rfl, fun _ => Or.inr rfl⟩
  | stay => exact ⟨rfl, fun hidle => Or.inl hidle⟩
  | _ => exact ⟨rfl, by simp⟩

theorem begun {u u' : UiState} {commits : Bool} {p p' : Phase} (h : Next u commits p p' u')
    (hidle : p' ≠ .idle) (hstarting : p' ≠ .starting)
    : p ≠ .idle := by
  cases h with
  | stay => exact hidle
  | begin => exact absurd rfl hstarting
  | fail p hp =>
    intro hidle
    simp [hidle] at hp
  | _ => simp

theorem listed_or {u : UiState} {commits : Bool} {p p' : Phase} (h : Next u commits p p' .pairing)
    (hp : p' = .selecting ∨ p' = .launching)
    : p = .selecting ∨ p = .launching := by
  cases h with
  | stay => exact hp
  | launching => exact Or.inl rfl
  | _ => simp at hp

end Phase.Next

theorem Request.failed_phase (r : Request) : r.failed.phase = r.phase := by
  cases r with
  | _ => rfl

@[simp]
theorem Request.phase_ne_starting (r : Request) : r.phase ≠ .starting := by
  cases r with
  | _ => simp [phase]

@[simp]
theorem Request.not_committed (r : Request) : r.phase.committed = false := by
  cases r with
  | _ => rfl

@[simp]
theorem Look.phase_ne_starting (l : Look) : l.phase ≠ .starting := by
  cases l with
  | _ => simp [phase]

@[simp]
theorem Look.not_committed (l : Look) : l.phase.committed = false := by
  cases l with
  | _ => rfl

theorem Request.phase_cases (r : Request) : r.phase = .connecting ∨ r.phase = .selecting := by
  cases r with
  | resume => exact Or.inr rfl
  | cancel => exact Or.inr rfl
  | launch => exact Or.inr rfl
  | _ => exact Or.inl rfl

theorem Phase.Next.staySame {u : UiState} {commits : Bool} {p p' : Phase}
    (hp : p = .idle ∨ p = .connecting ∨ p = .selecting) (h : p' = p)
    : Next u commits p p' u := by
  rw [h]
  apply stay
  . intro hstarting
    simp [hstarting] at hp
  . intro hfailing
    simp [hfailing] at hp

theorem Phase.Next.connecting {u : UiState} {commits : Bool}
    : Next u commits .connecting .connecting u := by
  exact stay _ (by decide) (by decide)

theorem Phase.Next.selecting {u : UiState} {commits : Bool}
    : Next u commits .selecting .selecting u := by
  exact stay _ (by decide) (by decide)

theorem Request.next_failed {u : UiState} {commits : Bool} (r : Request)
    : Phase.Next u commits r.phase r.failed.phase u := by
  apply Phase.Next.staySame
  . exact Or.inr r.phase_cases
  . apply r.failed_phase

theorem Request.next_answered (r : Request) (m : MainThread) (s : Shared) (o : Outcome)
    (hpc : m.pc = .exchange r)
    : Phase.Next s.uiState (m.commits s o) r.phase (r.answered o).phase s.uiState := by
  unfold MainThread.commits
  rw [hpc]
  cases o with
  | ok =>
    cases r with
    | resume => exact .launching rfl
    | launch => exact .launching rfl
    | cancel => exact .selecting
    | _ => exact .connecting
  | fail =>
    cases r with
    | pairStep2 retries => exact .connecting
    | _ => apply next_failed
  | wait => apply next_failed
  | apps entries =>
    cases r with
    | appList =>
      cases entries with
      | nil => exact .connecting
      | cons entry entries => exact .listing rfl
    | _ => apply next_failed

theorem Phase.Next.ite {u : UiState} {commits : Bool} (p : Phase) {c : Prop} [Decidable c]
    {pc pc' : MainPc} (hstarting : p ≠ .starting) (hfailing : p ≠ .failing) (h : pc.phase = p)
    (h' : pc'.phase = p)
    : Next u commits p (if c then pc else pc').phase u := by
  split
  . rw [h]
    exact .stay _ hstarting hfailing
  . rw [h']
    exact .stay _ hstarting hfailing

theorem Look.next (l : Look) (m : MainThread) (s : Shared) (o : Outcome) (hpc : m.pc = .look l)
    : Phase.Next s.uiState (m.commits s o) l.phase
        (if s.uiState = .ipEntry then MainPc.running else l.passed).phase s.uiState := by
  split
  . next hstate =>
    have hne : s.uiState ≠ .pairing := by
      simp [hstate]
    cases l with
    | launchFailed => exact .leave
    | _ => exact .giveUp hne
  . next hstate =>
    cases l with
    | initFailed =>
      apply Phase.Next.fail
      . exact Or.inl rfl
      . simp [MainThread.commits, hpc, hstate]
    | appListFailed =>
      apply Phase.Next.fail
      . exact Or.inl rfl
      . simp [MainThread.commits, hpc, hstate]
    | launchFailed =>
      apply Phase.Next.fail
      . exact Or.inr rfl
      . simp [MainThread.commits, hpc, hstate]
    | isPaired paired =>
      cases paired with
      | false => exact .connecting
      | true => exact .connecting
    | _ => exact .connecting

/-
One statement of the main thread takes an attempt to the next phase or leaves it where it is.
-/
theorem MainThread.next_phase (m : MainThread) (s : Shared) (o : Outcome)
    : Phase.Next s.uiState (m.commits s o) m.pc.phase (m.target s o).phase (m.effect s).uiState := by
  unfold effect target
  cases hpc : m.pc with
  | running => exact .ite .idle (by decide) (by decide) rfl rfl
  | ifPairing =>
    dsimp only
    split
    . next hpairing => exact .begin hpairing
    . exact .stay _ (by decide) (by decide)
  | terminated => exact .stay _ (by decide) (by decide)
  | hvInitAddress => exact .address
  | hvInitFiles => exact .ite .connecting (by decide) (by decide) rfl rfl
  | randomPin =>
    dsimp only
    split
    . exact .connecting
    . next hfailed =>
      apply Phase.Next.fail
      . exact Or.inl rfl
      . simp [commits, hpc, hfailed]
  | connect r =>
    dsimp only
    split
    . exact .staySame (Or.inr r.phase_cases) rfl
    . exact .staySame (Or.inr r.phase_cases) rfl
    . apply r.next_failed
  | pollState r polls =>
    dsimp only
    split
    . apply r.next_failed
    . exact .staySame (Or.inr r.phase_cases) rfl
  | pollRunning r polls =>
    dsimp only
    split
    . exact .staySame (Or.inr r.phase_cases) rfl
    . apply r.next_failed
  | poll r polls =>
    dsimp only
    split
    . exact .staySame (Or.inr r.phase_cases) rfl
    . exact .staySame (Or.inr r.phase_cases) rfl
    . apply r.next_failed
  | exchange r =>
    apply r.next_answered
    exact hpc
  | retryUuid retries =>
    cases retries with
    | zero => exact .connecting
    | succ retries => exact .ite .connecting (by decide) (by decide) rfl rfl
  | retryState retries => exact .ite .connecting (by decide) (by decide) rfl rfl
  | look l =>
    apply l.next
    exact hpc
  | ifStillPairing =>
    dsimp only
    split
    . next hpairing =>
      apply Phase.Next.fail
      . exact Or.inl rfl
      . simp [commits, hpc, hpairing]
    . next hpairing => exact .giveUp hpairing
  | setAppList => exact .stay _ (by decide) (by decide)
  | setActiveIdx => exact .stay _ (by decide) (by decide)
  | setUnconfirmed => exact .stay _ (by decide) (by decide)
  | resetAppSelection => exact .stay _ (by decide) (by decide)
  | setApplist => exact .listed
  | whileRunning => exact .ite .selecting (by decide) (by decide) rfl rfl
  | whileApplist => exact .ite .selecting (by decide) (by decide) rfl rfl
  | whileUnselected => exact .ite .selecting (by decide) (by decide) rfl rfl
  | ifRunning =>
    dsimp only
    split
    . exact .selecting
    . exact .leave
  | ifApplist =>
    dsimp only
    split
    . exact .selecting
    . exact .leave
  | selectedAppId => exact .selecting
  | selectedAppName => exact .selecting
  | sessionKeys =>
    dsimp only
    split
    . exact .selecting
    . next hfailed =>
      apply Phase.Next.fail
      . exact Or.inr rfl
      . simp [commits, hpc, hfailed]
  | resumeParams => exact .ite .selecting (by decide) (by decide) rfl rfl
  | liStartConnection => exact .stay _ (by decide) (by decide)
  | liStarting =>
    dsimp only
    split
    . exact .stay _ (by decide) (by decide)
    . exact .startFailed
  | setStreaming => exact .streaming
  | waitRunning waits => exact .ite .selecting (by decide) (by decide) rfl rfl
  | waitConnected waits =>
    dsimp only
    split
    . split
      . exact .selecting
      . exact .selecting
    . exact .selecting
  | ifConnectedRunning =>
    dsimp only
    split
    . exact .selecting
    . next hstopped =>
      apply Phase.Next.launching
      simp [commits, hpc, hstopped]
  | ifConnected =>
    dsimp only
    split
    . exact .selecting
    . next hfailed =>
      apply Phase.Next.launching
      simp [commits, hpc, hfailed]
  | streamRunning => exact .ite .selecting (by decide) (by decide) rfl rfl
  | streamReady => exact .ite .selecting (by decide) (by decide) rfl rfl
  | whileStreaming => exact .ite .selecting (by decide) (by decide) rfl rfl
  | exitCombo => exact .ite .selecting (by decide) (by decide) rfl rfl
  | setExitCombo => exact .exitCombo
  | setStreamError => exact .streamFailed
  | liStopConnection => exact .selecting
  | setIpEntry => exact .stopped
  | setError => exact .failed

theorem MainPc.phase_starting {pc : MainPc} : pc.phase = .starting ↔ pc = .hvInitAddress := by
  constructor
  . intro h
    cases pc with
    | hvInitAddress => rfl
    | _ => simp [phase] at h
  . intro h
    rw [h]
    rfl

theorem MainPc.committed_of_forbidden {pc : MainPc} (h : pc.forbidden = true)
    : pc.phase.committed = true := by
  unfold forbidden at h
  split at h
  . rfl
  . rfl
  . rfl
  . rfl
  . rfl
  . simp at h

theorem MainThread.committed_of_commits {m : MainThread} {s : Shared} {o : Outcome}
    (h : m.commits s o = true)
    : (m.target s o).phase.committed = true := by
  unfold commits at h
  unfold target
  split at h
  . next hpc =>
    rw [Bool.not_eq_true'] at h
    simp [hpc, h, MainPc.phase, Phase.committed]
  . next hpc =>
    have hne := of_decide_eq_true h
    simp [hpc, hne, Look.passed, MainPc.phase, Phase.committed]
  . next hpc =>
    have hne := of_decide_eq_true h
    simp [hpc, hne, Look.passed, MainPc.phase, Phase.committed]
  . next hpc =>
    have hne := of_decide_eq_true h
    simp [hpc, hne, Look.passed, MainPc.phase, Phase.committed]
  . next hpc =>
    have hpairing := of_decide_eq_true h
    simp [hpc, hpairing, MainPc.phase, Phase.committed]
  . next hpc => simp [hpc, Request.answered, MainPc.phase, Phase.committed]
  . next hpc =>
    rw [Bool.not_eq_true'] at h
    simp [hpc, h, MainPc.phase, Phase.committed]
  . next hpc => simp [hpc, Request.answered, Request.accepted, MainPc.phase, Phase.committed]
  . next hpc => simp [hpc, Request.answered, Request.accepted, MainPc.phase, Phase.committed]
  . next hpc =>
    rw [Bool.not_eq_true'] at h
    simp [hpc, h, MainPc.phase, Phase.committed]
  . next hpc =>
    rw [Bool.not_eq_true'] at h
    simp [hpc, h, MainPc.phase, Phase.committed]
  . simp at h

/- How many statements of a committed attempt are left before a forbidden one. -/
def MainPc.left (pc : MainPc) : Nat :=
  match pc with
  | .setAppList => 4
  | .setActiveIdx => 3
  | .setUnconfirmed => 2
  | .resetAppSelection => 1
  | .liStarting => 1
  | _ => 0

theorem MainThread.left_target {m : MainThread} {n : Nat} (s : Shared) (h : m.pc.left = n + 1)
    : (m.target s .ok).left = n ∧ (m.target s .ok).phase.committed = true := by
  unfold MainPc.left at h
  unfold target
  split at h
  . next hpc => simp_all [MainPc.left, MainPc.phase, Phase.committed]
  . next hpc => simp_all [MainPc.left, MainPc.phase, Phase.committed]
  . next hpc => simp_all [MainPc.left, MainPc.phase, Phase.committed]
  . next hpc => simp_all [MainPc.left, MainPc.phase, Phase.committed]
  . next hpc => simp_all [MainPc.left, MainPc.phase, Phase.committed, Outcome.isOk]
  . simp at h

theorem MainPc.forbidden_of_left {pc : MainPc} (h : pc.phase.committed = true) (hleft : pc.left = 0)
    : pc.forbidden = true := by
  cases pc with
  | setAppList => simp [left] at hleft
  | setActiveIdx => simp [left] at hleft
  | setUnconfirmed => simp [left] at hleft
  | resetAppSelection => simp [left] at hleft
  | liStarting => simp [left] at hleft
  | setApplist => rfl
  | liStartConnection => rfl
  | setStreaming => rfl
  | setStreamError => rfl
  | setError => rfl
  | _ => simp [phase] at h

theorem MainThread.target_of_forbidden {m : MainThread} (s : Shared) (h : m.pc.forbidden = true)
    : (m.target s .ok).phase ≠ .starting := by
  unfold MainPc.forbidden at h
  unfold target
  split at h
  . next hpc => simp [hpc, MainPc.phase]
  . next hpc => simp [hpc, MainPc.phase]
  . next hpc => simp [hpc, MainPc.phase]
  . next hpc => simp [hpc, MainPc.phase]
  . next hpc => simp [hpc, MainPc.phase]
  . simp at h

theorem MainPc.ne_of_committed {pc : MainPc} (h : pc.phase.committed = true)
    : pc ≠ .terminated ∧ pc.phase ≠ .starting ∧ pc.inAttempt = true := by
  refine ⟨?_, ?_, ?_⟩
  . intro hpc
    simp [hpc, phase, Phase.committed] at h
  . intro hstarting
    simp [hstarting, Phase.committed] at h
  . rw [inAttempt, decide_eq_true_eq]
    intro hidle
    simp [hidle, Phase.committed] at h

end Ui

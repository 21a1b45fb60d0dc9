import PS3Moonlight.Ui.Phase
import PS3Moonlight.Ui.System

/-!
This module contains what becomes of an attempt to connect once the user has gone back to the address
screen, for every interleaving of the frames of `ui_loop` with the main thread.
-/

namespace Ui
namespace Cancellation

/-
What a run says about the attempts: whether Circle has cancelled the one in progress, whether Connect has
been pressed since it began, whether a cancelled attempt has broken its promise, the address at the last
Connect, and the one at the Connect that began the attempt.
-/
structure History where
  cancelled : Bool
  repressed : Bool
  broken : Bool
  pressed : List UInt8
  begunWith : List UInt8

/- The main thread has taken a statement, and an attempt begins if it is about to take the address. -/
def History.noteMain (h : History) (p : Phase) (forbidden : Bool) : History :=
  if p = .starting then
    { h with
      cancelled := false
      repressed := false
      begunWith := h.pressed }
  else
    { h with broken := h.broken || (h.cancelled && forbidden) }

def History.note (s : System) (e : Event) (t : System) (h : History) : History :=
  match e with
  | .main _ => h.noteMain t.main.pc.phase s.main.pc.forbidden
  | .ui _ _ =>
    match s.ui.nextAction with
    | some .cancel => { h with cancelled := h.cancelled || s.main.pc.inAttempt }
    | some .connect =>
      { h with
        repressed := h.repressed || s.main.pc.inAttempt
        pressed := s.shared.targetIp }
    | _ => h
  | _ => h

def machine (targetIp : List UInt8) : Transition.Machine (System × History) Event :=
  (threads targetIp).instrument ⟨false, false, false, targetIp, targetIp⟩ History.note

/- The history does not restrict the threads. -/
theorem exists_history_iff (targetIp : List UInt8) (events : List Event) (s : System)
    : (∃ h, (machine targetIp).run events = some ⟨s, h⟩) ↔ (threads targetIp).run events = some s := by
  apply Transition.Machine.instrument_runFrom_iff

/- Whether a Connect still waits for its attempt to take the address. -/
def awaiting (s : System) (h : History) : Bool :=
  (s.shared.uiState = .pairing && (s.main.pc.phase = .idle || h.repressed))
    || (s.main.pc.phase = .starting && !h.cancelled)

/-
The steps that come in time: Circle comes before the attempt is committed, a cancelled attempt does not
take one of the ways that commit it, and the keyboard leaves an address alone that an attempt is about
to take.
-/
def InTime (s : System × History) (e : Event) : Prop :=
  match e with
  | .main o => s.snd.cancelled = true → s.fst.main.commits s.fst.shared o = false
  | .ui _ _ => s.fst.ui.nextAction = some .cancel → s.fst.main.pc.phase.committed = false
  | .oskDone address => awaiting s.fst s.snd = true → address = s.fst.shared.targetIp
  | _ => True

instance (s : System × History) (e : Event) : Decidable (InTime s e) := by
  unfold InTime
  split
  all_goals infer_instance

/-
What holds of an attempt in the given phase: nothing forbidden lies ahead of it once it is cancelled, and
it is about the address that was configured when Connect was pressed for it.
-/
structure Inv (p : Phase) (uiState : UiState) (targetIp address : List UInt8) (h : History)
    : Prop where
  quiet : h.broken = false
  uncommitted : h.cancelled = true → p.committed = false
  pressed : uiState = .pairing → p = .idle ∨ h.repressed = true → h.pressed = targetIp
  starting : p = .starting → h.cancelled = false → h.begunWith = targetIp
  begun : p ≠ .idle → p ≠ .starting → h.cancelled = false → address = h.begunWith
  listed : p = .selecting ∨ p = .launching → h.repressed = false → uiState ≠ .pairing

theorem Inv.next {p p' : Phase} {uiState uiState' : UiState} {targetIp address : List UInt8}
    {h : History} {commits forbidden : Bool} (hinv : Inv p uiState targetIp address h)
    (hnext : Phase.Next uiState commits p p' uiState')
    (hok : h.cancelled = true → commits = false) (hforbidden : forbidden = true → p.committed = true)
    : Inv p' uiState' targetIp (if p = .starting then targetIp else address)
        (h.noteMain p' forbidden) := by
  unfold History.noteMain
  cases Classical.em (p' = .starting) with
  | inl hp' =>
    rw [if_pos hp']
    rw [hp'] at hnext ⊢
    have ⟨hp, hpairing, _⟩ := hnext.starting
    refine ⟨hinv.quiet, ?_, ?_, ?_, ?_, ?_⟩
    . simp
    . simp
    . intro _ _
      apply hinv.pressed hpairing (Or.inl hp)
    . simp
    . simp
  | inr hp' =>
    rw [if_neg hp']
    refine ⟨?_, ?_, ?_, ?_, ?_, ?_⟩
    . rw [hinv.quiet, Bool.false_or, Bool.and_eq_false_imp]
      intro hcancelled
      rw [Bool.eq_false_iff]
      intro hf
      have hcommitted := hforbidden hf
      rw [hinv.uncommitted hcancelled] at hcommitted
      simp at hcommitted
    . intro hcancelled
      rw [Bool.eq_false_iff]
      intro hcommitted
      cases hnext.commits_of_committed hcommitted with
      | inl hbefore =>
        rw [hinv.uncommitted hcancelled] at hbefore
        simp at hbefore
      | inr hcommits =>
        rw [hok hcancelled] at hcommits
        simp at hcommits
    . intro hstate hp
      rw [hstate] at hnext
      have ⟨hbefore, hidle⟩ := hnext.pairing
      cases hrepressed : h.repressed with
      | true => exact hinv.pressed hbefore (Or.inr hrepressed)
      | false =>
        have hp : p' = .idle := by
          simpa [hrepressed] using hp
        cases hidle hp with
        | inl hidle => exact hinv.pressed hbefore (Or.inl hidle)
        | inr hselecting => exact absurd hbefore (hinv.listed (Or.inl hselecting) hrepressed)
    . intro hstarting
      exact absurd hstarting hp'
    . intro hidle hstarting hcancelled
      have hbegun := hnext.begun hidle hstarting
      split
      . next hp => exact (hinv.starting hp hcancelled).symm
      . next hp => exact hinv.begun hbegun hp hcancelled
    . intro hp hrepressed hstate
      rw [hstate] at hnext
      apply hinv.listed (hnext.listed_or hp) hrepressed hnext.pairing.left

def SystemInv (s : System × History) : Prop :=
  Inv s.fst.main.pc.phase s.fst.shared.uiState s.fst.shared.targetIp s.fst.main.address s.snd

theorem main_inv {s : System} {h : History} {o : Outcome} {shared : Shared} {main : MainThread}
    (hinv : SystemInv ⟨s, h⟩) (hok : InTime ⟨s, h⟩ (.main o))
    (hstep : s.main.step s.shared o = some ⟨shared, main⟩)
    : SystemInv ⟨{ s with shared := shared, main := main },
        h.note s (.main o) { s with shared := shared, main := main }⟩ := by
  have ⟨hshared, hpc, haddress⟩ := MainThread.step_eq_some hstep
  have hnext := s.main.next_phase s.shared o
  have htarget := s.main.effect_targetIp s.shared
  rw [← hshared, ← hpc] at hnext
  rw [← hshared] at htarget
  simp only [← MainPc.phase_starting] at haddress
  unfold SystemInv History.note
  dsimp only
  rw [htarget, haddress]
  apply Inv.next hinv hnext hok
  apply MainPc.committed_of_forbidden

/- What the screens do while an attempt stays where it is. -/
theorem ui_inv {s : System} {h : History} {pad : Pad} {osk : Bool} {shared : Shared} {ui : UiThread}
    (hinv : SystemInv ⟨s, h⟩) (hok : InTime ⟨s, h⟩ (.ui pad osk))
    (hstep : s.ui.step s.shared pad osk = some ⟨shared, ui⟩)
    : SystemInv ⟨{ s with shared := shared, ui := ui },
        h.note s (.ui pad osk) { s with shared := shared, ui := ui }⟩ := by
  have ⟨hshared, _⟩ := UiThread.step_eq_some hstep
  have htarget := s.ui.effect_targetIp s.shared osk
  rw [← hshared] at htarget
  have hpairing : shared.uiState = .pairing
      → s.shared.uiState = .pairing ∨ s.ui.nextAction = some .connect := by
    rw [hshared]
    apply UiThread.effect_pairing
  unfold SystemInv History.note
  dsimp only
  rw [htarget]
  split
  . next hcancel =>
    have hstate : shared.uiState = .pairing → s.shared.uiState = .pairing := by
      simpa [hcancel] using hpairing
    refine ⟨hinv.quiet, ?_, ?_, ?_, ?_, ?_⟩
    . intro _
      exact hok hcancel
    . intro h' hp
      apply hinv.pressed (hstate h') hp
    . intro hp hcancelled
      rw [Bool.or_eq_false_iff] at hcancelled
      apply hinv.starting hp hcancelled.left
    . intro hidle hstarting hcancelled
      rw [Bool.or_eq_false_iff] at hcancelled
      apply hinv.begun hidle hstarting hcancelled.left
    . intro hp hrepressed h'
      apply hinv.listed hp hrepressed (hstate h')
  . refine ⟨hinv.quiet, hinv.uncommitted, fun _ _ => rfl, hinv.starting, hinv.begun, ?_⟩
    intro hp hrepressed
    rw [Bool.or_eq_false_iff] at hrepressed
    have hidle : s.main.pc.phase = .idle := by
      simpa [MainPc.inAttempt] using hrepressed.right
    simp [hidle] at hp
  . next hcancel hconnect =>
    have hstate : shared.uiState = .pairing → s.shared.uiState = .pairing := by
      intro h'
      cases hpairing h' with
      | inl hbefore => exact hbefore
      | inr haction => exact absurd haction hconnect
    refine ⟨hinv.quiet, hinv.uncommitted, ?_, hinv.starting, hinv.begun, ?_⟩
    . intro h' hp
      apply hinv.pressed (hstate h') hp
    . intro hp hrepressed h'
      apply hinv.listed hp hrepressed (hstate h')

theorem callback_inv {s : System} {h : History} {shared : Shared} (hinv : SystemInv ⟨s, h⟩)
    (hstate : shared.uiState = s.shared.uiState)
    (htarget : awaiting s h = true → shared.targetIp = s.shared.targetIp)
    : SystemInv ⟨{ s with shared := shared }, h⟩ := by
  unfold awaiting at htarget
  unfold SystemInv
  dsimp only
  rw [hstate]
  refine ⟨hinv.quiet, hinv.uncommitted, ?_, ?_, hinv.begun, hinv.listed⟩
  . intro hpairing hp
    rw [htarget (by simpa [hpairing] using Or.inl hp)]
    apply hinv.pressed hpairing hp
  . intro hp hcancelled
    rw [htarget (by simp [hp, hcancelled])]
    apply hinv.starting hp hcancelled

theorem step_inv {targetIp : List UInt8} {s t : System × History} {e : Event} (hinv : SystemInv s)
    (hok : InTime s e) (hstep : (machine targetIp).step s e = some t)
    : SystemInv t := by
  unfold machine threads at hstep
  rw [Transition.Machine.instrument_step_eq_some] at hstep
  have ⟨hstep, hnote⟩ := hstep
  rcases s with ⟨s, h⟩
  rcases t with ⟨t, h'⟩
  dsimp only at hstep hnote
  rw [hnote]
  cases e with
  | main o =>
    rw [System.step, Option.map_eq_some_iff] at hstep
    have ⟨⟨shared, main⟩, hmain, ht⟩ := hstep
    rw [← ht]
    apply main_inv hinv hok hmain
  | ui pad osk =>
    rw [System.step, Option.map_eq_some_iff] at hstep
    have ⟨⟨shared, ui⟩, hui, ht⟩ := hstep
    rw [← ht]
    apply ui_inv hinv hok hui
  | oskDone address =>
    unfold System.step at hstep
    dsimp only at hstep
    split at hstep
    . injection hstep with ht
      rw [← ht]
      exact callback_inv hinv rfl hok
    . simp at hstep
  | oskUnloaded =>
    unfold System.step at hstep
    dsimp only at hstep
    split at hstep
    . injection hstep with ht
      rw [← ht]
      exact callback_inv hinv rfl (fun _ => rfl)
    . simp at hstep
  | exitDialog yes =>
    unfold System.step at hstep
    dsimp only at hstep
    split at hstep
    . injection hstep with ht
      rw [← ht]
      exact callback_inv hinv rfl (fun _ => rfl)
    . simp at hstep
  | exitGame =>
    injection hstep with ht
    rw [← ht]
    exact callback_inv hinv rfl (fun _ => rfl)

theorem start_inv (targetIp : List UInt8) : SystemInv (machine targetIp).init := by
  have hidle : (machine targetIp).init.fst.main.pc.phase = .idle := by rfl
  refine ⟨rfl, ?_, ?_, ?_, ?_, ?_⟩
  . intro hcancelled
    rfl
  . intro _ _
    rfl
  . simp [hidle]
  . simp [hidle]
  . simp [hidle]

/-
No cancelled attempt gets to a forbidden statement, and an attempt that is not cancelled is about the
address at the Connect that began it.
-/
structure Honoured (s : System × History) : Prop where
  quiet : s.snd.broken = false
  fresh : s.fst.main.pc.phase ≠ .idle → s.fst.main.pc.phase ≠ .starting → s.snd.cancelled = false
    → s.fst.main.address = s.snd.begunWith

theorem SystemInv.honoured {s : System × History} (h : SystemInv s) : Honoured s := by
  exact ⟨h.quiet, h.begun⟩

theorem machine_step_main (targetIp : List UInt8) {s : System × History} (o : Outcome)
    (h : s.fst.main.pc ≠ .terminated)
    : (machine targetIp).step s (.main o)
        =
      some
        ⟨{ s.fst with
            shared := s.fst.main.effect s.fst.shared
            main :=
              { s.fst.main.load s.fst.shared o with pc := s.fst.main.target s.fst.shared o } },
          s.snd.noteMain (s.fst.main.target s.fst.shared o).phase s.fst.main.pc.forbidden⟩ := by
  simp [machine, threads, Transition.Machine.instrument, System.step, MainThread.step, h, History.note]

/-
A Connect that the main thread finds begins an attempt of its own, with the address at that Connect.
-/
theorem connect_begins_attempt {targetIp : List UInt8} {s : System × History} (hinv : SystemInv s)
    (hpc : s.fst.main.pc = .running) (hrunning : s.fst.shared.uiRunning = true)
    (hpairing : s.fst.shared.uiState = .pairing)
    : ∃ t, (machine targetIp).runFrom s (List.replicate 3 (.main .ok)) = some t
        ∧ t.fst.main.pc.inAttempt = true ∧ t.snd.cancelled = false
        ∧ t.fst.main.address = s.snd.pressed := by
  have hpressed := hinv.pressed hpairing (by simp [hpc, MainPc.phase])
  simp only [List.replicate, Transition.Machine.runFrom_cons, Transition.Machine.runFrom_nil]
  simp [machine_step_main, hpc, hrunning, hpairing, hpressed, MainThread.target, MainThread.effect,
    MainThread.load, History.noteMain, MainPc.phase, MainPc.inAttempt]

/-
The other way round: what is not in time leads to a forbidden statement, if the main thread just goes
on.
-/

theorem committed_attempt_breaks {targetIp : List UInt8} (n : Nat) {s : System × History}
    (hcancelled : s.snd.cancelled = true) (hcommitted : s.fst.main.pc.phase.committed = true)
    (hleft : s.fst.main.pc.left = n)
    : ∃ t, (machine targetIp).runFrom s (List.replicate (n + 1) (.main .ok)) = some t
        ∧ t.snd.broken = true := by
  induction n generalizing s with
  | zero =>
    have hforbidden := MainPc.forbidden_of_left hcommitted hleft
    have hstarting := MainThread.target_of_forbidden s.fst.shared hforbidden
    rw [List.replicate_one, Transition.Machine.runFrom_cons,
      machine_step_main _ _ (MainPc.ne_of_committed hcommitted).left]
    simp [History.noteMain, hstarting, hcancelled, hforbidden]
  | succ n ih =>
    have ⟨hnext, hcommitted'⟩ := MainThread.left_target s.fst.shared hleft
    have hstarting := (MainPc.ne_of_committed hcommitted').right.left
    rw [List.replicate_succ, Transition.Machine.runFrom_cons,
      machine_step_main _ _ (MainPc.ne_of_committed hcommitted).left, Option.bind_some]
    apply ih
    . simp [History.noteMain, hstarting, hcancelled]
    . exact hcommitted'
    . exact hnext

/-
Circle in a committed phase, and a cancelled attempt that takes one of the ways into them.
-/
theorem late_step_breaks {targetIp : List UInt8} {s t : System × History} {e : Event}
    (hstep : (machine targetIp).step s e = some t) (hlate : ¬InTime s e)
    (hosk : ∀ address, e ≠ .oskDone address)
    : ∃ n u, (machine targetIp).runFrom t (List.replicate n (.main .ok)) = some u
        ∧ u.snd.broken = true := by
  obtain ⟨hcancelled, hcommitted⟩ : t.snd.cancelled = true
      ∧ t.fst.main.pc.phase.committed = true := by
    cases e with
    | main o =>
      rw [InTime, Classical.not_imp, Bool.not_eq_false] at hlate
      have hcommitted := MainThread.committed_of_commits hlate.right
      have hpc : s.fst.main.pc ≠ .terminated := by
        intro hpc
        simp [hpc, MainThread.commits] at hlate
      rw [machine_step_main _ _ hpc, Option.some.injEq] at hstep
      rw [← hstep]
      have hstarting := (MainPc.ne_of_committed hcommitted).right.left
      refine ⟨?_, hcommitted⟩
      simp [History.noteMain, hstarting, hlate.left]
    | ui pad osk =>
      rw [InTime, Classical.not_imp, Bool.not_eq_false] at hlate
      have hattempt := (MainPc.ne_of_committed hlate.right).right.right
      unfold machine threads at hstep
      rw [Transition.Machine.instrument_step_eq_some] at hstep
      obtain ⟨hstep, hnote⟩ := hstep
      simp only [System.step, Option.map_eq_some_iff] at hstep
      obtain ⟨_, _, ht⟩ := hstep
      rw [hnote, ← ht]
      refine ⟨?_, hlate.right⟩
      simp [History.note, hlate.left, hattempt]
    | oskDone address => exact absurd rfl (hosk address)
    | _ => exact absurd trivial hlate
  exact ⟨_, committed_attempt_breaks _ hcancelled hcommitted rfl⟩

/-
In every run whose steps come in time, a cancelled attempt never gets to a forbidden statement, and the
next Connect begins an attempt of its own with the address at that Connect.
-/
theorem cancellation_honoured (targetIp : List UInt8) (events : List Event) (t : System × History)
    (hrun : (machine targetIp).run events = some t)
    (hmeet : (machine targetIp).StepsMeet InTime (machine targetIp).init events)
    : Honoured t
        ∧
      (t.fst.main.pc = .running → t.fst.shared.uiRunning = true → t.fst.shared.uiState = .pairing
        → ∃ u, (machine targetIp).runFrom t (List.replicate 3 (.main .ok)) = some u
          ∧ u.fst.main.pc.inAttempt = true ∧ u.snd.cancelled = false
          ∧ u.fst.main.address = t.snd.pressed) := by
  have hinv := Transition.Machine.runFrom_invariant_of_stepsMeet (machine targetIp) InTime SystemInv
    (fun s e u => step_inv) _ t events (start_inv targetIp) hmeet hrun
  constructor
  . exact hinv.honoured
  . intro hpc hrunning hpairing
    apply connect_begins_attempt hinv hpc hrunning hpairing

/- A frame in which START or Circle is pressed, up to the write of `ui_state`. -/
def frame (pad : Pad) (statements : Nat) : List Event :=
  List.replicate statements (.ui pad true)

def startPad : Pad := { noButtons with play := true }

def circlePad : Pad := { noButtons with b := true }

/- From START to the request for the app list, with a host that is paired. -/
def untilAppList : List Event :=
  frame startPad 5 ++ List.replicate 13 (.main .ok)

/-
Circle while the host answers the request for the server info, and START again once the attempt is over.
-/
def cancelledInTime : List Event :=
  frame startPad 5 ++ List.replicate 10 (.main .ok) ++ frame circlePad 10 ++ [.main .fail, .main .ok]
    ++ frame startPad 8

theorem cancellation_honoured_server_info
    : ∃ t, (machine [49]).run cancelledInTime = some t ∧ t.snd.cancelled = true
        ∧ t.snd.broken = false
        ∧ ∃ u, (machine [49]).runFrom t (List.replicate 3 (.main .ok)) = some u
          ∧ u.snd.cancelled = false ∧ u.fst.main.address = [49] := by
  have ⟨t, hrun, hcancelled, hpc, hrunning, hpairing, hpressed⟩ : ∃ t,
      (machine [49]).run cancelledInTime = some t ∧ t.snd.cancelled = true
        ∧ t.fst.main.pc = .running ∧ t.fst.shared.uiRunning = true
        ∧ t.fst.shared.uiState = .pairing ∧ t.snd.pressed = [49] := by
    exact ⟨_, rfl, rfl, rfl, rfl, rfl, rfl⟩
  have h := cancellation_honoured [49] cancelledInTime t hrun (by decide)
  have ⟨u, hu, _, hfresh, haddress⟩ := h.right hpc hrunning hpairing
  rw [hpressed] at haddress
  exact ⟨t, hrun, hcancelled, h.left.quiet, u, hu, hfresh, haddress⟩

/-
Circle while the host answers the request for the app list: the list is shown all the same.
-/
theorem cancelled_attempt_shows_app_list
    : ¬ ∀ (targetIp : List UInt8) (events : List Event) (t : System × History),
        (machine targetIp).run events = some t → Honoured t := by
  intro hclaim
  have ⟨t, hrun, hbroken⟩ : ∃ t,
      (machine []).run (untilAppList ++ frame circlePad 10
        ++ .main (.apps [⟨1, []⟩]) :: List.replicate 5 (.main .ok)) = some t
        ∧ t.snd.broken = true := by
    exact ⟨_, rfl, rfl⟩
  have h := hclaim [] _ t hrun
  rw [h.quiet] at hbroken
  simp at hbroken

end Cancellation
end Ui

import PS3Moonlight.Audio.Channels
import PS3Moonlight.Lib.Ledger
import PS3Moonlight.Lib.Transition
import Mathlib.Data.List.Nodup

/-!
This module contains the resources of `ps3_renderer_init` and `ps3_renderer_cleanup`: every step of the
initialization undoes the ones before it on its own, with one of two decoders among them.
-/

namespace Audio
namespace Setup

inductive Resource where
  | library
  | mutex
  | spuOpus
  | opusDecoder
  | port
  | queue
  | registration
  | transmission
  | thread
  deriving DecidableEq

/- The variables of `audio.c`, next to the ledger of what is really held. -/
structure State where
  gUseSpuOpus : Bool
  opusDecoder : Bool
  activeAudioThread : Bool
  audioThreadStarted : Bool
  audioSystemInitialized : Bool
  ledger : Ledger Resource

def initialState : State where
  gUseSpuOpus := false
  opusDecoder := false
  activeAudioThread := false
  audioThreadStarted := false
  audioSystemInitialized := false
  ledger := .empty

structure OpusConfig where
  sampleRate : Int
  channelCount : Int
  streams : Int

/- The software decoder or `NULL`, which comes with an error and never without. -/
structure Created where
  decoder : Bool
  error : Int
  decoder_eq : decoder = decide (error = 0)

/- What the calls of one initialization answer. -/
structure Outcomes where
  audioInit : Int
  sysMutexCreate : Int
  spuOpusInit : Int
  opusMultistreamDecoderCreate : Created
  audioPortOpen : Int
  audioGetPortConfig : Int
  audioCreateNotifyEventQueue : Int
  audioSetNotifyEventQueue : Int
  audioPortStart : Int
  sysThreadCreate : Int

def supported (opusConfig : Option OpusConfig) : Bool :=
  match opusConfig with
  | none => false
  | some c => c.sampleRate = 48000 && c.channelCount = audioChannels && 0 < c.streams

namespace State

def acquire (s : State) (r : Resource) : State :=
  { s with ledger := s.ledger.acquire r }

/- One release of an unwinding. The decoders and the thread have a flag or a pointer that is looked at. -/
def drop (s : State) (r : Resource) : State :=
  match r with
  | .spuOpus =>
    if s.gUseSpuOpus then
      { s with gUseSpuOpus := false, ledger := s.ledger.release .spuOpus }
    else
      s
  | .opusDecoder =>
    if s.opusDecoder then
      { s with opusDecoder := false, ledger := s.ledger.release .opusDecoder }
    else
      s
  | .thread =>
    if s.audioThreadStarted then
      { s with audioThreadStarted := false, ledger := s.ledger.release .thread }
    else
      s
  | r => { s with ledger := s.ledger.release r }

def unwind (s : State) (rs : List Resource) : State :=
  rs.foldl drop s

end State

def ps3RendererCleanup (s : State) : State :=
  if !s.audioSystemInitialized then
    s
  else
    let s := { s with activeAudioThread := false }
    let s := s.unwind [.thread, .transmission, .registration, .port, .queue, .mutex, .spuOpus,
      .opusDecoder, .library]
    { s with audioSystemInitialized := false }

def ps3audioStop (s : State) : State :=
  ps3RendererCleanup s

/- The decoder on the SPU, and only without it the one in software. -/
def createDecoder (o : Outcomes) (s : State) : State × Bool :=
  if o.spuOpusInit = 0 then
    ⟨{ s.acquire .spuOpus with gUseSpuOpus := true }, true⟩
  else
    let s := { s with gUseSpuOpus := false }
    let created := o.opusMultistreamDecoderCreate
    let s :=
      if created.decoder then
        { s.acquire .opusDecoder with opusDecoder := true }
      else
        { s with opusDecoder := false }
    ⟨s, !(!created.decoder || created.error ≠ 0)⟩

/- The last step of `ps3_renderer_init`, for which the flag of the thread is set in advance. -/
def startThread (o : Outcomes) (s : State) : State × Int :=
  let s := { s with activeAudioThread := true }
  if o.sysThreadCreate ≠ 0 then
    let s := { s with activeAudioThread := false }
    ⟨s.unwind [.transmission, .registration, .queue, .port, .spuOpus, .opusDecoder, .mutex,
      .library], -1⟩
  else
    ⟨{ s.acquire .thread with audioThreadStarted := true, audioSystemInitialized := true }, 0⟩

/- What `ps3_renderer_init` does once there is a decoder. -/
def startPlayback (o : Outcomes) (s : State) : State × Int :=
  if o.audioPortOpen ≠ 0 then
    ⟨s.unwind [.spuOpus, .opusDecoder, .mutex, .library], -1⟩
  else
    let s := s.acquire .port
    if o.audioGetPortConfig ≠ 0 then
      ⟨s.unwind [.port, .spuOpus, .opusDecoder, .mutex, .library], -1⟩
    else if o.audioCreateNotifyEventQueue ≠ 0 then
      ⟨s.unwind [.port, .spuOpus, .opusDecoder, .mutex, .library], -1⟩
    else
      let s := s.acquire .queue
      if o.audioSetNotifyEventQueue ≠ 0 then
        -- the queue is removed although it is not registered
        ⟨s.unwind [.registration, .queue, .port, .spuOpus, .opusDecoder, .mutex, .library], -1⟩
      else
        let s := s.acquire .registration
        if o.audioPortStart ≠ 0 then
          ⟨s.unwind [.registration, .queue, .port, .spuOpus, .opusDecoder, .mutex, .library], -1⟩
        else
          startThread o (s.acquire .transmission)

def ps3RendererInit (opusConfig : Option OpusConfig) (o : Outcomes) (s : State) : State × Int :=
  if !supported opusConfig then
    ⟨s, -1⟩
  else if o.audioInit ≠ 0 then
    ⟨s, -1⟩
  else
    let s := s.acquire .library
    if o.sysMutexCreate ≠ 0 then
      ⟨s.unwind [.library], -1⟩
    else
      let s := s.acquire .mutex
      let r := createDecoder o s
      if !r.snd then
        ⟨r.fst.unwind [.mutex, .library], -1⟩
      else
        startPlayback o r.fst

/-
What is held at a point of the initialization, and the flags that go with it.
-/

structure Owns (s : State) (rs : List Resource) : Prop where
  agrees : s.ledger.Agrees {r | r ∈ rs}
  gUseSpuOpus : s.gUseSpuOpus = decide (.spuOpus ∈ rs)
  opusDecoder : s.opusDecoder = decide (.opusDecoder ∈ rs)
  audioThreadStarted : s.audioThreadStarted = decide (.thread ∈ rs)

/- A resource with a flag or a pointer of its own. -/
def flagged (r : Resource) : Bool :=
  match r with
  | .spuOpus => true
  | .opusDecoder => true
  | .thread => true
  | _ => false

section

variable {s : State} {rs : List Resource} {r : Resource}

def State.flag (s : State) (r : Resource) : Bool :=
  match r with
  | .spuOpus => s.gUseSpuOpus
  | .opusDecoder => s.opusDecoder
  | .thread => s.audioThreadStarted
  | _ => false

theorem flag_drop (s : State) (r r' : Resource)
    : (s.drop r).flag r' = if r' = r then false else s.flag r' := by
  cases r with
  | spuOpus =>
    simp only [State.drop]
    split
    . cases r' with
      | _ => rfl
    . next hoff =>
      cases r' with
      | spuOpus => simpa [State.flag] using hoff
      | _ => rfl
  | opusDecoder =>
    simp only [State.drop]
    split
    . cases r' with
      | _ => rfl
    . next hoff =>
      cases r' with
      | opusDecoder => simpa [State.flag] using hoff
      | _ => rfl
  | thread =>
    simp only [State.drop]
    split
    . cases r' with
      | _ => rfl
    . next hoff =>
      cases r' with
      | thread => simpa [State.flag] using hoff
      | _ => rfl
  | _ =>
    cases r' with
    | _ => rfl

theorem ledger_drop (h : flagged r = true → s.flag r = true)
    : (s.drop r).ledger = s.ledger.release r := by
  cases r with
  | spuOpus => exact congrArg State.ledger (if_pos (h rfl))
  | opusDecoder => exact congrArg State.ledger (if_pos (h rfl))
  | thread => exact congrArg State.ledger (if_pos (h rfl))
  | _ => rfl

theorem drop_eq_self (h : flagged r = true) (hoff : s.flag r = false) : s.drop r = s := by
  have hnot : ¬ s.flag r = true := by
    rw [hoff]
    decide
  cases r with
  | spuOpus => exact if_neg hnot
  | opusDecoder => exact if_neg hnot
  | thread => exact if_neg hnot
  | _ => contradiction

theorem Owns.flag (h : Owns s rs) (hflagged : flagged r = true) : s.flag r = decide (r ∈ rs) := by
  cases r with
  | spuOpus => exact h.gUseSpuOpus
  | opusDecoder => exact h.opusDecoder
  | thread => exact h.audioThreadStarted
  | _ => contradiction

theorem owns_of_flag (hagrees : s.ledger.Agrees {r | r ∈ rs})
    (hflag : ∀ r, flagged r = true → s.flag r = decide (r ∈ rs))
    : Owns s rs where
  agrees := hagrees
  gUseSpuOpus := hflag .spuOpus rfl
  opusDecoder := hflag .opusDecoder rfl
  audioThreadStarted := hflag .thread rfl

theorem owns_acquire (h : Owns s rs) (hr : r ∉ rs) (hplain : flagged r = false)
    : Owns (s.acquire r) (r :: rs) := by
  apply owns_of_flag (h.agrees.acquire_cons hr)
  intro r' hflagged
  have hne : r' ≠ r := by
    intro heq
    rw [heq, hplain] at hflagged
    contradiction
  have hsame : (s.acquire r).flag r' = s.flag r' := rfl
  rw [hsame, h.flag hflagged]
  simp [hne]

theorem filter_of_not_mem (hr : r ∉ rs) : rs.filter (· ≠ r) = rs := by
  rw [List.filter_eq_self]
  intro r' hr'
  have hne : r' ≠ r := fun heq => hr (heq ▸ hr')
  simpa using hne

/- A flagged resource that is not there is left alone. -/
theorem owns_drop (h : Owns s rs) (hr : r ∈ rs ∨ flagged r = true)
    : Owns (s.drop r) (rs.filter (· ≠ r)) ∧ (s.drop r).ledger.faults = s.ledger.faults := by
  cases Decidable.em (r ∈ rs) with
  | inl hmem =>
    have hledger : (s.drop r).ledger = s.ledger.release r := by
      apply ledger_drop
      intro hflagged
      rw [h.flag hflagged]
      simpa using hmem
    constructor
    . apply owns_of_flag
      . rw [hledger]
        exact h.agrees.release_filter hmem
      . intro r' hflagged
        rw [flag_drop, h.flag hflagged]
        split
        . next heq => simp [heq]
        . next hne => simp [hne]
    . rw [hledger]
      exact h.agrees.faults_release hmem
  | inr hout =>
    have hflagged := hr.resolve_left hout
    have hoff : s.flag r = false := by
      rw [h.flag hflagged]
      simpa using hout
    rw [drop_eq_self hflagged hoff, filter_of_not_mem hout]
    exact ⟨h, rfl⟩

/- An unwinding that leaves nothing behind and releases nothing that is not there. -/
structure Undoes (ds rs : List Resource) : Prop where
  nodup : ds.Nodup
  held : ∀ d, d ∈ ds → d ∈ rs ∨ flagged d = true
  all : ∀ r, r ∈ rs → r ∈ ds

instance (ds rs : List Resource) : Decidable (Undoes ds rs) :=
  decidable_of_iff
    (ds.Nodup ∧ (∀ d, d ∈ ds → d ∈ rs ∨ flagged d = true) ∧ ∀ r, r ∈ rs → r ∈ ds)
    ⟨fun h => ⟨h.left, h.right.left, h.right.right⟩, fun h => ⟨h.nodup, h.held, h.all⟩⟩

theorem owns_unwind {ds : List Resource} (h : Owns s rs) (hundoes : Undoes ds rs)
    : Owns (s.unwind ds) [] ∧ (s.unwind ds).ledger.faults = s.ledger.faults := by
  induction ds generalizing s rs with
  | nil =>
    have hnil : rs = [] := by
      rw [List.eq_nil_iff_forall_not_mem]
      intro r hr
      exact List.not_mem_nil (hundoes.all r hr)
    rw [hnil] at h
    exact ⟨h, rfl⟩
  | cons d ds ih =>
    have hnodup := List.nodup_cons.mp hundoes.nodup
    have ⟨hdrop, hfaults⟩ := owns_drop h (hundoes.held d List.mem_cons_self)
    have hrest : Undoes ds (rs.filter (· ≠ d)) := by
      refine ⟨hnodup.right, ?_, ?_⟩
      . intro d' hd'
        have hne : d' ≠ d := fun heq => hnodup.left (heq ▸ hd')
        cases hundoes.held d' (List.mem_cons_of_mem _ hd') with
        | inl hmem => exact Or.inl (List.mem_filter.mpr ⟨hmem, by simpa using hne⟩)
        | inr hflagged => exact Or.inr hflagged
      . intro r hr
        have ⟨hmem, hne⟩ := List.mem_filter.mp hr
        exact (List.mem_cons.mp (hundoes.all r hmem)).resolve_left (by simpa using hne)
    have ⟨howns, hsame⟩ := ih hdrop hrest
    refine ⟨howns, ?_⟩
    rw [← hfaults, ← hsame]
    rfl

/- The other two flags are not touched. -/
theorem drop_others (s : State) (r : Resource)
    : (s.drop r).activeAudioThread = s.activeAudioThread
        ∧ (s.drop r).audioSystemInitialized = s.audioSystemInitialized := by
  unfold State.drop
  split
  . split
    . exact ⟨rfl, rfl⟩
    . exact ⟨rfl, rfl⟩
  . split
    . exact ⟨rfl, rfl⟩
    . exact ⟨rfl, rfl⟩
  . split
    . exact ⟨rfl, rfl⟩
    . exact ⟨rfl, rfl⟩
  . exact ⟨rfl, rfl⟩

theorem unwind_others (s : State) (ds : List Resource)
    : (s.unwind ds).activeAudioThread = s.activeAudioThread
        ∧ (s.unwind ds).audioSystemInitialized = s.audioSystemInitialized := by
  induction ds generalizing s with
  | nil => exact ⟨rfl, rfl⟩
  | cons d ds ih =>
    have ⟨hactive, hinitialized⟩ := ih (s.drop d)
    have hdrop := drop_others s d
    rw [hdrop.left] at hactive
    rw [hdrop.right] at hinitialized
    exact ⟨hactive, hinitialized⟩

/-
The initialization and the cleanup.
-/

structure Released (s : State) : Prop where
  held : ∀ r, s.ledger.held r = 0
  gUseSpuOpus : s.gUseSpuOpus = false
  opusDecoder : s.opusDecoder = false
  activeAudioThread : s.activeAudioThread = false
  audioThreadStarted : s.audioThreadStarted = false
  audioSystemInitialized : s.audioSystemInitialized = false

/- Everything once, and of the decoders the one that is in use. -/
structure HeldOnce (s : State) : Prop where
  held : ∀ r, r ≠ .spuOpus → r ≠ .opusDecoder → s.ledger.held r = 1
  spuOpus : s.ledger.held .spuOpus = if s.gUseSpuOpus then 1 else 0
  opusDecoder : s.ledger.held .opusDecoder = if s.gUseSpuOpus then 0 else 1
  pointer : s.opusDecoder = !s.gUseSpuOpus
  activeAudioThread : s.activeAudioThread = true
  audioThreadStarted : s.audioThreadStarted = true
  audioSystemInitialized : s.audioSystemInitialized = true

/- What is held behind a successful initialization, with the one decoder or the other. -/
def everything (decoder : Resource) : List Resource :=
  [.thread, .transmission, .registration, .queue, .port, decoder, .mutex, .library]

def IsDecoder (r : Resource) : Prop :=
  r = .spuOpus ∨ r = .opusDecoder

/- What holds of the one decoder and of the other. -/
theorem IsDecoder.elim {p : Resource → Prop} (h : IsDecoder r) (hspu : p .spuOpus)
    (hopus : p .opusDecoder)
    : p r := by
  cases h with
  | inl h =>
    rw [h]
    exact hspu
  | inr h =>
    rw [h]
    exact hopus

theorem released_of_owns (h : Owns s []) (hactive : s.activeAudioThread = false)
    (hinitialized : s.audioSystemInitialized = false)
    : Released s := by
  constructor
  . intro r
    apply h.agrees.zero
    exact List.not_mem_nil
  . rw [h.gUseSpuOpus]
    rfl
  . rw [h.opusDecoder]
    rfl
  . exact hactive
  . rw [h.audioThreadStarted]
    rfl
  . exact hinitialized

/- The state in front of the steps that are behind the decoder. -/
structure Starting (s : State) (rs : List Resource) : Prop extends Owns s rs where
  activeAudioThread : s.activeAudioThread = false
  audioSystemInitialized : s.audioSystemInitialized = false

theorem starting_acquire (h : Starting s rs) (hr : r ∉ rs) (hplain : flagged r = false)
    : Starting (s.acquire r) (r :: rs) where
  toOwns := owns_acquire h.toOwns hr hplain
  activeAudioThread := h.activeAudioThread
  audioSystemInitialized := h.audioSystemInitialized

structure Playing (s : State) (decoder : Resource) : Prop extends Owns s (everything decoder) where
  isDecoder : IsDecoder decoder
  activeAudioThread : s.activeAudioThread = true
  audioSystemInitialized : s.audioSystemInitialized = true

theorem heldOnce_of_playing (h : Playing s r) : HeldOnce s := by
  have hspu := h.gUseSpuOpus
  have hone : .opusDecoder ∈ everything r ↔ .spuOpus ∉ everything r := by
    apply h.isDecoder.elim
    . decide
    . decide
  constructor
  . intro r' hne hne'
    apply h.agrees.one
    cases r' with
    | spuOpus => contradiction
    | opusDecoder => contradiction
    | _ => simp [everything]
  . rw [h.agrees.held_eq, hspu]
    simp
  . rw [h.agrees.held_eq, hspu]
    simp [hone]
  . rw [h.opusDecoder, hspu]
    simp [hone]
  . exact h.activeAudioThread
  . rw [h.audioThreadStarted]
    simp [everything]
  . exact h.audioSystemInitialized

/- The only fault there can be is the removal of the queue that could not be registered. -/
structure InitSpec (o : Outcomes) (s : State) (r : State × Int) : Prop where
  result : r.snd = -1 ∧ Released r.fst ∨ r.snd = 0 ∧ ∃ decoder, Playing r.fst decoder
  faults : r.fst.ledger.faults = s.ledger.faults
    ∨ o.audioSetNotifyEventQueue ≠ 0 ∧ r.fst.ledger.faults = .registration :: s.ledger.faults

variable (o : Outcomes)

theorem released_unwind {ds : List Resource} (h : Starting s rs) (hundoes : Undoes ds rs)
    : Released (s.unwind ds) := by
  have ⟨howns, _⟩ := owns_unwind h.toOwns hundoes
  have ⟨hactive, hinitialized⟩ := unwind_others s ds
  apply released_of_owns howns
  . rw [hactive, h.activeAudioThread]
  . rw [hinitialized, h.audioSystemInitialized]

theorem initSpec_unwind {t : State} {ds : List Resource} (h : Starting t rs)
    (hundoes : Undoes ds rs) (hfaults : t.ledger.faults = s.ledger.faults)
    : InitSpec o s ⟨t.unwind ds, -1⟩ := by
  constructor
  . exact Or.inl ⟨rfl, released_unwind h hundoes⟩
  . left
    rw [← hfaults]
    exact (owns_unwind h.toOwns hundoes).right

/- The queue is removed without being registered, which is a fault and nothing else. -/
theorem initSpec_unregistered {t : State} {ds : List Resource} (h : Starting t rs)
    (hundoes : Undoes ds rs) (hout : .registration ∉ rs)
    (hfaults : t.ledger.faults = s.ledger.faults) (hfailed : o.audioSetNotifyEventQueue ≠ 0)
    : InitSpec o s ⟨t.unwind (.registration :: ds), -1⟩ := by
  have hledger : t.ledger.release .registration
      = { t.ledger with faults := .registration :: t.ledger.faults } := by
    unfold Ledger.release
    rw [if_pos (h.agrees.zero .registration hout)]
  have hdrop : t.drop .registration
      = { t with ledger := { t.ledger with faults := .registration :: t.ledger.faults } } := by
    rw [← hledger]
    rfl
  have hstarting : Starting (t.drop .registration) rs := by
    rw [hdrop]
    exact
      { agrees := ⟨h.agrees.one, h.agrees.zero⟩
        gUseSpuOpus := h.gUseSpuOpus
        opusDecoder := h.opusDecoder
        audioThreadStarted := h.audioThreadStarted
        activeAudioThread := h.activeAudioThread
        audioSystemInitialized := h.audioSystemInitialized }
  have hcons : t.unwind (.registration :: ds) = (t.drop .registration).unwind ds := rfl
  have ⟨_, hsame⟩ := owns_unwind hstarting.toOwns hundoes
  rw [hcons]
  constructor
  . exact Or.inl ⟨rfl, released_unwind hstarting hundoes⟩
  . right
    refine ⟨hfailed, ?_⟩
    rw [hsame, hdrop, hfaults]

theorem startThread_spec {t : State}
    (h : Starting t [.transmission, .registration, .queue, .port, r, .mutex, .library])
    (hr : IsDecoder r) (hfaults : t.ledger.faults = s.ledger.faults)
    : InitSpec o s (startThread o t) := by
  unfold startThread
  dsimp only
  split
  . have hback : Starting { t with activeAudioThread := false }
        [.transmission, .registration, .queue, .port, r, .mutex, .library] :=
      { agrees := h.agrees
        gUseSpuOpus := h.gUseSpuOpus
        opusDecoder := h.opusDecoder
        audioThreadStarted := h.audioThreadStarted
        activeAudioThread := rfl
        audioSystemInitialized := h.audioSystemInitialized }
    apply initSpec_unwind o hback _ hfaults
    apply hr.elim
    . decide
    . decide
  . have hout : .thread ∉ [.transmission, .registration, .queue, .port, r, .mutex, .library] := by
      apply hr.elim
      . decide
      . decide
    constructor
    . right
      refine ⟨rfl, r, ?_⟩
      exact
        { agrees := h.agrees.acquire_cons hout
          gUseSpuOpus := by simpa [everything, State.acquire] using h.gUseSpuOpus
          opusDecoder := by simpa [everything, State.acquire] using h.opusDecoder
          audioThreadStarted := by simp [everything]
          isDecoder := hr
          activeAudioThread := rfl
          audioSystemInitialized := rfl }
    . exact Or.inl hfaults

theorem startPlayback_spec {t : State} (h : Starting t [r, .mutex, .library]) (hr : IsDecoder r)
    (hfaults : t.ledger.faults = s.ledger.faults)
    : InitSpec o s (startPlayback o t) := by
  unfold startPlayback
  split
  . apply initSpec_unwind o h _ hfaults
    apply hr.elim
    . decide
    . decide
  . have hport : Starting (t.acquire .port) [.port, r, .mutex, .library] := by
      apply starting_acquire h _ rfl
      apply hr.elim
      . decide
      . decide
    have hundoPort : Undoes [.port, .spuOpus, .opusDecoder, .mutex, .library]
        [.port, r, .mutex, .library] := by
      apply hr.elim
      . decide
      . decide
    dsimp only
    split
    . apply initSpec_unwind o hport hundoPort hfaults
    . split
      . apply initSpec_unwind o hport hundoPort hfaults
      . have hqueue : Starting ((t.acquire .port).acquire .queue)
            [.queue, .port, r, .mutex, .library] := by
          apply starting_acquire hport _ rfl
          apply hr.elim
          . decide
          . decide
        split
        . next hfailed =>
          apply initSpec_unregistered o hqueue _ _ hfaults hfailed
          . apply hr.elim
            . decide
            . decide
          . apply hr.elim
            . decide
            . decide
        . have hregistration : Starting (((t.acquire .port).acquire .queue).acquire .registration)
              [.registration, .queue, .port, r, .mutex, .library] := by
            apply starting_acquire hqueue _ rfl
            apply hr.elim
            . decide
            . decide
          split
          . apply initSpec_unwind o hregistration _ hfaults
            apply hr.elim
            . decide
            . decide
          . have htransmission : Starting
                ((((t.acquire .port).acquire .queue).acquire .registration).acquire .transmission)
                [.transmission, .registration, .queue, .port, r, .mutex, .library] := by
              apply starting_acquire hregistration _ rfl
              apply hr.elim
              . decide
              . decide
            apply startThread_spec o htransmission hr hfaults

/- There is a decoder behind it if and only if it says so. -/
theorem createDecoder_spec (h : Starting s [.mutex, .library])
    : (createDecoder o s).fst.ledger.faults = s.ledger.faults
        ∧ ((createDecoder o s).snd = false → Starting (createDecoder o s).fst [.mutex, .library])
        ∧ ((createDecoder o s).snd = true → ∃ decoder, IsDecoder decoder
            ∧ Starting (createDecoder o s).fst [decoder, .mutex, .library]) := by
  unfold createDecoder
  split
  . refine ⟨rfl, ?_, ?_⟩
    . intro hfailed
      contradiction
    . intro _
      refine ⟨.spuOpus, Or.inl rfl, ?_⟩
      exact
        { agrees := h.agrees.acquire_cons (by decide)
          gUseSpuOpus := by simp
          opusDecoder := h.opusDecoder
          audioThreadStarted := h.audioThreadStarted
          activeAudioThread := h.activeAudioThread
          audioSystemInitialized := h.audioSystemInitialized }
  . dsimp only
    cases hcreated : o.opusMultistreamDecoderCreate.decoder with
    | false =>
      refine ⟨rfl, ?_, ?_⟩
      . intro _
        exact
          { agrees := h.agrees
            gUseSpuOpus := by simp
            opusDecoder := by simp
            audioThreadStarted := h.audioThreadStarted
            activeAudioThread := h.activeAudioThread
            audioSystemInitialized := h.audioSystemInitialized }
      . intro hsucceeded
        contradiction
    | true =>
      have herror : o.opusMultistreamDecoderCreate.error = 0 := by
        have heq := o.opusMultistreamDecoderCreate.decoder_eq
        rw [hcreated] at heq
        simpa using heq
      refine ⟨rfl, ?_, ?_⟩
      . intro hfailed
        simp [herror] at hfailed
      . intro _
        refine ⟨.opusDecoder, Or.inr rfl, ?_⟩
        exact
          { agrees := h.agrees.acquire_cons (by decide)
            gUseSpuOpus := by simp [State.acquire]
            opusDecoder := by simp
            audioThreadStarted := h.audioThreadStarted
            activeAudioThread := h.activeAudioThread
            audioSystemInitialized := h.audioSystemInitialized }

theorem owns_of_released (h : Released s) : Owns s [] where
  agrees := ⟨fun _ hr => absurd hr List.not_mem_nil, fun r _ => h.held r⟩
  gUseSpuOpus := h.gUseSpuOpus
  opusDecoder := h.opusDecoder
  audioThreadStarted := h.audioThreadStarted

theorem ps3RendererInit_spec (h : Released s) (opusConfig : Option OpusConfig)
    : InitSpec o s (ps3RendererInit opusConfig o s) := by
  have hnothing : InitSpec o s ⟨s, -1⟩ := ⟨Or.inl ⟨rfl, h⟩, Or.inl rfl⟩
  have hstarting : Starting s [] :=
    { toOwns := owns_of_released h
      activeAudioThread := h.activeAudioThread
      audioSystemInitialized := h.audioSystemInitialized }
  unfold ps3RendererInit
  split
  . exact hnothing
  . split
    . exact hnothing
    . have hlibrary := starting_acquire (r := .library) hstarting List.not_mem_nil rfl
      dsimp only
      split
      . have hsame : (s.acquire .library).ledger.faults = s.ledger.faults := rfl
        apply initSpec_unwind o hlibrary _ hsame
        decide
      . have hmutex := starting_acquire (r := .mutex) hlibrary (by decide) rfl
        have ⟨hfaults, hfailed, hsucceeded⟩ := createDecoder_spec o hmutex
        have hsame : (createDecoder o ((s.acquire .library).acquire .mutex)).fst.ledger.faults
            = s.ledger.faults := hfaults
        split
        . next hnone =>
          apply initSpec_unwind o (hfailed (by simpa using hnone)) _ hsame
          decide
        . next hsome =>
          have ⟨decoder, hdecoder, hstart⟩ := hsucceeded (by simpa using hsome)
          apply startPlayback_spec o hstart hdecoder hsame

/- Every step that the initialization needs succeeds, with one of the two decoders. -/
structure Outcomes.Complete (o : Outcomes) (opusConfig : Option OpusConfig) : Prop where
  supported : supported opusConfig = true
  library : o.audioInit = 0
  mutex : o.sysMutexCreate = 0
  decoder : o.spuOpusInit = 0 ∨ o.opusMultistreamDecoderCreate.error = 0
  port : o.audioPortOpen = 0
  portConfig : o.audioGetPortConfig = 0
  queue : o.audioCreateNotifyEventQueue = 0
  registration : o.audioSetNotifyEventQueue = 0
  transmission : o.audioPortStart = 0
  thread : o.sysThreadCreate = 0

theorem startThread_eq_zero_iff (t : State) : (startThread o t).snd = 0 ↔ o.sysThreadCreate = 0 := by
  unfold startThread
  dsimp only
  split
  . next hfailed => simp [hfailed]
  . next hthread => simpa using hthread

theorem startPlayback_eq_zero_iff (t : State)
    : (startPlayback o t).snd = 0
        ↔
      o.audioPortOpen = 0 ∧ o.audioGetPortConfig = 0 ∧ o.audioCreateNotifyEventQueue = 0
        ∧ o.audioSetNotifyEventQueue = 0 ∧ o.audioPortStart = 0 ∧ o.sysThreadCreate = 0 := by
  unfold startPlayback
  dsimp only
  split
  . next hfailed => simp [hfailed]
  . next hport =>
    split
    . next hfailed => simp [hfailed]
    . next hconfig =>
      split
      . next hfailed => simp [hfailed]
      . next hqueue =>
        split
        . next hfailed => simp [hfailed]
        . next hregistration =>
          split
          . next hfailed => simp [hfailed]
          . next htransmission =>
            rw [not_ne_iff] at hport hconfig hqueue hregistration htransmission
            rw [startThread_eq_zero_iff]
            simp [hport, hconfig, hqueue, hregistration, htransmission]

theorem createDecoder_eq_true_iff (t : State)
    : (createDecoder o t).snd = true
        ↔
      o.spuOpusInit = 0 ∨ o.opusMultistreamDecoderCreate.error = 0 := by
  unfold createDecoder
  split
  . next hspu => simp [hspu]
  . next hnot =>
    simp [hnot, o.opusMultistreamDecoderCreate.decoder_eq]

theorem ps3RendererInit_eq_zero_iff (opusConfig : Option OpusConfig) (t : State)
    : (ps3RendererInit opusConfig o t).snd = 0 ↔ o.Complete opusConfig := by
  constructor
  . intro hzero
    unfold ps3RendererInit at hzero
    dsimp only at hzero
    split at hzero
    . contradiction
    . next hsupported =>
      split at hzero
      . contradiction
      . next hlibrary =>
        split at hzero
        . contradiction
        . next hmutex =>
          split at hzero
          . contradiction
          . next hdecoder =>
            rw [startPlayback_eq_zero_iff] at hzero
            obtain ⟨hport, hconfig, hqueue, hregistration, htransmission, hthread⟩ := hzero
            exact
              { supported := by simpa using hsupported
                library := not_ne_iff.mp hlibrary
                mutex := not_ne_iff.mp hmutex
                decoder := (createDecoder_eq_true_iff o _).mp (by simpa using hdecoder)
                port := hport
                portConfig := hconfig
                queue := hqueue
                registration := hregistration
                transmission := htransmission
                thread := hthread }
  . intro h
    have hdecoder := (createDecoder_eq_true_iff o ((t.acquire .library).acquire .mutex)).mpr h.decoder
    unfold ps3RendererInit
    rw [h.supported, if_neg (by simp), if_neg (not_not.mpr h.library)]
    dsimp only
    rw [if_neg (not_not.mpr h.mutex), hdecoder, if_neg (by simp), startPlayback_eq_zero_iff]
    exact ⟨h.port, h.portConfig, h.queue, h.registration, h.transmission, h.thread⟩

/- The cleanup behind a successful initialization releases what was acquired, each once. -/
theorem released_cleanup (h : Playing s r)
    : Released (ps3RendererCleanup s) ∧ (ps3RendererCleanup s).ledger.faults = s.ledger.faults := by
  have hundoes : Undoes [.thread, .transmission, .registration, .port, .queue, .mutex, .spuOpus,
      .opusDecoder, .library] (everything r) := by
    apply h.isDecoder.elim
    . decide
    . decide
  have hstopped : Owns { s with activeAudioThread := false } (everything r) :=
    { agrees := h.agrees
      gUseSpuOpus := h.gUseSpuOpus
      opusDecoder := h.opusDecoder
      audioThreadStarted := h.audioThreadStarted }
  have ⟨howns, hfaults⟩ := owns_unwind hstopped hundoes
  have ⟨hactive, _⟩ := unwind_others { s with activeAudioThread := false }
    [.thread, .transmission, .registration, .port, .queue, .mutex, .spuOpus, .opusDecoder, .library]
  unfold ps3RendererCleanup
  rw [if_neg (by simp [h.audioSystemInitialized])]
  constructor
  . apply released_of_owns
    . exact ⟨howns.agrees, howns.gUseSpuOpus, howns.opusDecoder, howns.audioThreadStarted⟩
    . exact hactive
    . rfl
  . exact hfaults

/- Without an initialization the cleanup does not do anything. -/
theorem ps3RendererCleanup_eq_self (h : s.audioSystemInitialized = false)
    : ps3RendererCleanup s = s := by
  unfold ps3RendererCleanup
  rw [h]
  rfl

end

/-
The calls of the program and of the library, in any order.
-/

inductive Event where
  | init (opusConfig : Option OpusConfig) (o : Outcomes)
  | cleanup
  | stop

/- An initialization is only made without one. -/
def step (s : State) (e : Event) : Option State :=
  match e with
  | .init opusConfig o =>
    if s.audioSystemInitialized then none else some (ps3RendererInit opusConfig o s).fst
  | .cleanup => some (ps3RendererCleanup s)
  | .stop => some (ps3audioStop s)

def machine : Transition.Machine State Event where
  init := initialState
  step := step

structure Conserved (s : State) : Prop where
  released : s.audioSystemInitialized = false → Released s
  playing : s.audioSystemInitialized = true → ∃ decoder, Playing s decoder
  faults : ∀ r, r ∈ s.ledger.faults → r = .registration

variable {s : State}

theorem released_initialState : Released initialState := by
  constructor
  . intro r
    rfl
  all_goals rfl

theorem conserved_of_released (h : Released s)
    (hfaults : ∀ r, r ∈ s.ledger.faults → r = .registration)
    : Conserved s where
  released _ := h
  playing hinitialized := by
    rw [h.audioSystemInitialized] at hinitialized
    contradiction
  faults := hfaults

theorem conserved_cleanup (h : Conserved s)
    : Released (ps3RendererCleanup s) ∧ (ps3RendererCleanup s).ledger.faults = s.ledger.faults := by
  cases hinitialized : s.audioSystemInitialized with
  | false =>
    rw [ps3RendererCleanup_eq_self hinitialized]
    exact ⟨h.released hinitialized, rfl⟩
  | true =>
    have ⟨_, hplaying⟩ := h.playing hinitialized
    apply released_cleanup hplaying

theorem conserved_init (opusConfig : Option OpusConfig) (o : Outcomes) (h : Conserved s)
    (hreleased : Released s)
    : Conserved (ps3RendererInit opusConfig o s).fst := by
  have hspec := ps3RendererInit_spec o hreleased opusConfig
  have hfaults : ∀ r, r ∈ (ps3RendererInit opusConfig o s).fst.ledger.faults
      → r = .registration := by
    intro r hr
    cases hspec.faults with
    | inl hsame =>
      rw [hsame] at hr
      exact h.faults r hr
    | inr hmore =>
      rw [hmore.right, List.mem_cons] at hr
      cases hr with
      | inl hr => exact hr
      | inr hr => exact h.faults r hr
  cases hspec.result with
  | inl hfailed => exact conserved_of_released hfailed.right hfaults
  | inr hsucceeded =>
    have ⟨decoder, hplaying⟩ := hsucceeded.right
    refine ⟨?_, ?_, hfaults⟩
    . intro hnot
      rw [hplaying.audioSystemInitialized] at hnot
      contradiction
    . intro _
      exact ⟨decoder, hplaying⟩

theorem conserved_step {t : State} {e : Event} (h : Conserved s) (hstep : step s e = some t)
    : Conserved t := by
  have ⟨hreleased, hfaults⟩ := conserved_cleanup h
  have hcleanup : Conserved (ps3RendererCleanup s) := by
    apply conserved_of_released hreleased
    rw [hfaults]
    exact h.faults
  unfold step at hstep
  cases e with
  | init opusConfig o =>
    dsimp only at hstep
    split at hstep
    . contradiction
    . next hnot =>
      injection hstep with hstep
      rw [← hstep]
      apply conserved_init opusConfig o h
      apply h.released (Bool.eq_false_of_not_eq_true hnot)
  | cleanup =>
    injection hstep with hstep
    rw [← hstep]
    exact hcleanup
  | stop =>
    injection hstep with hstep
    rw [← hstep]
    exact hcleanup

theorem reachable_conserved (h : machine.Reachable s) : Conserved s := by
  apply h.invariant Conserved
  . apply conserved_of_released released_initialState
    intro r hr
    contradiction
  . intro s e t hs hstep
    apply conserved_step hs hstep

/-
In every run: nothing is held without an initialization, whatever failed in it, and after one everything
is held once. An initialization succeeds exactly if every step does that it needs. A cleanup leaves
nothing behind and releases nothing that is not held, and a second one does not do anything, in
whichever of the two entry points. The only release of something that is not held is the removal of the
queue whose registration failed.
-/
theorem audio_resources_conserved (s : State) (hreach : machine.Reachable s)
    : (s.audioSystemInitialized = false → Released s)
        ∧ (s.audioSystemInitialized = true → HeldOnce s)
        ∧ (Released (ps3RendererCleanup s) ∧ (ps3RendererCleanup s).ledger.faults = s.ledger.faults)
        ∧ (ps3RendererCleanup (ps3RendererCleanup s) = ps3RendererCleanup s
          ∧ ps3audioStop s = ps3RendererCleanup s
          ∧ ps3audioStop (ps3RendererCleanup s) = ps3RendererCleanup s)
        ∧ (∀ opusConfig o, s.audioSystemInitialized = false →
          ((ps3RendererInit opusConfig o s).snd = -1 ∧ Released (ps3RendererInit opusConfig o s).fst
            ∨ (ps3RendererInit opusConfig o s).snd = 0
              ∧ HeldOnce (ps3RendererInit opusConfig o s).fst)
          ∧ ((ps3RendererInit opusConfig o s).snd = 0 ↔ o.Complete opusConfig)
          ∧ ((ps3RendererInit opusConfig o s).fst.ledger.faults = s.ledger.faults
            ∨ o.audioSetNotifyEventQueue ≠ 0
              ∧ (ps3RendererInit opusConfig o s).fst.ledger.faults
                = .registration :: s.ledger.faults))
        ∧ ∀ r, r ∈ s.ledger.faults → r = .registration := by
  have hconserved := reachable_conserved hreach
  have hcleanup := conserved_cleanup hconserved
  have hagain := ps3RendererCleanup_eq_self hcleanup.left.audioSystemInitialized
  refine ⟨hconserved.released, ?_, hcleanup, ⟨hagain, rfl, hagain⟩, ?_, hconserved.faults⟩
  . intro hinitialized
    have ⟨decoder, hplaying⟩ := hconserved.playing hinitialized
    apply heldOnce_of_playing hplaying
  . intro opusConfig o hnot
    have hspec := ps3RendererInit_spec o (hconserved.released hnot) opusConfig
    refine ⟨?_, ps3RendererInit_eq_zero_iff o opusConfig s, hspec.faults⟩
    cases hspec.result with
    | inl hfailed => exact Or.inl hfailed
    | inr hsucceeded =>
      have ⟨hzero, decoder, hplaying⟩ := hsucceeded
      exact Or.inr ⟨hzero, heldOnce_of_playing hplaying⟩

def stereo : OpusConfig where
  sampleRate := 48000
  channelCount := 2
  streams := 1

def allSucceed : Outcomes where
  audioInit := 0
  sysMutexCreate := 0
  spuOpusInit := 0
  opusMultistreamDecoderCreate := ⟨true, 0, by decide⟩
  audioPortOpen := 0
  audioGetPortConfig := 0
  audioCreateNotifyEventQueue := 0
  audioSetNotifyEventQueue := 0
  audioPortStart := 0
  sysThreadCreate := 0

/- The decoder in software, and no thread. -/
def noThread : Outcomes :=
  { allSucceed with spuOpusInit := -1, sysThreadCreate := -1 }

theorem audio_resources_conserved_example
    : ∃ s, machine.run [.init (some stereo) allSucceed, .cleanup, .stop, .init (some stereo) noThread]
          = some s
        ∧ s.audioSystemInitialized = false ∧ Released s := by
  obtain ⟨s, hrun, hnot⟩ : ∃ s,
      machine.run [.init (some stereo) allSucceed, .cleanup, .stop, .init (some stereo) noThread]
          = some s
        ∧ s.audioSystemInitialized = false := by
    exact ⟨_, rfl, by decide⟩
  have hconserved := audio_resources_conserved s ⟨_, hrun⟩
  exact ⟨s, hrun, hnot, hconserved.left hnot⟩

end Setup
end Audio

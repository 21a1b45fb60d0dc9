import PS3Moonlight.Lib.Ledger
import PS3Moonlight.Lib.Transition
import PS3Moonlight.Video.Basic
import Mathlib.Data.List.FinRange

/-!
This module contains the resources of `ps3_video_setup` and `ps3_video_cleanup`: every acquisition can
fail, and one routine gives back what the flags and pointers say is there.
-/

namespace Video
namespace Setup

inductive Resource where
  | mutex
  | sequence
  | decoder
  | memory
  | buf (bi : Fin 4)
  | mapping (i : Fin 6)
  | frame (i : Fin 6)
  | module
  deriving DecidableEq

/- What `reset_video_runtime_state` resets, apart from the statistics. -/
structure Indices where
  frontBuf : Int
  writeBuf : Nat
  readyHead : Nat
  readyTail : Nat
  readyCount : Nat
  vdecFront : Nat
  vdecBack : Nat
  vdecAuPending : Nat
  vdecPicoutPending : Nat
  vdecSeqDone : Nat
  submitHead : Nat
  submitTail : Nat
  submitCount : Nat
  deriving DecidableEq

def initialIndices : Indices where
  frontBuf := -1
  writeBuf := 0
  readyHead := 0
  readyTail := 0
  readyCount := 0
  vdecFront := 0
  vdecBack := 0
  vdecAuPending := 0
  vdecPicoutPending := 0
  vdecSeqDone := 0
  submitHead := 0
  submitTail := 0
  submitCount := 0

/- The flags, for a pointer whether it is not `NULL`, next to the ledger of what is really held. -/
structure State where
  mutexInitialized : Bool
  vdecSequenceStarted : Bool
  vdecOpened : Bool
  vdecMemAddr : Bool
  vdecBuf : Fin 4 → Bool
  videoTextureMapped : Fin 6 → Bool
  vdecFrameBufs : Fin 6 → Bool
  vdecModuleOwned : Bool
  indices : Indices
  ledger : Ledger Resource

/- The state of the program's start. -/
def initialState : State where
  mutexInitialized := false
  vdecSequenceStarted := false
  vdecOpened := false
  vdecMemAddr := false
  vdecBuf := fun _ => false
  videoTextureMapped := fun _ => false
  vdecFrameBufs := fun _ => false
  vdecModuleOwned := false
  indices := initialIndices
  ledger := .empty

/- What the calls of one setup answer, the attempts to open the decoder by their parameters. -/
structure Outcomes where
  sysModuleLoad : Int
  memalignMem : Nat → Bool
  vdecOpen : Nat → Nat → Nat → Int
  vdecStartSequence : Int
  memalignBuf : Fin 4 → Bool
  memalignFrame : Fin 6 → Bool
  gcmMapMainMemory : Fin 6 → Int
  sysMutexCreate : Int

namespace State

/- The flag of a resource. -/
def owned (s : State) (r : Resource) : Bool :=
  match r with
  | .mutex => s.mutexInitialized
  | .sequence => s.vdecSequenceStarted
  | .decoder => s.vdecOpened
  | .memory => s.vdecMemAddr
  | .buf bi => s.vdecBuf bi
  | .mapping i => s.videoTextureMapped i
  | .frame i => s.vdecFrameBufs i
  | .module => s.vdecModuleOwned

def mark (s : State) (r : Resource) (flag : Bool) : State :=
  match r with
  | .mutex => { s with mutexInitialized := flag }
  | .sequence => { s with vdecSequenceStarted := flag }
  | .decoder => { s with vdecOpened := flag }
  | .memory => { s with vdecMemAddr := flag }
  | .buf bi => { s with vdecBuf := Function.update s.vdecBuf bi flag }
  | .mapping i => { s with videoTextureMapped := Function.update s.videoTextureMapped i flag }
  | .frame i => { s with vdecFrameBufs := Function.update s.vdecFrameBufs i flag }
  | .module => { s with vdecModuleOwned := flag }

/- A successful call, and its flag. -/
def acquire (s : State) (r : Resource) : State :=
  { s.mark r true with ledger := s.ledger.acquire r }

/- The release under its flag, for a pointer `free`, which takes `NULL` as well. -/
def releaseIf (s : State) (r : Resource) : State :=
  if s.owned r then { s.mark r false with ledger := s.ledger.release r } else s

def resetVideoRuntimeState (s : State) : State :=
  { s with indices := initialIndices }

end State

/- The order of `release_video_resources`. -/
def releaseOrder : List Resource :=
  [.mutex, .sequence, .decoder, .memory]
    ++ (List.finRange 4).map .buf
    ++ (List.finRange 6).flatMap (fun i => [.mapping i, .frame i])
    ++ [.module]

def releaseVideoResources (s : State) : State :=
  (releaseOrder.foldl State.releaseIf s).resetVideoRuntimeState

def memSizes : List Nat := [55, 60, 64, 70]

def profileLevels : List Nat := [41, 42, 40, 32, 31]

def spuCascade : List Nat := [5, 4, 2]

/- The three loops over the parameters, each of which ends when the decoder is open. -/
def openSpus (o : Outcomes) (mem level : Nat) (spus : List Nat) (s : State) : State :=
  match spus with
  | [] => s
  | n :: spus =>
    if s.vdecOpened then
      s
    else
      openSpus o mem level spus (if o.vdecOpen mem level n = 0 then s.acquire .decoder else s)

def openLevels (o : Outcomes) (mem : Nat) (levels : List Nat) (s : State) : State :=
  match levels with
  | [] => s
  | level :: levels =>
    if s.vdecOpened then
      s
    else
      openLevels o mem levels (openSpus o mem level spuCascade s)

def openMems (o : Outcomes) (mems : List Nat) (s : State) : State :=
  match mems with
  | [] => s
  | mem :: mems =>
    if s.vdecOpened then
      s
    else
      let s := s.releaseIf .memory
      if o.memalignMem mem then
        openMems o mems (openLevels o mem profileLevels (s.acquire .memory))
      else
        openMems o mems s

/- The buffers for the bitstream, as far as there is memory. -/
def allocBufs (o : Outcomes) (bis : List (Fin 4)) (s : State) : State × Bool :=
  match bis with
  | [] => ⟨s, true⟩
  | bi :: bis =>
    if s.vdecBuf bi then
      allocBufs o bis s
    else if o.memalignBuf bi then
      allocBufs o bis (s.acquire (.buf bi))
    else
      ⟨s, false⟩

/- The buffers for the pictures, each of which is mapped at once. -/
def allocFrames (o : Outcomes) (is : List (Fin 6)) (s : State) : State × Bool :=
  match is with
  | [] => ⟨s, true⟩
  | i :: is =>
    if s.vdecFrameBufs i then
      allocFrames o is s
    else if o.memalignFrame i then
      let s := s.acquire (.frame i)
      if o.gcmMapMainMemory i ≠ 0 then
        ⟨s, false⟩
      else
        allocFrames o is (s.acquire (.mapping i))
    else
      ⟨s, false⟩

/- A module that cannot be loaded may be there already, so this is no failure. -/
def loadModule (o : Outcomes) (s : State) : State :=
  if o.sysModuleLoad = 0 then s.acquire .module else s

/- What `ps3_video_setup` does once the decoder runs. -/
def allocate (o : Outcomes) (s : State) : State × Int :=
  let bufs := allocBufs o (List.finRange 4) s
  if !bufs.snd then
    ⟨releaseVideoResources bufs.fst, -1⟩
  else
    let s := { bufs.fst with indices := { bufs.fst.indices with vdecFront := 0, vdecBack := 0 } }
    let frames := allocFrames o (List.finRange 6) s
    if !frames.snd then
      ⟨releaseVideoResources frames.fst, -1⟩
    else if o.sysMutexCreate = 0 then
      ⟨frames.fst.acquire .mutex, 0⟩
    else
      ⟨releaseVideoResources frames.fst, -1⟩

def ps3VideoSetup (o : Outcomes) (s : State) : State × Int :=
  let s := s.resetVideoRuntimeState
  let s := loadModule o s
  let s := openMems o memSizes s
  if !s.vdecOpened then
    ⟨releaseVideoResources (s.releaseIf .memory), -1⟩
  else if o.vdecStartSequence ≠ 0 then
    ⟨releaseVideoResources s, -1⟩
  else
    allocate o (s.acquire .sequence)

def ps3VideoCleanup (s : State) : State :=
  releaseVideoResources s

/-
The flags agree with what is held.
-/

structure Balanced (s : State) : Prop where
  agrees : s.ledger.Agrees {r | s.owned r = true}
  faults : s.ledger.faults = []

section

variable {s : State}

theorem owned_mark (s : State) (r : Resource) (flag : Bool) (r' : Resource)
    : (s.mark r flag).owned r' = if r' = r then flag else s.owned r' := by
  cases r with
  | buf bi =>
    cases r' with
    | buf bi' => simp [State.mark, State.owned, Function.update_apply]
    | _ => rfl
  | mapping i =>
    cases r' with
    | mapping i' => simp [State.mark, State.owned, Function.update_apply]
    | _ => rfl
  | frame i =>
    cases r' with
    | frame i' => simp [State.mark, State.owned, Function.update_apply]
    | _ => rfl
  | _ =>
    cases r' with
    | _ => rfl

theorem owned_acquire (s : State) (r r' : Resource)
    : (s.acquire r).owned r' = if r' = r then true else s.owned r' := by
  rw [← owned_mark]
  rfl

theorem owned_releaseIf (s : State) (r r' : Resource)
    : (s.releaseIf r).owned r' = if r' = r then false else s.owned r' := by
  unfold State.releaseIf
  split
  . rw [← owned_mark]
    rfl
  . next hr =>
    split
    . next heq =>
      rw [heq]
      simpa using hr
    . rfl

theorem balanced_acquire {r : Resource} (h : Balanced s) (hr : s.owned r = false)
    : Balanced (s.acquire r) := by
  have hout : r ∉ {r | s.owned r = true} := by
    rw [Set.mem_ofPred_eq, hr]
    decide
  constructor
  . have hagrees := h.agrees.acquire hout
    have hset : {r' | (s.acquire r).owned r' = true} = insert r {r | s.owned r = true} := by
      ext r'
      rw [Set.mem_ofPred_eq, owned_acquire, Set.mem_insert_iff, Set.mem_ofPred_eq]
      split
      . next heq => simp [heq]
      . next hne => simp [hne]
    rw [hset]
    exact hagrees
  . exact h.faults

theorem balanced_releaseIf (r : Resource) (h : Balanced s) : Balanced (s.releaseIf r) := by
  have hset : {r' | (s.releaseIf r).owned r' = true} = {r | s.owned r = true} \ {r} := by
    ext r'
    rw [Set.mem_ofPred_eq, owned_releaseIf, Set.mem_sdiff, Set.mem_ofPred_eq, Set.mem_singleton_iff]
    split
    . next heq => simp [heq]
    . next hne => simp [hne]
  cases hr : s.owned r with
  | true =>
    have hledger : (s.releaseIf r).ledger = s.ledger.release r := by
      unfold State.releaseIf
      rw [if_pos hr]
    constructor
    . rw [hset, hledger]
      apply h.agrees.release hr
    . rw [hledger, h.agrees.faults_release hr]
      exact h.faults
  | false =>
    have hsame : s.releaseIf r = s := by
      unfold State.releaseIf
      rw [if_neg (by rw [hr]; decide)]
    rw [hsame]
    exact h

theorem balanced_reset (h : Balanced s) : Balanced s.resetVideoRuntimeState := by
  exact ⟨h.agrees, h.faults⟩

theorem balanced_release (rs : List Resource) (h : Balanced s)
    : Balanced (rs.foldl State.releaseIf s) := by
  induction rs generalizing s with
  | nil => exact h
  | cons r rs ih =>
    apply ih
    apply balanced_releaseIf r h

theorem owned_release (rs : List Resource) (r : Resource)
    : (rs.foldl State.releaseIf s).owned r = if r ∈ rs then false else s.owned r := by
  induction rs generalizing s with
  | nil => rfl
  | cons r' rs ih =>
    rw [List.foldl_cons, ih, owned_releaseIf]
    simp only [List.mem_cons]
    split
    . next hmem => rw [if_pos (Or.inr hmem)]
    . next hmem => simp only [hmem, or_false]

/- Nothing is left out. -/
theorem mem_releaseOrder (r : Resource) : r ∈ releaseOrder := by
  cases r with
  | buf bi =>
    simp only [releaseOrder, List.mem_append, List.mem_map, List.mem_finRange]
    exact Or.inl (Or.inl (Or.inr ⟨bi, trivial, rfl⟩))
  | mapping i =>
    simp only [releaseOrder, List.mem_append, List.mem_flatMap, List.mem_finRange]
    exact Or.inl (Or.inr ⟨i, trivial, List.mem_cons_self⟩)
  | frame i =>
    simp only [releaseOrder, List.mem_append, List.mem_flatMap, List.mem_finRange]
    exact Or.inl (Or.inr ⟨i, trivial, List.mem_cons_of_mem _ List.mem_cons_self⟩)
  | _ => decide

theorem owned_releaseVideoResources (s : State) (r : Resource)
    : (releaseVideoResources s).owned r = false := by
  have howned := owned_release (s := s) releaseOrder r
  rw [if_pos (mem_releaseOrder r)] at howned
  exact howned

theorem balanced_releaseVideoResources (h : Balanced s) : Balanced (releaseVideoResources s) := by
  apply balanced_reset
  apply balanced_release releaseOrder h

/-
What the loops acquire.
-/

/- The flags of other resources have not changed. -/
def Only (p : Resource → Prop) (s t : State) : Prop :=
  ∀ r, ¬ p r → t.owned r = s.owned r

theorem only_refl (p : Resource → Prop) (s : State) : Only p s s := by
  intro r _
  rfl

theorem Only.trans {p : Resource → Prop} {s t u : State} (hst : Only p s t) (htu : Only p t u)
    : Only p s u := by
  intro r hr
  rw [htu r hr, hst r hr]

theorem Only.mono {p q : Resource → Prop} {s t : State} (h : Only p s t) (hpq : ∀ r, p r → q r)
    : Only q s t := by
  intro r hr
  apply h r
  intro hp
  exact hr (hpq r hp)

theorem only_acquire {p : Resource → Prop} {r : Resource} (s : State) (h : p r)
    : Only p s (s.acquire r) := by
  intro r' hr'
  rw [owned_acquire, if_neg]
  intro heq
  rw [heq] at hr'
  contradiction

theorem only_releaseIf {p : Resource → Prop} {r : Resource} (s : State) (h : p r)
    : Only p s (s.releaseIf r) := by
  intro r' hr'
  rw [owned_releaseIf, if_neg]
  intro heq
  rw [heq] at hr'
  contradiction

variable (o : Outcomes)

def ofDecoder (r : Resource) : Prop :=
  r = .decoder ∨ r = .memory

theorem openSpus_spec (mem level : Nat) (spus : List Nat) (h : Balanced s)
    : Balanced (openSpus o mem level spus s)
        ∧ Only (fun r => r = .decoder) s (openSpus o mem level spus s) := by
  induction spus generalizing s with
  | nil => exact ⟨h, only_refl _ s⟩
  | cons n spus ih =>
    unfold openSpus
    split
    . exact ⟨h, only_refl _ s⟩
    . next hclosed =>
      split
      . have hdecoder : s.owned .decoder = false := Bool.eq_false_of_not_eq_true hclosed
        have ⟨hbalanced, honly⟩ := ih (balanced_acquire h hdecoder)
        exact ⟨hbalanced, Only.trans (only_acquire s rfl) honly⟩
      . apply ih h

theorem openLevels_spec (mem : Nat) (levels : List Nat) (h : Balanced s)
    : Balanced (openLevels o mem levels s)
        ∧ Only (fun r => r = .decoder) s (openLevels o mem levels s) := by
  induction levels generalizing s with
  | nil => exact ⟨h, only_refl _ s⟩
  | cons level levels ih =>
    unfold openLevels
    split
    . exact ⟨h, only_refl _ s⟩
    . have ⟨hspus, honlySpus⟩ := openSpus_spec o mem level spuCascade h
      have ⟨hbalanced, honly⟩ := ih hspus
      exact ⟨hbalanced, honlySpus.trans honly⟩

/- An open decoder has its memory. -/
theorem openMems_spec (mems : List Nat) (h : Balanced s)
    (hmem : s.vdecOpened = true → s.vdecMemAddr = true)
    : Balanced (openMems o mems s) ∧ Only ofDecoder s (openMems o mems s)
        ∧ ((openMems o mems s).vdecOpened = true → (openMems o mems s).vdecMemAddr = true) := by
  induction mems generalizing s with
  | nil => exact ⟨h, only_refl _ s, hmem⟩
  | cons mem mems ih =>
    unfold openMems
    split
    . exact ⟨h, only_refl _ s, hmem⟩
    . next hclosed =>
      have hfreed := balanced_releaseIf .memory h
      have honlyFreed : Only ofDecoder s (s.releaseIf .memory) := only_releaseIf s (Or.inr rfl)
      dsimp only
      split
      . have hnone : (s.releaseIf .memory).owned .memory = false := by
          rw [owned_releaseIf, if_pos rfl]
        have hacquired := balanced_acquire hfreed hnone
        have ⟨hlevels, honlyLevels⟩ := openLevels_spec o mem profileLevels hacquired
        have hsome : (openLevels o mem profileLevels
            ((s.releaseIf .memory).acquire .memory)).vdecMemAddr = true := by
          have hsame := honlyLevels .memory (by decide)
          rw [owned_acquire, if_pos rfl] at hsame
          exact hsame
        have ⟨hbalanced, honly, hopened⟩ := ih hlevels fun _ => hsome
        refine ⟨hbalanced, ?_, hopened⟩
        apply honlyFreed.trans
        apply Only.trans (only_acquire _ (Or.inr rfl))
        apply Only.trans _ honly
        apply honlyLevels.mono
        intro r hdecoder
        exact Or.inl hdecoder
      . have hstill : (s.releaseIf .memory).vdecOpened = true
            → (s.releaseIf .memory).vdecMemAddr = true := by
          intro hopened
          have hsame : (s.releaseIf .memory).owned .decoder = s.owned .decoder := by
            rw [owned_releaseIf, if_neg (by decide)]
          have hopened' : s.vdecOpened = true := by
            rw [← hopened]
            exact hsame.symm
          exact absurd hopened' hclosed
        have ⟨hbalanced, honly, hopened⟩ := ih hfreed hstill
        exact ⟨hbalanced, honlyFreed.trans honly, hopened⟩

def ofBufs (r : Resource) : Prop :=
  ∃ bi, r = .buf bi

theorem allocBufs_spec (bis : List (Fin 4)) (h : Balanced s)
    : Balanced (allocBufs o bis s).fst ∧ Only ofBufs s (allocBufs o bis s).fst
        ∧ ((allocBufs o bis s).snd = true
          → ∀ bi, bi ∈ bis ∨ s.owned (.buf bi) = true
            → (allocBufs o bis s).fst.owned (.buf bi) = true) := by
  induction bis generalizing s with
  | nil =>
    refine ⟨h, only_refl _ s, ?_⟩
    intro _ bi hbi
    exact hbi.resolve_left List.not_mem_nil
  | cons bi bis ih =>
    unfold allocBufs
    split
    . next hsome =>
      have ⟨hbalanced, honly, hall⟩ := ih h
      refine ⟨hbalanced, honly, ?_⟩
      intro hdone bi' hbi'
      apply hall hdone
      cases hbi' with
      | inl hmem =>
        cases List.mem_cons.mp hmem with
        | inl heq => exact Or.inr (heq ▸ hsome)
        | inr hmem => exact Or.inl hmem
      | inr hbuf => exact Or.inr hbuf
    . next hnone =>
      split
      . have hfree : s.owned (.buf bi) = false := Bool.eq_false_of_not_eq_true hnone
        have ⟨hbalanced, honly, hall⟩ := ih (balanced_acquire h hfree)
        refine ⟨hbalanced, (only_acquire s ⟨bi, rfl⟩).trans honly, ?_⟩
        intro hdone bi' hbi'
        apply hall hdone
        have hacquired := owned_acquire s (.buf bi) (.buf bi')
        cases hbi' with
        | inl hmem =>
          cases List.mem_cons.mp hmem with
          | inl heq =>
            right
            rw [hacquired, if_pos (congrArg Resource.buf heq)]
          | inr hmem => exact Or.inl hmem
        | inr hbuf =>
          right
          rw [hacquired]
          split
          . rfl
          . exact hbuf
      . refine ⟨h, only_refl _ s, ?_⟩
        intro hdone
        contradiction

def ofFrames (is : List (Fin 6)) (r : Resource) : Prop :=
  ∃ i, i ∈ is ∧ (r = .frame i ∨ r = .mapping i)

theorem not_ofFrames {i : Fin 6} {is : List (Fin 6)} {r : Resource} (hi : i ∉ is)
    (hr : r = .frame i ∨ r = .mapping i)
    : ¬ ofFrames is r := by
  intro hlater
  obtain ⟨j, hj, hr'⟩ := hlater
  have hij : i = j := by
    cases hr with
    | inl hr =>
      rw [hr] at hr'
      simpa using hr'
    | inr hr =>
      rw [hr] at hr'
      simpa using hr'
  exact hi (hij ▸ hj)

/- Without a picture buffer there is no mapping of it either. -/
theorem allocFrames_spec (is : List (Fin 6)) (hnodup : is.Nodup) (h : Balanced s)
    (hnone : ∀ i, i ∈ is → s.owned (.frame i) = false ∧ s.owned (.mapping i) = false)
    : Balanced (allocFrames o is s).fst ∧ Only (ofFrames is) s (allocFrames o is s).fst
        ∧ ((allocFrames o is s).snd = true
          → ∀ i, i ∈ is → (allocFrames o is s).fst.owned (.frame i) = true
            ∧ (allocFrames o is s).fst.owned (.mapping i) = true) := by
  induction is generalizing s with
  | nil =>
    refine ⟨h, only_refl _ s, ?_⟩
    intro _ i hi
    contradiction
  | cons i is ih =>
    have ⟨hframe, hmapping⟩ := hnone i List.mem_cons_self
    rw [List.nodup_cons] at hnodup
    have hhere : ∀ r, r = .frame i ∨ r = .mapping i → ofFrames (i :: is) r := by
      intro r hr
      exact ⟨i, List.mem_cons_self, hr⟩
    unfold allocFrames
    rw [if_neg (by simpa [State.owned] using hframe)]
    split
    . have hacquired := balanced_acquire h hframe
      have honlyFrame : Only (ofFrames (i :: is)) s (s.acquire (.frame i)) :=
        only_acquire s (hhere _ (Or.inl rfl))
      dsimp only
      split
      . refine ⟨hacquired, honlyFrame, ?_⟩
        intro hdone
        contradiction
      . have hunmapped : (s.acquire (.frame i)).owned (.mapping i) = false := by
          rw [owned_acquire, if_neg (by simp), hmapping]
        have hmapped := balanced_acquire hacquired hunmapped
        have hrest : ∀ j, j ∈ is
            → ((s.acquire (.frame i)).acquire (.mapping i)).owned (.frame j) = false
              ∧ ((s.acquire (.frame i)).acquire (.mapping i)).owned (.mapping j) = false := by
          intro j hj
          have hne : j ≠ i := fun heq => hnodup.left (heq ▸ hj)
          have hold := hnone j (List.mem_cons_of_mem _ hj)
          simp [owned_acquire, hne, hold]
        have ⟨hbalanced, honly, hall⟩ := ih hnodup.right hmapped hrest
        refine ⟨hbalanced, ?_, ?_⟩
        . apply honlyFrame.trans
          apply Only.trans (only_acquire _ (hhere _ (Or.inr rfl)))
          apply honly.mono
          intro r hlater
          obtain ⟨j, hj, hr⟩ := hlater
          exact ⟨j, List.mem_cons_of_mem _ hj, hr⟩
        . intro hdone j hj
          cases List.mem_cons.mp hj with
          | inr hj => apply hall hdone j hj
          | inl heq =>
            -- the rest of the loop leaves this one alone
            rw [heq, honly _ (not_ofFrames hnodup.left (Or.inl rfl)),
              honly _ (not_ofFrames hnodup.left (Or.inr rfl))]
            simp [owned_acquire]
    . refine ⟨h, only_refl _ s, ?_⟩
      intro hdone
      contradiction

/-
A whole setup.
-/

structure Released (s : State) : Prop where
  held : ∀ r, s.ledger.held r = 0
  owned : ∀ r, s.owned r = false
  indices : s.indices = initialIndices

/- The reference to the module is only there if this setup is the one that loaded it. -/
structure Acquired (o : Outcomes) (s : State) : Prop where
  held : ∀ r, r ≠ .module → s.ledger.held r = 1
  module : s.ledger.held .module = if o.sysModuleLoad = 0 then 1 else 0

theorem Balanced.held (h : Balanced s) (r : Resource)
    : s.ledger.held r = if s.owned r then 1 else 0 := by
  split
  . next hr => exact h.agrees.one r hr
  . next hr => exact h.agrees.zero r hr

theorem released_releaseVideoResources (h : Balanced s) : Released (releaseVideoResources s) := by
  have howned := owned_releaseVideoResources s
  constructor
  . intro r
    rw [(balanced_releaseVideoResources h).held, howned r]
    rfl
  . exact howned
  . rfl

structure SetupSpec (o : Outcomes) (r : State × Int) : Prop where
  balanced : Balanced r.fst
  result : r.snd = 0 ∨ r.snd = -1
  failed : r.snd = -1 → Released r.fst
  succeeded : r.snd = 0 → Acquired o r.fst

theorem setupSpec_failed (h : Balanced s) : SetupSpec o ⟨releaseVideoResources s, -1⟩ where
  balanced := balanced_releaseVideoResources h
  result := Or.inr rfl
  failed := fun _ => released_releaseVideoResources h
  succeeded := by
    intro hzero
    contradiction

/- The flags behind the last step, all of which but the one of the module have been set. -/
theorem acquired_of_owned (h : Balanced s) (hall : ∀ r, r ≠ .module → s.owned r = true)
    (hmodule : s.owned .module = decide (o.sysModuleLoad = 0))
    : Acquired o s := by
  constructor
  . intro r hr
    rw [h.held, if_pos (hall r hr)]
  . rw [h.held, hmodule]
    simp

theorem loadModule_spec (h : Balanced s) (hnone : ∀ r, s.owned r = false)
    : Balanced (loadModule o s) ∧ Only (fun r => r = .module) s (loadModule o s)
        ∧ (loadModule o s).owned .module = decide (o.sysModuleLoad = 0) := by
  unfold loadModule
  split
  . next hzero =>
    refine ⟨balanced_acquire h (hnone .module), only_acquire s rfl, ?_⟩
    rw [owned_acquire, if_pos rfl, hzero]
    rfl
  . next hfailed =>
    refine ⟨h, only_refl _ s, ?_⟩
    rw [hnone]
    simpa using hfailed

/- The two loops over the buffers leave the other resources alone. -/
theorem owned_kept {t u : State} (hst : Only ofBufs s t) (htu : Only (ofFrames (List.finRange 6)) t u)
    {r : Resource} (hframe : ¬ ofFrames (List.finRange 6) r) (hbuf : ¬ ofBufs r)
    : u.owned r = s.owned r := by
  rw [htu r hframe, hst r hbuf]

/- With the decoder, all the buffers and their mappings, only the mutex is missing. -/
theorem owned_allocated {t u : State} (hst : Only ofBufs s t)
    (htu : Only (ofFrames (List.finRange 6)) t u)
    (hdecoder : s.owned .decoder = true ∧ s.owned .memory = true ∧ s.owned .sequence = true)
    (hbufs : ∀ bi, t.owned (.buf bi) = true)
    (hframes : ∀ i, u.owned (.frame i) = true ∧ u.owned (.mapping i) = true)
    (r : Resource) (hmutex : r ≠ .mutex) (hmodule : r ≠ .module)
    : u.owned r = true := by
  cases r with
  | mutex => contradiction
  | module => contradiction
  | sequence =>
    rw [owned_kept hst htu (by simp [ofFrames]) (by simp [ofBufs])]
    exact hdecoder.right.right
  | decoder =>
    rw [owned_kept hst htu (by simp [ofFrames]) (by simp [ofBufs])]
    exact hdecoder.left
  | memory =>
    rw [owned_kept hst htu (by simp [ofFrames]) (by simp [ofBufs])]
    exact hdecoder.right.left
  | buf bi =>
    rw [htu _ (by simp [ofFrames])]
    apply hbufs bi
  | mapping i => exact (hframes i).right
  | frame i => exact (hframes i).left

/- The steps behind the loops that open the decoder. -/
theorem allocate_spec (h : Balanced s)
    (hfresh : ∀ r, r ≠ .module → ¬ ofDecoder r → r ≠ .sequence → s.owned r = false)
    (hdecoder : s.owned .decoder = true ∧ s.owned .memory = true ∧ s.owned .sequence = true)
    (hmodule : s.owned .module = decide (o.sysModuleLoad = 0))
    : SetupSpec o (allocate o s) := by
  have ⟨hbufs, honlyBufs, hallBufs⟩ := allocBufs_spec o (List.finRange 4) h
  unfold allocate
  dsimp only
  generalize allocBufs o (List.finRange 4) s = bufs at hbufs honlyBufs hallBufs ⊢
  split
  . apply setupSpec_failed o hbufs
  . next hbufsDone =>
    let filled :=
      { bufs.fst with indices := { bufs.fst.indices with vdecFront := 0, vdecBack := 0 } }
    have hfilled : Balanced filled := ⟨hbufs.agrees, hbufs.faults⟩
    have honlyFilled : Only ofBufs s filled := honlyBufs
    have hnoFrames : ∀ i, i ∈ List.finRange 6
        → filled.owned (.frame i) = false ∧ filled.owned (.mapping i) = false := by
      intro i _
      constructor
      . rw [honlyFilled _ (by simp [ofBufs])]
        apply hfresh
        all_goals simp [ofDecoder]
      . rw [honlyFilled _ (by simp [ofBufs])]
        apply hfresh
        all_goals simp [ofDecoder]
    have ⟨hframes, honlyFrames, hallFrames⟩ :=
      allocFrames_spec o (List.finRange 6) (List.nodup_finRange 6) hfilled hnoFrames
    show SetupSpec o (if !(allocFrames o (List.finRange 6) filled).snd then _ else _)
    generalize allocFrames o (List.finRange 6) filled = frames at hframes honlyFrames hallFrames ⊢
    split
    . apply setupSpec_failed o hframes
    . next hframesDone =>
      split
      . have hmutex : frames.fst.owned .mutex = false := by
          rw [owned_kept honlyFilled honlyFrames (by simp [ofFrames]) (by simp [ofBufs])]
          apply hfresh
          all_goals simp [ofDecoder]
        have hbalanced := balanced_acquire hframes hmutex
        refine ⟨hbalanced, Or.inl rfl, ?_, ?_⟩
        . intro hfailed
          contradiction
        . intro _
          apply acquired_of_owned o hbalanced
          . intro r hr
            rw [owned_acquire]
            split
            . rfl
            . next hne =>
              apply owned_allocated honlyFilled honlyFrames hdecoder _ _ r hne hr
              . intro bi
                apply hallBufs (by simpa using hbufsDone) bi (Or.inl (List.mem_finRange bi))
              . intro i
                apply hallFrames (by simpa using hframesDone) i (List.mem_finRange i)
          . rw [owned_acquire, if_neg (by decide),
              owned_kept honlyFilled honlyFrames (by simp [ofFrames]) (by simp [ofBufs])]
            exact hmodule
      . apply setupSpec_failed o hframes

theorem ps3VideoSetup_spec (h : Balanced s) (hnone : ∀ r, s.owned r = false)
    : SetupSpec o (ps3VideoSetup o s) := by
  have ⟨hloaded, honlyLoaded, hmodule⟩ := loadModule_spec o (balanced_reset h) hnone
  have hloadedNone : ∀ r, r ≠ .module → (loadModule o s.resetVideoRuntimeState).owned r = false := by
    intro r hr
    rw [honlyLoaded r hr]
    apply hnone
  unfold ps3VideoSetup
  dsimp only
  generalize loadModule o s.resetVideoRuntimeState = loaded at hloaded hmodule hloadedNone ⊢
  have hclosed : loaded.vdecOpened = true → loaded.vdecMemAddr = true := by
    intro hopened
    have hnot : loaded.vdecOpened = false := hloadedNone .decoder (by decide)
    rw [hnot] at hopened
    contradiction
  have ⟨hopen, honlyOpen, hmemory⟩ := openMems_spec o memSizes hloaded hclosed
  generalize openMems o memSizes loaded = opened at hopen honlyOpen hmemory ⊢
  have hfresh : ∀ r, r ≠ .module → ¬ ofDecoder r → opened.owned r = false := by
    intro r hr hdecoder
    rw [honlyOpen r hdecoder]
    apply hloadedNone r hr
  split
  . apply setupSpec_failed o (balanced_releaseIf .memory hopen)
  . next hopened =>
    have hopened : opened.vdecOpened = true := by simpa using hopened
    split
    . apply setupSpec_failed o hopen
    . have hsequence := balanced_acquire hopen (hfresh .sequence (by decide) (by simp [ofDecoder]))
      apply allocate_spec o hsequence
      . intro r hr hdecoder hne
        rw [owned_acquire, if_neg hne]
        apply hfresh r hr hdecoder
      . refine ⟨?_, ?_, ?_⟩
        . rw [owned_acquire, if_neg (by decide)]
          exact hopened
        . rw [owned_acquire, if_neg (by decide)]
          exact hmemory hopened
        . rw [owned_acquire, if_pos rfl]
      . rw [owned_acquire, if_neg (by decide), honlyOpen _ (by simp [ofDecoder])]
        exact hmodule

end

/-
Any number of sessions: a setup comes when there is none, a cleanup any time, and the stream in between
moves the indices.
-/

structure Session where
  video : State
  isSetUp : Bool

inductive Event where
  | setup (o : Outcomes)
  | stream (indices : Indices)
  | cleanup

def step (c : Session) (e : Event) : Option Session :=
  match e with
  | .setup o =>
    if c.isSetUp then
      none
    else
      let r := ps3VideoSetup o c.video
      some ⟨r.fst, r.snd = 0⟩
  | .stream indices =>
    if c.isSetUp then some { c with video := { c.video with indices := indices } } else none
  | .cleanup => some ⟨ps3VideoCleanup c.video, false⟩

def machine : Transition.Machine Session Event where
  init := ⟨initialState, false⟩
  step := step

/- Between the calls the ledger agrees with the flags, and without a setup there is nothing. -/
structure Conserved (c : Session) : Prop where
  balanced : Balanced c.video
  released : c.isSetUp = false → Released c.video
  acquired : c.isSetUp = true → ∃ o, Acquired o c.video

theorem released_initialState : Released initialState := by
  constructor
  . intro r
    rfl
  . intro r
    cases r with
    | _ => rfl
  . rfl

theorem balanced_initialState : Balanced initialState := by
  constructor
  . have hset : {r | initialState.owned r = true} = ∅ := by
      ext r
      simp [released_initialState.owned r]
    rw [hset]
    exact Ledger.agrees_empty
  . rfl

theorem conserved_step {c d : Session} {e : Event} (h : Conserved c) (hstep : step c e = some d)
    : Conserved d := by
  unfold step at hstep
  cases e with
  | setup o =>
    dsimp only at hstep
    split at hstep
    . contradiction
    . next hnot =>
      injection hstep with hstep
      have hreleased := h.released (Bool.eq_false_of_not_eq_true hnot)
      have hspec := ps3VideoSetup_spec o h.balanced hreleased.owned
      rw [← hstep]
      refine ⟨hspec.balanced, ?_, ?_⟩
      . intro hfailed
        apply hspec.failed
        apply hspec.result.resolve_left
        simpa using hfailed
      . intro hzero
        exact ⟨o, hspec.succeeded (by simpa using hzero)⟩
  | stream indices =>
    dsimp only at hstep
    split at hstep
    . next hsetUp =>
      injection hstep with hstep
      have ⟨o, hacquired⟩ := h.acquired hsetUp
      rw [← hstep]
      refine ⟨⟨h.balanced.agrees, h.balanced.faults⟩, ?_, ?_⟩
      . intro hnot
        rw [hsetUp] at hnot
        contradiction
      . intro _
        exact ⟨o, hacquired.held, hacquired.module⟩
    . contradiction
  | cleanup =>
    injection hstep with hstep
    rw [← hstep]
    refine ⟨balanced_releaseVideoResources h.balanced, ?_, ?_⟩
    . intro _
      apply released_releaseVideoResources h.balanced
    . intro hsetUp
      contradiction

theorem reachable_conserved {c : Session} (h : machine.Reachable c) : Conserved c := by
  apply h.invariant Conserved
  . refine ⟨balanced_initialState, ?_, ?_⟩
    . intro _
      exact released_initialState
    . intro hsetUp
      contradiction
  . intro c e d hc hstep
    apply conserved_step hc hstep

/-
In every run: without a setup nothing is held and the indices are the initial ones, whatever failed
before. A setup fails with nothing left or holds everything once, the reference to the module if it could
be loaded. Nothing is released that is not held.
-/
theorem video_resources_conserved (c : Session) (hreach : machine.Reachable c)
    : c.video.ledger.faults = []
        ∧ (c.isSetUp = false → Released c.video)
        ∧ Released (ps3VideoCleanup c.video) ∧ (ps3VideoCleanup c.video).ledger.faults = []
        ∧ ∀ o, c.isSetUp = false →
          ((ps3VideoSetup o c.video).snd = -1 ∧ Released (ps3VideoSetup o c.video).fst
              ∨ (ps3VideoSetup o c.video).snd = 0 ∧ Acquired o (ps3VideoSetup o c.video).fst)
            ∧ (ps3VideoSetup o c.video).fst.ledger.faults = [] := by
  have hconserved := reachable_conserved hreach
  have hcleanup := balanced_releaseVideoResources hconserved.balanced
  refine ⟨hconserved.balanced.faults, hconserved.released, ?_, hcleanup.faults, ?_⟩
  . apply released_releaseVideoResources hconserved.balanced
  . intro o hnot
    have hspec := ps3VideoSetup_spec o hconserved.balanced (hconserved.released hnot).owned
    refine ⟨?_, hspec.balanced.faults⟩
    cases hspec.result with
    | inl hzero => exact Or.inr ⟨hzero, hspec.succeeded hzero⟩
    | inr hfailed => exact Or.inl ⟨hfailed, hspec.failed hfailed⟩

def allSucceed : Outcomes where
  sysModuleLoad := 0
  memalignMem := fun _ => true
  vdecOpen := fun _ _ _ => 0
  vdecStartSequence := 0
  memalignBuf := fun _ => true
  memalignFrame := fun _ => true
  gcmMapMainMemory := fun _ => 0
  sysMutexCreate := 0

/- The decoder only opens with 60 megabytes, a lower level and two SPUs. -/
def lateDecoder : Outcomes :=
  { allSucceed with
    memalignMem := fun mem => mem ≠ 55
    vdecOpen := fun _ level n => if level = 32 ∧ n = 2 then 0 else -1 }

/- The last picture buffer cannot be mapped. -/
def unmappedFrame : Outcomes :=
  { allSucceed with gcmMapMainMemory := fun i => if i = 5 then -1 else 0 }

theorem video_resources_conserved_example
    : ∃ c, machine.run [.setup lateDecoder, .cleanup, .setup unmappedFrame] = some c
        ∧ c.isSetUp = false ∧ c.video.ledger.faults = [] ∧ Released c.video := by
  obtain ⟨c, hrun, hsetUp⟩ : ∃ c,
      machine.run [.setup lateDecoder, .cleanup, .setup unmappedFrame] = some c
        ∧ c.isSetUp = false := by
    exact ⟨_, rfl, by decide⟩
  have hconserved := video_resources_conserved c ⟨_, hrun⟩
  exact ⟨c, hrun, hsetUp, hconserved.left, hconserved.right.left hsetUp⟩

/- The module cannot be loaded: the setup succeeds, and holds no reference to it. -/
theorem loaded_module_not_held
    : ¬ ∀ (c : Session) (o : Outcomes), machine.Reachable c → c.isSetUp = false
          → (ps3VideoSetup o c.video).snd = 0
          → ∀ r, (ps3VideoSetup o c.video).fst.ledger.held r = 1 := by
  intro hclaim
  have hheld := hclaim machine.init { allSucceed with sysModuleLoad := -1 }
    (Transition.Machine.Reachable.init machine) rfl (by decide) .module
  revert hheld
  decide

end Setup
end Video

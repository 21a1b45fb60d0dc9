import PS3Moonlight.Lib.Transition

/-!
This module contains streams of down and up events of a key: when they alternate, what is held behind
them, and components that send such events while they follow reports of the key.
-/

namespace KeyStream

/- Each action changes what is held. -/
def Alternates (held : Bool) (actions : List Bool) : Prop :=
  match actions with
  | [] => True
  | down :: actions => down = !held ∧ Alternates down actions

def heldAfter (held : Bool) (actions : List Bool) : Bool :=
  match actions with
  | [] => held
  | down :: actions => heldAfter down actions

instance decidableAlternates (held : Bool) (actions : List Bool)
    : Decidable (Alternates held actions) :=
  match actions with
  | [] => isTrue trivial
  | down :: actions =>
    have := decidableAlternates down actions
    inferInstanceAs (Decidable (_ ∧ _))

theorem heldAfter_append (held : Bool) (first second : List Bool)
    : heldAfter held (first ++ second) = heldAfter (heldAfter held first) second := by
  induction first generalizing held with
  | nil => rfl
  | cons down first ih => rw [List.cons_append, heldAfter, heldAfter, ih]

theorem alternates_append (held : Bool) (first second : List Bool)
    : Alternates held (first ++ second)
        ↔
      Alternates held first ∧ Alternates (heldAfter held first) second := by
  induction first generalizing held with
  | nil => simp [Alternates, heldAfter]
  | cons down first ih =>
    rw [List.cons_append, Alternates, Alternates, heldAfter, ih, and_assoc]

theorem heldAfter_replicate (held down : Bool) {n : Nat} (h : 0 < n)
    : heldAfter held (List.replicate n down) = down := by
  induction n generalizing held with
  | zero => omega
  | succ n ih =>
    rw [List.replicate_succ, heldAfter]
    cases n with
    | zero => rfl
    | succ n => exact ih down (by omega)

/- A key goes down once. -/
theorem alternates_replicate (n : Nat) : Alternates false (List.replicate n true) ↔ n ≤ 1 := by
  cases n with
  | zero => simp [Alternates]
  | succ n =>
    cases n with
    | zero => simp [List.replicate, Alternates]
    | succ n => simp [List.replicate_succ, Alternates]

/- The action that follows a report of the key. -/
def follow (held now : Bool) : List Bool :=
  if now = held then [] else [now]

theorem heldAfter_follow (held now : Bool) : heldAfter held (follow held now) = now := by
  unfold follow
  split
  . next h => exact h.symm
  . rfl

theorem alternates_follow (held now : Bool) : Alternates held (follow held now) := by
  cases held <;> cases now <;> simp [follow, Alternates]

section
variable {σ ι ε : Type*}

/- The actions on one of the keys. -/
def actions (key : ε → Option Bool) (events : List ε) : List Bool :=
  events.filterMap key

theorem actions_append (key : ε → Option Bool) (first second : List ε)
    : actions key (first ++ second) = actions key first ++ actions key second := by
  apply List.filterMap_append

def stream (step : σ → ι → σ × List ε) (s : σ) (inputs : List ι) : List ε :=
  (Transition.trace step s inputs).snd.flatten

theorem stream_cons (step : σ → ι → σ × List ε) (s : σ) (i : ι) (inputs : List ι)
    : stream step s (i :: inputs) = (step s i).snd ++ stream step (step s i).fst inputs := by
  rfl

theorem stream_concat (step : σ → ι → σ × List ε) (s : σ) (inputs : List ι) (i : ι)
    : stream step s (inputs ++ [i])
        =
      stream step s inputs ++ (step (Transition.trace step s inputs).fst i).snd := by
  induction inputs generalizing s with
  | nil => simp [stream, Transition.trace]
  | cons j inputs ih => rw [List.cons_append, stream_cons, stream_cons, ih, List.append_assoc]; rfl

/-
A component whose events leave the key held as its own state says, whatever it is given: the state
goes on to say so, and the events alternate if and only if those of every step do.
-/

theorem heldAfter_stream (step : σ → ι → σ × List ε) (key : ε → Option Bool) (view : σ → Bool)
    (hview : ∀ s i, heldAfter (view s) (actions key (step s i).snd) = view (step s i).fst)
    (s : σ) (inputs : List ι)
    : heldAfter (view s) (actions key (stream step s inputs))
        =
      view (Transition.trace step s inputs).fst := by
  induction inputs generalizing s with
  | nil => rfl
  | cons i inputs ih =>
    rw [stream_cons, actions_append, heldAfter_append, hview]
    apply ih

theorem alternates_stream_iff (step : σ → ι → σ × List ε) (key : ε → Option Bool)
    (view : σ → Bool)
    (hview : ∀ s i, heldAfter (view s) (actions key (step s i).snd) = view (step s i).fst)
    (s : σ) (inputs : List ι)
    : Alternates (view s) (actions key (stream step s inputs))
        ↔
      ∀ before i after, inputs = before ++ i :: after
        → Alternates (view (Transition.trace step s before).fst)
          (actions key (step (Transition.trace step s before).fst i).snd) := by
  induction inputs generalizing s with
  | nil => simp [stream, Transition.trace, actions, Alternates]
  | cons i inputs ih =>
    rw [stream_cons, actions_append, alternates_append, hview]
    constructor
    . intro h before j after heq
      cases before with
      | nil =>
        rw [List.nil_append, List.cons.injEq] at heq
        rw [← heq.left]
        exact h.left
      | cons i' before =>
        rw [List.cons_append, List.cons.injEq] at heq
        rw [← heq.left]
        exact (ih (step s i).fst).mp h.right before j after heq.right
    . intro h
      constructor
      . exact h [] i inputs rfl
      . apply (ih (step s i).fst).mpr
        intro before j after heq
        exact h (i :: before) j after (by rw [heq, List.cons_append])

end

end KeyStream

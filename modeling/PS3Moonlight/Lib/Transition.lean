import Mathlib.Data.List.Basic

/-!
This module contains labelled machines with an executable step function: their runs, the induction
rules for what every run preserves, runs all of whose steps meet a condition, and the
instrumentation of a machine with history variables.
-/

namespace Transition

universe u v w

/-
A machine takes a label and either moves on or, if the label is not enabled, does not move at all.
-/
structure Machine (σ : Type u) (ε : Type v) where
  init : σ
  step : σ → ε → Option σ

namespace Machine

variable {σ : Type u} {ε : Type v} {γ : Type w}

def runFrom (m : Machine σ ε) (s : σ) (events : List ε) : Option σ :=
  match events with
  | [] => some s
  | e :: events => (m.step s e).bind fun t => m.runFrom t events

def run (m : Machine σ ε) (events : List ε) : Option σ :=
  m.runFrom m.init events

def Reachable (m : Machine σ ε) (s : σ) : Prop :=
  ∃ events, m.run events = some s

/-
The condition is checked in the state before each step, so it may speak about the label and about
everything that happened so far, but not about what the step computes.
-/
def StepsMeet (m : Machine σ ε) (ok : σ → ε → Prop) (s : σ) (events : List ε) : Prop :=
  match events with
  | [] => True
  | e :: events => ok s e ∧ ∀ t, m.step s e = some t → m.StepsMeet ok t events

@[simp]
theorem runFrom_nil (m : Machine σ ε) (s : σ) : m.runFrom s [] = some s := by
  rfl

theorem runFrom_cons (m : Machine σ ε) (s : σ) (e : ε) (events : List ε)
    : m.runFrom s (e :: events) = (m.step s e).bind fun t => m.runFrom t events := by
  rfl

theorem runFrom_cons_eq_some {m : Machine σ ε} {s t : σ} {e : ε} {events : List ε}
    (h : m.runFrom s (e :: events) = some t)
    : ∃ u, m.step s e = some u ∧ m.runFrom u events = some t := by
  rw [runFrom_cons] at h
  cases hu : m.step s e with
  | none => simp [hu] at h
  | some u =>
    rw [hu] at h
    exact ⟨u, rfl, h⟩

theorem runFrom_append (m : Machine σ ε) (s : σ) (first second : List ε)
    : m.runFrom s (first ++ second) = (m.runFrom s first).bind fun t => m.runFrom t second := by
  induction first generalizing s with
  | nil => simp
  | cons e first ih =>
    rw [List.cons_append, runFrom_cons, runFrom_cons]
    cases m.step s e with
    | none => simp
    | some t => simp [ih]

theorem Reachable.init (m : Machine σ ε) : m.Reachable m.init := by
  exact ⟨[], rfl⟩

theorem Reachable.step {m : Machine σ ε} {s t : σ} {e : ε} (h : m.Reachable s)
    (hstep : m.step s e = some t)
    : m.Reachable t := by
  cases h with
  | intro events hrun =>
    refine ⟨events ++ [e], ?_⟩
    unfold run at hrun ⊢
    rw [runFrom_append, hrun]
    simp [runFrom_cons, hstep]

/-
The rule behind every safety property of a run: what one step preserves under the condition holds
at the end of any run all of whose steps meet the condition.
-/
theorem runFrom_invariant_of_stepsMeet (m : Machine σ ε) (ok : σ → ε → Prop) (inv : σ → Prop)
    (hstep : ∀ s e t, inv s → ok s e → m.step s e = some t → inv t)
    (s t : σ) (events : List ε) (hinv : inv s) (hmeet : m.StepsMeet ok s events)
    (hrun : m.runFrom s events = some t)
    : inv t := by
  induction events generalizing s with
  | nil =>
    simp only [runFrom_nil, Option.some.injEq] at hrun
    rw [← hrun]
    exact hinv
  | cons e events ih =>
    have ⟨u, hu, hrest⟩ := runFrom_cons_eq_some hrun
    unfold StepsMeet at hmeet
    apply ih u
    . exact hstep s e u hinv hmeet.left hu
    . exact hmeet.right u hu
    . exact hrest

theorem stepsMeet_of_forall (m : Machine σ ε) (ok : ε → Prop) (s : σ) (events : List ε)
    (h : ∀ e, e ∈ events → ok e)
    : m.StepsMeet (fun _ e => ok e) s events := by
  induction events generalizing s with
  | nil => trivial
  | cons e events ih =>
    constructor
    . apply h
      simp
    . intro t _
      apply ih
      intro e' he'
      apply h
      simp [he']

/- A run meets every weaker condition. -/
theorem StepsMeet.mono {m : Machine σ ε} {ok ok' : σ → ε → Prop} (h : ∀ s e, ok s e → ok' s e)
    {s : σ} {events : List ε} (hmeet : m.StepsMeet ok s events)
    : m.StepsMeet ok' s events := by
  induction events generalizing s with
  | nil => trivial
  | cons e events ih =>
    constructor
    . exact h s e hmeet.left
    . intro t ht
      exact ih (hmeet.right t ht)

theorem Reachable.invariant {m : Machine σ ε} (inv : σ → Prop) (hinit : inv m.init)
    (hstep : ∀ s e t, inv s → m.step s e = some t → inv t) {s : σ} (h : m.Reachable s)
    : inv s := by
  cases h with
  | intro events hrun =>
    apply runFrom_invariant_of_stepsMeet m (fun _ _ => True) inv
    . intro s e t hinv _ hs
      exact hstep s e t hinv hs
    . exact hinit
    . apply stepsMeet_of_forall m (fun _ => True)
      simp
    . exact hrun

theorem stepsMeet_cons_of_none {m : Machine σ ε} {ok : σ → ε → Prop} {s : σ} {e : ε}
    {events : List ε} (hstep : m.step s e = none)
    : ok s e ↔ m.StepsMeet ok s (e :: events) := by
  simp [StepsMeet, hstep]

theorem stepsMeet_cons_of_some {m : Machine σ ε} {ok : σ → ε → Prop} {s t : σ} {e : ε}
    {events : List ε} (hstep : m.step s e = some t)
    : ok s e ∧ m.StepsMeet ok t events ↔ m.StepsMeet ok s (e :: events) := by
  simp [StepsMeet, hstep]

/- Whether a run meets the condition can be computed along the run. -/
instance decidableStepsMeet (m : Machine σ ε) (ok : σ → ε → Prop) [∀ s e, Decidable (ok s e)]
    (s : σ) (events : List ε)
    : Decidable (m.StepsMeet ok s events) :=
  match events with
  | [] => isTrue trivial
  | e :: events =>
    match hstep : m.step s e with
    | none => decidable_of_iff _ (stepsMeet_cons_of_none hstep)
    | some t =>
      have := decidableStepsMeet m ok t events
      decidable_of_iff _ (stepsMeet_cons_of_some hstep)

/- Add a history variable that the machine itself never looks at. -/
def instrument (m : Machine σ ε) (start : γ) (note : σ → ε → σ → γ → γ) : Machine (σ × γ) ε where
  init := ⟨m.init, start⟩
  step s e := (m.step s.fst e).map fun t => ⟨t, note s.fst e t s.snd⟩

theorem instrument_step_eq_some {m : Machine σ ε} {start : γ} {note : σ → ε → σ → γ → γ}
    {s t : σ × γ} {e : ε}
    : (m.instrument start note).step s e = some t
        ↔
      m.step s.fst e = some t.fst ∧ t.snd = note s.fst e t.fst s.snd := by
  rcases t with ⟨t, history⟩
  simp only [instrument, Option.map_eq_some_iff, Prod.mk.injEq]
  constructor
  . intro h
    have ⟨u, hu, heq, hnote⟩ := h
    rw [← heq]
    exact ⟨hu, hnote.symm⟩
  . intro h
    exact ⟨t, h.left, rfl, h.right.symm⟩

/-
History variables are harmless: a machine and its instrumented version have the same runs.
-/
theorem instrument_runFrom_iff (m : Machine σ ε) (start : γ) (note : σ → ε → σ → γ → γ)
    (s : σ × γ) (events : List ε) (t : σ)
    : (∃ history, (m.instrument start note).runFrom s events = some ⟨t, history⟩)
        ↔
      m.runFrom s.fst events = some t := by
  induction events generalizing s with
  | nil =>
    rcases s with ⟨s, history⟩
    simp
  | cons e events ih =>
    rw [runFrom_cons]
    cases hstep : m.step s.fst e with
    | none => simp [runFrom_cons, instrument, hstep]
    | some u =>
      simp only [runFrom_cons, instrument, hstep, Option.map_some, Option.bind_some]
      apply ih

theorem instrument_reachable_iff (m : Machine σ ε) (start : γ) (note : σ → ε → σ → γ → γ) (t : σ)
    : (∃ history, (m.instrument start note).Reachable ⟨t, history⟩) ↔ m.Reachable t := by
  have hrun := fun events => instrument_runFrom_iff m start note ⟨m.init, start⟩ events t
  constructor
  . intro h
    have ⟨history, events, hevents⟩ := h
    exact ⟨events, (hrun events).mp ⟨history, hevents⟩⟩
  . intro h
    have ⟨events, hevents⟩ := h
    have ⟨history, hhistory⟩ := (hrun events).mpr hevents
    exact ⟨history, events, hhistory⟩

end Machine

/-
A component that answers every input: the final state and the list of its answers.
-/
def trace {ι ο : Type*} (step : σ → ι → σ × ο) (s : σ) (inputs : List ι) : σ × List ο :=
  match inputs with
  | [] => ⟨s, []⟩
  | i :: inputs =>
    let next := step s i
    let rest := trace step next.fst inputs
    ⟨rest.fst, next.snd :: rest.snd⟩

theorem trace_cons {σ ι ο : Type*} (step : σ → ι → σ × ο) (s : σ) (i : ι) (inputs : List ι)
    : trace step s (i :: inputs)
        =
      ⟨(trace step (step s i).fst inputs).fst,
        (step s i).snd :: (trace step (step s i).fst inputs).snd⟩ := by
  rfl

theorem trace_concat_fst {σ ι ο : Type*} (step : σ → ι → σ × ο) (s : σ) (inputs : List ι) (i : ι)
    : (trace step s (inputs ++ [i])).fst = (step (trace step s inputs).fst i).fst := by
  induction inputs generalizing s with
  | nil => rfl
  | cons j inputs ih =>
    rw [List.cons_append, trace_cons, trace_cons]
    apply ih

/- What holds at every split of a list at `a` is checked as the list grows. -/
theorem forall_split_concat_iff {α : Type*} {a : α} (p : List α → Prop) (l : List α) (b : α)
    : (∀ before after, l ++ [b] = before ++ a :: after → p before)
        ↔
      (∀ before after, l = before ++ a :: after → p before) ∧ (b = a → p l) := by
  constructor
  . intro h
    constructor
    . intro before after heq
      exact h before (after ++ [b]) (by rw [heq, List.append_assoc, List.cons_append])
    . intro heq
      exact h l [] (by rw [heq])
  . intro h before after heq
    cases List.eq_nil_or_concat after with
    | inl hnil =>
      rw [hnil, List.append_eq_append_iff_of_size_eq_right (by rfl)] at heq
      rw [← heq.left]
      apply h.right
      simpa using heq.right
    | inr hconcat =>
      obtain ⟨init, last, hlast⟩ := hconcat
      rw [hlast, List.concat_eq_append, ← List.cons_append, ← List.append_assoc] at heq
      exact h.left before init (List.append_inj_left' heq rfl)

/-
Refinement of answering components: a relation that every allowed input preserves and under which
the two answers agree makes the two components answer every sequence of allowed inputs alike.
-/
theorem trace_refines {σ τ ι ο : Type*} (concrete : σ → ι → σ × ο) (abstract : τ → ι → τ × ο)
    (rel : σ → τ → Prop) (ok : ι → Prop)
    (hstep : ∀ s t i, rel s t → ok i
      → rel (concrete s i).fst (abstract t i).fst ∧ (concrete s i).snd = (abstract t i).snd)
    (s : σ) (t : τ) (inputs : List ι) (hrel : rel s t) (hok : ∀ i, i ∈ inputs → ok i)
    : rel (trace concrete s inputs).fst (trace abstract t inputs).fst
        ∧
      (trace concrete s inputs).snd = (trace abstract t inputs).snd := by
  induction inputs generalizing s t with
  | nil => exact ⟨hrel, rfl⟩
  | cons i inputs ih =>
    have hnext := hstep s t i hrel (hok i (by simp))
    have hrest := ih (concrete s i).fst (abstract t i).fst hnext.left
      (fun j hj => hok j (by simp [hj]))
    rw [trace_cons, trace_cons]
    refine ⟨hrest.left, ?_⟩
    rw [hnext.right, hrest.right]

end Transition

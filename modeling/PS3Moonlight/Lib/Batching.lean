import PS3Moonlight.Lib.Transition
import Mathlib.Data.List.Destutter

/-!
This module contains streams of events and updates for a receiver that sees every event and keeps a
state that the updates change. Updates that wait to be sent may be merged, and an update may be sent
in pieces. What comes out is faithful to the requests if no event is lost and no update is late.
-/

namespace Batching

universe u v

structure Receiver (α : Type u) (σ : Type v) where
  isEvent : α → Bool
  start : σ
  apply : σ → α → σ
  apply_event : ∀ s a, isEvent a = true → apply s a = s

namespace Receiver

variable {α : Type u} {σ : Type v}

def events (r : Receiver α σ) (stream : List α) : List α :=
  stream.filter r.isEvent

def state (r : Receiver α σ) (stream : List α) : σ :=
  stream.foldl r.apply r.start

variable {r : Receiver α σ}

@[simp]
theorem events_append (first second : List α)
    : r.events (first ++ second) = r.events first ++ r.events second := by
  apply List.filter_append

theorem events_eq_nil {stream : List α} (h : ∀ a, a ∈ stream → r.isEvent a = false)
    : r.events stream = [] := by
  unfold events
  rw [List.filter_eq_nil_iff]
  intro a ha
  simp [h a ha]

@[simp]
theorem state_append (first second : List α)
    : r.state (first ++ second) = second.foldl r.apply (r.state first) := by
  apply List.foldl_append

theorem foldl_eq_self {stream : List α} (h : ∀ a, a ∈ stream → ∀ s, r.apply s a = s) (s : σ)
    : stream.foldl r.apply s = s := by
  induction stream with
  | nil => rfl
  | cons a stream ih =>
    rw [List.foldl_cons, h a (by simp)]
    apply ih
    intro b hb
    exact h b (by simp [hb])

end Receiver

variable {α : Type u} {σ : Type v}

/-
The receiver sees the events of the requests and ends up in their state. When it sees an event, its
state already covers what was requested before the event, and maybe more.
-/
structure Faithful (r : Receiver α σ) (requests stream : List α) : Prop where
  events : r.events stream = r.events requests
  state : r.state stream = r.state requests
  upToDate : ∀ before e after, stream = before ++ e :: after → r.isEvent e = true
    → ∃ past, past <+: requests ∧ r.events (before ++ [e]) <+: r.events past
      ∧ r.state before = r.state past

variable {r : Receiver α σ} {requests stream : List α}

theorem Faithful.nil (r : Receiver α σ) : Faithful r [] [] := by
  constructor
  . rfl
  . rfl
  . intro before e after h
    simp at h

/- What is appended to both is not late. -/
theorem Faithful.concat (h : Faithful r requests stream) (a : α)
    : Faithful r (requests ++ [a]) (stream ++ [a]) := by
  have hevents : r.events (stream ++ [a]) = r.events (requests ++ [a]) := by
    simp [h.events]
  constructor
  . exact hevents
  . simp [h.state]
  . intro before e after heq he
    cases List.eq_nil_or_concat after with
    | inl hnil =>
      rw [hnil] at heq
      obtain ⟨hbefore, hlast⟩ := List.append_inj' heq rfl
      have hae : a = e := by simpa using hlast
      have hend : r.events (before ++ [e]) = r.events (requests ++ [a]) := by
        rw [← hbefore, ← hae, hevents]
      refine ⟨requests ++ [a], List.prefix_refl _, hend ▸ List.prefix_refl _, ?_⟩
      . rw [← hbefore, h.state, Receiver.state_append, List.foldl_cons, List.foldl_nil]
        rw [hae, r.apply_event _ e he]
    | inr hconcat =>
      obtain ⟨init, last, hlast⟩ := hconcat
      rw [hlast, List.concat_eq_append, ← List.cons_append, ← List.append_assoc] at heq
      obtain ⟨past, hpast, hpe, hps⟩ := h.upToDate before e init (List.append_inj_left' heq rfl) he
      exact ⟨past, hpast.trans (List.prefix_append _ _), hpe, hps⟩

/- A request that says nothing to the receiver. -/
theorem Faithful.silent {a : α} (h : Faithful r requests stream) (ha : r.isEvent a = false)
    (happly : ∀ s, r.apply s a = s)
    : Faithful r (requests ++ [a]) stream := by
  constructor
  . rw [h.events, Receiver.events_append]
    simp [Receiver.events, ha]
  . rw [h.state, Receiver.state_append, List.foldl_cons, happly]
    rfl
  . intro before e after heq he
    obtain ⟨past, hpast, hpe, hps⟩ := h.upToDate before e after heq he
    exact ⟨past, hpast.trans (List.prefix_append _ _), hpe, hps⟩

/- An element that a part of a stream does not have is before that part or behind it. -/
theorem split_of_not_mem {before middle after front back : List α} {e : α}
    (h : before ++ middle ++ after = front ++ e :: back) (he : e ∉ middle)
    : (∃ rest, before = front ++ e :: rest ∧ back = rest ++ middle ++ after)
        ∨
      ∃ rest, after = rest ++ e :: back ∧ front = before ++ middle ++ rest := by
  rw [List.append_assoc, List.append_eq_append_iff] at h
  rcases h with ⟨rest, hfront, hrest⟩ | ⟨rest, hbefore, hrest⟩
  . rw [List.append_eq_append_iff] at hrest
    rcases hrest with ⟨rest', hfront', hrest'⟩ | ⟨rest', hmiddle, hrest'⟩
    . exact Or.inr ⟨rest', hrest', by rw [hfront, hfront', List.append_assoc]⟩
    . cases rest' with
      | nil => exact Or.inr ⟨[], by simpa using hrest'.symm, by simp [hfront, hmiddle]⟩
      | cons b rest' =>
        rw [List.cons_append, List.cons.injEq] at hrest'
        rw [hmiddle, hrest'.left] at he
        simp at he
  . cases rest with
    | nil =>
      rw [List.nil_append] at hrest
      cases middle with
      | nil => exact Or.inr ⟨[], by simpa using hrest.symm, by simpa using hbefore.symm⟩
      | cons b middle =>
        rw [List.cons_append, List.cons.injEq] at hrest
        simp [hrest.left] at he
    | cons b rest =>
      rw [List.cons_append, List.cons.injEq] at hrest
      refine Or.inl ⟨rest, ?_, ?_⟩
      . rw [hbefore, hrest.left]
      . rw [List.append_assoc]
        exact hrest.right

/- A request is merged into an update that still waits, if no other update is behind it. -/
theorem Faithful.merge {before after : List α} {u u' a : α}
    (h : Faithful r requests (before ++ u :: after))
    (hu : r.isEvent u = false) (hu' : r.isEvent u' = false) (ha : r.isEvent a = false)
    (happly : ∀ s, r.apply s u' = r.apply (r.apply s u) a)
    (hafter : ∀ b, b ∈ after → ∀ s, r.apply s b = s)
    : Faithful r (requests ++ [a]) (before ++ u' :: after) := by
  have hmerged : ∀ rest, (∀ b, b ∈ rest → b ∈ after)
      → r.state (before ++ u' :: rest) = r.state (requests ++ [a]) := by
    intro rest hr
    have hsilent : ∀ b, b ∈ rest → ∀ s, r.apply s b = s := fun b hb => hafter b (hr b hb)
    have hstate := h.state
    rw [Receiver.state_append, List.foldl_cons, Receiver.foldl_eq_self hafter] at hstate
    rw [Receiver.state_append, List.foldl_cons, Receiver.foldl_eq_self hsilent, happly, hstate]
    rw [Receiver.state_append]
    rfl
  have hevents : ∀ rest, r.events (before ++ u' :: rest) = r.events (before ++ u :: rest) := by
    intro rest
    simp [Receiver.events, hu, hu']
  constructor
  . rw [hevents, h.events, Receiver.events_append]
    simp [Receiver.events, ha]
  . exact hmerged after (by simp)
  . intro front e back heq he
    have hmiddle : e ∉ [u'] := by
      intro hmem
      rw [List.mem_singleton.mp hmem, hu'] at he
      contradiction
    have hlist : before ++ [u'] ++ after = front ++ e :: back := by simpa using heq
    rcases split_of_not_mem hlist hmiddle with ⟨rest, hbefore, hback⟩ | ⟨rest, hafter', hfront⟩
    . have hold : before ++ u :: after = front ++ e :: (rest ++ u :: after) := by
        simp [hbefore]
      obtain ⟨past, hpast, hpe, hps⟩ := h.upToDate front e _ hold he
      exact ⟨past, hpast.trans (List.prefix_append _ _), hpe, hps⟩
    . have hold : before ++ u :: after = (before ++ u :: rest) ++ e :: back := by
        simp [hafter']
      have hfront' : front = before ++ u' :: rest := by simpa using hfront
      -- the update now covers all requests, and the event is one of them
      refine ⟨requests ++ [a], List.prefix_refl _, ?_, ?_⟩
      . have hprefix : r.events ((before ++ u :: rest) ++ [e]) <+: r.events requests := by
          rw [← h.events, hold, List.append_cons (before ++ u :: rest) e back]
          rw [Receiver.events_append _ back]
          apply List.prefix_append
        rw [hfront', Receiver.events_append, hevents, ← Receiver.events_append]
        apply hprefix.trans
        rw [Receiver.events_append]
        apply List.prefix_append
      . rw [hfront']
        apply hmerged
        intro b hb
        simp [hafter', hb]

/- An update may be replaced by others that do the same, or by none if it does nothing. -/
theorem Faithful.replace {before after us : List α} {u : α}
    (h : Faithful r requests (before ++ u :: after))
    (hu : r.isEvent u = false) (hus : ∀ b, b ∈ us → r.isEvent b = false)
    (happly : ∀ s, us.foldl r.apply s = r.apply s u)
    : Faithful r requests (before ++ us ++ after) := by
  have hstate : ∀ rest, r.state (before ++ us ++ rest) = r.state (before ++ u :: rest) := by
    intro rest
    simp [happly]
  have hevents : ∀ rest, r.events (before ++ us ++ rest) = r.events (before ++ u :: rest) := by
    intro rest
    simp [Receiver.events_eq_nil hus]
    simp [Receiver.events, hu]
  constructor
  . rw [hevents]
    exact h.events
  . rw [hstate]
    exact h.state
  . intro front e back heq he
    have hmiddle : e ∉ us := by
      intro hmem
      rw [hus e hmem] at he
      contradiction
    rcases split_of_not_mem heq hmiddle with ⟨rest, hbefore, hback⟩ | ⟨rest, hafter, hfront⟩
    . have hold : before ++ u :: after = front ++ e :: (rest ++ u :: after) := by
        simp [hbefore]
      exact h.upToDate front e _ hold he
    . have hold : before ++ u :: after = (before ++ u :: rest) ++ e :: back := by
        simp [hafter]
      obtain ⟨past, hpast, hpe, hps⟩ := h.upToDate _ e back hold he
      refine ⟨past, hpast, ?_, ?_⟩
      . rw [hfront, Receiver.events_append, hevents, ← Receiver.events_append]
        exact hpe
      . rw [hfront, hstate]
        exact hps

theorem Faithful.replaceOne {before after : List α} {u u' : α}
    (h : Faithful r requests (before ++ u :: after))
    (hu : r.isEvent u = false) (hu' : r.isEvent u' = false)
    (happly : ∀ s, r.apply s u' = r.apply s u)
    : Faithful r requests (before ++ u' :: after) := by
  have hone : Faithful r requests (before ++ [u'] ++ after) :=
    h.replace hu (by simpa using hu') happly
  simpa using hone

/-
A stream of values in which a value may stand for the ones before it that have its key: no value is
made up, the last one arrives, and so does every change of the key.
-/
structure Coalesced {β : Type v} [DecidableEq β] (key : α → β) (requests stream : List α) : Prop where
  sublist : stream.Sublist requests
  last : stream.getLast? = requests.getLast?
  changes : (stream.map key).destutter (· ≠ ·) = (requests.map key).destutter (· ≠ ·)

section

variable {β : Type v} [DecidableEq β] {key : α → β}

theorem destutter'_concat (l : List β) (a b : β)
    : (l ++ [b]).destutter' (· ≠ ·) a
        =
      if (a :: l).getLast? = some b then l.destutter' (· ≠ ·) a
      else l.destutter' (· ≠ ·) a ++ [b] := by
  induction l generalizing a with
  | nil =>
    cases Decidable.em (a = b) with
    | inl h => simp [h]
    | inr h => simp [h]
  | cons c l ih =>
    rw [List.cons_append, List.destutter'_cons, List.destutter'_cons, List.getLast?_cons_cons]
    cases Decidable.em (a = c) with
    | inl h =>
      rw [h]
      simp only [ne_eq, not_true_eq_false, if_false]
      apply ih
    | inr h =>
      rw [if_pos h, if_pos h, ih]
      split <;> rfl

theorem destutter_concat (l : List β) (b : β)
    : (l ++ [b]).destutter (· ≠ ·)
        =
      if l.getLast? = some b then l.destutter (· ≠ ·) else l.destutter (· ≠ ·) ++ [b] := by
  cases l with
  | nil => rfl
  | cons a l =>
    rw [List.cons_append, List.destutter_cons', List.destutter_cons']
    apply destutter'_concat

theorem Coalesced.nil (key : α → β) : Coalesced key [] [] := by
  constructor <;> simp

theorem Coalesced.concat (h : Coalesced key requests stream) (a : α)
    : Coalesced key (requests ++ [a]) (stream ++ [a]) := by
  constructor
  . exact h.sublist.append (List.Sublist.refl _)
  . simp
  . rw [List.map_append, List.map_append, List.map_singleton, destutter_concat, destutter_concat]
    rw [h.changes, List.getLast?_map, List.getLast?_map, h.last]

theorem Coalesced.merge {a b : α} (h : Coalesced key requests (stream ++ [b])) (hkey : key a = key b)
    : Coalesced key (requests ++ [a]) (stream ++ [a]) := by
  have hlast : requests.getLast? = some b := by
    rw [← h.last]
    simp
  constructor
  . apply List.Sublist.append _ (List.Sublist.refl _)
    exact (List.sublist_append_left stream [b]).trans h.sublist
  . simp
  . rw [List.map_append, List.map_singleton, hkey, ← List.map_singleton, ← List.map_append, h.changes]
    rw [List.map_append, List.map_singleton, destutter_concat, List.getLast?_map, hlast]
    simp [hkey]

end

end Batching

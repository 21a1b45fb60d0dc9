import PS3Moonlight.Video.FrameRing
import Mathlib.Data.List.Perm.Basic

/-!
This module follows every decoded picture through the frame ring. Pictures are numbered in the order
they are decoded in, history variables record which number each buffer holds and what became of
the numbers that were published.
-/

namespace Video

variable {φ : Type*}

structure FrameHistory (φ : Type*) where
  pictures : List φ
  published : Nat
  holds : Nat → Nat
  shown : List Nat
  dropped : List Nat
  deriving Inhabited

namespace FrameHistory

def empty (φ : Type*) : FrameHistory φ where
  pictures := []
  published := 0
  holds := fun _ => 0
  shown := []
  dropped := []

def noteGetPicture (h : FrameHistory φ) (writeBuf : Nat) (picture : φ) : FrameHistory φ :=
  { h with
    pictures := h.pictures ++ [picture]
    holds := Function.update h.holds writeBuf h.pictures.length }

-- the branch for a full ring drops the entry at `ready_tail`
def notePublish (h : FrameHistory φ) (r : FrameRing φ) : FrameHistory φ :=
  { h with
    published := h.published + 1
    dropped :=
      if r.readyCount < vdecFrameCount - 2 then
        h.dropped
      else
        h.dropped ++ [h.holds (r.readyQueue r.readyTail)] }

-- the drain drops every waiting entry but the newest
def noteDraw (h : FrameHistory φ) (r t : FrameRing φ) : FrameHistory φ :=
  if 0 < r.readyCount then
    { h with
      shown := h.shown ++ [h.holds t.frontBuf.toNat]
      dropped := h.dropped ++ r.waiting.dropLast.map h.holds }
  else
    h

def note (r : FrameRing φ) (e : FrameRing.Event φ) (t : FrameRing φ) (h : FrameHistory φ)
    : FrameHistory φ :=
  match e with
  | .getPicture picture _ => h.noteGetPicture r.writeBuf picture
  | .publish _ => h.notePublish r
  | .rollStats _ => h
  | .draw _ => h.noteDraw r t

def machine (mem : FrameRing φ)
    : Transition.Machine (FrameRing φ × FrameHistory φ) (FrameRing.Event φ) :=
  (FrameRing.machine mem).instrument (empty φ) note

/- The history does not restrict the ring: what holds with every history holds of every run. -/
theorem exists_history_iff (mem r : FrameRing φ)
    : (∃ h, (machine mem).Reachable ⟨r, h⟩) ↔ (FrameRing.machine mem).Reachable r := by
  apply Transition.Machine.instrument_reachable_iff

structure Inv (r : FrameRing φ) (h : FrameHistory φ) : Prop where
  ring : r.Inv
  length_pictures : h.pictures.length = h.published + if r.decoded then 1 else 0
  writing : r.decoded → h.holds r.writeBuf = h.published
  count_le : r.readyCount ≤ h.published
  waiting : r.waiting.map h.holds = List.range' (h.published - r.readyCount) r.readyCount
  shown_increasing : h.shown.Pairwise (· < ·)
  shown_lt : ∀ k, k ∈ h.shown → k < h.published - r.readyCount
  conserved : (h.shown ++ h.dropped).Perm (List.range (h.published - r.readyCount))
  front : (r.frontBuf = -1 ∧ h.shown = [])
    ∨ ∃ b : Nat, r.frontBuf = b ∧ h.shown.getLast? = some (h.holds b)
  content : ∀ b : Nat, (b = r.frontBuf ∨ b ∈ r.waiting ∨ (r.decoded ∧ b = r.writeBuf))
    → h.pictures[h.holds b]? = some (r.vdecFrameBufs b)

theorem range_split {p c : Nat} (h : c ≤ p)
    : List.range p = List.range (p - c) ++ List.range' (p - c) c := by
  have hp : p = (p - c) + c := by omega
  conv =>
    lhs
    rw [hp, List.range_eq_range', ← List.range'_append_1]
  simp [List.range_eq_range']

theorem inv_empty (mem : FrameRing φ) : Inv mem.resetVideoRuntimeState (empty φ) where
  ring := FrameRing.inv_resetVideoRuntimeState mem
  length_pictures := by simp [empty, FrameRing.resetVideoRuntimeState]
  writing := by simp [FrameRing.resetVideoRuntimeState]
  count_le := by simp [FrameRing.resetVideoRuntimeState]
  waiting := by simp [FrameRing.waiting, FrameRing.resetVideoRuntimeState]
  shown_increasing := by simp [empty]
  shown_lt := by simp [empty]
  conserved := by simp [empty]
  front := by simp [empty, FrameRing.resetVideoRuntimeState]
  content := by
    intro b hb
    simp [FrameRing.waiting, FrameRing.resetVideoRuntimeState] at hb

theorem inv_getPicture {r : FrameRing φ} {h : FrameHistory φ} (hinv : Inv r h)
    (hdecoded : r.decoded = false) (picture : φ) (clock : Clock)
    : Inv (r.getPicture picture clock) (h.noteGetPicture r.writeBuf picture) := by
  have hring := hinv.ring
  have hlength : h.pictures.length = h.published := by
    simpa [hdecoded] using hinv.length_pictures
  have hholds : ∀ b, b ≠ r.writeBuf → (h.noteGetPicture r.writeBuf picture).holds b = h.holds b := by
    intro b hb
    simp [noteGetPicture, hb]
  have hwaiting : ∀ b, b ∈ r.waiting → b ≠ r.writeBuf := by
    intro b hb heq
    rw [heq] at hb
    apply hring.write_not_waiting hb
  constructor
  . apply FrameRing.inv_getPicture hring picture clock
  . simp [noteGetPicture, FrameRing.getPicture, hlength]
  . simp [noteGetPicture, FrameRing.getPicture, hlength]
  . exact hinv.count_le
  . have hmap : r.waiting.map (h.noteGetPicture r.writeBuf picture).holds = r.waiting.map h.holds := by
      apply List.map_congr_left
      intro b hb
      exact hholds b (hwaiting b hb)
    exact hmap.trans hinv.waiting
  . exact hinv.shown_increasing
  . exact hinv.shown_lt
  . exact hinv.conserved
  . cases hinv.front with
    | inl hnone => exact Or.inl hnone
    | inr hsome =>
      have ⟨b, hb, hlast⟩ := hsome
      refine Or.inr ⟨b, hb, ?_⟩
      have hne : b ≠ r.writeBuf := by
        intro heq
        apply hring.write_ne_front
        rw [hb, heq]
      rw [hholds b hne]
      exact hlast
  . intro b hb
    cases Nat.decEq b r.writeBuf with
    | isTrue heq =>
      rw [heq]
      simp [noteGetPicture, FrameRing.getPicture]
    | isFalse hne =>
      have hold : (b = r.frontBuf ∨ b ∈ r.waiting ∨ (r.decoded ∧ b = r.writeBuf)) := by
        cases hb with
        | inl hb => exact Or.inl hb
        | inr hb =>
          cases hb with
          | inl hb => exact Or.inr (Or.inl hb)
          | inr hb => exact absurd hb.right hne
      have hcontent := hinv.content b hold
      have hlt : h.holds b < h.pictures.length := by
        have ⟨hlt, _⟩ := List.getElem?_eq_some_iff.mp hcontent
        exact hlt
      rw [hholds b hne]
      simp only [noteGetPicture, FrameRing.getPicture, Function.update_of_ne hne]
      rw [List.getElem?_append_left hlt]
      exact hcontent

/-
What waits after a publish, in numbers: the newest `ready_count` of the published pictures.
-/
theorem map_waiting_enqueue {r : FrameRing φ} {h : FrameHistory φ} (hinv : Inv r h)
    (hdecoded : r.decoded = true) (clock : Clock)
    : (r.enqueue clock).waiting.map h.holds
          =
        List.range' (h.published + 1 - (r.enqueue clock).readyCount) (r.enqueue clock).readyCount
        ∧
      (r.enqueue clock).readyCount ≤ h.published + 1 := by
  have hcount := hinv.count_le
  rw [FrameRing.waiting_enqueue hinv.ring]
  unfold FrameRing.enqueue
  dsimp only
  split
  . dsimp only
    refine ⟨?_, by omega⟩
    rw [List.map_append, hinv.waiting, List.map_singleton, hinv.writing hdecoded]
    rw [List.range'_1_concat]
    have hstart : h.published + 1 - (r.readyCount + 1) = h.published - r.readyCount := by omega
    have hlast : h.published - r.readyCount + r.readyCount = h.published := by omega
    rw [hstart, hlast]
  . next hfull =>
    dsimp only
    refine ⟨?_, by omega⟩
    have ⟨c, hc⟩ : ∃ c, r.readyCount = c + 1 := by
      refine ⟨r.readyCount - 1, ?_⟩
      unfold vdecFrameCount at hfull
      omega
    rw [List.map_append, List.map_drop, hinv.waiting, List.map_singleton, hinv.writing hdecoded]
    rw [hc, List.range'_succ, List.drop_one, List.tail_cons, List.range'_1_concat]
    have hstart : h.published - (c + 1) + 1 = h.published + 1 - (c + 1) := by omega
    have hlast : h.published + 1 - (c + 1) + c = h.published := by omega
    rw [hstart, hlast]

/- What is settled after a publish: all but the newest pictures that wait now. -/
theorem settled_notePublish {r : FrameRing φ} {h : FrameHistory φ} (hinv : Inv r h) (clock : Clock)
    : ((h.notePublish r).dropped = h.dropped
        ∧ h.published + 1 - (r.enqueue clock).readyCount = h.published - r.readyCount)
      ∨ ((h.notePublish r).dropped = h.dropped ++ [h.published - r.readyCount]
        ∧ h.published + 1 - (r.enqueue clock).readyCount = h.published - r.readyCount + 1) := by
  have hring := hinv.ring
  have hcount := hinv.count_le
  unfold notePublish FrameRing.enqueue
  dsimp only
  split
  . refine Or.inl ⟨rfl, ?_⟩
    dsimp only
    omega
  . next hfull =>
    have ⟨c, hc⟩ : ∃ c, r.readyCount = c + 1 := by
      refine ⟨r.readyCount - 1, ?_⟩
      unfold vdecFrameCount at hfull
      omega
    have holdest := hinv.waiting
    unfold FrameRing.waiting at holdest
    rw [hc, Ring.window_eq_cons, List.map_cons, List.range'_succ] at holdest
    injection holdest with holdest _
    rw [Nat.mod_eq_of_lt hring.tail] at holdest
    refine Or.inr ⟨?_, ?_⟩
    . rw [holdest, hc]
    . dsimp only
      omega

theorem inv_publish {r t : FrameRing φ} {h : FrameHistory φ} (hinv : Inv r h)
    (hdecoded : r.decoded = true) (clock : Clock) (hstep : r.publish clock = some t)
    : Inv t (h.notePublish r) := by
  have hring := hinv.ring
  have hcount := hinv.count_le
  have hmap := map_waiting_enqueue hinv hdecoded clock
  have hpublish := FrameRing.inv_publish hring clock hstep
  have ⟨b, heq, _, _⟩ := FrameRing.publish_total (FrameRing.readyCount_enqueue_le hring clock)
  have ⟨kept, hkept, hwaiting⟩ := FrameRing.waiting_enqueue_eq_append hring clock
  rw [heq] at hstep
  injection hstep with hstep
  have hbufs : t.vdecFrameBufs = r.vdecFrameBufs := by
    rw [← hstep]
    unfold FrameRing.enqueue
    dsimp only
    split <;> rfl
  have hfront : t.frontBuf = r.frontBuf := by
    rw [← hstep]
    apply FrameRing.frontBuf_enqueue r clock
  have hw : t.waiting = kept ++ [r.writeBuf] := by
    rw [← hwaiting, ← hstep]
    rfl
  have htcount : t.readyCount = (r.enqueue clock).readyCount := by
    rw [← hstep]
  have hsettled := settled_notePublish hinv clock
  constructor
  . exact hpublish
  . have hlength := hinv.length_pictures
    rw [← hstep]
    simpa [notePublish, hdecoded] using hlength
  . rw [← hstep]
    simp
  . rw [htcount]
    exact hmap.right
  . rw [htcount]
    rw [hw, ← hwaiting]
    exact hmap.left
  . exact hinv.shown_increasing
  . intro k hk
    have hlt := hinv.shown_lt k hk
    rw [htcount]
    cases hsettled with
    | inl hs => exact Nat.lt_of_lt_of_eq hlt hs.right.symm
    | inr hs => exact Nat.lt_of_lt_of_eq (Nat.lt_succ_of_lt hlt) hs.right.symm
  . have hconserved := hinv.conserved
    rw [htcount]
    cases hsettled with
    | inl hs =>
      have hsame : (h.notePublish r).published - (r.enqueue clock).readyCount
          = h.published - r.readyCount := hs.right
      rw [hs.left, hsame]
      exact hconserved
    | inr hs =>
      have hmore : (h.notePublish r).published - (r.enqueue clock).readyCount
          = h.published - r.readyCount + 1 := hs.right
      rw [hs.left, hmore, List.range_succ, ← List.append_assoc]
      exact hconserved.append_right _
  . rw [hfront]
    exact hinv.front
  . intro x hx
    rw [hbufs]
    apply hinv.content
    rw [hfront] at hx
    cases hx with
    | inl hx => exact Or.inl hx
    | inr hx =>
      cases hx with
      | inl hx =>
        rw [hw] at hx
        simp only [List.mem_append, List.mem_singleton] at hx
        cases hx with
        | inl hx => exact Or.inr (Or.inl (hkept.subset hx))
        | inr hx => exact Or.inr (Or.inr ⟨hdecoded, hx⟩)
      | inr hx =>
        rw [← hstep] at hx
        simp at hx

/-
The buffer a draw displays if any waits, in numbers: the last picture that was published.
-/
theorem holds_front_of_draw {r t : FrameRing φ} {h : FrameHistory φ} (hinv : Inv r h)
    (hpos : 0 < r.readyCount) (clock : Clock) (hstep : r.draw clock = some t)
    : ∃ b : Nat, t.frontBuf = b ∧ b ∈ r.waiting ∧ h.holds b = h.published - 1 := by
  have hcount := hinv.count_le
  have ⟨stats, hdraw⟩ := FrameRing.draw_of_pos hinv.ring clock hpos
  rw [hdraw] at hstep
  injection hstep with hstep
  have ⟨c, hc⟩ : ∃ c, r.readyCount = c + 1 := ⟨r.readyCount - 1, by omega⟩
  have hlast := hinv.waiting
  unfold FrameRing.waiting at hlast
  rw [hc, Ring.window_succ, List.map_append, List.range'_1_concat] at hlast
  have hlength : ((Ring.window r.readyQueue vdecFrameCount r.readyTail c).map h.holds).length
      = (List.range' (h.published - (c + 1)) c).length := by
    simp
  have hlast := (List.append_inj hlast hlength).right
  simp only [List.map_singleton, List.cons.injEq, and_true] at hlast
  refine ⟨r.readyQueue ((r.readyTail + (r.readyCount - 1)) % vdecFrameCount), ?_, ?_, ?_⟩
  . rw [← hstep]
  . unfold FrameRing.waiting
    rw [Ring.mem_window]
    exact ⟨r.readyCount - 1, by omega, rfl⟩
  . rw [hc, Nat.add_sub_cancel, hlast]
    omega

/- A draw with pictures waiting, in numbers: the last one is shown and the ones before it are dropped. -/
theorem noteDraw_eq {r t : FrameRing φ} {h : FrameHistory φ} (hinv : Inv r h)
    (hpos : 0 < r.readyCount) {b : Nat} (hb : t.frontBuf = b) (hholds : h.holds b = h.published - 1)
    : h.noteDraw r t
        = { h with
            shown := h.shown ++ [h.published - 1]
            dropped := h.dropped
              ++ List.range' (h.published - r.readyCount) (r.readyCount - 1) } := by
  have ⟨c, hc⟩ : ∃ c, r.readyCount = c + 1 := ⟨r.readyCount - 1, by omega⟩
  have hwaiting := hinv.waiting
  rw [hc] at hwaiting
  unfold noteDraw
  rw [if_pos hpos, hb, Int.toNat_natCast, hholds, List.map_dropLast, hc, hwaiting,
    List.range'_1_concat, List.dropLast_concat, Nat.add_sub_cancel]

/- The displayed number moves from the end of the settled ones to the shown ones. -/
theorem perm_settled {shown dropped : List Nat} {published count : Nat} (hpos : 0 < count)
    (hcount : count ≤ published) (h : (shown ++ dropped).Perm (List.range (published - count)))
    : (shown ++ [published - 1] ++ (dropped ++ List.range' (published - count) (count - 1))).Perm
        (List.range published) := by
  have ⟨c, hc⟩ : ∃ c, count = c + 1 := ⟨count - 1, by omega⟩
  have hlast : published - 1 = published - (c + 1) + c := by omega
  rw [range_split hcount, hc, List.range'_1_concat, Nat.add_sub_cancel, hlast, ← hc]
  have hperm := h.append_right (List.range' (published - count) c ++ [published - count + c])
  apply List.Perm.trans _ hperm
  rw [List.append_assoc, List.append_assoc]
  apply List.Perm.append_left
  rw [← List.append_assoc dropped]
  apply List.perm_append_comm

theorem inv_draw {r t : FrameRing φ} {h : FrameHistory φ} (hinv : Inv r h) (clock : Clock)
    (hstep : r.draw clock = some t)
    : Inv t (h.noteDraw r t) := by
  have hring := hinv.ring
  cases Nat.eq_zero_or_pos r.readyCount with
  | inl hzero =>
    rw [FrameRing.draw_of_zero clock hzero] at hstep
    injection hstep with hstep
    unfold noteDraw
    rw [if_neg (by omega), ← hstep]
    exact hinv
  | inr hpos =>
    have hcount := hinv.count_le
    have hinvdraw := FrameRing.inv_draw hring clock hstep
    have ⟨b, hb, hmem, hholds⟩ := holds_front_of_draw hinv hpos clock hstep
    have ⟨stats, hdraw⟩ := FrameRing.draw_of_pos hring clock hpos
    rw [hdraw] at hstep
    injection hstep with hstep
    have hwaiting : t.waiting = [] := by
      rw [← hstep]
      rfl
    have hzero : t.readyCount = 0 := by
      rw [← hstep]
    rw [noteDraw_eq hinv hpos hb hholds]
    constructor
    . exact hinvdraw
    . rw [← hstep]
      exact hinv.length_pictures
    . rw [← hstep]
      exact hinv.writing
    . omega
    . simp [hwaiting, hzero]
    . rw [List.pairwise_append]
      refine ⟨hinv.shown_increasing, by simp, ?_⟩
      intro x hx y hy
      have := hinv.shown_lt x hx
      simp only [List.mem_singleton] at hy
      omega
    . intro k hk
      rw [hzero]
      simp only [List.mem_append, List.mem_singleton] at hk
      cases hk with
      | inl hk =>
        have := hinv.shown_lt k hk
        dsimp only
        omega
      | inr hk =>
        dsimp only
        omega
    . rw [hzero]
      exact perm_settled hpos hcount hinv.conserved
    . refine Or.inr ⟨b, hb, ?_⟩
      simp [hholds]
    . intro x hx
      have hbufs : t.vdecFrameBufs = r.vdecFrameBufs := by
        rw [← hstep]
      rw [hbufs]
      apply hinv.content
      cases hx with
      | inl hx =>
        have heq : x = b := by omega
        rw [heq]
        exact Or.inr (Or.inl hmem)
      | inr hx =>
        cases hx with
        | inl hx => simp [hwaiting] at hx
        | inr hx =>
          rw [← hstep] at hx
          exact Or.inr (Or.inr hx)

theorem inv_rollStats {r : FrameRing φ} {h : FrameHistory φ} (hinv : Inv r h) (clock : Clock)
    : Inv { r with stats := r.stats.roll clock } h := by
  exact ⟨FrameRing.inv_rollStats hinv.ring clock, hinv.length_pictures, hinv.writing, hinv.count_le,
    hinv.waiting, hinv.shown_increasing, hinv.shown_lt, hinv.conserved, hinv.front, hinv.content⟩

theorem inv_step {r t : FrameRing φ} {h : FrameHistory φ} (hinv : Inv r h) (e : FrameRing.Event φ)
    (hstep : r.step e = some t)
    : Inv t (note r e t h) := by
  cases e with
  | getPicture picture clock =>
    simp only [FrameRing.step] at hstep
    split at hstep
    . simp at hstep
    . next hdecoded =>
      injection hstep with hstep
      rw [← hstep]
      apply inv_getPicture hinv (by simpa using hdecoded) picture clock
  | publish clock =>
    simp only [FrameRing.step] at hstep
    split at hstep
    . next hdecoded => exact inv_publish hinv hdecoded clock hstep
    . simp at hstep
  | rollStats clock =>
    simp only [FrameRing.step, Option.some.injEq] at hstep
    rw [← hstep]
    apply inv_rollStats hinv clock
  | draw clock => exact inv_draw hinv clock hstep

theorem inv_of_reachable {mem r : FrameRing φ} {h : FrameHistory φ}
    (hreach : (machine mem).Reachable ⟨r, h⟩)
    : Inv r h := by
  apply hreach.invariant (fun s => Inv s.fst s.snd)
  . apply inv_empty mem
  . intro s e t hinv hstep
    have hboth := Transition.Machine.instrument_step_eq_some.mp hstep
    have hnext := inv_step hinv e hboth.left
    rw [← hboth.right] at hnext
    exact hnext

/-
The numbers that were published are split among the waiting, the shown and the dropped ones.
-/
theorem published_perm {r : FrameRing φ} {h : FrameHistory φ} (hinv : Inv r h)
    : (r.waiting.map h.holds ++ h.shown ++ h.dropped).Perm (List.range h.published) := by
  rw [range_split hinv.count_le, hinv.waiting, List.append_assoc]
  apply List.Perm.trans List.perm_append_comm
  exact hinv.conserved.append_right _

theorem frames_conserved (mem r : FrameRing φ) (h : FrameHistory φ)
    (hreach : (machine mem).Reachable ⟨r, h⟩)
    : h.shown.Pairwise (· < ·)
        ∧
      (r.waiting.map h.holds ++ h.shown ++ h.dropped).Perm (List.range h.published)
        ∧
      (∀ clock t, r.draw clock = some t → 0 < r.readyCount
        → (h.noteDraw r t).shown = h.shown ++ [h.published - 1]
            ∧
          h.pictures[h.published - 1]? = some (t.vdecFrameBufs t.frontBuf.toNat))
        ∧
      (∀ clock t, r.draw clock = some t → r.readyCount = 0
        → t.frontBuf = r.frontBuf ∧ (h.noteDraw r t).shown = h.shown)
        ∧
      ((r.frontBuf = -1 ∧ h.shown = [])
          ∨
        ∃ b : Nat,
          r.frontBuf = b
            ∧
          h.shown.getLast? = some (h.holds b) ∧ h.pictures[h.holds b]? = some (r.vdecFrameBufs b)) := by
  have hinv := inv_of_reachable hreach
  refine ⟨hinv.shown_increasing, published_perm hinv, ?_, ?_, ?_⟩
  . intro clock t hstep hpos
    have ⟨b, hb, hmem, hholds⟩ := holds_front_of_draw hinv hpos clock hstep
    have hnext := inv_draw hinv clock hstep
    have hcontent := hnext.content b (Or.inl hb.symm)
    unfold noteDraw at hcontent ⊢
    rw [if_pos hpos] at hcontent ⊢
    dsimp only at hcontent ⊢
    rw [hb, Int.toNat_natCast, hholds]
    rw [hholds] at hcontent
    exact ⟨rfl, hcontent⟩
  . intro clock t hstep hzero
    rw [FrameRing.draw_of_zero clock hzero] at hstep
    injection hstep with hstep
    unfold noteDraw
    rw [if_neg (by omega), hstep]
    exact ⟨rfl, rfl⟩
  . cases hinv.front with
    | inl hnone => exact Or.inl hnone
    | inr hsome =>
      have ⟨b, hb, hlast⟩ := hsome
      exact Or.inr ⟨b, hb, hlast, hinv.content b (Or.inl hb.symm)⟩

theorem frames_conserved_publish_draw
    : ∃ s, (machine (default : FrameRing Nat)).run
        [.getPicture 7 default, .publish default, .getPicture 8 default, .publish default,
          .draw default] = some s
          ∧
        s.snd.shown = [1] ∧ (s.fst.waiting.map s.snd.holds ++ [1] ++ s.snd.dropped).Perm [0, 1] := by
  have ⟨s, hs, hshown, hpublished⟩ : ∃ s, (machine (default : FrameRing Nat)).run
      [.getPicture 7 default, .publish default, .getPicture 8 default, .publish default,
        .draw default] = some s ∧ s.snd.shown = [1] ∧ s.snd.published = 2 := by
    exact ⟨_, rfl, rfl, rfl⟩
  have hperm := (frames_conserved default s.fst s.snd ⟨_, hs⟩).right.left
  rw [hshown, hpublished] at hperm
  exact ⟨s, hs, hshown, hperm⟩

end FrameHistory

end Video

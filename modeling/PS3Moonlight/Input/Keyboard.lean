import PS3Moonlight.Input.Keycode
import PS3Moonlight.Lib.KeyStream

/-!
This module contains the polling of a connected keyboard in `input_loop`: which events it sends to the
host for a report, and that the host holds what the last report says. The events of a key alternate
if and only if no report has two codes for a key that was up.
-/

namespace Input

structure Mkey where
  lCtrl : Bool
  lShift : Bool
  lAlt : Bool
  lWin : Bool
  rCtrl : Bool
  rShift : Bool
  rAlt : Bool
  rWin : Bool
deriving DecidableEq

structure KbReport where
  mkey : Mkey
  keycode : List UInt16

structure KeyEvent where
  vk : Nat
  down : Bool
  modMask : Nat
deriving DecidableEq

def modMask (mkey : Mkey) : Nat :=
  (if mkey.lShift || mkey.rShift then 0x01 else 0) ||| (if mkey.lCtrl || mkey.rCtrl then 0x02 else 0)
    ||| (if mkey.lAlt || mkey.rAlt then 0x04 else 0) ||| (if mkey.lWin || mkey.rWin then 0x08 else 0)

def modifierEvent (vk : Nat) (now last : Bool) (mask : Nat) : List KeyEvent :=
  if now ≠ last then [⟨vk, now, mask⟩] else []

def modifierEvents (now last : Mkey) (mask : Nat) : List KeyEvent :=
  modifierEvent 0xA2 now.lCtrl last.lCtrl mask ++ modifierEvent 0xA3 now.rCtrl last.rCtrl mask
    ++ modifierEvent 0xA0 now.lShift last.lShift mask ++ modifierEvent 0xA1 now.rShift last.rShift mask
    ++ modifierEvent 0xA4 now.lAlt last.lAlt mask ++ modifierEvent 0xA5 now.rAlt last.rAlt mask
    ++ modifierEvent 0x5B now.lWin last.lWin mask ++ modifierEvent 0x5C now.rWin last.rWin mask

/- An array `uint8_t[256]` of flags. -/
abbrev KeyTable := Nat → Bool

/- The pass over the codes of a report, which sets flags in the table of the pressed keys. -/
def keyDownLoop (header : KbHeader) (lastKeysDown : KeyTable) (mask : Nat) (keycode : List UInt16)
    (currentKeysPressed : KeyTable) : List KeyEvent × KeyTable :=
  match keycode with
  | [] => ⟨[], currentKeysPressed⟩
  | raw :: keycode =>
    let vk := ps3TranslateKeycodeToVk header raw
    if 0 < vk ∧ vk < 256 then
      let currentKeysPressed := fun v => v == vk || currentKeysPressed v
      let event := if !lastKeysDown vk then [⟨vk, true, mask⟩] else []
      let rest := keyDownLoop header lastKeysDown mask keycode currentKeysPressed
      ⟨event ++ rest.fst, rest.snd⟩
    else
      keyDownLoop header lastKeysDown mask keycode currentKeysPressed

/- The pass over the tables, behind which the one table is a copy of the other. -/
def keyUpLoop (lastKeysDown currentKeysPressed : KeyTable) (mask : Nat) : List KeyEvent :=
  (List.range 256).flatMap fun vk =>
    if lastKeysDown vk && !currentKeysPressed vk then [⟨vk, false, mask⟩] else []

/- The virtual keys that the codes of a report stand for, in their order. -/
def images (header : KbHeader) (keycode : List UInt16) : List Nat :=
  (keycode.map (ps3TranslateKeycodeToVk header)).filter fun vk => 0 < vk

/-
The table of one keyboard only ever holds images of codes, so the keys of the modifiers are not in it.
-/
structure Keyboard where
  lastMkey : Mkey
  lastKeysDown : KeyTable
  plain : ∀ vk, lastKeysDown vk = true → Plain vk

theorem plain_of_mem_images {header : KbHeader} {keycode : List UInt16} {vk : Nat}
    (h : vk ∈ images header keycode)
    : Plain vk := by
  rw [images, List.mem_filter, List.mem_map] at h
  have ⟨code, _, hcode⟩ := h.left
  rw [← hcode]
  exact plain_ps3TranslateKeycodeToVk header code

theorem images_cons (header : KbHeader) (raw : UInt16) (keycode : List UInt16)
    : images header (raw :: keycode)
        =
      if 0 < ps3TranslateKeycodeToVk header raw then
        ps3TranslateKeycodeToVk header raw :: images header keycode
      else
        images header keycode := by
  rw [images, List.map_cons, List.filter_cons]
  simp [images]

theorem keyDownLoop_snd (header : KbHeader) (last : KeyTable) (mask : Nat) (keycode : List UInt16)
    (current : KeyTable) (vk : Nat)
    : (keyDownLoop header last mask keycode current).snd vk
        =
      (decide (vk ∈ images header keycode) || current vk) := by
  induction keycode generalizing current with
  | nil => simp [keyDownLoop, images]
  | cons raw keycode ih =>
    have hplain := plain_ps3TranslateKeycodeToVk header raw
    rw [keyDownLoop, images_cons]
    dsimp only
    by_cases hpos : 0 < ps3TranslateKeycodeToVk header raw
    . rw [if_pos ⟨hpos, hplain.left⟩, if_pos hpos, ih]
      by_cases heq : vk = ps3TranslateKeycodeToVk header raw
      . simp [heq]
      . simp [heq, beq_eq_false_iff_ne.mpr heq]
    . rw [if_neg (by omega), if_neg hpos, ih]

def initKeyboard : Keyboard where
  lastMkey := ⟨false, false, false, false, false, false, false, false⟩
  lastKeysDown := fun _ => false
  plain := by simp

/- What a poll does with a report of the keyboard. -/
def pollKeyboard (header : KbHeader) (s : Keyboard) (r : KbReport) : Keyboard × List KeyEvent :=
  let mask := modMask r.mkey
  let down := keyDownLoop header s.lastKeysDown mask r.keycode fun _ => false
  ⟨{
      lastMkey := r.mkey
      lastKeysDown := down.snd
      plain := by
        intro vk hvk
        rw [keyDownLoop_snd, Bool.or_false, decide_eq_true_iff] at hvk
        exact plain_of_mem_images hvk
    },
    modifierEvents r.mkey s.lastMkey mask ++ down.fst ++ keyUpLoop s.lastKeysDown down.snd mask⟩

theorem pollKeyboard_lastKeysDown (header : KbHeader) (s : Keyboard) (r : KbReport) (vk : Nat)
    : (pollKeyboard header s r).fst.lastKeysDown vk = decide (vk ∈ images header r.keycode) := by
  simp [pollKeyboard, keyDownLoop_snd]

/- The events of one virtual key. -/
def onKey (vk : Nat) (e : KeyEvent) : Option Bool :=
  if e.vk = vk then some e.down else none

def Mkey.bit (mkey : Mkey) (vk : Nat) : Bool :=
  match vk with
  | 0xA2 => mkey.lCtrl
  | 0xA3 => mkey.rCtrl
  | 0xA0 => mkey.lShift
  | 0xA1 => mkey.rShift
  | 0xA4 => mkey.lAlt
  | 0xA5 => mkey.rAlt
  | 0x5B => mkey.lWin
  | 0x5C => mkey.rWin
  | _ => false

theorem Mkey.bit_of_not_mem (mkey : Mkey) {vk : Nat} (h : vk ∉ modifierVks) : mkey.bit vk = false := by
  unfold Mkey.bit
  split <;> first | rfl | (exfalso; exact h (by decide))

open KeyStream

theorem actions_modifierEvent (vk v : Nat) (now last : Bool) (mask : Nat)
    : actions (onKey vk) (modifierEvent v now last mask) = if v = vk then follow last now else [] := by
  unfold modifierEvent follow
  by_cases hv : v = vk <;> by_cases h : now = last <;> simp [h, hv, actions, onKey]

theorem actions_modifierEvents (vk : Nat) (now last : Mkey) (mask : Nat)
    : actions (onKey vk) (modifierEvents now last mask) = follow (last.bit vk) (now.bit vk) := by
  simp only [modifierEvents, actions_append, actions_modifierEvent]
  by_cases h : vk ∈ modifierVks
  . simp only [modifierVks, List.mem_cons, List.not_mem_nil, or_false] at h
    rcases h with h | h | h | h | h | h | h | h <;> simp [h, Mkey.bit]
  . rw [Mkey.bit_of_not_mem now h, Mkey.bit_of_not_mem last h]
    simp only [modifierVks, List.mem_cons, List.not_mem_nil, or_false, not_or] at h
    simp [h, follow, Ne.symm]

/- A key that was up goes down with every code that stands for it. -/
theorem actions_keyDownLoop (header : KbHeader) (last : KeyTable) (mask : Nat)
    (keycode : List UInt16) (current : KeyTable) (vk : Nat)
    : actions (onKey vk) (keyDownLoop header last mask keycode current).fst
        =
      if last vk then [] else List.replicate ((images header keycode).count vk) true := by
  induction keycode generalizing current with
  | nil => simp [keyDownLoop, images, actions]
  | cons raw keycode ih =>
    have hplain := plain_ps3TranslateKeycodeToVk header raw
    rw [keyDownLoop, images_cons]
    dsimp only
    by_cases hpos : 0 < ps3TranslateKeycodeToVk header raw
    . rw [if_pos ⟨hpos, hplain.left⟩, if_pos hpos, actions_append, ih]
      by_cases heq : ps3TranslateKeycodeToVk header raw = vk
      . rw [heq, List.count_cons_self]
        cases last vk with
        | true => simp [actions]
        | false => simp [actions, onKey, List.replicate_succ]
      . rw [List.count_cons_of_ne heq]
        cases last (ps3TranslateKeycodeToVk header raw) with
        | true => simp [actions]
        | false => simp [actions, onKey, heq]
    . rw [if_neg (by omega), if_neg hpos, ih]

theorem actions_keyUpLoop (last current : KeyTable) (mask vk : Nat) (h : last vk = true → vk < 256)
    : actions (onKey vk) (keyUpLoop last current mask)
        =
      if last vk && !current vk then [false] else [] := by
  have hrange : ∀ n, actions (onKey vk) ((List.range n).flatMap fun v =>
        if last v && !current v then [⟨v, false, mask⟩] else [])
      = if vk < n ∧ (last vk && !current vk) = true then [false] else [] := by
    intro n
    induction n with
    | zero => simp [actions]
    | succ n ih =>
      rw [List.range_succ, List.flatMap_append, actions_append, ih, List.flatMap_singleton]
      by_cases hn : n = vk
      . rw [if_neg (by omega), hn, List.nil_append]
        cases hc : last vk && !current vk with
        | true => simp [actions, onKey]
        | false => simp [actions]
      . have hlt : vk < n + 1 ↔ vk < n := by omega
        have hnone : actions (onKey vk)
            (if (last n && !current n) = true then [⟨n, false, mask⟩] else []) = [] := by
          split
          . simp [actions, onKey, hn]
          . rfl
        rw [hnone, List.append_nil]
        simp only [hlt]
  rw [keyUpLoop, hrange]
  cases hl : last vk with
  | true => simp [h hl]
  | false => simp

/- What a poll sends for one virtual key. -/
theorem actions_pollKeyboard (header : KbHeader) (s : Keyboard) (r : KbReport) (vk : Nat)
    : actions (onKey vk) (pollKeyboard header s r).snd
        =
      follow (s.lastMkey.bit vk) (r.mkey.bit vk)
        ++ (if s.lastKeysDown vk then [] else
          List.replicate ((images header r.keycode).count vk) true)
        ++ if s.lastKeysDown vk && !decide (vk ∈ images header r.keycode) then [false] else [] := by
  have hlast : s.lastKeysDown vk = true → vk < 256 := fun h => (s.plain vk h).left
  simp only [pollKeyboard, actions_append, actions_modifierEvents, actions_keyDownLoop]
  rw [actions_keyUpLoop _ _ _ _ hlast, keyDownLoop_snd, Bool.or_false]

/- Whether the host holds the key. -/
def Keyboard.holds (vk : Nat) (s : Keyboard) : Bool :=
  s.lastMkey.bit vk || s.lastKeysDown vk

def KbReport.describes (header : KbHeader) (vk : Nat) (r : KbReport) : Bool :=
  r.mkey.bit vk || decide (vk ∈ images header r.keycode)

theorem holds_pollKeyboard (header : KbHeader) (s : Keyboard) (r : KbReport) (vk : Nat)
    : (pollKeyboard header s r).fst.holds vk = r.describes header vk := by
  rw [Keyboard.holds, pollKeyboard_lastKeysDown]
  rfl

/- A modifier never is in the table, and never is the image of a code. -/
theorem actions_pollKeyboard_of_modifier (header : KbHeader) (s : Keyboard) (r : KbReport)
    {vk : Nat} (h : vk ∈ modifierVks)
    : s.lastKeysDown vk = false
        ∧ vk ∉ images header r.keycode
        ∧ actions (onKey vk) (pollKeyboard header s r).snd
          = follow (s.lastMkey.bit vk) (r.mkey.bit vk) := by
  have hlast : s.lastKeysDown vk = false := by
    rw [← Bool.not_eq_true]
    exact fun hlast => (s.plain vk hlast).right h
  have hmem : vk ∉ images header r.keycode := fun hmem => (plain_of_mem_images hmem).right h
  refine ⟨hlast, hmem, ?_⟩
  rw [actions_pollKeyboard, hlast, List.count_eq_zero_of_not_mem hmem]
  simp

theorem heldAfter_pollKeyboard (header : KbHeader) (s : Keyboard) (r : KbReport) (vk : Nat)
    : heldAfter (s.holds vk) (actions (onKey vk) (pollKeyboard header s r).snd)
        =
      (pollKeyboard header s r).fst.holds vk := by
  rw [holds_pollKeyboard, KbReport.describes, Keyboard.holds]
  by_cases h : vk ∈ modifierVks
  . have hmod := actions_pollKeyboard_of_modifier header s r h
    rw [hmod.right.right, hmod.left, Bool.or_false, heldAfter_follow]
    simp [hmod.right.left]
  . rw [actions_pollKeyboard, Mkey.bit_of_not_mem _ h, Mkey.bit_of_not_mem _ h]
    simp only [Bool.false_or, follow, if_true, List.nil_append]
    cases s.lastKeysDown vk with
    | true => by_cases hmem : vk ∈ images header r.keycode <;> simp [hmem, heldAfter]
    | false =>
      by_cases hmem : vk ∈ images header r.keycode
      . simp [hmem, heldAfter_replicate false true (List.count_pos_iff.mpr hmem)]
      . simp [hmem, List.count_eq_zero_of_not_mem hmem, heldAfter]

theorem alternates_pollKeyboard (header : KbHeader) (s : Keyboard) (r : KbReport) (vk : Nat)
    : Alternates (s.holds vk) (actions (onKey vk) (pollKeyboard header s r).snd)
        ↔
      (s.lastKeysDown vk = false → (images header r.keycode).count vk ≤ 1) := by
  rw [Keyboard.holds]
  by_cases h : vk ∈ modifierVks
  . have hmod := actions_pollKeyboard_of_modifier header s r h
    rw [hmod.right.right, hmod.left, Bool.or_false, List.count_eq_zero_of_not_mem hmod.right.left]
    simp [alternates_follow]
  . rw [actions_pollKeyboard, Mkey.bit_of_not_mem _ h, Mkey.bit_of_not_mem _ h]
    simp only [Bool.false_or, follow, if_true, List.nil_append]
    cases s.lastKeysDown vk with
    | true => by_cases hmem : vk ∈ images header r.keycode <;> simp [hmem, Alternates]
    | false => simp [alternates_replicate]

end Input

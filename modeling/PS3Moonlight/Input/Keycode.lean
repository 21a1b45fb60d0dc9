import Mathlib.Data.List.Basic

/-!
This module contains the translation of the key codes of the PS3 to the virtual keys of the host. The
flags and the raw key codes come from a header of the SDK, so they are a parameter.
-/

namespace Input

/- The raw keys that the translation knows. -/
inductive RawKey where
  | escape
  | capsLock
  | f1
  | f2
  | f3
  | f4
  | f5
  | f6
  | f7
  | f8
  | f9
  | f10
  | f11
  | f12
  | printscreen
  | scrollLock
  | pause
  | insert
  | home
  | pageUp
  | delete
  | end
  | pageDown
  | rightArrow
  | leftArrow
  | downArrow
  | upArrow
  | numLock
  | application

def RawKey.vk (key : RawKey) : Nat :=
  match key with
  | .escape => 0x1B
  | .capsLock => 0x14
  | .f1 => 0x70
  | .f2 => 0x71
  | .f3 => 0x72
  | .f4 => 0x73
  | .f5 => 0x74
  | .f6 => 0x75
  | .f7 => 0x76
  | .f8 => 0x77
  | .f9 => 0x78
  | .f10 => 0x79
  | .f11 => 0x7A
  | .f12 => 0x7B
  | .printscreen => 0x2C
  | .scrollLock => 0x91
  | .pause => 0x13
  | .insert => 0x2D
  | .home => 0x24
  | .pageUp => 0x21
  | .delete => 0x2E
  | .end => 0x23
  | .pageDown => 0x22
  | .rightArrow => 0x27
  | .leftArrow => 0x25
  | .downArrow => 0x28
  | .upArrow => 0x26
  | .numLock => 0x90
  | .application => 0x5D

/- The keys of the numeric keypad. -/
inductive KpadKey where
  | kpadSlash
  | kpadAsterisk
  | kpadMinus
  | kpadPlus
  | kpadEnter
  | kpad1
  | kpad2
  | kpad3
  | kpad4
  | kpad5
  | kpad6
  | kpad7
  | kpad8
  | kpad9
  | kpad0
  | kpadPeriod

def KpadKey.vk (key : KpadKey) : Nat :=
  match key with
  | .kpadSlash => 0x6F
  | .kpadAsterisk => 0x6A
  | .kpadMinus => 0x6D
  | .kpadPlus => 0x6B
  | .kpadEnter => 0x0D
  | .kpad1 => 0x61
  | .kpad2 => 0x62
  | .kpad3 => 0x63
  | .kpad4 => 0x64
  | .kpad5 => 0x65
  | .kpad6 => 0x66
  | .kpad7 => 0x67
  | .kpad8 => 0x68
  | .kpad9 => 0x69
  | .kpad0 => 0x60
  | .kpadPeriod => 0x6E

/- `KB_RAWDAT`, `KB_KEYPAD` and which key the codes of `KB_RAWKEY_...` are for. -/
structure KbHeader where
  rawdat : UInt16
  keypad : UInt16
  rawKey : UInt8 → Option RawKey
  kpadKey : UInt8 → Option KpadKey

/- The standard control and punctuation characters. -/
def punctuationVk (code : Nat) : Option Nat :=
  match code with
  | 0x0D | 0x0A => some 0x0D
  | 0x1B => some 0x1B
  | 0x08 => some 0x08
  | 0x09 => some 0x09
  | 32 => some 0x20 -- the blank
  | 45 | 95 => some 0xBD -- - _
  | 61 | 43 => some 0xBB -- = +
  | 91 | 123 => some 0xDB -- [ {
  | 93 | 125 => some 0xDD -- ] }
  | 92 | 124 => some 0xDC -- \ |
  | 59 | 58 => some 0xBA -- ; :
  | 39 | 34 => some 0xDE -- ' "
  | 96 | 126 => some 0xC0 -- ` ~
  | 44 | 60 => some 0xBC -- , <
  | 46 | 62 => some 0xBE -- . >
  | 47 | 63 => some 0xBF -- / ?
  | 41 => some 0x30 -- )
  | 33 => some 0x31 -- !
  | 64 => some 0x32 -- @
  | 35 => some 0x33 -- #
  | 36 => some 0x34 -- $
  | 37 => some 0x35 -- %
  | 94 => some 0x36 -- ^
  | 38 => some 0x37 -- &
  | 42 => some 0x38 -- *
  | 40 => some 0x39 -- (
  | _ => none

/- The raw usage identifiers. -/
def hidVk (code : Nat) : Nat :=
  if 0x04 ≤ code ∧ code ≤ 0x1D then 0x41 + (code - 0x04)
  else if 0x1E ≤ code ∧ code ≤ 0x26 then 0x31 + (code - 0x1E)
  else if code = 0x27 then 0x30
  else if code = 0x28 then 0x0D
  else if code = 0x29 then 0x1B
  else if code = 0x2A then 0x08
  else if code = 0x2B then 0x09
  else if code = 0x2C then 0x20
  else if code = 0x2D then 0xBD
  else if code = 0x2E then 0xBB
  else if code = 0x2F then 0xDB
  else if code = 0x30 then 0xDD
  else if code = 0x31 then 0xDC
  else if code = 0x33 then 0xBA
  else if code = 0x34 then 0xDE
  else if code = 0x35 then 0xC0
  else if code = 0x36 then 0xBC
  else if code = 0x37 then 0xBE
  else if code = 0x38 then 0xBF
  else if code = 0x39 then 0x14
  else if 0x3A ≤ code ∧ code ≤ 0x45 then 0x70 + (code - 0x3A)
  else if code = 0x46 then 0x2C
  else if code = 0x47 then 0x91
  else if code = 0x48 then 0x13
  else if code = 0x49 then 0x2D
  else if code = 0x4A then 0x24
  else if code = 0x4B then 0x21
  else if code = 0x4C then 0x2E
  else if code = 0x4D then 0x23
  else if code = 0x4E then 0x22
  else if code = 0x4F then 0x27
  else if code = 0x50 then 0x25
  else if code = 0x51 then 0x28
  else if code = 0x52 then 0x26
  else 0

def charVk (code : Nat) : Nat :=
  if 97 ≤ code ∧ code ≤ 122 then
    0x41 + (code - 97)
  else if 65 ≤ code ∧ code ≤ 90 then
    0x41 + (code - 65)
  else if 48 ≤ code ∧ code ≤ 57 then
    0x30 + (code - 48)
  else
    match punctuationVk code with
    | some vk => vk
    | none => hidVk code

def flaggedVk (header : KbHeader) (code : UInt16) : Option Nat :=
  let raw := if code &&& header.rawdat ≠ 0 then header.rawKey code.toUInt8 else none
  let kpad := if code &&& header.keypad ≠ 0 then header.kpadKey code.toUInt8 else none
  match raw with
  | some key => some key.vk
  | none => kpad.map KpadKey.vk

def ps3TranslateKeycodeToVk (header : KbHeader) (code : UInt16) : Nat :=
  match flaggedVk header code with
  | some vk => vk
  | none => charVk code.toNat

/- The virtual keys that the modifiers have. -/
def modifierVks : List Nat :=
  [0xA2, 0xA3, 0xA0, 0xA1, 0xA4, 0xA5, 0x5B, 0x5C]

/-
No code is translated to a virtual key of a modifier, or to anything beyond a byte.
-/

def Plain (vk : Nat) : Prop :=
  vk < 256 ∧ vk ∉ modifierVks

instance decidablePlain (vk : Nat) : Decidable (Plain vk) :=
  inferInstanceAs (Decidable (_ ∧ _))

theorem plain_rawKey (key : RawKey) : Plain key.vk := by
  cases key <;> decide

theorem plain_kpadKey (key : KpadKey) : Plain key.vk := by
  cases key <;> decide

theorem plain_of_le {vk : Nat} (h : vk ≤ 0x5A ∨ 0x60 ≤ vk ∧ vk ≤ 0x91) : Plain vk := by
  simp only [Plain, modifierVks, List.mem_cons, List.not_mem_nil, or_false]
  omega

theorem plain_punctuationVk {code vk : Nat} (h : punctuationVk code = some vk) : Plain vk := by
  unfold punctuationVk at h
  split at h <;> first | (rw [Option.some.injEq] at h; rw [← h]; decide) | contradiction

theorem plain_ite {c : Prop} [Decidable c] {m n : Nat} (hm : c → Plain m) (hn : ¬c → Plain n)
    : Plain (if c then m else n) := by
  split
  . next h => exact hm h
  . next h => exact hn h

theorem plain_hidVk (code : Nat) : Plain (hidVk code) := by
  unfold hidVk
  repeat' apply plain_ite <;> intro _
  all_goals first | decide | (apply plain_of_le; omega)

theorem plain_charVk (code : Nat) : Plain (charVk code) := by
  unfold charVk
  split
  . apply plain_of_le
    omega
  . split
    . apply plain_of_le
      omega
    . split
      . apply plain_of_le
        omega
      . split
        . next h => exact plain_punctuationVk h
        . exact plain_hidVk code

theorem plain_ps3TranslateKeycodeToVk (header : KbHeader) (code : UInt16)
    : Plain (ps3TranslateKeycodeToVk header code) := by
  unfold ps3TranslateKeycodeToVk
  split
  . next vk h =>
    unfold flaggedVk at h
    dsimp only at h
    split at h
    . next key _ =>
      rw [Option.some.injEq] at h
      rw [← h]
      exact plain_rawKey key
    . rw [Option.map_eq_some_iff] at h
      have ⟨key, _, hkey⟩ := h
      rw [← hkey]
      exact plain_kpadKey key
  . exact plain_charVk _

end Input

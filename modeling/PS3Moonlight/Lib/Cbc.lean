import Mathlib.Data.List.Basic

/-!
This module contains the CBC mode of SP 800-38A over an arbitrary type of blocks.
-/

namespace Cbc

variable {β : Type} [XorOp β]

def encrypt (e : β → β) (iv : β) (blocks : List β) : List β :=
  match blocks with
  | [] => []
  | p :: blocks => e (p ^^^ iv) :: encrypt e (e (p ^^^ iv)) blocks

def decrypt (d : β → β) (iv : β) (blocks : List β) : List β :=
  match blocks with
  | [] => []
  | c :: blocks => (d c ^^^ iv) :: decrypt d c blocks

theorem length_encrypt (e : β → β) (iv : β) (blocks : List β)
    : (encrypt e iv blocks).length = blocks.length := by
  induction blocks generalizing iv with
  | nil => rfl
  | cons p blocks ih => rw [encrypt, List.length_cons, List.length_cons, ih]

theorem length_decrypt (d : β → β) (iv : β) (blocks : List β)
    : (decrypt d iv blocks).length = blocks.length := by
  induction blocks generalizing iv with
  | nil => rfl
  | cons c blocks ih => rw [decrypt, List.length_cons, List.length_cons, ih]

theorem decrypt_encrypt {d e : β → β} (hxor : ∀ a b : β, a ^^^ b ^^^ b = a) (h : ∀ b, d (e b) = b)
    (iv : β) (blocks : List β)
    : decrypt d iv (encrypt e iv blocks) = blocks := by
  induction blocks generalizing iv with
  | nil => rfl
  | cons p blocks ih => rw [encrypt, decrypt, h, hxor, ih]

/- If the decryption gets no block right then it does not get the first one right. -/
theorem decrypt_encrypt_ne {d e : β → β} (hxor : ∀ a b : β, a ^^^ b ^^^ b = a)
    (h : ∀ b, d (e b) ≠ b) (iv : β) {blocks : List β} (hblocks : blocks ≠ [])
    : decrypt d iv (encrypt e iv blocks) ≠ blocks := by
  cases blocks with
  | nil => contradiction
  | cons p blocks =>
    rw [encrypt, decrypt]
    intro heq
    injection heq with hfirst
    apply h (p ^^^ iv)
    rw [← hxor (d (e (p ^^^ iv))) iv, hfirst]

/- The chaining value behind some blocks is the last of them. -/
theorem decrypt_append (d : β → β) (iv : β) (first rest : List β)
    : decrypt d iv (first ++ rest) = decrypt d iv first ++ decrypt d (first.getLastD iv) rest := by
  induction first generalizing iv with
  | nil => rfl
  | cons c first ih =>
    rw [List.cons_append, decrypt, decrypt, ih, List.getLastD_cons, List.cons_append]

end Cbc

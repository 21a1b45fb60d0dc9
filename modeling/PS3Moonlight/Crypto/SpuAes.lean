import Mathlib.Algebra.Group.Nat.Defs
import PS3Moonlight.Lib.Aes

/-!
This module contains the AES-128 engine of `spu_crypto.c` and how it relates to AES-128. One byte of the
S-box is wrong, so the key expansion goes wrong for the keys that need this byte, the decryption of
a block with the round keys at hand is right.
-/

namespace Crypto

open Aes (State Column)

/- The array `uint8_t[16]` of a block, a key or an initialization vector. -/
abbrev Block := Vector UInt8 16

def sbox : List UInt8 :=
  [0x63, 0x7c, 0x77, 0x7b, 0xf2, 0x6b, 0x6f, 0xc5, 0x30, 0x01, 0x67, 0x2b, 0xfe, 0xd7, 0xab, 0x76,
   0xca, 0x82, 0xc9, 0x7d, 0xfa, 0x59, 0x47, 0xf0, 0xad, 0xd4, 0xa2, 0xaf, 0x9c, 0xa4, 0x72, 0xc0,
   0xb7, 0xfd, 0x93, 0x26, 0x36, 0x3f, 0xf7, 0xcc, 0x34, 0xa5, 0xe5, 0xf1, 0x71, 0xd8, 0x31, 0x15,
   0x04, 0xc7, 0x23, 0xc3, 0x18, 0x96, 0x05, 0x9a, 0x07, 0x12, 0x80, 0xe2, 0xeb, 0x27, 0xb2, 0x75,
   0x09, 0x83, 0x2c, 0x1a, 0x1b, 0x6e, 0x5a, 0xa0, 0x52, 0x3b, 0xd6, 0xb3, 0x29, 0xe3, 0x2f, 0x84,
   0x53, 0xd1, 0x00, 0xed, 0x20, 0xfc, 0xb1, 0x5b, 0x6a, 0xcb, 0xbe, 0x39, 0x4a, 0x4c, 0x58, 0xcf,
   0xd0, 0xef, 0xaa, 0xfb, 0x43, 0x4d, 0x33, 0x85, 0x45, 0xf9, 0x02, 0x7f, 0x50, 0x3c, 0x9f, 0xa8,
   0x51, 0xa3, 0x40, 0x8f, 0x92, 0x9d, 0x38, 0xf5, 0xbc, 0xb6, 0xda, 0x21, 0x10, 0xff, 0xf3, 0xd2,
   0xcd, 0x0c, 0x13, 0xec, 0x5f, 0x97, 0x44, 0x17, 0xc4, 0xa7, 0x7e, 0x3d, 0x64, 0x5d, 0x19, 0x73,
   0x60, 0x81, 0x4f, 0xdc, 0x22, 0x2a, 0x90, 0x88, 0x46, 0xee, 0xb8, 0x14, 0xde, 0x5e, 0x0b, 0xdb,
   0xe0, 0x32, 0x3a, 0x0a, 0x49, 0x06, 0x24, 0x5e, 0xc2, 0xd3, 0xac, 0x62, 0x91, 0x95, 0xe4, 0x79,
   0xe7, 0xc8, 0x37, 0x6d, 0x8d, 0xd5, 0x4e, 0xa9, 0x6c, 0x56, 0xf4, 0xea, 0x65, 0x7a, 0xae, 0x08,
   0xba, 0x78, 0x25, 0x2e, 0x1c, 0xa6, 0xb4, 0xc6, 0xe8, 0xdd, 0x74, 0x1f, 0x4b, 0xbd, 0x8b, 0x8a,
   0x70, 0x3e, 0xb5, 0x66, 0x48, 0x03, 0xf6, 0x0e, 0x61, 0x35, 0x57, 0xb9, 0x86, 0xc1, 0x1d, 0x9e,
   0xe1, 0xf8, 0x98, 0x11, 0x69, 0xd9, 0x8e, 0x94, 0x9b, 0x1e, 0x87, 0xe9, 0xce, 0x55, 0x28, 0xdf,
   0x8c, 0xa1, 0x89, 0x0d, 0xbf, 0xe6, 0x42, 0x68, 0x41, 0x99, 0x2d, 0x0f, 0xb0, 0x54, 0xbb, 0x16]

def rsbox : List UInt8 :=
  [0x52, 0x09, 0x6a, 0xd5, 0x30, 0x36, 0xa5, 0x38, 0xbf, 0x40, 0xa3, 0x9e, 0x81, 0xf3, 0xd7, 0xfb,
   0x7c, 0xe3, 0x39, 0x82, 0x9b, 0x2f, 0xff, 0x87, 0x34, 0x8e, 0x43, 0x44, 0xc4, 0xde, 0xe9, 0xcb,
   0x54, 0x7b, 0x94, 0x32, 0xa6, 0xc2, 0x23, 0x3d, 0xee, 0x4c, 0x95, 0x0b, 0x42, 0xfa, 0xc3, 0x4e,
   0x08, 0x2e, 0xa1, 0x66, 0x28, 0xd9, 0x24, 0xb2, 0x76, 0x5b, 0xa2, 0x49, 0x6d, 0x8b, 0xd1, 0x25,
   0x72, 0xf8, 0xf6, 0x64, 0x86, 0x68, 0x98, 0x16, 0xd4, 0xa4, 0x5c, 0xcc, 0x5d, 0x65, 0xb6, 0x92,
   0x6c, 0x70, 0x48, 0x50, 0xfd, 0xed, 0xb9, 0xda, 0x5e, 0x15, 0x46, 0x57, 0xa7, 0x8d, 0x9d, 0x84,
   0x90, 0xd8, 0xab, 0x00, 0x8c, 0xbc, 0xd3, 0x0a, 0xf7, 0xe4, 0x58, 0x05, 0xb8, 0xb3, 0x45, 0x06,
   0xd0, 0x2c, 0x1e, 0x8f, 0xca, 0x3f, 0x0f, 0x02, 0xc1, 0xaf, 0xbd, 0x03, 0x01, 0x13, 0x8a, 0x6b,
   0x3a, 0x91, 0x11, 0x41, 0x4f, 0x67, 0xdc, 0xea, 0x97, 0xf2, 0xcf, 0xce, 0xf0, 0xb4, 0xe6, 0x73,
   0x96, 0xac, 0x74, 0x22, 0xe7, 0xad, 0x35, 0x85, 0xe2, 0xf9, 0x37, 0xe8, 0x1c, 0x75, 0xdf, 0x6e,
   0x47, 0xf1, 0x1a, 0x71, 0x1d, 0x29, 0xc5, 0x89, 0x6f, 0xb7, 0x62, 0x0e, 0xaa, 0x18, 0xbe, 0x1b,
   0xfc, 0x56, 0x3e, 0x4b, 0xc6, 0xd2, 0x79, 0x20, 0x9a, 0xdb, 0xc0, 0xfe, 0x78, 0xcd, 0x5a, 0xf4,
   0x1f, 0xdd, 0xa8, 0x33, 0x88, 0x07, 0xc7, 0x31, 0xb1, 0x12, 0x10, 0x59, 0x27, 0x80, 0xec, 0x5f,
   0x60, 0x51, 0x7f, 0xa9, 0x19, 0xb5, 0x4a, 0x0d, 0x2d, 0xe5, 0x7a, 0x9f, 0x93, 0xc9, 0x9c, 0xef,
   0xa0, 0xe0, 0x3b, 0x4d, 0xae, 0x2a, 0xf5, 0xb0, 0xc8, 0xeb, 0xbb, 0x3c, 0x83, 0x53, 0x99, 0x61,
   0x17, 0x2b, 0x04, 0x7e, 0xba, 0x77, 0xd6, 0x26, 0xe1, 0x69, 0x14, 0x63, 0x55, 0x21, 0x0c, 0x7d]

def rcon : List UInt8 :=
  [0x8d, 0x01, 0x02, 0x04, 0x08, 0x10, 0x20, 0x40, 0x80, 0x1b, 0x36]

def lookup (table : List UInt8) (a : UInt8) : UInt8 :=
  table.getD a.toNat 0

/- The four bytes of `round_keys` from `i` on, of which everything before `i` is there already. -/
def nextBytes (roundKeys : List UInt8) (i : Nat) : List UInt8 :=
  let temp := fun k => roundKeys.getD (i - 4 + k) 0
  let old := fun k => roundKeys.getD (i - 16 + k) 0
  if i % 16 = 0 then
    [old 0 ^^^ (lookup sbox (temp 1) ^^^ rcon.getD (i / 16) 0), old 1 ^^^ lookup sbox (temp 2),
      old 2 ^^^ lookup sbox (temp 3), old 3 ^^^ lookup sbox (temp 0)]
  else
    [old 0 ^^^ temp 0, old 1 ^^^ temp 1, old 2 ^^^ temp 2, old 3 ^^^ temp 3]

def keyExpansionLoop (words : Nat) (key : Block) : List UInt8 :=
  match words with
  | 0 => key.toList
  | words + 1 =>
    let roundKeys := keyExpansionLoop words key
    roundKeys ++ nextBytes roundKeys (16 + 4 * words)

/- What `spu_aes128_key_expansion` leaves in `round_keys`. -/
def aes128KeyExpansion (key : Block) : List UInt8 :=
  keyExpansionLoop 40 key

theorem toNat_shiftRight_one (b : UInt8) : (b >>> 1).toNat = b.toNat / 2 := by
  simp [UInt8.toNat_shiftRight, Nat.shiftRight_eq_div_pow]

def gmulLoop (p a b : UInt8) : UInt8 :=
  if a ≠ 0 ∧ b ≠ 0 then
    let p := if b &&& 1 ≠ 0 then p ^^^ a else p
    let a := if a &&& 0x80 ≠ 0 then (a <<< 1) ^^^ 0x1b else a <<< 1
    gmulLoop p a (b >>> 1)
  else
    p
termination_by b.toNat
decreasing_by
  next h =>
  have hb := h.right
  rw [ne_eq, ← UInt8.toNat_inj] at hb
  rw [toNat_shiftRight_one]
  simp only [UInt8.toNat_zero] at hb
  omega

def gmul (a b : UInt8) : UInt8 :=
  gmulLoop 0 a b

def addRoundKey (roundKeys : List UInt8) (r : Nat) (state : Block) : Block :=
  Vector.ofFn fun i => state[i] ^^^ roundKeys.getD (r * 16 + i) 0

def invShiftRows (state : Block) : Block :=
  #v[state[0], state[13], state[10], state[7],
    state[4], state[1], state[14], state[11],
    state[8], state[5], state[2], state[15],
    state[12], state[9], state[6], state[3]]

def invSubBytes (temp : Block) : Block :=
  temp.map (lookup rsbox)

/- Byte `k` of column `i`. -/
def invMixColumn (temp : Block) (i : Fin 4) (k : Nat) : UInt8 :=
  let a := temp[i.val * 4]
  let b := temp[i.val * 4 + 1]
  let c := temp[i.val * 4 + 2]
  let d := temp[i.val * 4 + 3]
  match k with
  | 0 => gmul a 0x0e ^^^ gmul b 0x0b ^^^ gmul c 0x0d ^^^ gmul d 0x09
  | 1 => gmul a 0x09 ^^^ gmul b 0x0e ^^^ gmul c 0x0b ^^^ gmul d 0x0d
  | 2 => gmul a 0x0d ^^^ gmul b 0x09 ^^^ gmul c 0x0e ^^^ gmul d 0x0b
  | _ => gmul a 0x0b ^^^ gmul b 0x0d ^^^ gmul c 0x09 ^^^ gmul d 0x0e

def invMixColumns (temp : Block) : Block :=
  Vector.ofFn fun n => invMixColumn temp ⟨n.val / 4, by omega⟩ (n.val % 4)

/- The loop over the rounds, downwards to round 1. -/
def decryptRounds (roundKeys : List UInt8) (r : Nat) (state : Block) : Block :=
  match r with
  | 0 => state
  | r + 1 =>
    let temp := invSubBytes (invShiftRows state)
    decryptRounds roundKeys r (invMixColumns (addRoundKey roundKeys (r + 1) temp))

def aes128DecryptBlock (roundKeys : List UInt8) (input : Block) : Block :=
  let state := decryptRounds roundKeys 9 (addRoundKey roundKeys 10 input)
  addRoundKey roundKeys 0 (invSubBytes (invShiftRows state))

/-
The tables: `rsbox` is the inverse S-box, `sbox` is the S-box but for one byte.
-/

theorem lookup_sbox_eq_iff (a : UInt8) : lookup sbox a = Aes.sBox a ↔ a ≠ 0xa7 := by
  apply Aes.forall_byte (p := fun a => lookup sbox a = Aes.sBox a ↔ a ≠ 0xa7)
  decide +kernel

theorem lookup_rsbox_lookup_sbox (a : UInt8) : a ≠ 0xa7 → lookup rsbox (lookup sbox a) = a := by
  apply Aes.forall_byte (p := fun a => a ≠ 0xa7 → lookup rsbox (lookup sbox a) = a)
  decide +kernel

theorem lookup_rsbox_sBox (a : UInt8) : lookup rsbox (Aes.sBox a) = a := by
  by_cases h : a = 0xa7
  . rw [h]
    decide +kernel
  . rw [← (lookup_sbox_eq_iff a).mpr h]
    exact lookup_rsbox_lookup_sbox a h

theorem lookup_rsbox (a : UInt8) : lookup rsbox a = Aes.invSBox a := by
  have h := lookup_rsbox_sBox (Aes.invSBox a)
  rw [Aes.sBox_invSBox] at h
  exact h

theorem rcon_eq : ∀ r, r < 10 → (⟨rcon.getD (r + 1) 0, 0, 0, 0⟩ : Column) = Aes.rcon (r + 1) := by
  decide

/-
The product is that of the field.
-/

theorem toNat_xtime (a : UInt8)
    : (if a &&& 0x80 ≠ 0 then (a <<< 1) ^^^ 0x1b else a <<< 1).toNat = Aes.xtime a.toNat := by
  apply Aes.forall_byte
    (p := fun a => (if a &&& 0x80 ≠ 0 then (a <<< 1) ^^^ 0x1b else a <<< 1).toNat
      = Aes.xtime a.toNat)
  decide +kernel

theorem and_one_ne_zero (b : UInt8) : b &&& 1 ≠ 0 ↔ b.toNat % 2 = 1 := by
  apply Aes.forall_byte (p := fun b => b &&& 1 ≠ 0 ↔ b.toNat % 2 = 1)
  decide +kernel

theorem gmulLoop_eq {bits : Nat} (p a b : UInt8) (h : b.toNat < 2 ^ bits)
    : gmulLoop p a b = p ^^^ (Aes.mulLoop bits a.toNat b.toNat).toUInt8 := by
  induction bits generalizing p a b with
  | zero =>
    have hb : b = 0 := by
      rw [← UInt8.toNat_inj, UInt8.toNat_zero]
      omega
    rw [gmulLoop, if_neg (by simp [hb]), Aes.mulLoop]
    simp
  | succ bits ih =>
    rw [gmulLoop]
    split
    . next hne =>
      have hhalf : (b >>> 1).toNat < 2 ^ bits := by
        rw [toNat_shiftRight_one]
        omega
      rw [ih _ _ _ hhalf, toNat_xtime, toNat_shiftRight_one, Aes.mulLoop]
      simp only [and_one_ne_zero]
      split
      . simp [UInt8.xor_assoc]
      . simp
    . next hzero =>
      rw [not_and_or, not_ne_iff, not_ne_iff] at hzero
      cases hzero with
      | inl ha => simp [ha, Aes.mulLoop_zero_left]
      | inr hb => simp [hb, Aes.mulLoop_zero_right]

theorem gmul_eq (a b : UInt8) : gmul a b = Aes.mul a b := by
  rw [gmul, gmulLoop_eq 0 a b b.toNat_lt]
  simp [Aes.mul]

/-
The decryption of a block is the inverse of the cipher with the round keys at hand.
-/

def toState (block : Block) : State :=
  ⟨⟨block[0], block[1], block[2], block[3]⟩, ⟨block[4], block[5], block[6], block[7]⟩,
    ⟨block[8], block[9], block[10], block[11]⟩, ⟨block[12], block[13], block[14], block[15]⟩⟩

theorem toState_eq (block : Block) : toState block = State.ofBytes block.toList := by
  simp [toState, State.ofBytes, State.read, Column.read, List.getD_eq_getElem?_getD]

theorem bytes_toState (block : Block) : (toState block).bytes = block.toList := by
  rw [toState_eq, Aes.State.bytes_ofBytes block.length_toList]

/- The key of a round as the array holds it. -/
def roundKeyAt (roundKeys : List UInt8) (r : Nat) : State :=
  State.read roundKeys (r * 16)

theorem toState_addRoundKey (roundKeys : List UInt8) (r : Nat) (state : Block)
    : toState (addRoundKey roundKeys r state) = toState state ^^^ roundKeyAt roundKeys r := by
  simp [toState, addRoundKey, roundKeyAt, State.read, Column.read, Aes.State.xor_def, Aes.Column.xor_def]

theorem toState_invShiftRows (state : Block)
    : toState (invShiftRows state) = Aes.shiftRows.symm (toState state) := by
  rfl

theorem toState_invSubBytes (state : Block)
    : toState (invSubBytes state) = Aes.subBytes.symm (toState state) := by
  simp [toState, invSubBytes, lookup_rsbox, Aes.subBytes, Aes.State.mapColumns, Aes.Column.map]

theorem toState_invMixColumns (state : Block)
    : toState (invMixColumns state) = Aes.mixColumns.symm (toState state) := by
  simp only [toState, invMixColumns, Vector.getElem_ofFn]
  simp only [invMixColumn, gmul_eq]
  rfl

theorem decryptRounds_eq (roundKeys : List UInt8) (r : Nat) (state : Block)
    : toState (addRoundKey roundKeys 0 (invSubBytes (invShiftRows (decryptRounds roundKeys r state))))
        =
      (Aes.rounds (roundKeyAt roundKeys) r).symm
        (Aes.subBytes.symm (Aes.shiftRows.symm (toState state))) := by
  induction r generalizing state with
  | zero =>
    rw [decryptRounds, toState_addRoundKey, toState_invSubBytes, toState_invShiftRows]
    rfl
  | succ r ih =>
    rw [decryptRounds, ih, toState_invMixColumns, toState_addRoundKey, toState_invSubBytes,
      toState_invShiftRows, Aes.rounds_symm_succ]

theorem aes128DecryptBlock_eq (roundKeys : List UInt8) (input : Block)
    : toState (aes128DecryptBlock roundKeys input)
        =
      (Aes.cipher (roundKeyAt roundKeys)).symm (toState input) := by
  unfold aes128DecryptBlock
  rw [decryptRounds_eq, toState_addRoundKey, Aes.cipher_symm]

/-
The key expansion is that of AES with `sbox` in the place of the S-box.
-/

theorem nextBytes_eq {roundKeys : List UInt8} {n : Nat} (hn : n < 40)
    : nextBytes roundKeys (16 + 4 * n)
        =
      (Aes.nextWord (lookup sbox) (n + 4) (State.read roundKeys (4 * n))).bytes := by
  have htemp (k : Nat) : 16 + 4 * n - 4 + k = 4 * n + 12 + k := by omega
  have hold (k : Nat) : 16 + 4 * n - 16 + k = 4 * n + k := by omega
  unfold nextBytes
  simp only [htemp, hold]
  split
  . next h =>
    have hround : (n + 4) / 4 = n / 4 + 1 := by omega
    have hdiv : (16 + 4 * n) / 16 = n / 4 + 1 := by omega
    rw [Aes.nextWord_of_dvd (by omega), hround, hdiv, ← rcon_eq (n / 4) (by omega)]
    simp [Column.bytes, Aes.Column.xor_def, Aes.rotWord, Column.map, State.read, Column.read]
  . next h =>
    rw [Aes.nextWord_of_not_dvd (by omega)]
    simp [Column.bytes, Aes.Column.xor_def, State.read, Column.read]

theorem length_keyExpansionLoop {words : Nat} (key : Block) (h : words ≤ 40)
    : (keyExpansionLoop words key).length = 16 + 4 * words := by
  induction words with
  | zero => simp [keyExpansionLoop]
  | succ words ih =>
    rw [keyExpansionLoop, List.length_append, ih (by omega), nextBytes_eq (by omega)]
    simp [Column.bytes]
    omega

theorem read_keyExpansionLoop {words n : Nat} (key : Block) (h : words ≤ 40) (hn : n ≤ words)
    : State.read (keyExpansionLoop words key) (4 * n)
        =
      Aes.words (lookup sbox) (toState key) n := by
  induction words generalizing n with
  | zero =>
    have hzero : n = 0 := by omega
    rw [hzero, keyExpansionLoop, Aes.words, toState_eq]
    rfl
  | succ words ih =>
    have hlength := length_keyExpansionLoop key (by omega : words ≤ 40)
    rw [keyExpansionLoop]
    cases Nat.lt_or_eq_of_le hn with
    | inl hlt =>
      rw [Aes.State.read_append _ (by omega)]
      exact ih (by omega) (by omega)
    | inr heq =>
      have hlast := ih (n := words) (by omega) (Nat.le_refl _)
      rw [nextBytes_eq (by omega), heq, Nat.mul_succ, Aes.words_succ, ← hlast]
      rw [Aes.State.read_append_bytes _ (by omega)]

theorem roundKeyAt_aes128KeyExpansion (key : Block) {r : Nat} (h : r ≤ 10)
    : roundKeyAt (aes128KeyExpansion key) r = Aes.roundKey (lookup sbox) (toState key) r := by
  have hpos : r * 16 = 4 * (4 * r) := by omega
  rw [roundKeyAt, hpos]
  apply read_keyExpansionLoop key (by omega)
  omega

/-
The byte of the S-box that is wrong does not come up in the first rounds of the key expansion.
-/
def Avoids (key : State) (rounds : Nat) : Prop :=
  ∀ r, r < rounds → 0xa7 ∉ (Aes.roundKey Aes.sBox key r).c3.bytes

instance decidableAvoids (key : State) (rounds : Nat) : Decidable (Avoids key rounds) :=
  inferInstanceAs (Decidable (∀ r, r < rounds → _))

theorem map_sbox_eq_iff (a : Column)
    : a.map Aes.sBox = a.map (lookup sbox) ↔ 0xa7 ∉ a.bytes := by
  simp only [Column.map, Column.mk.injEq, eq_comm (a := Aes.sBox _), lookup_sbox_eq_iff,
    Column.bytes, List.mem_cons, List.not_mem_nil, or_false, not_or, ne_comm (b := (0xa7 : UInt8))]

/- The key expansion is right up to some round if and only if it avoids the wrong byte that far. -/
theorem aes128KeyExpansion_eq_iff (key : Block) {last : Nat} (hlast : last ≤ 10)
    : (∀ r, r ≤ last
        → Aes.roundKey Aes.sBox (toState key) r = roundKeyAt (aes128KeyExpansion key) r)
        ↔
      Avoids (toState key) last := by
  simp only [Avoids, ← map_sbox_eq_iff]
  rw [← Aes.roundKey_eq_iff]
  constructor
  . intro h r hr
    rw [h r hr, roundKeyAt_aes128KeyExpansion key (by omega)]
  . intro h r hr
    rw [h r hr, roundKeyAt_aes128KeyExpansion key (by omega)]

end Crypto

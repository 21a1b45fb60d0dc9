import Mathlib.Data.List.TakeDrop
import Mathlib.Data.Nat.Bitwise

/-!
This module contains blocks of memory as lists of bytes: reading and overwriting a range of a block,
and the big endian encoding of 32 bit numbers. A write that stays inside of the block replaces
exactly its range, which the lemmas state for a block that is given in three parts.
-/

namespace Bytes

def read (mem : List UInt8) (pos count : Nat) : List UInt8 :=
  (mem.drop pos).take count

def write (mem : List UInt8) (pos : Nat) (src : List UInt8) : List UInt8 :=
  mem.take pos ++ src ++ mem.drop (pos + src.length)

def be32 (n : Nat) : List UInt8 :=
  [(n >>> 24).toUInt8, (n >>> 16).toUInt8, (n >>> 8).toUInt8, n.toUInt8]

def readBe32 (mem : List UInt8) (pos : Nat) : Nat :=
  (mem.getD pos 0).toNat <<< 24
    ||| (mem.getD (pos + 1) 0).toNat <<< 16
    ||| (mem.getD (pos + 2) 0).toNat <<< 8
    ||| (mem.getD (pos + 3) 0).toNat

@[simp]
theorem length_be32 (n : Nat) : (be32 n).length = 4 := by
  rfl

theorem length_write {mem src : List UInt8} {pos : Nat} (h : pos + src.length ≤ mem.length)
    : (write mem pos src).length = mem.length := by
  simp only [write, List.length_append, List.length_take, List.length_drop]
  omega

theorem write_append (pre old src post : List UInt8) (h : old.length = src.length)
    : write (pre ++ (old ++ post)) pre.length src = pre ++ (src ++ post) := by
  unfold write
  rw [List.take_left, ← List.drop_drop, List.drop_left, ← h, List.drop_left]
  simp

/-
A write over the first bytes of what follows a prefix, without naming what it overwrites.
-/
theorem write_after (pre rest src : List UInt8)
    : write (pre ++ rest) pre.length src = pre ++ (src ++ rest.drop src.length) := by
  unfold write
  rw [List.take_left, ← List.drop_drop, List.drop_left]
  simp

theorem take_write {mem : List UInt8} (src : List UInt8) {pos : Nat} (h : pos ≤ mem.length)
    : (write mem pos src).take (pos + src.length) = mem.take pos ++ src := by
  have hpos : (mem.take pos).length = pos := by
    rw [List.length_take]
    omega
  unfold write
  rw [List.take_append_of_le_length]
  . apply List.take_of_length_le
    rw [List.length_append, hpos]
  . rw [List.length_append, hpos]

theorem drop_write {mem src : List UInt8} {pos k : Nat} (hpos : pos + src.length ≤ k)
    (hmem : pos ≤ mem.length)
    : (write mem pos src).drop k = mem.drop k := by
  have hlength : (mem.take pos ++ src).length = pos + src.length := by
    rw [List.length_append, List.length_take]
    omega
  unfold write
  rw [List.drop_append, hlength, List.drop_eq_nil_of_le (by omega), List.drop_drop, List.nil_append]
  congr 1
  omega

theorem shiftLeft_or_toNat (n : Nat) (b : UInt8) : n <<< 8 ||| b.toNat = n * 256 + b.toNat := by
  have hb : b.toNat < 2 ^ 8 := b.toNat_lt
  rw [← Nat.shiftLeft_add_eq_or_of_lt hb, Nat.shiftLeft_eq]

theorem readBe32_eq (mem : List UInt8) (pos : Nat)
    : readBe32 mem pos
        =
      (((mem.getD pos 0).toNat * 256 + (mem.getD (pos + 1) 0).toNat) * 256
        + (mem.getD (pos + 2) 0).toNat) * 256 + (mem.getD (pos + 3) 0).toNat := by
  rw [← shiftLeft_or_toNat, ← shiftLeft_or_toNat, ← shiftLeft_or_toNat]
  simp only [readBe32, Nat.shiftLeft_or_distrib, ← Nat.shiftLeft_add]

theorem readBe32_lt (mem : List UInt8) (pos : Nat) : readBe32 mem pos < 2 ^ 32 := by
  have h₀ := (mem.getD pos 0).toNat_lt
  have h₁ := (mem.getD (pos + 1) 0).toNat_lt
  have h₂ := (mem.getD (pos + 2) 0).toNat_lt
  have h₃ := (mem.getD (pos + 3) 0).toNat_lt
  rw [readBe32_eq]
  omega

theorem readBe32_be32 (pre post : List UInt8) {n : Nat} (hn : n < 2 ^ 32)
    : readBe32 (pre ++ (be32 n ++ post)) pre.length = n := by
  rw [readBe32_eq]
  simp only [be32, List.cons_append, List.nil_append, List.getD_eq_getElem?_getD,
    List.getElem?_append_right (Nat.le_refl _), List.getElem?_append_right (Nat.le_add_right _ _),
    Nat.sub_self, Nat.add_sub_cancel_left, List.getElem?_cons_zero, List.getElem?_cons_succ,
    Option.getD_some, Nat.toUInt8, UInt8.toNat_ofNat', Nat.shiftRight_eq_div_pow]
  omega

theorem be32_injective {m n : Nat} (hm : m < 2 ^ 32) (hn : n < 2 ^ 32) (h : be32 m = be32 n)
    : m = n := by
  have hread := readBe32_be32 [] [] hm
  rw [h, readBe32_be32 [] [] hn] at hread
  omega

/-
What lies behind a block neither shows in a read of the block nor changes with a write of it.
-/

theorem getD_append_left (mem rest : List UInt8) {i : Nat} (h : i < mem.length)
    : (mem ++ rest).getD i 0 = mem.getD i 0 := by
  rw [List.getD_eq_getElem?_getD, List.getD_eq_getElem?_getD, List.getElem?_append_left h]

theorem readBe32_append (mem rest : List UInt8) {pos : Nat} (h : pos + 4 ≤ mem.length)
    : readBe32 (mem ++ rest) pos = readBe32 mem pos := by
  simp only [readBe32]
  rw [getD_append_left _ _ (by omega), getD_append_left _ _ (by omega),
    getD_append_left _ _ (by omega), getD_append_left _ _ (by omega)]

theorem readBe32_append_right (pre mem : List UInt8)
    : readBe32 (pre ++ mem) pre.length = readBe32 mem 0 := by
  simp only [readBe32, List.getD_eq_getElem?_getD, List.getElem?_append_right (Nat.le_refl _),
    List.getElem?_append_right (Nat.le_add_right _ _), Nat.sub_self, Nat.add_sub_cancel_left,
    Nat.zero_add]

theorem write_append_right (mem rest src : List UInt8) {pos : Nat}
    (h : pos + src.length ≤ mem.length)
    : write (mem ++ rest) pos src = write mem pos src ++ rest := by
  unfold write
  rw [List.take_append_of_le_length (by omega), List.drop_append_of_le_length h]
  simp

theorem read_append (mem rest : List UInt8) {count : Nat} (h : count ≤ mem.length)
    : read (mem ++ rest) 0 count = read mem 0 count := by
  simp only [read, List.drop_zero]
  rw [List.take_append_of_le_length h]

/- The four bytes that a field of 32 bits occupies. -/
def field (mem : List UInt8) (pos : Nat) : List UInt8 :=
  [mem.getD pos 0, mem.getD (pos + 1) 0, mem.getD (pos + 2) 0, mem.getD (pos + 3) 0]

theorem eq_append_field (mem : List UInt8) {pos : Nat} (h : pos + 4 ≤ mem.length)
    : mem = mem.take pos ++ (field mem pos ++ mem.drop (pos + 4)) := by
  have hdrop : ∀ i, i < mem.length → mem.drop i = mem.getD i 0 :: mem.drop (i + 1) := by
    intro i hi
    rw [List.drop_eq_getElem_cons hi, List.getD_eq_getElem _ _ hi]
  conv =>
    lhs
    rw [← List.take_append_drop pos mem]
  rw [hdrop pos (by omega), hdrop (pos + 1) (by omega), hdrop (pos + 2) (by omega),
    hdrop (pos + 3) (by omega)]
  rfl

theorem be32_readBe32 (mem : List UInt8) (pos : Nat) : be32 (readBe32 mem pos) = field mem pos := by
  have h₀ := (mem.getD pos 0).toNat_lt
  have h₁ := (mem.getD (pos + 1) 0).toNat_lt
  have h₂ := (mem.getD (pos + 2) 0).toNat_lt
  have h₃ := (mem.getD (pos + 3) 0).toNat_lt
  rw [readBe32_eq]
  simp only [be32, field, List.cons.injEq, and_true, Nat.toUInt8, ← UInt8.toNat_inj,
    UInt8.toNat_ofNat', Nat.shiftRight_eq_div_pow]
  omega

end Bytes

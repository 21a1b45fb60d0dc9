import Mathlib.Data.List.Chain
import PS3Moonlight.Audio.RtpQueue

/-!
This module contains what the order of the audio queue depends on: the numbers of the blocks, how
far they were read, and the numbers that were played. It says what keeps them in order.
-/

namespace Audio

namespace Rtp

open Fec Serial

/- What the order depends on: the number of a block, how far it was read, and if gaps are played. -/
structure Key where
  base : BitVec 16
  index : Nat
  gaps : Bool
deriving DecidableEq, Repr

def FecBlock.key (block : FecBlock) : Key where
  base := block.fecHeader.baseSequenceNumber
  index := block.nextDataPacketIndex
  gaps := block.allowDiscontinuity

def Queue.keys (queue : Queue) : List Key :=
  queue.blocks.map FecBlock.key

/-
The numbers of the blocks are multiples of four, in order, none of them before the oldest one. Only
the oldest block was read from, as far as the next number, and only it may be played with gaps.
-/
structure Ordered (oldest next : BitVec 16) (keys : List Key) : Prop where
  oldest_mod : oldest.toNat % 4 = 0
  next_gap : gap oldest next < 4
  base_mod : ∀ k ∈ keys, k.base.toNat % 4 = 0
  base_gap : ∀ k ∈ keys, gap oldest k.base ≤ 32767
  sorted : keys.Pairwise fun k l => gap oldest k.base < gap oldest l.base
  index : ∀ k ∈ keys, k.index = if k.base = oldest then gap oldest next else 0
  read : gap oldest next ≠ 0 → ∃ k ∈ keys, k.base = oldest
  gaps : ∀ k ∈ keys, k.gaps = true → k.base = oldest

theorem ordered_nil {n : BitVec 16} (h : n.toNat % 4 = 0) : Ordered n n [] := by
  constructor
  . exact h
  . simp
  . simp
  . simp
  . exact List.Pairwise.nil
  . simp
  . simp
  . simp

theorem gap_toNat (a b : BitVec 16)
    : gap a b = if a.toNat ≤ b.toNat then b.toNat - a.toNat else b.toNat + 65536 - a.toNat := by
  have ha := a.isLt
  have hb := b.isLt
  unfold gap
  rw [BitVec.toNat_sub]
  split <;> omega

theorem gap_mod_four {a b : BitVec 16} (ha : a.toNat % 4 = 0) (hb : b.toNat % 4 = 0)
    : gap a b % 4 = 0 := by
  rw [gap_toNat]
  split <;> omega

theorem toNat_base (s : BitVec 16) : (s / 4 * 4).toNat = s.toNat / 4 * 4 := by
  have hs := s.isLt
  rw [BitVec.toNat_mul, BitVec.toNat_udiv]
  have hfour : (4 : BitVec 16).toNat = 4 := by rfl
  rw [hfour]
  omega

section

variable {o n : BitVec 16} {keys : List Key}

/- The oldest block stands in front. -/
theorem Ordered.eq_cons (h : Ordered o n keys) {k : Key} (hk : k ∈ keys) (hbase : k.base = o)
    : ∃ rest, keys = k :: rest := by
  cases hkeys : keys with
  | nil => simp [hkeys] at hk
  | cons first rest =>
    rw [hkeys, List.mem_cons] at hk
    cases hk with
    | inl heq => exact ⟨rest, by rw [heq]⟩
    | inr hmem =>
      have hlt := List.rel_of_pairwise_cons (hkeys ▸ h.sorted) hmem
      rw [hbase, gap_self] at hlt
      omega

/- The block of the next packet is the oldest one. -/
theorem Ordered.base_next (h : Ordered o n keys) : n / 4 * 4 = o := by
  apply BitVec.eq_of_toNat_eq
  rw [toNat_base]
  have hgap := h.next_gap
  have hmod := h.oldest_mod
  have ho := o.isLt
  rw [gap_toNat] at hgap
  split at hgap <;> omega

theorem Ordered.insert {first last : List Key} {k : Key} (h : Ordered o n (first ++ last))
    (hmod : k.base.toNat % 4 = 0) (hgap : gap o k.base ≤ 32767) (hindex : k.index = 0)
    (hgaps : k.gaps = false)
    (hfirst : ∀ l ∈ first, gap o l.base < gap o k.base)
    (hlast : ∀ l ∈ last, gap o k.base < gap o l.base)
    : Ordered o n (first ++ k :: last) := by
  have hmem : ∀ l, l ∈ first ++ k :: last → l = k ∨ l ∈ first ++ last := by
    intro l hl
    rw [List.mem_append, List.mem_cons] at hl
    rw [List.mem_append]
    tauto
  -- A block with the number of the oldest one would be there already if something was read from it.
  have hread : k.base = o → gap o n = 0 := by
    intro hbase
    cases Nat.eq_zero_or_pos (gap o n) with
    | inl hzero => exact hzero
    | inr hpos =>
      obtain ⟨l, hl, hlbase⟩ := h.read (by omega)
      rw [List.mem_append] at hl
      have hself : gap o l.base = 0 := by rw [hlbase, gap_self]
      have hkself : gap o k.base = 0 := by rw [hbase, gap_self]
      cases hl with
      | inl hmem =>
        have hlt := hfirst l hmem
        omega
      | inr hmem =>
        have hlt := hlast l hmem
        omega
  constructor
  . exact h.oldest_mod
  . exact h.next_gap
  . intro l hl
    cases hmem l hl with
    | inl heq => rw [heq, hmod]
    | inr hmem => exact h.base_mod l hmem
  . intro l hl
    cases hmem l hl with
    | inl heq => rw [heq]; exact hgap
    | inr hmem => exact h.base_gap l hmem
  . have hsorted := List.pairwise_append.mp h.sorted
    apply List.pairwise_append.mpr
    refine ⟨hsorted.left, List.pairwise_cons.mpr ⟨hlast, hsorted.right.left⟩, ?_⟩
    intro l hl l' hl'
    cases List.mem_cons.mp hl' with
    | inl heq => rw [heq]; exact hfirst l hl
    | inr hmem => exact hsorted.right.right l hl l' hmem
  . intro l hl
    cases hmem l hl with
    | inl heq =>
      rw [heq, hindex]
      split
      . next hbase => rw [hread hbase]
      . rfl
    | inr hmem => exact h.index l hmem
  . intro hne
    obtain ⟨l, hl, hlbase⟩ := h.read hne
    refine ⟨l, ?_, hlbase⟩
    rw [List.mem_append] at hl
    rw [List.mem_append, List.mem_cons]
    tauto
  . intro l hl hg
    cases hmem l hl with
    | inl heq =>
      rw [heq, hgaps] at hg
      exact absurd hg (by simp)
    | inr hmem => exact h.gaps l hmem hg

/- All but the oldest block are at least a block ahead. -/
theorem Ordered.gap_ge (h : Ordered o n keys) {k : Key} (hk : k ∈ keys) (hne : k.base ≠ o)
    : 4 ≤ gap o k.base := by
  have hmod := gap_mod_four h.oldest_mod (h.base_mod k hk)
  have hpos : gap o k.base ≠ 0 := fun hzero => hne (eq_of_gap_eq_zero hzero)
  omega

/- Nothing was read if the block in front is not the oldest one. -/
theorem Ordered.gap_next_eq_zero {k : Key} {rest : List Key} (h : Ordered o n (k :: rest))
    (hne : k.base ≠ o)
    : gap o n = 0 := by
  cases Nat.eq_zero_or_pos (gap o n) with
  | inl hzero => exact hzero
  | inr hpos =>
    obtain ⟨l, hl, hbase⟩ := h.read (by omega)
    obtain ⟨rest', heq⟩ := h.eq_cons hl hbase
    have hhead := List.head_eq_of_cons_eq heq
    rw [← hhead] at hbase
    exact absurd hbase hne

/- Seen from a block in front the others keep their distances. -/
theorem gap_sub {a b c : BitVec 16} (h : gap a b ≤ gap a c) : gap b c = gap a c - gap a b := by
  have hcases := gap_trans_cases a b c
  have hlt := gap_lt b c
  omega

theorem gap_succ {a b : BitVec 16} (h : gap a b + 1 < 65536) : gap a (b + 1) = gap a b + 1 := by
  have hone : b + 1 = a + BitVec.ofNat 16 (gap a b + 1) := by
    rw [BitVec.ofNat_add, ← BitVec.add_assoc, add_gap]
    rfl
  rw [hone, gap_add_ofNat a h]

/- The next packet is played out of the oldest block, which is dropped after its last one. -/
theorem Ordered.advance {k : Key} {rest : List Key} (h : Ordered o n (k :: rest))
    (hbase : k.base = o) (hindex : k.index + 1 ≠ 4)
    : Ordered o (n + 1) ({ k with index := k.index + 1 } :: rest) := by
  have hread : k.index = gap o n := by
    rw [h.index k List.mem_cons_self, if_pos hbase]
  have hnext := h.next_gap
  have hgap : gap o (n + 1) = gap o n + 1 := gap_succ (by omega)
  have hsorted := List.pairwise_cons.mp h.sorted
  constructor
  . exact h.oldest_mod
  . omega
  . intro l hl
    cases List.mem_cons.mp hl with
    | inl heq => rw [heq]; exact h.base_mod k List.mem_cons_self
    | inr hmem => exact h.base_mod l (List.mem_cons_of_mem k hmem)
  . intro l hl
    cases List.mem_cons.mp hl with
    | inl heq => rw [heq]; exact h.base_gap k List.mem_cons_self
    | inr hmem => exact h.base_gap l (List.mem_cons_of_mem k hmem)
  . exact List.pairwise_cons.mpr hsorted
  . intro l hl
    cases List.mem_cons.mp hl with
    | inl heq =>
      rw [heq]
      simp only
      rw [if_pos hbase, hgap, hread]
    | inr hmem =>
      have hne : l.base ≠ o := by
        intro heq
        have hlt := hsorted.left l hmem
        rw [heq, gap_self] at hlt
        omega
      rw [h.index l (List.mem_cons_of_mem k hmem), if_neg hne, if_neg hne]
  . intro _
    exact ⟨_, List.mem_cons_self, hbase⟩
  . intro l hl hg
    cases List.mem_cons.mp hl with
    | inl heq => rw [heq]; exact hbase
    | inr hmem => exact h.gaps l (List.mem_cons_of_mem k hmem) hg

theorem Ordered.drop {k : Key} {rest : List Key} (h : Ordered o n (k :: rest))
    (hbase : k.base = o) (hindex : k.index + 1 = 4)
    : Ordered (k.base + 4) (n + 1) rest ∧ n + 1 = k.base + 4 := by
  have hread : k.index = gap o n := by
    rw [h.index k List.mem_cons_self, if_pos hbase]
  have hnext : n + 1 = o + 4 := by
    rw [← add_gap o n, ← hread, show k.index = 3 by omega, BitVec.add_assoc]
    rfl
  have hfour : gap o (o + 4) = 4 := gap_add_ofNat o (by decide)
  have hsorted := List.pairwise_cons.mp h.sorted
  have hne : ∀ l ∈ rest, l.base ≠ o := by
    intro l hl heq
    have hlt := hsorted.left l hl
    rw [heq, gap_self] at hlt
    omega
  have hge : ∀ l ∈ rest, 4 ≤ gap o l.base := by
    intro l hl
    exact h.gap_ge (List.mem_cons_of_mem k hl) (hne l hl)
  have hgap : ∀ l ∈ rest, gap (o + 4) l.base = gap o l.base - 4 := by
    intro l hl
    have hle := hge l hl
    rw [gap_sub (a := o) (b := o + 4) (by omega), hfour]
  rw [hbase, hnext]
  refine ⟨?_, rfl⟩
  constructor
  . have hmod := h.oldest_mod
    have ho := o.isLt
    rw [BitVec.toNat_add]
    have hvalue : (4 : BitVec 16).toNat = 4 := by rfl
    rw [hvalue]
    omega
  . simp
  . intro l hl
    exact h.base_mod l (List.mem_cons_of_mem k hl)
  . intro l hl
    have hle := h.base_gap l (List.mem_cons_of_mem k hl)
    rw [hgap l hl]
    omega
  . apply hsorted.right.imp_of_mem
    intro l l' hl hl' hlt
    have hle := hge l hl
    rw [hgap l hl, hgap l' hl']
    omega
  . intro l hl
    rw [h.index l (List.mem_cons_of_mem k hl), if_neg (hne l hl), gap_self, ite_self]
  . simp
  . intro l hl hg
    exact absurd (h.gaps l (List.mem_cons_of_mem k hl) hg) (hne l hl)

theorem Ordered.ne_of_before {k : Key} {rest : List Key} (h : Ordered o n (k :: rest))
    (hbefore : isBefore n k.base = true)
    : k.base ≠ o := by
  intro hbase
  have hnext := h.next_gap
  rw [isBefore_iff, hbase] at hbefore
  omega

/- Nothing of the oldest block has come, so the first one that is there becomes the oldest. -/
theorem Ordered.skip {k : Key} {rest : List Key} (h : Ordered o n (k :: rest))
    (hbefore : isBefore n k.base = true)
    : Ordered k.base k.base (k :: rest) := by
  have hne := h.ne_of_before hbefore
  have hsorted := List.pairwise_cons.mp h.sorted
  have hle : ∀ l ∈ k :: rest, gap o k.base ≤ gap o l.base := by
    intro l hl
    cases List.mem_cons.mp hl with
    | inl heq => rw [heq]
    | inr hmem => exact Nat.le_of_lt (hsorted.left l hmem)
  have hother : ∀ l ∈ k :: rest, l.base ≠ o := by
    intro l hl heq
    have hfar := h.gap_ge List.mem_cons_self hne
    have hnear := hle l hl
    rw [heq, gap_self] at hnear
    omega
  constructor
  . exact h.base_mod k List.mem_cons_self
  . simp
  . exact h.base_mod
  . intro l hl
    have hbound := h.base_gap l hl
    rw [gap_sub (hle l hl)]
    omega
  . apply h.sorted.imp_of_mem
    intro l l' hl hl' hlt
    have hnear := hle l hl
    rw [gap_sub (hle l hl), gap_sub (hle l' hl')]
    omega
  . intro l hl
    rw [h.index l hl, if_neg (hother l hl), gap_self, ite_self]
  . simp
  . intro l hl hg
    exact absurd (h.gaps l hl hg) (hother l hl)

theorem Ordered.base_eq_of_not_before {k : Key} {rest : List Key} (h : Ordered o n (k :: rest))
    (hbefore : isBefore n k.base = false)
    : k.base = o := by
  cases Decidable.em (k.base = o) with
  | inl heq => exact heq
  | inr hne =>
    have hfar := h.gap_ge List.mem_cons_self hne
    have hbound := h.base_gap k List.mem_cons_self
    have hnext := eq_of_gap_eq_zero (h.gap_next_eq_zero hne)
    have hturn := gap_trans_cases o k.base n
    rw [isBefore_eq_false_iff] at hbefore
    rw [hnext, gap_self] at hturn
    rw [hnext] at hbefore
    omega

theorem Ordered.allowGaps {k : Key} {rest : List Key} (h : Ordered o n (k :: rest))
    (hbase : k.base = o)
    : Ordered o n ({ k with gaps := true } :: rest) := by
  have hmem : ∀ l, l ∈ { k with gaps := true } :: rest →
      ∃ l' ∈ k :: rest, l'.base = l.base ∧ l'.index = l.index := by
    intro l hl
    cases List.mem_cons.mp hl with
    | inl heq => exact ⟨k, List.mem_cons_self, by rw [heq], by rw [heq]⟩
    | inr hmem => exact ⟨l, List.mem_cons_of_mem k hmem, rfl, rfl⟩
  constructor
  . exact h.oldest_mod
  . exact h.next_gap
  . intro l hl
    obtain ⟨l', hl', hsame, _⟩ := hmem l hl
    rw [← hsame]
    exact h.base_mod l' hl'
  . intro l hl
    obtain ⟨l', hl', hsame, _⟩ := hmem l hl
    rw [← hsame]
    exact h.base_gap l' hl'
  . exact List.pairwise_cons.mpr (List.pairwise_cons.mp h.sorted)
  . intro l hl
    obtain ⟨l', hl', hsame, hindex⟩ := hmem l hl
    rw [← hsame, ← hindex]
    exact h.index l' hl'
  . intro _
    exact ⟨_, List.mem_cons_self, hbase⟩
  . intro l hl hg
    cases List.mem_cons.mp hl with
    | inl heq => rw [heq]; exact hbase
    | inr hmem => exact h.gaps l (List.mem_cons_of_mem k hmem) hg

theorem eq_add_one_of_gap {a b : BitVec 16} (h : gap a b = 1) : b = a + 1 := by
  rw [← add_gap a b, h]
  rfl

/- Only whole blocks are left out between a number and the one that is played after it. -/
def Follows (a b : BitVec 16) : Prop :=
  isBefore a b = true ∧ (b = a + 1 ∨ (a + 1).toNat % 4 = 0 ∧ b.toNat % 4 = 0)

instance (a b : BitVec 16) : Decidable (Follows a b) :=
  inferInstanceAs (Decidable (_ ∧ _))

/-
Besides the numbers that were played so far follow each other, and the next number is behind the
last one: right behind it, or where the blocks that are there begin.
-/
structure Playing (oldest next : BitVec 16) (synchronizing : Bool) (keys : List Key)
    (played : List (BitVec 16)) : Prop extends Ordered oldest next keys where
  chain : played.IsChain Follows
  last : ∀ a ∈ played.getLast?, gap a next = 1
    ∨ (0 < gap a next ∧ gap a next ≤ 32768 ∧ oldest = next ∧ (a + 1).toNat % 4 = 0
      ∧ ∃ k ∈ keys, k.base = oldest)
  started : synchronizing = true → played ≠ [] → keys ≠ []

variable {synchronizing : Bool} {played : List (BitVec 16)}

theorem Playing.insert {first last : List Key} {k : Key}
    (h : Playing o n synchronizing (first ++ last) played)
    (hmod : k.base.toNat % 4 = 0) (hgap : gap o k.base ≤ 32767) (hindex : k.index = 0)
    (hgaps : k.gaps = false) (hfirst : ∀ l ∈ first, gap o l.base < gap o k.base)
    (hlast : ∀ l ∈ last, gap o k.base < gap o l.base)
    : Playing o n synchronizing (first ++ k :: last) played := by
  constructor
  . exact h.toOrdered.insert hmod hgap hindex hgaps hfirst hlast
  . exact h.chain
  . intro a ha
    cases h.last a ha with
    | inl hone => exact Or.inl hone
    | inr hjump =>
      obtain ⟨hpos, hbound, heq, hend, l, hl, hbase⟩ := hjump
      refine Or.inr ⟨hpos, hbound, heq, hend, l, ?_, hbase⟩
      rw [List.mem_append] at hl
      rw [List.mem_append, List.mem_cons]
      tauto
  . intro _ _
    simp

theorem Playing.resync {m : BitVec 16} (h : Playing o n true [] played) (hmod : m.toNat % 4 = 0)
    : Playing m m true [] played := by
  have hnone : played = [] := by
    cases hplayed : played with
    | nil => rfl
    | cons a rest => exact absurd rfl (h.started rfl (by simp [hplayed]))
  rw [hnone]
  constructor
  . exact ordered_nil hmod
  . exact List.IsChain.nil
  . simp
  . simp

theorem Playing.skip {k : Key} {rest : List Key}
    (h : Playing o n synchronizing (k :: rest) played) (hbefore : isBefore n k.base = true)
    : Playing k.base k.base synchronizing (k :: rest) played := by
  have hne := h.toOrdered.ne_of_before hbefore
  have hnext := eq_of_gap_eq_zero (h.toOrdered.gap_next_eq_zero hne)
  have hbound := h.base_gap k List.mem_cons_self
  constructor
  . exact h.toOrdered.skip hbefore
  . exact h.chain
  . intro a ha
    have hturn := gap_trans_cases a o k.base
    have hlt := gap_lt a k.base
    cases h.last a ha with
    | inl hone =>
      rw [hnext] at hone
      have hend := h.oldest_mod
      rw [eq_add_one_of_gap hone] at hend
      exact Or.inr ⟨by omega, by omega, rfl, hend, k, List.mem_cons_self, rfl⟩
    | inr hjump =>
      -- A block with the oldest number would stand in front.
      obtain ⟨_, _, _, _, l, hl, hbase⟩ := hjump
      obtain ⟨rest', heq⟩ := h.toOrdered.eq_cons hl hbase
      rw [← List.head_eq_of_cons_eq heq] at hbase
      exact absurd hbase hne
  . intro _ _
    simp

theorem Playing.allowGaps {k : Key} {rest : List Key}
    (h : Playing o n synchronizing (k :: rest) played) (hbase : k.base = o)
    : Playing o n synchronizing ({ k with gaps := true } :: rest) played := by
  constructor
  . exact h.toOrdered.allowGaps hbase
  . exact h.chain
  . intro a ha
    cases h.last a ha with
    | inl hone => exact Or.inl hone
    | inr hjump =>
      obtain ⟨hpos, hbound, heq, hend, _⟩ := hjump
      exact Or.inr ⟨hpos, hbound, heq, hend, _, List.mem_cons_self, hbase⟩
  . intro _ _
    simp

theorem Playing.chain_append (h : Playing o n synchronizing keys played)
    : (played ++ [n]).IsChain Follows := by
  apply h.chain.append (List.isChain_singleton n)
  intro a ha b hb
  have hb : n = b := by simpa using hb
  rw [← hb]
  have hturn := gap_trans_cases a n a
  have hlt := gap_lt a n
  rw [gap_self] at hturn
  cases h.last a ha with
  | inl hone =>
    refine ⟨?_, Or.inl (eq_add_one_of_gap hone)⟩
    rw [isBefore_iff]
    omega
  | inr hjump =>
    obtain ⟨hpos, hbound, heq, hend, _⟩ := hjump
    refine ⟨?_, Or.inr ⟨hend, heq ▸ h.oldest_mod⟩⟩
    rw [isBefore_iff]
    omega

theorem gap_next (n : BitVec 16) : gap n (n + 1) = 1 := by
  have hgap := gap_succ (a := n) (b := n) (by simp)
  rw [gap_self] at hgap
  exact hgap

theorem Playing.play {k : Key} {rest : List Key}
    (h : Playing o n synchronizing (k :: rest) played) (hbase : k.base = o)
    (hindex : k.index + 1 ≠ 4)
    : Playing o (n + 1) synchronizing ({ k with index := k.index + 1 } :: rest)
      (played ++ [n]) := by
  constructor
  . exact h.toOrdered.advance hbase hindex
  . exact h.chain_append
  . intro a ha
    have ha : n = a := by simpa using ha
    rw [← ha]
    exact Or.inl (gap_next n)
  . intro _ _
    simp

theorem Playing.playLast {k : Key} {rest : List Key}
    (h : Playing o n synchronizing (k :: rest) played) (hbase : k.base = o)
    (hindex : k.index + 1 = 4)
    : Playing (k.base + 4) (n + 1) false rest (played ++ [n]) := by
  constructor
  . exact (h.toOrdered.drop hbase hindex).left
  . exact h.chain_append
  . intro a ha
    have ha : n = a := by simpa using ha
    rw [← ha]
    exact Or.inl (gap_next n)
  . intro hsync
    exact absurd hsync (by simp)

end

end Rtp

end Audio

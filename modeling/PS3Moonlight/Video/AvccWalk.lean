import PS3Moonlight.Video.SubmitMemory

/-!
This module contains the walk over the length fields on arbitrary bytes: it ends although its sums wrap
around, it stays inside of the bytes it was given, and the only malformed buffers that it lets through
are those with a length field for which a sum does wrap around.
-/

namespace Video
namespace AnnexB

/- The sum that the walk compares with the length and continues at. -/
def behind (w : Walk) : Nat :=
  (w.pos + 4 + Bytes.readBe32 w.mem w.pos) % 2 ^ 32

theorem walkBody_eq_inl_iff {length : Nat} {w w' : Walk} (hlength : length + 4 < 2 ^ 32)
    (hpos : w.pos ≤ length)
    : walkBody length w = .inl w'
        ↔
      w.pos + 4 ≤ length ∧ Bytes.readBe32 w.mem w.pos ≠ 0 ∧ behind w ≤ length
        ∧ w' = ⟨Bytes.write w.mem w.pos startCode, behind w, w.converted + 1⟩ := by
  unfold walkBody behind
  dsimp only
  rw [Nat.mod_eq_of_lt (by omega)]
  split
  . next hroom =>
    split
    . next hbad =>
      simp only [reduceCtorEq, false_iff]
      omega
    . next hgood =>
      rw [not_or, Nat.not_lt] at hgood
      simp only [Sum.inl.injEq, hroom, hgood.left, hgood.right, ne_eq, not_false_eq_true, true_and]
      exact eq_comm
  . next hroom =>
    simp only [reduceCtorEq, false_iff]
    omega

theorem walkBody_eq_inr_iff {length : Nat} {w w' : Walk} (hlength : length + 4 < 2 ^ 32)
    (hpos : w.pos ≤ length)
    : walkBody length w = .inr w'
        ↔
      (length < w.pos + 4 ∨ Bytes.readBe32 w.mem w.pos = 0 ∨ length < behind w) ∧ w' = w := by
  unfold walkBody behind
  dsimp only
  rw [Nat.mod_eq_of_lt (by omega)]
  split
  . next hroom =>
    split
    . next hbad =>
      simp only [Sum.inr.injEq, hbad, or_true, true_and]
      exact eq_comm
    . next hgood =>
      simp only [reduceCtorEq, false_iff]
      omega
  . next hroom =>
    have hshort : length < w.pos + 4 := by omega
    simp only [Sum.inr.injEq, hshort, true_or, true_and]
    exact eq_comm

/-
The bytes that a length field needs if a sum is to wrap around. A start code has none of them, so the
walk uses them up.
-/
def isLarge (b : UInt8) : Bool :=
  1 < b

def large (mem : List UInt8) (length : Nat) : Nat :=
  (mem.take length).countP isLarge

theorem large_le (mem : List UInt8) (length : Nat) : large mem length ≤ length := by
  unfold large
  have hcount : (mem.take length).countP isLarge ≤ (mem.take length).length := by
    apply List.countP_le_length
  rw [List.length_take] at hcount
  omega

theorem countP_startCode : startCode.countP isLarge = 0 := by
  decide

/- A replaced field loses its large bytes and nothing else changes. -/
theorem large_write {mem : List UInt8} {pos length : Nat} (hpos : pos + 4 ≤ length)
    (hsize : length ≤ mem.length)
    : large (Bytes.write mem pos startCode) length + (Bytes.field mem pos).countP isLarge
        =
      large mem length := by
  have hpre : (mem.take pos).length = pos := by
    rw [List.length_take]
    omega
  have hwrite : Bytes.write mem pos startCode
      = mem.take pos ++ (startCode ++ mem.drop (pos + 4)) := by
    unfold Bytes.write
    simp
  have htake : ∀ four : List UInt8, four.length = 4
      → (mem.take pos ++ (four ++ mem.drop (pos + 4))).take length
          = mem.take pos ++ (four ++ (mem.drop (pos + 4)).take (length - pos - 4)) := by
    intro four hfour
    have hfull : four.take (length - pos) = four := by
      apply List.take_of_length_le
      omega
    rw [List.take_append, List.take_append, hpre, hfour, hfull, List.take_of_length_le (by omega)]
  unfold large
  conv =>
    rhs
    rw [Bytes.eq_append_field mem (by omega : pos + 4 ≤ mem.length)]
  rw [hwrite, htake _ rfl, htake _ rfl]
  simp only [List.countP_append, countP_startCode]
  omega

theorem isLarge_eq_false_iff (b : UInt8) : isLarge b = false ↔ b.toNat ≤ 1 := by
  simp only [isLarge, decide_eq_false_iff_not, UInt8.lt_iff_toNat_lt, UInt8.toNat_ofNat]
  omega

/- Without a large byte a length field is far too small for a sum to wrap around. -/
theorem readBe32_lt_of_countP_field {mem : List UInt8} {pos : Nat}
    (h : (Bytes.field mem pos).countP isLarge = 0)
    : Bytes.readBe32 mem pos < 2 ^ 25 := by
  rw [List.countP_eq_zero] at h
  simp only [Bytes.field, List.mem_cons, List.not_mem_nil, or_false, forall_eq_or_imp, forall_eq,
    Bool.not_eq_true, isLarge_eq_false_iff] at h
  rw [Bytes.readBe32_eq]
  omega

/-
Each round either moves on or takes a large byte away, and there are at most as many of them as bytes.
-/
def variant (length : Nat) (w : Walk) : Nat :=
  large w.mem length * (length + 1) + (length - w.pos)

theorem variant_lt_walkFuel (length : Nat) (w : Walk) : variant length w < walkFuel length := by
  have hlarge := Nat.mul_le_mul_right (length + 1) (large_le w.mem length)
  unfold variant walkFuel
  rw [Nat.add_mul length]
  omega

theorem variant_walkBody {length : Nat} {w w' : Walk} (hlength : length < 2 ^ 31)
    (hsize : length ≤ w.mem.length) (hpos : w.pos ≤ length) (h : walkBody length w = .inl w')
    : variant length w' < variant length w := by
  rw [walkBody_eq_inl_iff (by omega) hpos] at h
  have ⟨hroom, _, hbehind, hnext⟩ := h
  have hcount := large_write hroom hsize
  have hread := Bytes.readBe32_lt w.mem w.pos
  rw [hnext]
  unfold variant
  dsimp only
  cases Nat.lt_or_ge (w.pos + 4 + Bytes.readBe32 w.mem w.pos) (2 ^ 32) with
  | inl hfits =>
    have hforward : w.pos < behind w := by
      unfold behind
      rw [Nat.mod_eq_of_lt hfits]
      omega
    have hlarge : large (Bytes.write w.mem w.pos startCode) length ≤ large w.mem length := by
      omega
    have hmul := Nat.mul_le_mul_right (length + 1) hlarge
    omega
  | inr hwraps =>
    have hused : (Bytes.field w.mem w.pos).countP isLarge ≠ 0 := by
      intro hnone
      have := readBe32_lt_of_countP_field hnone
      omega
    have hlarge : large (Bytes.write w.mem w.pos startCode) length + 1 ≤ large w.mem length := by
      omega
    have hmul := Nat.mul_le_mul_right (length + 1) hlarge
    rw [Nat.add_mul] at hmul
    omega

theorem walkBody_length {length : Nat} {w w' : Walk} (hlength : length + 4 < 2 ^ 32)
    (hsize : length ≤ w.mem.length) (hpos : w.pos ≤ length) (h : walkBody length w = .inl w')
    : length ≤ w'.mem.length ∧ w'.pos ≤ length := by
  have hinside := walkBody_inside hlength hsize hpos h
  omega

/- The fuel of the walk always suffices. -/
theorem walk_isSome {length : Nat} {w : Walk} (hlength : length < 2 ^ 31)
    (hsize : length ≤ w.mem.length) (hpos : w.pos ≤ length)
    : (Loop.iter (walkBody length) (walkFuel length) w).isSome := by
  apply Loop.iter_isSome_of_variant (fun w => length ≤ w.mem.length ∧ w.pos ≤ length)
    (variant length) _ ⟨hsize, hpos⟩ (variant_lt_walkFuel length w)
  intro w w' hw hbody
  refine ⟨walkBody_length (by omega) hw.left hw.right hbody, ?_⟩
  apply variant_walkBody hlength hw.left hw.right hbody

/- The bytes that one round looks at, and the only ones that it overwrites. -/
def touched (length : Nat) (w : Walk) : List Nat :=
  if (w.pos + 4) % 2 ^ 32 ≤ length then [w.pos, w.pos + 1, w.pos + 2, w.pos + 3] else []

theorem lt_of_mem_touched {length : Nat} {w : Walk} (hlength : length + 4 < 2 ^ 32)
    (hpos : w.pos ≤ length) {i : Nat} (hi : i ∈ touched length w)
    : i < length := by
  unfold touched at hi
  rw [Nat.mod_eq_of_lt (by omega)] at hi
  split at hi
  . simp only [List.mem_cons, List.not_mem_nil, or_false] at hi
    omega
  . simp at hi

theorem walkBody_congr {length : Nat} {v w : Walk} (hpos : v.pos = w.pos)
    (hconverted : v.converted = w.converted)
    (hmem : ∀ i, i ∈ touched length w → v.mem.getD i 0 = w.mem.getD i 0)
    : (walkBody length v).map (fun v => (v.pos, v.converted)) (fun v => (v.pos, v.converted))
        =
      (walkBody length w).map (fun w => (w.pos, w.converted)) (fun w => (w.pos, w.converted)) := by
  unfold touched at hmem
  unfold walkBody
  rw [hpos]
  split
  . next hroom =>
    rw [if_pos hroom] at hmem
    have hread : Bytes.readBe32 v.mem w.pos = Bytes.readBe32 w.mem w.pos := by
      rw [Bytes.readBe32_eq, Bytes.readBe32_eq]
      rw [hmem _ (by simp), hmem _ (by simp), hmem _ (by simp), hmem _ (by simp)]
    dsimp only
    rw [hread]
    split
    . simp [hpos, hconverted]
    . simp [hconverted]
  . simp [hpos, hconverted]

theorem walkBody_untouched {length : Nat} {w w' : Walk} (hlength : length + 4 < 2 ^ 32)
    (hsize : length ≤ w.mem.length) (hpos : w.pos ≤ length) (h : walkBody length w = .inl w')
    {i : Nat} (hi : i ∉ touched length w)
    : w'.mem[i]? = w.mem[i]? := by
  rw [walkBody_eq_inl_iff hlength hpos] at h
  have ⟨hroom, _, _, hnext⟩ := h
  unfold touched at hi
  rw [Nat.mod_eq_of_lt (by omega), if_pos hroom] at hi
  simp only [List.mem_cons, List.not_mem_nil, or_false, not_or] at hi
  rw [hnext]
  unfold Bytes.write
  dsimp only
  rw [List.append_assoc, length_startCode]
  cases Nat.lt_or_ge i w.pos with
  | inl hbefore =>
    rw [List.getElem?_append_left, List.getElem?_take_of_lt hbefore]
    rw [List.length_take]
    omega
  | inr hafter =>
    rw [List.getElem?_append_right, List.getElem?_append_right, List.getElem?_drop]
    . congr 1
      rw [List.length_take, length_startCode]
      omega
    . rw [List.length_take, length_startCode]
      omega
    . rw [List.length_take]
      omega

/-
A round at `pos` keeps to the first `length` bytes: it does the same if other bytes than the touched
ones are different, and leaves those as they are.
-/
structure StaysInside (length : Nat) (w : Walk) : Prop where
  pos_le : w.pos ≤ length
  touched_lt : ∀ i, i ∈ touched length w → i < length
  reads : ∀ v : Walk, v.pos = w.pos → v.converted = w.converted
    → (∀ i, i ∈ touched length w → v.mem.getD i 0 = w.mem.getD i 0)
    → (walkBody length v).map (fun v => (v.pos, v.converted)) (fun v => (v.pos, v.converted))
      = (walkBody length w).map (fun w => (w.pos, w.converted)) (fun w => (w.pos, w.converted))
  writes : ∀ w', walkBody length w = .inl w'
    → ∀ i, i ∉ touched length w → w'.mem[i]? = w.mem[i]?

theorem staysInside {length : Nat} {w : Walk} (hlength : length + 4 < 2 ^ 32)
    (hsize : length ≤ w.mem.length) (hpos : w.pos ≤ length)
    : StaysInside length w where
  pos_le := hpos
  touched_lt := by
    intro i hi
    exact lt_of_mem_touched hlength hpos hi
  reads := by
    intro v hsame hconverted hmem
    exact walkBody_congr hsame hconverted hmem
  writes := by
    intro w' hbody i hi
    exact walkBody_untouched hlength hsize hpos hbody hi

theorem head_inside {length : Nat} {mem : List UInt8} {w : Walk} (hlength : length + 4 < 2 ^ 32)
    (hsize : length ≤ mem.length) (h : Loop.Head (walkBody length) ⟨mem, 0, 0⟩ w)
    : length ≤ w.mem.length ∧ w.pos ≤ length := by
  apply h.invariant (fun w => length ≤ w.mem.length ∧ w.pos ≤ length)
  . intro w w' hw hbody
    apply walkBody_length hlength hw.left hw.right hbody
  . exact ⟨hsize, Nat.zero_le length⟩

/-
A round is the same whatever stands behind the bytes, and leaves it as it is.
-/

def Walk.before (w : Walk) (rest : List UInt8) : Walk :=
  { w with mem := w.mem ++ rest }

theorem walkBody_before {length : Nat} (w : Walk) (rest : List UInt8)
    (hlength : length + 4 < 2 ^ 32) (hsize : w.mem.length = length) (hpos : w.pos ≤ length)
    : walkBody length (w.before rest)
        =
      (walkBody length w).map (fun w => w.before rest) (fun w => w.before rest) := by
  unfold walkBody Walk.before
  dsimp only
  rw [Nat.mod_eq_of_lt (by omega)]
  split
  . rw [Bytes.readBe32_append _ _ (by omega)]
    split
    . rfl
    . rw [Bytes.write_append_right]
      . rfl
      . rw [length_startCode]
        omega
  . rfl

theorem walk_before {length : Nat} (fuel : Nat) (w : Walk) (rest : List UInt8)
    (hlength : length + 4 < 2 ^ 32) (hsize : w.mem.length = length) (hpos : w.pos ≤ length)
    : Loop.iter (walkBody length) fuel (w.before rest)
        =
      (Loop.iter (walkBody length) fuel w).map fun w => w.before rest := by
  induction fuel generalizing w with
  | zero => rfl
  | succ fuel ih =>
    have hround := walkBody_before w rest hlength hsize hpos
    cases hbody : walkBody length w with
    | inl w' =>
      have hinside := walkBody_inside hlength (by omega) hpos hbody
      rw [hbody] at hround
      rw [Loop.iter_of_inl hbody, Loop.iter_of_inl hround]
      apply ih
      . omega
      . exact hinside.right
    | inr w' =>
      rw [hbody] at hround
      rw [Loop.iter_of_inr hbody, Loop.iter_of_inr hround]
      rfl

end AnnexB

namespace Submission

/- The greatest size that a bitstream buffer can get. -/
def largestBuffer : Nat := vdecDecodeBufMax + 64 + 2048

theorem vdecBufSize_proceed {s t : Submission} {env : Env} (hstep : s.proceed env = some t)
    : t.vdecBufSize = s.vdecBufSize
        ∨
      ∃ decodeUnit, s.pc = .growing decodeUnit
        ∧ t.vdecBufSize = Function.update s.vdecBufSize s.vdecFront (newSize decodeUnit) := by
  cases proceed_memory hstep with
  | same hsame => exact Or.inl hsame.vdecBufSize
  | grown decodeUnit block hpc _ hgrown => exact Or.inr ⟨decodeUnit, hpc, hgrown.vdecBufSize⟩
  | stored mem _ hstored => exact Or.inl hstored.vdecBufSize

theorem step_largestBuffer {s t : Submission} {e : Event} (hbounded : s.Bounded)
    (h : ∀ slot, slot < vdecBufCount → s.vdecBufSize slot ≤ largestBuffer)
    (hstep : s.step e = some t)
    : ∀ slot, slot < vdecBufCount → t.vdecBufSize slot ≤ largestBuffer := by
  intro slot hslot
  unfold step at hstep
  split at hstep
  . split at hstep
    . injection hstep with hstep
      rw [← hstep, (enter_memory s _ _).vdecBufSize]
      apply h slot hslot
    . injection hstep with hstep
      rw [← hstep, (enter_memory s _ _).vdecBufSize]
      apply h slot hslot
    . simp at hstep
  . cases vdecBufSize_proceed hstep with
    | inl hsame =>
      rw [hsame]
      apply h slot hslot
    | inr hgrown =>
      have ⟨decodeUnit, hpc, hsize⟩ := hgrown
      have hinside := hbounded.inside
      rw [Inside, hpc] at hinside
      rw [hsize, Function.update_apply]
      split
      . unfold newSize needed largestBuffer
        omega
      . apply h slot hslot
  . rw [(vdecCallback_memory hstep).vdecBufSize]
    apply h slot hslot

theorem largestBuffer_of_reachable {v s : Submission} (hallocated : v.Allocated)
    (hsizes : ∀ slot, slot < vdecBufCount → v.vdecBufSize slot ≤ largestBuffer)
    (h : (machine v).Reachable s)
    : s.Bounded ∧ ∀ slot, slot < vdecBufCount → s.vdecBufSize slot ≤ largestBuffer := by
  apply h.invariant fun s =>
    s.Bounded ∧ ∀ slot, slot < vdecBufCount → s.vdecBufSize slot ≤ largestBuffer
  . exact ⟨bounded_of_reachable hallocated (Transition.Machine.Reachable.init _), hsizes⟩
  . intro s e t hs hstep
    exact ⟨step_bounded hs.left e hstep, step_largestBuffer hs.left hs.right hstep⟩

/-
The loop ends for any contents of the front buffer and any length up to its size, and no round reads
or writes anything behind that length.
-/
theorem avcc_walk_ends_inside (v s : Submission) (hallocated : v.Allocated)
    (hsizes : ∀ slot, slot < vdecBufCount → v.vdecBufSize slot ≤ largestBuffer)
    (hreachable : (machine v).Reachable s)
    (mem : List UInt8) (hmem : mem.length = s.decodeBufferSize) (length : Nat)
    (hlength : length ≤ s.decodeBufferSize)
    : (∃ w, Loop.iter (AnnexB.walkBody length) (AnnexB.walkFuel length) ⟨mem, 0, 0⟩ = some w)
        ∧
      ∀ w, Loop.Head (AnnexB.walkBody length) ⟨mem, 0, 0⟩ w
        → AnnexB.StaysInside length w := by
  have ⟨hbounded, hlargest⟩ := largestBuffer_of_reachable hallocated hsizes hreachable
  have hsize := hlargest s.vdecFront hbounded.front
  have hsmall : length < 2 ^ 31 := by
    unfold decodeBufferSize at hlength
    unfold largestBuffer vdecDecodeBufMax at hsize
    omega
  constructor
  . rw [← Option.isSome_iff_exists]
    apply AnnexB.walk_isSome hsmall
    . dsimp only
      omega
    . apply Nat.zero_le
  . intro w hhead
    have hinside := AnnexB.head_inside (by omega) (by omega) hhead
    exact AnnexB.staysInside (by omega) hinside.left hinside.right

theorem avcc_walk_ends_inside_overflow
    : (∃ w, Loop.iter (AnnexB.walkBody 5) (AnnexB.walkFuel 5)
          ⟨[0xff, 0xff, 0xff, 0xfc, 0x65] ++ List.replicate 123 0, 0, 0⟩ = some w)
        ∧
      ∀ w, Loop.Head (AnnexB.walkBody 5)
            ⟨[0xff, 0xff, 0xff, 0xfc, 0x65] ++ List.replicate 123 0, 0, 0⟩ w
        → AnnexB.StaysInside 5 w := by
  apply avcc_walk_ends_inside (fourBuffers 128) (machine (fourBuffers 128)).init
  . apply fourBuffers_allocated
  . intro slot _
    show 128 ≤ largestBuffer
    decide
  . apply Transition.Machine.Reachable.init
  . rfl
  . decide

end Submission
end Video

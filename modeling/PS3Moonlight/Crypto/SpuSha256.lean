import PS3Moonlight.Lib.Sha256

/-!
This module contains the SHA-256 engine of `spu_crypto.c` and that it computes SHA-256, in whatever
pieces the message arrives.
-/

namespace Crypto

def shr (x n : UInt32) : UInt32 :=
  (x &&& 0xFFFFFFFF) >>> n

def rotr (x n : UInt32) : UInt32 :=
  shr x n ||| (x <<< (32 - n))

def s0 (x : UInt32) : UInt32 :=
  rotr x 7 ^^^ rotr x 18 ^^^ shr x 3

def s1 (x : UInt32) : UInt32 :=
  rotr x 17 ^^^ rotr x 19 ^^^ shr x 10

def s2 (x : UInt32) : UInt32 :=
  rotr x 2 ^^^ rotr x 13 ^^^ rotr x 22

def s3 (x : UInt32) : UInt32 :=
  rotr x 6 ^^^ rotr x 11 ^^^ rotr x 25

def f0 (x y z : UInt32) : UInt32 :=
  (x &&& y) ||| (z &&& (x ||| y))

def f1 (x y z : UInt32) : UInt32 :=
  z ^^^ (x &&& (y ^^^ z))

/- The last arguments of the 64 uses of the macro `P`. -/
def sha256K : List UInt32 :=
  [0x428A2F98, 0x71374491, 0xB5C0FBCF, 0xE9B5DBA5, 0x3956C25B, 0x59F111F1, 0x923F82A4, 0xAB1C5ED5,
    0xD807AA98, 0x12835B01, 0x243185BE, 0x550C7DC3, 0x72BE5D74, 0x80DEB1FE, 0x9BDC06A7, 0xC19BF174,
    0xE49B69C1, 0xEFBE4786, 0x0FC19DC6, 0x240CA1CC, 0x2DE92C6F, 0x4A7484AA, 0x5CB0A9DC, 0x76F988DA,
    0x983E5152, 0xA831C66D, 0xB00327C8, 0xBF597FC7, 0xC6E00BF3, 0xD5A79147, 0x06CA6351, 0x14292967,
    0x27B70A85, 0x2E1B2138, 0x4D2C6DFC, 0x53380D13, 0x650A7354, 0x766A0ABB, 0x81C2C92E, 0x92722C85,
    0xA2BFE8A1, 0xA81A664B, 0xC24B8B70, 0xC76C51A3, 0xD192E819, 0xD6990624, 0xF40E3585, 0x106AA070,
    0x19A4C116, 0x1E376C08, 0x2748774C, 0x34B0BCB5, 0x391C0CB3, 0x4ED8AA4A, 0x5B9CCA4F, 0x682E6FF3,
    0x748F82EE, 0x78A5636F, 0x84C87814, 0x8CC70208, 0x90BEFFFA, 0xA4506CEB, 0xBEF9A3F7, 0xC67178F2]

/- The array `W` with its first `t` words, `R(t)` stores a word that comes behind the sixteenth. -/
def sha256W (data : List UInt8) (t : Nat) : List UInt32 :=
  match t with
  | 0 => []
  | t + 1 =>
    let w := sha256W data t
    if t < 16 then
      w ++ [(Bytes.readBe32 data (4 * t)).toUInt32]
    else
      w ++ [s1 (w.getD (t - 2) 0) + w.getD (t - 7) 0 + s0 (w.getD (t - 15) 0) + w.getD (t - 16) 0]

/- The macro `P`, which changes its arguments `d` and `h`. -/
def p (a b c d e f g h x k : UInt32) : UInt32 × UInt32 :=
  let temp1 := h + s3 e + f1 e f g + k + x
  let temp2 := s2 a + f0 a b c
  ⟨d + temp1, temp1 + temp2⟩

/- Eight uses of `P` from round `t` on, behind which the registers are back in their places. -/
def eightRounds (w : List UInt32) (t : Nat) (x : Sha256.Words) : Sha256.Words :=
  let x' := fun i => w.getD (t + i) 0
  let k := fun i => sha256K.getD (t + i) 0
  let ⟨a, b, c, d, e, f, g, h⟩ := x
  let ⟨d, h⟩ := p a b c d e f g h (x' 0) (k 0)
  let ⟨c, g⟩ := p h a b c d e f g (x' 1) (k 1)
  let ⟨b, f⟩ := p g h a b c d e f (x' 2) (k 2)
  let ⟨a, e⟩ := p f g h a b c d e (x' 3) (k 3)
  let ⟨h, d⟩ := p e f g h a b c d (x' 4) (k 4)
  let ⟨g, c⟩ := p d e f g h a b c (x' 5) (k 5)
  let ⟨f, b⟩ := p c d e f g h a b (x' 6) (k 6)
  let ⟨e, a⟩ := p b c d e f g h a (x' 7) (k 7)
  ⟨a, b, c, d, e, f, g, h⟩

def allRounds (w : List UInt32) (eights : Nat) (x : Sha256.Words) : Sha256.Words :=
  match eights with
  | 0 => x
  | eights + 1 => eightRounds w (8 * eights) (allRounds w eights x)

/- The words of `ctx->state` behind `spu_sha256_process`. -/
def sha256Process (state : Sha256.Words) (data : List UInt8) : Sha256.Words :=
  state.add (allRounds (sha256W data 64) 8 state)

structure Sha256Ctx where
  total0 : UInt32
  total1 : UInt32
  state : Sha256.Words
  buffer : List UInt8

/- The buffer of a new context is not set to anything. -/
def sha256Starts (buffer : Vector UInt8 64) : Sha256Ctx where
  total0 := 0
  total1 := 0
  state :=
    ⟨0x6A09E667, 0xBB67AE85, 0x3C6EF372, 0xA54FF53A, 0x510E527F, 0x9B05688C, 0x1F83D9AB,
      0x5BE0CD19⟩
  buffer := buffer.toList

/- The loop over whole blocks of the input, and the copy of what is left to the buffer. -/
def sha256UpdateLoop (ctx : Sha256Ctx) (left : Nat) (input : List UInt8) : Sha256Ctx :=
  if 64 ≤ input.length then
    let ctx := { ctx with state := sha256Process ctx.state (input.take 64) }
    sha256UpdateLoop ctx left (input.drop 64)
  else if 0 < input.length then
    { ctx with buffer := Bytes.write ctx.buffer left input }
  else
    ctx
termination_by input.length
decreasing_by
  rw [List.length_drop]
  omega

def sha256Update (ctx : Sha256Ctx) (input : List UInt8) : Sha256Ctx :=
  if input.length = 0 then
    ctx
  else
    let left := (ctx.total0 &&& 0x3F).toNat
    let fill := 64 - left
    let ilen := input.length.toUInt32
    let total0 := ctx.total0 + ilen
    let total1 := if total0 < ilen then ctx.total1 + 1 else ctx.total1
    let ctx := { ctx with total0, total1 }
    if left ≠ 0 ∧ fill ≤ input.length then
      let ctx := { ctx with buffer := Bytes.write ctx.buffer left (input.take fill) }
      let ctx := { ctx with state := sha256Process ctx.state ctx.buffer }
      sha256UpdateLoop ctx 0 (input.drop fill)
    else
      sha256UpdateLoop ctx left input

def sha256Padding : List UInt8 :=
  0x80 :: List.replicate 63 0

def sha256Finish (ctx : Sha256Ctx) : List UInt8 :=
  let high := (ctx.total0 >>> 29) ||| (ctx.total1 <<< 3)
  let low := ctx.total0 <<< 3
  let msglen := Bytes.be32 high.toNat ++ Bytes.be32 low.toNat
  let last := (ctx.total0 &&& 0x3F).toNat
  let padn := if last < 56 then 56 - last else 120 - last
  let ctx := sha256Update ctx (sha256Padding.take padn)
  let ctx := sha256Update ctx msglen
  ctx.state.bytes

/-
The compression of a block.
-/

theorem shr_eq (x n : UInt32) : shr x n = x >>> n := by
  have hmask : x &&& 0xFFFFFFFF = x := UInt32.and_neg_one
  rw [shr, hmask]

theorem rotr_eq (x n : UInt32) : rotr x n = Sha256.rotr n x := by
  rw [rotr, shr_eq, Sha256.rotr]

theorem f0_eq (x y z : UInt32) : f0 x y z = Sha256.maj x y z := by
  rw [f0, Sha256.maj, ← UInt32.toBitVec_inj]
  apply BitVec.eq_of_getLsbD_eq
  intro i _
  simp only [UInt32.toBitVec_xor, UInt32.toBitVec_and, UInt32.toBitVec_or, BitVec.getLsbD_xor,
    BitVec.getLsbD_and, BitVec.getLsbD_or]
  cases x.toBitVec.getLsbD i <;> cases y.toBitVec.getLsbD i <;> cases z.toBitVec.getLsbD i <;> rfl

theorem f1_eq (x y z : UInt32) : f1 x y z = Sha256.ch x y z := by
  rw [f1, Sha256.ch, ← UInt32.toBitVec_inj]
  apply BitVec.eq_of_getLsbD_eq
  intro i hi
  simp only [UInt32.toBitVec_xor, UInt32.toBitVec_and, UInt32.toBitVec_not, BitVec.getLsbD_xor,
    BitVec.getLsbD_and, BitVec.getLsbD_not, hi, decide_true, Bool.true_and]
  cases x.toBitVec.getLsbD i <;> cases y.toBitVec.getLsbD i <;> cases z.toBitVec.getLsbD i <;> rfl

theorem sha256K_eq : sha256K = Sha256.k := by
  decide +kernel

theorem sha256W_eq (data : List UInt8) (t : Nat) : sha256W data t = Sha256.schedule data t := by
  induction t with
  | zero => rfl
  | succ t ih =>
    simp only [sha256W, Sha256.schedule, ih]
    split
    . rfl
    . simp only [s0, s1, rotr_eq, shr_eq, Sha256.smallSigma0, Sha256.smallSigma1]

theorem p_eq (a b c d e f g h x k : UInt32)
    : p a b c d e f g h x k
        =
      ⟨(Sha256.round k x ⟨a, b, c, d, e, f, g, h⟩).e,
        (Sha256.round k x ⟨a, b, c, d, e, f, g, h⟩).a⟩ := by
  simp only [p, Sha256.round, s2, s3, rotr_eq, f0_eq, f1_eq, Sha256.bigSigma0, Sha256.bigSigma1]

theorem eightRounds_eq (w : List UInt32) (t : Nat) (x : Sha256.Words)
    : eightRounds w t (Sha256.rounds w t x) = Sha256.rounds w (t + 8) x := by
  simp only [eightRounds, p_eq, sha256K_eq]
  rfl

theorem allRounds_eq (w : List UInt32) (eights : Nat) (x : Sha256.Words)
    : allRounds w eights x = Sha256.rounds w (8 * eights) x := by
  induction eights with
  | zero => rfl
  | succ eights ih => rw [allRounds, ih, eightRounds_eq, Nat.mul_succ]

theorem sha256Process_eq (state : Sha256.Words) (data : List UInt8)
    : sha256Process state data = Sha256.compress state data := by
  rw [sha256Process, allRounds_eq, sha256W_eq, Sha256.compress]

/-
What a context stands for: the message so far.
-/

def absorbed (message : List UInt8) : BlockHash.Absorbed Sha256.Words UInt8 :=
  BlockHash.absorb Sha256.compress 64 Sha256.initial message

structure Represents (ctx : Sha256Ctx) (message : List UInt8) : Prop where
  total0 : ctx.total0 = message.length.toUInt32
  total1 : message.length < 2 ^ 32 → ctx.total1 = 0
  state : ctx.state = (absorbed message).state
  length_buffer : ctx.buffer.length = 64
  buffer : ctx.buffer.take (message.length % 64) = (absorbed message).rest

theorem initial_eq
    : (⟨0x6A09E667, 0xBB67AE85, 0x3C6EF372, 0xA54FF53A, 0x510E527F, 0x9B05688C, 0x1F83D9AB,
        0x5BE0CD19⟩ : Sha256.Words) = Sha256.initial := by
  decide +kernel

theorem represents_starts (buffer : Vector UInt8 64) : Represents (sha256Starts buffer) [] where
  total0 := by rfl
  total1 _ := rfl
  state := by
    unfold absorbed
    rw [BlockHash.absorb_of_lt _ _ (by decide)]
    exact initial_eq
  length_buffer := buffer.length_toList
  buffer := by rfl

theorem length_write_buffer {ctx : Sha256Ctx} {left : Nat} {input : List UInt8}
    (hbuffer : ctx.buffer.length = 64) (h : left + input.length ≤ 64)
    : (Bytes.write ctx.buffer left input).length = 64 := by
  rw [Bytes.length_write (by omega), hbuffer]

/-
The loop absorbs what is in the buffer and the input, if the input does not fill a block or the buffer
is empty.
-/
structure LoopAbsorbs (ctx t : Sha256Ctx) (r : BlockHash.Absorbed Sha256.Words UInt8) : Prop where
  total0 : t.total0 = ctx.total0
  total1 : t.total1 = ctx.total1
  state : t.state = r.state
  length_buffer : t.buffer.length = 64
  buffer : t.buffer.take r.rest.length = r.rest

theorem sha256UpdateLoop_absorbs {ctx : Sha256Ctx} {left : Nat} {input : List UInt8}
    (hbuffer : ctx.buffer.length = 64) (hleft : left = 0 ∨ left + input.length < 64)
    : LoopAbsorbs ctx (sha256UpdateLoop ctx left input)
        (BlockHash.absorb Sha256.compress 64 ctx.state (ctx.buffer.take left ++ input)) := by
  fun_induction sha256UpdateLoop ctx left input with
  | case1 ctx input hblock ctx' ih =>
    have hzero : left = 0 := by omega
    have hrest := ih hbuffer (Or.inl hzero)
    rw [hzero, List.take_zero, List.nil_append] at hrest ⊢
    rw [BlockHash.absorb_block _ (by decide) _ hblock, ← sha256Process_eq]
    exact ⟨hrest.total0, hrest.total1, hrest.state, hrest.length_buffer, hrest.buffer⟩
  | case2 ctx input hblock hpos =>
    have hlt : (ctx.buffer.take left ++ input).length < 64 := by
      rw [List.length_append, List.length_take]
      omega
    have hlength : (ctx.buffer.take left ++ input).length = left + input.length := by
      rw [List.length_append, List.length_take]
      omega
    rw [BlockHash.absorb_of_lt _ _ hlt]
    refine ⟨rfl, rfl, rfl, length_write_buffer hbuffer (by omega), ?_⟩
    rw [hlength]
    apply Bytes.take_write
    omega
  | case3 ctx input hblock hpos =>
    have hnil : input = [] := by
      apply List.eq_nil_of_length_eq_zero
      omega
    have hlength : (ctx.buffer.take left).length = left := by
      rw [List.length_take]
      omega
    rw [hnil, List.append_nil, BlockHash.absorb_of_lt _ _ (by omega)]
    refine ⟨rfl, rfl, rfl, hbuffer, ?_⟩
    rw [hlength]

theorem toNat_and_63 (n : Nat) : (n.toUInt32 &&& 0x3F).toNat = n % 64 := by
  have hmask : (n.toUInt32 &&& 0x3F).toNat = n.toUInt32.toNat &&& (2 ^ 6 - 1) := by
    rfl
  rw [hmask, Nat.and_two_pow_sub_one_eq_mod, Nat.toUInt32_eq, UInt32.toNat_ofNat']
  omega

/- A counter of 32 bits wraps around if the sum falls below what was added. -/
theorem add_lt_iff (m n : Nat) (h : m + n < 2 ^ 32) : ¬m.toUInt32 + n.toUInt32 < n.toUInt32 := by
  rw [UInt32.lt_iff_toNat_lt, UInt32.toNat_add, Nat.toUInt32_eq, Nat.toUInt32_eq,
    UInt32.toNat_ofNat', UInt32.toNat_ofNat']
  omega

theorem represents_updateLoop {ctx : Sha256Ctx} {left : Nat} {input message : List UInt8}
    (habsorbed : absorbed message
      = BlockHash.absorb Sha256.compress 64 ctx.state (ctx.buffer.take left ++ input))
    (hbuffer : ctx.buffer.length = 64) (hleft : left = 0 ∨ left + input.length < 64)
    (htotal0 : ctx.total0 = message.length.toUInt32)
    (htotal1 : message.length < 2 ^ 32 → ctx.total1 = 0)
    : Represents (sha256UpdateLoop ctx left input) message := by
  have hloop := sha256UpdateLoop_absorbs hbuffer hleft
  rw [← habsorbed] at hloop
  have hrest : (absorbed message).rest.length = message.length % 64 := by
    apply BlockHash.length_rest
  refine ⟨hloop.total0.trans htotal0, ?_, hloop.state, hloop.length_buffer, ?_⟩
  . intro hlt
    rw [hloop.total1, htotal1 hlt]
  . rw [← hrest, hloop.buffer]

/- The buffer is filled up with the first bytes of the input. -/
theorem write_fill {buffer input : List UInt8} {left : Nat} (hbuffer : buffer.length = 64)
    (hleft : left < 64) (hfill : 64 - left ≤ input.length)
    : Bytes.write buffer left (input.take (64 - left)) = (buffer.take left ++ input).take 64 := by
  have hlength : (input.take (64 - left)).length = 64 - left := by
    rw [List.length_take]
    omega
  have hwrite := Bytes.take_write (input.take (64 - left)) (by omega : left ≤ buffer.length)
  have hall : left + (64 - left) = 64 := by omega
  rw [hlength, hall, List.take_of_length_le] at hwrite
  . rw [hwrite, List.take_append, List.take_take, List.length_take, hbuffer]
    have hmin : min left 64 = left := by omega
    rw [hmin, Nat.min_comm, hmin]
  . rw [Bytes.length_write (by omega), hbuffer]

theorem drop_fill {buffer input : List UInt8} {left : Nat} (hbuffer : buffer.length = 64)
    (hleft : left < 64)
    : input.drop (64 - left) = (buffer.take left ++ input).drop 64 := by
  have hlength : (buffer.take left).length = left := by
    rw [List.length_take]
    omega
  have hnil : (buffer.take left).drop 64 = [] := by
    apply List.drop_eq_nil_of_le
    omega
  rw [List.drop_append, hlength, hnil, List.nil_append]

theorem represents_update {ctx : Sha256Ctx} {message : List UInt8} (h : Represents ctx message)
    (input : List UInt8)
    : Represents (sha256Update ctx input) (message ++ input) := by
  have hleft : (ctx.total0 &&& 0x3F).toNat = message.length % 64 := by
    rw [h.total0, toNat_and_63]
  have hrest : (absorbed message).rest.length = message.length % 64 := by
    apply BlockHash.length_rest
  have happend : absorbed (message ++ input)
      = BlockHash.absorb Sha256.compress 64 ctx.state
        (ctx.buffer.take (message.length % 64) ++ input) := by
    rw [h.state, h.buffer]
    apply BlockHash.absorb_append _ (by decide)
  unfold sha256Update
  split
  . next hempty =>
    rw [List.eq_nil_of_length_eq_zero hempty, List.append_nil]
    exact h
  . next hne =>
    have htotal0 : ctx.total0 + input.length.toUInt32 = (message ++ input).length.toUInt32 := by
      rw [h.total0, List.length_append, Nat.toUInt32_eq, Nat.toUInt32_eq, Nat.toUInt32_eq,
        UInt32.ofNat_add]
    have htotal1 : (message ++ input).length < 2 ^ 32
        → (if ctx.total0 + input.length.toUInt32 < input.length.toUInt32 then ctx.total1 + 1
            else ctx.total1) = 0 := by
      intro hlt
      rw [List.length_append] at hlt
      rw [h.total0, if_neg (add_lt_iff _ _ hlt), h.total1 (by omega)]
    have hlt : message.length % 64 < 64 := Nat.mod_lt _ (by decide)
    simp only [hleft]
    split
    . next hfill =>
      have hlength : 64 ≤ (ctx.buffer.take (message.length % 64) ++ input).length := by
        rw [List.length_append, List.length_take, h.length_buffer]
        omega
      rw [BlockHash.absorb_block _ (by decide) _ hlength, ← sha256Process_eq,
        ← write_fill h.length_buffer hlt hfill.right, ← drop_fill h.length_buffer hlt] at happend
      apply represents_updateLoop
      . exact happend
      . apply length_write_buffer h.length_buffer
        rw [List.length_take]
        omega
      . exact Or.inl rfl
      . exact htotal0
      . exact htotal1
    . next hfill =>
      apply represents_updateLoop
      . exact happend
      . exact h.length_buffer
      . omega
      . exact htotal0
      . exact htotal1

theorem represents_updates {ctx : Sha256Ctx} {message : List UInt8} (h : Represents ctx message)
    (chunks : List (List UInt8))
    : Represents (chunks.foldl sha256Update ctx) (message ++ chunks.flatten) := by
  induction chunks generalizing ctx message with
  | nil => simpa using h
  | cons chunk chunks ih =>
    rw [List.flatten_cons, List.foldl_cons, ← List.append_assoc]
    exact ih (represents_update h chunk)

/-
The end of the message.
-/

theorem padding_eq (n : Nat)
    : sha256Padding.take (if n % 64 < 56 then 56 - n % 64 else 120 - n % 64)
        =
      [0x80] ++ List.replicate ((119 - n % 64) % 64) 0 := by
  have hn : n % 64 < 64 := Nat.mod_lt _ (by decide)
  split
  . next hlt =>
    have hzeros : (119 - n % 64) % 64 = 55 - n % 64 := by omega
    have hcount : 56 - n % 64 = (55 - n % 64) + 1 := by omega
    rw [hzeros, hcount, sha256Padding, List.take_succ_cons, List.take_replicate]
    have hmin : min (55 - n % 64) 63 = 55 - n % 64 := by omega
    rw [hmin]
    rfl
  . next hge =>
    have hzeros : (119 - n % 64) % 64 = 119 - n % 64 := by omega
    have hcount : 120 - n % 64 = (119 - n % 64) + 1 := by omega
    rw [hzeros, hcount, sha256Padding, List.take_succ_cons, List.take_replicate]
    have hmin : min (119 - n % 64) 63 = 119 - n % 64 := by omega
    rw [hmin]
    rfl

theorem dvd_length_pad (message : List UInt8) : 64 ∣ (Sha256.pad message).length := by
  simp only [Sha256.pad, List.length_append, List.length_singleton, List.length_replicate,
    Bytes.length_be32]
  omega

theorem be32_mod (n : Nat) : Bytes.be32 (n % 2 ^ 32) = Bytes.be32 n := by
  simp only [Bytes.be32, List.cons.injEq, and_true, Nat.toUInt8, ← UInt8.toNat_inj,
    UInt8.toNat_ofNat', Nat.shiftRight_eq_div_pow]
  omega

theorem high_eq {n : Nat} (h : n < 2 ^ 32)
    : ((n.toUInt32 >>> 29) ||| ((0 : UInt32) <<< 3)).toNat = 8 * n / 2 ^ 32 := by
  rw [UInt32.zero_shiftLeft, UInt32.or_zero, UInt32.toNat_shiftRight, Nat.toUInt32_eq,
    UInt32.toNat_ofNat', Nat.shiftRight_eq_div_pow]
  simp only [UInt32.reduceToNat, Nat.reduceMod, Nat.reducePow]
  omega

theorem low_eq (n : Nat) : (n.toUInt32 <<< 3).toNat = 8 * n % 2 ^ 32 := by
  rw [UInt32.toNat_shiftLeft, Nat.toUInt32_eq, UInt32.toNat_ofNat', Nat.shiftLeft_eq]
  simp only [UInt32.reduceToNat, Nat.reduceMod, Nat.reducePow]
  omega

theorem sha256Finish_eq {ctx : Sha256Ctx} {message : List UInt8} (h : Represents ctx message)
    (hlength : message.length < 2 ^ 32)
    : sha256Finish ctx = Sha256.digest message := by
  unfold sha256Finish
  simp only [h.total0, h.total1 hlength, toNat_and_63, padding_eq, high_eq hlength, low_eq, be32_mod]
  have hpadded := represents_update (represents_update h
    ([0x80] ++ List.replicate ((119 - message.length % 64) % 64) 0))
    (Bytes.be32 (8 * message.length / 2 ^ 32) ++ Bytes.be32 (8 * message.length))
  have hpad : message ++ ([0x80] ++ List.replicate ((119 - message.length % 64) % 64) 0)
      ++ (Bytes.be32 (8 * message.length / 2 ^ 32) ++ Bytes.be32 (8 * message.length))
      = Sha256.pad message := by
    simp only [Sha256.pad, List.append_assoc]
  rw [hpad] at hpadded
  rw [hpadded.state, absorbed, BlockHash.absorb_of_dvd _ _ (dvd_length_pad message)]
  rfl

theorem length_digest (message : List UInt8) : (Sha256.digest message).length = 32 := by
  rfl

/- In whatever pieces a message arrives, its digest is that of the whole. -/
theorem sha256Finish_chunks (buffer : Vector UInt8 64) {chunks : List (List UInt8)}
    (h : chunks.flatten.length < 2 ^ 32)
    : sha256Finish (chunks.foldl sha256Update (sha256Starts buffer))
        =
      Sha256.digest chunks.flatten := by
  apply sha256Finish_eq _ h
  apply represents_updates (represents_starts buffer)

end Crypto

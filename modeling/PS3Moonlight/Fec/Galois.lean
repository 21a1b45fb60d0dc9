import Mathlib.Tactic.NormNum
import PS3Moonlight.Lib.LogField

/-!
This module contains the arithmetic of the forward error correction: the tables that `generate_gf`
and `init_mul_table` build at start, and that these tables are the field with 256 elements.
-/

namespace Fec

def GF_BITS : Nat := 8

def GF_PP : List Char := ['1', '0', '1', '1', '1', '0', '0', '0', '1']

def GF_SIZE : Nat := 255

/- The static arrays `gf_exp`, `gf_log` and `inverse`, each read and written by its index. -/
structure Tables where
  gfExp : Nat → UInt8
  gfLog : Nat → Nat
  inverse : Nat → UInt8

def store {α : Type} (array : Nat → α) (i : Nat) (value : α) : Nat → α :=
  fun j => if j = i then value else array j

theorem store_self {α : Type} (array : Nat → α) (i : Nat) (value : α)
    : store array i value i = value := by
  simp [store]

theorem store_of_ne {α : Type} (array : Nat → α) {i j : Nat} (value : α) (h : j ≠ i)
    : store array i value j = array j := by
  simp [store, h]

def staticTables : Tables where
  gfExp := fun _ => 0
  gfLog := fun _ => 0
  inverse := fun _ => 0

/- `gf_exp[i] = value; gf_log[gf_exp[i]] = i` -/
def Tables.setPower (t : Tables) (i : Nat) (value : UInt8) : Tables :=
  { t with gfExp := store t.gfExp i value, gfLog := store t.gfLog value.toNat i }

def lowPowers (n i : Nat) (mask : UInt8) (t : Tables) : Tables :=
  match n with
  | 0 => t
  | n + 1 =>
    let t := t.setPower i mask
    let t :=
      if GF_PP.getD i '0' = '1' then
        { t with gfExp := store t.gfExp GF_BITS (t.gfExp GF_BITS ^^^ mask) }
      else
        t
    lowPowers n (i + 1) (mask <<< 1) t

def highPowers (n i : Nat) (mask : UInt8) (t : Tables) : Tables :=
  match n with
  | 0 => t
  | n + 1 =>
    let last := t.gfExp (i - 1)
    let value :=
      if last ≥ mask then
        t.gfExp GF_BITS ^^^ ((last ^^^ mask) <<< 1)
      else
        last <<< 1
    highPowers n (i + 1) mask (t.setPower i value)

/- The powers of the generator and their logarithms, before the arrays are extended. -/
def powers : Tables :=
  let t := lowPowers GF_BITS 0 1 { staticTables with gfExp := store staticTables.gfExp GF_BITS 0 }
  let t := { t with gfLog := store t.gfLog (t.gfExp GF_BITS).toNat GF_BITS }
  let t := highPowers (GF_SIZE - (GF_BITS + 1)) (GF_BITS + 1) ((1 : UInt8) <<< 7) t
  { t with gfLog := store t.gfLog 0 GF_SIZE }

def extendPowers (n i : Nat) (t : Tables) : Tables :=
  match n with
  | 0 => t
  | n + 1 => extendPowers n (i + 1) { t with gfExp := store t.gfExp (i + GF_SIZE) (t.gfExp i) }

def inverses (n i : Nat) (t : Tables) : Tables :=
  match n with
  | 0 => t
  | n + 1 =>
    inverses n (i + 1)
      { t with inverse := store t.inverse i (t.gfExp (GF_SIZE - t.gfLog i)) }

def generateGf : Tables :=
  inverses (GF_SIZE + 1 - 2) 2
    { extendPowers GF_SIZE 0 powers with inverse := store (store powers.inverse 0 0) 1 1 }

def modnn (x : Nat) : Nat :=
  if x ≥ GF_SIZE then
    modnn (((x - GF_SIZE) >>> GF_BITS) + ((x - GF_SIZE) &&& GF_SIZE))
  else
    x
termination_by x
decreasing_by
  have hand : (x - GF_SIZE) &&& GF_SIZE = (x - GF_SIZE) % 256 := Nat.and_two_pow_sub_one_eq_mod _ 8
  rw [hand]
  simp only [GF_BITS, GF_SIZE, Nat.shiftRight_eq_div_pow] at *
  omega

/-
`init_mul_table` writes each entry once from the logarithms and then clears the row and the column
of zero, whose logarithm means nothing.
-/
def gfMulTable (t : Tables) (i j : Nat) : UInt8 :=
  if i = 0 ∨ j = 0 then 0 else t.gfExp (modnn (t.gfLog i + t.gfLog j))

theorem gfMulTable_zero_left (t : Tables) (j : Nat) : gfMulTable t 0 j = 0 := by
  simp [gfMulTable]

theorem gfMulTable_zero_right (t : Tables) (i : Nat) : gfMulTable t i 0 = 0 := by
  simp [gfMulTable]

theorem gfMulTable_of_ne_zero (t : Tables) {i j : Nat} (hi : i ≠ 0) (hj : j ≠ 0)
    : gfMulTable t i j = t.gfExp (modnn (t.gfLog i + t.gfLog j)) := by
  simp [gfMulTable, hi, hj]

theorem modnn_eq_mod (x : Nat) (h : x < 2 * GF_SIZE) : modnn x = x % GF_SIZE := by
  unfold modnn
  split
  . next hge =>
    have hsmall : x - GF_SIZE < 256 := by
      unfold GF_SIZE at *
      omega
    have hand : (x - GF_SIZE) &&& GF_SIZE = (x - GF_SIZE) % 256 :=
      Nat.and_two_pow_sub_one_eq_mod _ 8
    have hshift : (x - GF_SIZE) >>> GF_BITS = 0 := by
      rw [Nat.shiftRight_eq_div_pow]
      exact Nat.div_eq_of_lt hsmall
    rw [hshift, hand, Nat.zero_add, Nat.mod_eq_of_lt hsmall]
    unfold modnn
    rw [if_neg (by omega), Nat.mod_eq_sub_mod hge, Nat.mod_eq_of_lt (by omega)]
  . next hlt => exact (Nat.mod_eq_of_lt (by omega)).symm

/-
What the loops leave in the arrays
-/

theorem extendPowers_gfExp (n i j : Nat) (t : Tables) (h : j < i + GF_SIZE)
    : (extendPowers n i t).gfExp j = t.gfExp j := by
  induction n generalizing i t with
  | zero => rfl
  | succ n ih =>
    unfold extendPowers
    rw [ih _ _ (by omega)]
    exact store_of_ne _ _ (by omega)

theorem extendPowers_gfLog (n i : Nat) (t : Tables)
    : (extendPowers n i t).gfLog = t.gfLog := by
  induction n generalizing i t with
  | zero => rfl
  | succ n ih =>
    unfold extendPowers
    rw [ih]

theorem inverses_gfExp (n i : Nat) (t : Tables) : (inverses n i t).gfExp = t.gfExp := by
  induction n generalizing i t with
  | zero => rfl
  | succ n ih =>
    unfold inverses
    rw [ih]

theorem inverses_gfLog (n i : Nat) (t : Tables) : (inverses n i t).gfLog = t.gfLog := by
  induction n generalizing i t with
  | zero => rfl
  | succ n ih =>
    unfold inverses
    rw [ih]

theorem inverses_of_lt (n i j : Nat) (t : Tables) (h : j < i)
    : (inverses n i t).inverse j = t.inverse j := by
  induction n generalizing i t with
  | zero => rfl
  | succ n ih =>
    unfold inverses
    rw [ih _ _ (by omega)]
    exact store_of_ne _ _ (by omega)

theorem inverses_inverse (n i j : Nat) (t : Tables) (hle : i ≤ j) (hlt : j < i + n)
    : (inverses n i t).inverse j = t.gfExp (GF_SIZE - t.gfLog j) := by
  induction n generalizing i t with
  | zero => omega
  | succ n ih =>
    unfold inverses
    cases Decidable.em (j = i) with
    | inl heq =>
      rw [inverses_of_lt _ _ _ _ (by omega), heq]
      exact store_self _ _ _
    | inr hne => exact ih _ _ (by omega) (by omega)

/- The number of rounds is a variable here, so that nothing unfolds the loops round by round. -/
theorem inverses_extendPowers (n m : Nat) (t : Tables) (array : Nat → UInt8)
    : (inverses n 2 { extendPowers m 0 t with inverse := array }).gfLog = t.gfLog
      ∧ ∀ i, i < GF_SIZE →
        (inverses n 2 { extendPowers m 0 t with inverse := array }).gfExp i = t.gfExp i := by
  rw [inverses_gfLog, inverses_gfExp]
  constructor
  . exact extendPowers_gfLog m 0 t
  . intro i hi
    exact extendPowers_gfExp m 0 i t (by omega)

theorem generateGf_inverse_one : generateGf.inverse 1 = 1 := by
  unfold generateGf
  rw [inverses_of_lt _ _ _ _ (by decide)]
  exact store_self (store powers.inverse 0 0) 1 1

theorem generateGf_inverse_zero : generateGf.inverse 0 = 0 := by
  unfold generateGf
  rw [inverses_of_lt _ _ _ _ (by decide)]
  calc store (store powers.inverse 0 0) 1 1 0
    _ = store powers.inverse 0 0 0 := store_of_ne _ _ (by decide)
    _ = 0 := store_self _ _ _

theorem generateGf_inverse {i : Nat} (hle : 2 ≤ i) (hlt : i < 256) (hlog : 0 < powers.gfLog i)
    : generateGf.inverse i = powers.gfExp (GF_SIZE - powers.gfLog i) := by
  have hextend : (extendPowers GF_SIZE 0 powers).gfExp (GF_SIZE - powers.gfLog i)
      = powers.gfExp (GF_SIZE - powers.gfLog i) := by
    apply extendPowers_gfExp
    unfold GF_SIZE
    omega
  unfold generateGf
  rw [inverses_inverse _ _ _ _ hle (by unfold GF_SIZE; omega), extendPowers_gfLog, hextend]

theorem generateGf_gfExp {i : Nat} (h : i < GF_SIZE) : generateGf.gfExp i = powers.gfExp i := by
  unfold generateGf
  exact (inverses_extendPowers _ _ _ _).right i h

theorem generateGf_gfLog : generateGf.gfLog = powers.gfLog := by
  unfold generateGf
  exact (inverses_extendPowers _ _ _ _).left

/- From here on the tables are known by the facts above and below, never by running the loops. -/
attribute [irreducible] powers generateGf

/- Multiplication by the generator, modulo the polynomial of `GF_PP`. -/
def double (a : UInt8) : UInt8 :=
  (a <<< 1) ^^^ (if a.toBitVec.msb then 0x1d else 0)

theorem double_xor (a b : UInt8) : double (a ^^^ b) = double a ^^^ double b := by
  have hshift : (a ^^^ b) <<< 1 = (a <<< 1) ^^^ (b <<< 1) := by
    apply UInt8.eq_of_toBitVec_eq
    simp [BitVec.shiftLeft_xor_distrib]
  have hreduce : (if (a.toBitVec.msb ^^ b.toBitVec.msb) = true then (0x1d : UInt8) else 0)
      = (if a.toBitVec.msb then 0x1d else 0) ^^^ (if b.toBitVec.msb then 0x1d else 0) := by
    cases a.toBitVec.msb <;> cases b.toBitVec.msb <;> rfl
  unfold double
  rw [hshift, UInt8.toBitVec_xor, BitVec.msb_xor, hreduce]
  ac_rfl

/- The only computations with the tables: the powers follow each other, and each byte is found. -/
theorem powers_double : powers.gfExp 0 = 1 ∧ double (powers.gfExp 254) = 1
    ∧ ∀ i, i < 254 → powers.gfExp (i + 1) = double (powers.gfExp i) := by
  decide +kernel

theorem powers_gfLog : ∀ i, i < 256 → i ≠ 0 → powers.gfLog i < GF_SIZE
    ∧ powers.gfExp (powers.gfLog i) = i.toUInt8 := by
  decide +kernel

theorem powers_gfLog_one : powers.gfLog 1 = 0 := by
  decide +kernel

/- Only one has the logarithm zero. -/
theorem powers_gfLog_pos {i : Nat} (hle : 2 ≤ i) (hlt : i < 256) : 0 < powers.gfLog i := by
  cases Nat.eq_zero_or_pos (powers.gfLog i) with
  | inl hzero =>
    have hexp := (powers_gfLog i hlt (by omega)).right
    rw [hzero, powers_double.left] at hexp
    have hone := congrArg UInt8.toNat hexp
    simp at hone
    omega
  | inr hpos => exact hpos

/- The type `gf` of the source, an `unsigned char`. -/
def Gf : Type := UInt8
deriving DecidableEq, Repr, Inhabited

namespace Gf

def ofByte (a : UInt8) : Gf := a

def byte (a : Gf) : UInt8 := a

/- The entry of the multiplication table. -/
def mul (a b : Gf) : Gf := ofByte (gfMulTable generateGf a.byte.toNat b.byte.toNat)

def inv (a : Gf) : Gf := ofByte (generateGf.inverse a.byte.toNat)

def add (a b : Gf) : Gf := ofByte (a.byte ^^^ b.byte)

instance : Zero Gf := ⟨ofByte 0⟩

instance : One Gf := ⟨ofByte 1⟩

instance : Add Gf := ⟨add⟩

instance : Mul Gf := ⟨mul⟩

instance : Inv Gf := ⟨inv⟩

/- A byte is its own negative. -/
instance : Neg Gf := ⟨fun a => a⟩

theorem add_def (a b : Gf) : a + b = ofByte (a.byte ^^^ b.byte) := by
  rfl

instance : AddCommGroup Gf where
  add_assoc a b c := UInt8.xor_assoc a.byte b.byte c.byte
  zero_add a := UInt8.zero_xor (a := a.byte)
  add_zero a := UInt8.xor_zero (a := a.byte)
  neg_add_cancel a := UInt8.xor_self (a := a.byte)
  add_comm a b := UInt8.xor_comm a.byte b.byte
  nsmul := nsmulRec
  zsmul := zsmulRec

theorem byte_ne_zero {a : Gf} (h : a ≠ 0) : a.byte.toNat ≠ 0 := by
  intro hzero
  apply h
  exact UInt8.toNat_inj.mp hzero

def generator : Gf →+ Gf where
  toFun a := ofByte (double a.byte)
  map_zero' := by rfl
  map_add' a b := double_xor a.byte b.byte

theorem iterate_generator {i : Nat} (h : i < GF_SIZE)
    : generator^[i] 1 = ofByte (powers.gfExp i) := by
  induction i with
  | zero => exact powers_double.left.symm
  | succ i ih =>
    unfold GF_SIZE at h
    rw [Function.iterate_succ_apply', ih (by unfold GF_SIZE; omega)]
    exact (powers_double.right.right i (by omega)).symm

theorem iterate_generator_order : generator^[GF_SIZE] 1 = 1 := by
  have hsize : GF_SIZE = 254 + 1 := by rfl
  have hlast : generator^[254] 1 = ofByte (powers.gfExp 254) := iterate_generator (by decide)
  rw [hsize, Function.iterate_succ_apply', hlast]
  exact powers_double.right.left

/- The powers and the logarithms of the tables are those of a field. -/
def table : LogField.Table Gf where
  gen := generator
  one := 1
  log a := powers.gfLog a.byte.toNat
  order := GF_SIZE
  order_pos := by decide
  one_ne_zero := by decide
  iterate_log := by
    intro a ha
    have hlog := powers_gfLog a.byte.toNat a.byte.toNat_lt (byte_ne_zero ha)
    rw [iterate_generator hlog.left, hlog.right]
    exact UInt8.ofNat_toNat
  iterate_order := iterate_generator_order
  log_le := by
    intro a ha
    exact Nat.le_of_lt (powers_gfLog a.byte.toNat a.byte.toNat_lt (byte_ne_zero ha)).left

theorem table_log_lt {a : Gf} (h : a ≠ 0) : table.log a < GF_SIZE := by
  exact (powers_gfLog a.byte.toNat a.byte.toNat_lt (byte_ne_zero h)).left

theorem table_exp {i : Nat} (h : i < GF_SIZE) : table.exp i = ofByte (powers.gfExp i) := by
  exact iterate_generator h

theorem mul_eq (a b : Gf) : a * b = table.mul a b := by
  cases Decidable.em (a = 0) with
  | inl ha =>
    rw [ha, LogField.Table.zero_mul]
    exact gfMulTable_zero_left generateGf b.byte.toNat
  | inr ha =>
    cases Decidable.em (b = 0) with
    | inl hb =>
      rw [hb, LogField.Table.mul_zero]
      exact gfMulTable_zero_right generateGf a.byte.toNat
    | inr hb =>
      have hsum : table.log a + table.log b < 2 * GF_SIZE := by
        have hlogA := table_log_lt ha
        have hlogB := table_log_lt hb
        omega
      have hmod : (table.log a + table.log b) % GF_SIZE < GF_SIZE := Nat.mod_lt _ (by decide)
      calc ofByte (gfMulTable generateGf a.byte.toNat b.byte.toNat)
        _ = ofByte (generateGf.gfExp (modnn (table.log a + table.log b))) := by
          rw [gfMulTable_of_ne_zero _ (byte_ne_zero ha) (byte_ne_zero hb), generateGf_gfLog]
          rfl
        _ = table.exp ((table.log a + table.log b) % GF_SIZE) := by
          rw [modnn_eq_mod _ hsum, generateGf_gfExp hmod, table_exp hmod]
        _ = table.mul a b := by
          rw [LogField.Table.mul_eq_exp_mod table ha hb]
          rfl

theorem inv_eq (a : Gf) : a⁻¹ = table.inv a := by
  cases Decidable.em (a = 0) with
  | inl ha =>
    have hinverse : a⁻¹ = 0 := by
      rw [ha]
      exact generateGf_inverse_zero
    rw [hinverse]
    exact (if_pos ha).symm
  | inr ha =>
    have hbyte := byte_ne_zero ha
    have hinv : table.inv a = table.exp (GF_SIZE - powers.gfLog a.byte.toNat) := if_neg ha
    rw [hinv]
    cases Decidable.em (a.byte.toNat = 1) with
    | inl hone =>
      have hinverse : a⁻¹ = 1 := (congrArg generateGf.inverse hone).trans generateGf_inverse_one
      rw [hinverse, hone, powers_gfLog_one]
      exact table.iterate_order.symm
    | inr hone =>
      have hlt := a.byte.toNat_lt
      have hpos := powers_gfLog_pos (i := a.byte.toNat) (by omega) hlt
      rw [table_exp (by unfold GF_SIZE; omega)]
      exact generateGf_inverse (by omega) hlt hpos

/- The laws hold for the product and the inverse of the tables because they hold for the powers. -/
instance : Field Gf where
  mul_assoc a b c := by simp only [mul_eq, LogField.Table.mul_assoc]
  one_mul a := by rw [mul_eq]; exact table.one_mul a
  mul_one a := by rw [mul_eq]; exact table.mul_one a
  left_distrib a b c := by simp only [mul_eq, LogField.Table.mul_add]
  right_distrib a b c := by simp only [mul_eq, LogField.Table.add_mul]
  zero_mul a := by rw [mul_eq]; exact table.zero_mul a
  mul_zero a := by rw [mul_eq]; exact table.mul_zero a
  mul_comm a b := by rw [mul_eq, mul_eq]; exact table.mul_comm a b
  neg_add_cancel a := neg_add_cancel a
  zsmul := zsmulRec
  nsmul := nsmulRec
  exists_pair_ne := ⟨0, 1, by decide⟩
  mul_inv_cancel a ha := by rw [mul_eq, inv_eq]; exact table.mul_inv_cancel ha
  inv_zero := generateGf_inverse_zero
  nnqsmul := _
  qsmul := _

theorem mul_double (a c : Gf) : a * generator c = generator a * c := by
  have hgenerator : ∀ x : Gf, generator x = x * table.exp 1 := by
    intro x
    rw [mul_eq, LogField.Table.mul_exp]
    rfl
  rw [hgenerator, hgenerator, ← mul_assoc, mul_right_comm]

end Gf

/-
The product of polynomials over the field with two elements, modulo the polynomial of `GF_PP`: the
multiples of the first factor, added up by the bits of the second one.
-/
def polynomialProduct (bits : Nat) (a b : UInt8) : UInt8 :=
  match bits with
  | 0 => 0
  | bits + 1 => (if b &&& 1 = 1 then a else 0) ^^^ polynomialProduct bits (double a) (b >>> 1)

theorem low_bit_xor_double : ∀ n : Nat, n < 256 →
    (if n.toUInt8 &&& 1 = 1 then (1 : UInt8) else 0) ^^^ double (n.toUInt8 >>> (1 : UInt8))
      = n.toUInt8 := by
  decide +kernel

theorem mul_eq_polynomialProduct (bits : Nat) (a b : UInt8) (h : b.toNat < 2 ^ bits)
    : Gf.ofByte a * Gf.ofByte b = Gf.ofByte (polynomialProduct bits a b) := by
  induction bits generalizing a b with
  | zero =>
    have hb : b = 0 := by
      apply UInt8.toNat_inj.mp
      rw [UInt8.toNat_zero]
      omega
    rw [hb]
    exact mul_zero _
  | succ bits ih =>
    have hsplit := low_bit_xor_double b.toNat b.toNat_lt
    rw [Nat.toUInt8_eq, UInt8.ofNat_toNat] at hsplit
    have hhalf : (b >>> 1).toNat < 2 ^ bits := by
      rw [UInt8.toNat_shiftRight, Nat.shiftRight_eq_div_pow]
      rw [Nat.pow_succ] at h
      have hone : (1 : UInt8).toNat % 8 = 1 := by rfl
      rw [hone]
      omega
    calc Gf.ofByte a * Gf.ofByte b
      _ = Gf.ofByte a * (Gf.ofByte (if b &&& 1 = 1 then 1 else 0)
          + Gf.generator (Gf.ofByte (b >>> 1))) := by
        conv => lhs; rw [← hsplit]
        rfl
      _ = Gf.ofByte (if b &&& 1 = 1 then a else 0)
          + Gf.ofByte (double a) * Gf.ofByte (b >>> 1) := by
        rw [mul_add, Gf.mul_double]
        congr 1
        split
        . exact mul_one _
        . exact mul_zero _
      _ = Gf.ofByte (polynomialProduct (bits + 1) a b) := by
        rw [ih _ _ hhalf]
        rfl

/-
The tables are those of the field: an entry of the one is the product of the polynomials, and the
other one holds the inverses.
-/
theorem generateGf_tables (a b : UInt8)
    : gfMulTable generateGf a.toNat b.toNat = polynomialProduct 8 a b
      ∧ (a ≠ 0 → polynomialProduct 8 a (generateGf.inverse a.toNat) = 1) := by
  constructor
  . exact mul_eq_polynomialProduct 8 a b b.toNat_lt
  . intro ha
    have hne : Gf.ofByte a ≠ 0 := ha
    have hinverse := mul_inv_cancel₀ hne
    have hproduct := mul_eq_polynomialProduct 8 a (generateGf.inverse a.toNat) (UInt8.toNat_lt _)
    exact hproduct.symm.trans hinverse

end Fec

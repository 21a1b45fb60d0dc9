import PS3Moonlight.Lib.Bytes
import PS3Moonlight.Lib.Loop

/-!
This module contains the conversion of a submitted unit from AVCC to Annex B framing: the guess of
the framing from the first bytes, the walk that overwrites the length fields in place, and what both
do to a buffer that really is framed in one of the two ways.
-/

namespace Video
namespace AnnexB

def startCode : List UInt8 := [0, 0, 0, 1]

def isAnnexB (mem : List UInt8) : Bool :=
  Bytes.read mem 0 4 == startCode || Bytes.read mem 0 3 == startCode.drop 1

structure Walk where
  mem : List UInt8
  pos : Nat
  converted : Nat

/-
`pos` and `nalu_len` are of type `u32`, so all sums wrap around.
-/
def walkBody (length : Nat) (w : Walk) : Walk ⊕ Walk :=
  if (w.pos + 4) % 2 ^ 32 ≤ length then
    let naluLen := Bytes.readBe32 w.mem w.pos
    if naluLen = 0 ∨ length < (w.pos + 4 + naluLen) % 2 ^ 32 then
      .inr w
    else
      .inl
        { mem := Bytes.write w.mem w.pos startCode
          pos := (w.pos + 4 + naluLen) % 2 ^ 32
          converted := w.converted + 1 }
  else
    .inr w

-- a sum that wraps around makes the walk go back, but only a limited number of times
def walkFuel (length : Nat) : Nat :=
  (length + 1) * (length + 1)

structure Conversion where
  mem : List UInt8
  length : Nat
  -- whether the unit goes on to the decoder, otherwise the call returns `DR_OK`
  submit : Bool

/-
The second step of `ps3_video_submit_decode_unit`, `none` stands for a walk that never ends.
-/
def convert (mem : List UInt8) (size length : Nat) : Option Conversion :=
  if 4 < length && !isAnnexB mem then
    match Loop.iter (walkBody length) (walkFuel length) ⟨mem, 0, 0⟩ with
    | none => none
    | some w =>
      if w.converted = 0 then
        if length + 4 ≤ size then
          let mem := Bytes.write w.mem 4 (Bytes.read w.mem 0 length)
          some ⟨Bytes.write mem 0 startCode, length + 4, true⟩
        else
          some ⟨w.mem, length, true⟩
      else
        some ⟨w.mem, length, w.pos == length⟩
  else
    some ⟨mem, length, true⟩

/-
The two framings. A start code of Annex B has three or four bytes, the flag says which.
-/

def avcc (units : List (List UInt8)) : List UInt8 :=
  units.flatMap fun unit => Bytes.be32 unit.length ++ unit

def annexB (units : List (List UInt8)) : List UInt8 :=
  units.flatMap fun unit => startCode ++ unit

inductive Framed where
  | avcc (units : List (List UInt8))
  | annexB (units : List (Bool × List UInt8))

namespace Framed

def units (framed : Framed) : List (List UInt8) :=
  match framed with
  | .avcc units => units
  | .annexB units => units.map Prod.snd

def bytes (framed : Framed) : List UInt8 :=
  match framed with
  | .avcc units => AnnexB.avcc units
  | .annexB units =>
    units.flatMap fun unit => (if unit.fst then startCode else startCode.drop 1) ++ unit.snd

/- What the decoder has to get. -/
def expected (framed : Framed) : List UInt8 :=
  match framed with
  | .avcc units => AnnexB.annexB units
  | .annexB _ => framed.bytes

/-
Whether the first length field can be told from a start code. A length of one is a start code of four
bytes, which is harmless if all units are that short, and one of 256 to 511 begins with a start code
of three bytes.
-/
def Recognised (framed : Framed) : Prop :=
  match framed with
  | .avcc [] => True
  | .avcc (unit :: units) =>
    ¬(256 ≤ unit.length ∧ unit.length < 512)
      ∧
    (unit.length = 1 → ∀ other, other ∈ units → other.length = 1)
  | .annexB _ => True

end Framed

@[simp]
theorem avcc_cons (unit : List UInt8) (units : List (List UInt8))
    : avcc (unit :: units) = Bytes.be32 unit.length ++ (unit ++ avcc units) := by
  simp [avcc]

@[simp]
theorem annexB_cons (unit : List UInt8) (units : List (List UInt8))
    : annexB (unit :: units) = startCode ++ (unit ++ annexB units) := by
  simp [annexB]

@[simp]
theorem length_startCode : startCode.length = 4 := by
  rfl

theorem length_annexB (units : List (List UInt8)) : (annexB units).length = (avcc units).length := by
  induction units with
  | nil => rfl
  | cons unit units ih => simp [ih]

theorem length_le_of_mem_avcc {unit : List UInt8} {units : List (List UInt8)} (h : unit ∈ units)
    : unit.length ≤ (avcc units).length := by
  induction units with
  | nil => simp at h
  | cons first units ih =>
    simp only [avcc_cons, List.length_append]
    rw [List.mem_cons] at h
    cases h with
    | inl h =>
      rw [h]
      omega
    | inr h =>
      have := ih h
      omega

theorem length_le_length_avcc (units : List (List UInt8))
    : units.length ≤ (avcc units).length := by
  induction units with
  | nil => simp
  | cons unit units ih =>
    simp only [avcc_cons, List.length_append, List.length_cons, Bytes.length_be32]
    omega

/-
The walk over units that are framed with length fields replaces every one of them, because the next
field stands right where the length of the previous unit says.
-/
theorem walk_avcc (units : List (List UInt8)) (pre post : List UInt8) (converted fuel : Nat)
    (hunits : ∀ unit, unit ∈ units → unit ≠ [])
    (hlength : pre.length + (avcc units).length + 4 < 2 ^ 32) (hfuel : units.length < fuel)
    : Loop.iter (walkBody (pre.length + (avcc units).length)) fuel
          ⟨pre ++ (avcc units ++ post), pre.length, converted⟩
        =
      some
        ⟨pre ++ (annexB units ++ post), pre.length + (avcc units).length,
          converted + units.length⟩ := by
  induction units generalizing pre converted fuel with
  | nil =>
    cases fuel with
    | zero => omega
    | succ fuel =>
      apply Loop.iter_of_inr
      unfold walkBody
      rw [if_neg]
      . rfl
      . simp only [avcc, List.flatMap_nil, List.length_nil] at hlength ⊢
        omega
  | cons unit units ih =>
    have hpos : 0 < unit.length := List.length_pos_iff.mpr (hunits unit (by simp))
    simp only [avcc_cons, List.length_append, Bytes.length_be32] at hlength
    cases fuel with
    | zero => omega
    | succ fuel =>
      have hread : Bytes.readBe32 (pre ++ (avcc (unit :: units) ++ post)) pre.length = unit.length := by
        rw [avcc_cons, List.append_assoc]
        apply Bytes.readBe32_be32
        omega
      have hwrite : Bytes.write (pre ++ (avcc (unit :: units) ++ post)) pre.length startCode
          = (pre ++ startCode ++ unit) ++ (avcc units ++ post) := by
        rw [avcc_cons, List.append_assoc, Bytes.write_append]
        . simp
        . simp
      have hnext : walkBody (pre.length + (avcc (unit :: units)).length)
            ⟨pre ++ (avcc (unit :: units) ++ post), pre.length, converted⟩
          = .inl
              ⟨(pre ++ startCode ++ unit) ++ (avcc units ++ post),
                (pre ++ startCode ++ unit).length, converted + 1⟩ := by
        unfold walkBody
        dsimp only
        rw [hread, hwrite]
        simp only [avcc_cons, List.length_append, Bytes.length_be32, length_startCode]
        rw [Nat.mod_eq_of_lt (by omega), Nat.mod_eq_of_lt (by omega), if_pos (by omega),
          if_neg (by omega)]
      rw [Loop.iter_of_inl hnext]
      have hrest := ih (pre ++ startCode ++ unit) (converted + 1) fuel
        (fun other hother => hunits other (by simp [hother]))
        (by simp only [List.length_append, length_startCode]; omega)
        (by simp only [List.length_cons] at hfuel; omega)
      have htotal : pre.length + (avcc (unit :: units)).length
          = (pre ++ startCode ++ unit).length + (avcc units).length := by
        simp only [avcc_cons, List.length_append, Bytes.length_be32, length_startCode]
        omega
      rw [htotal, hrest]
      simp only [annexB_cons, List.append_assoc, List.length_cons, Nat.add_assoc,
        Nat.add_comm 1 units.length]

/-
The guess looks at nothing but the first length field.
-/
theorem isAnnexB_avcc_iff (unit : List UInt8) (units : List (List UInt8)) (post : List UInt8)
    (hlength : unit.length < 2 ^ 32)
    : isAnnexB (avcc (unit :: units) ++ post) = true
        ↔
      unit.length = 1 ∨ 256 ≤ unit.length ∧ unit.length < 512 := by
  simp only [isAnnexB, avcc_cons, Bytes.be32, startCode, Bytes.read, List.cons_append,
    List.nil_append, List.drop_zero, List.take_succ_cons, List.take_zero, List.drop_succ_cons,
    Bool.or_eq_true, beq_iff_eq, List.cons.injEq, and_true, Nat.toUInt8, ← UInt8.toNat_inj,
    UInt8.toNat_ofNat', Nat.shiftRight_eq_div_pow, UInt8.toNat_ofNat]
  omega

theorem isAnnexB_annexB (long : Bool) (unit : List UInt8) (rest : List UInt8)
    : isAnnexB ((if long then startCode else startCode.drop 1) ++ unit ++ rest) = true := by
  cases long with
  | false => simp [isAnnexB, startCode, Bytes.read]
  | true => simp [isAnnexB, startCode, Bytes.read]

/-
Leaving the length fields as they are only gives start codes if they are start codes already.
-/
theorem avcc_eq_annexB_iff (units : List (List UInt8)) (hlength : (avcc units).length < 2 ^ 32)
    : avcc units = annexB units ↔ ∀ unit, unit ∈ units → unit.length = 1 := by
  induction units with
  | nil => simp [avcc, annexB]
  | cons unit units ih =>
    simp only [avcc_cons, List.length_append, Bytes.length_be32] at hlength
    have hcode : Bytes.be32 unit.length = startCode ↔ unit.length = 1 := by
      constructor
      . intro h
        apply Bytes.be32_injective (by omega) (by decide)
        rw [h]
        rfl
      . intro h
        rw [h]
        rfl
    rw [avcc_cons, annexB_cons, List.forall_mem_cons, ← hcode, ← ih (by omega)]
    constructor
    . intro h
      have hparts := List.append_inj h (by simp)
      rw [List.append_cancel_left_eq] at hparts
      exact hparts
    . intro h
      rw [h.left, h.right]

theorem convert_of_isAnnexB {mem : List UInt8} (size length : Nat)
    (h : length ≤ 4 ∨ isAnnexB mem = true)
    : convert mem size length = some ⟨mem, length, true⟩ := by
  unfold convert
  rw [if_neg]
  cases h with
  | inl h => simp; omega
  | inr h => simp [h]

theorem convert_avcc (unit : List UInt8) (units : List (List UInt8)) (post : List UInt8) (size : Nat)
    (hunits : ∀ other, other ∈ unit :: units → other ≠ [])
    (hlength : (avcc (unit :: units)).length + 4 < 2 ^ 32)
    (hguess : isAnnexB (avcc (unit :: units) ++ post) = false)
    : convert (avcc (unit :: units) ++ post) size (avcc (unit :: units)).length
        =
      some ⟨annexB (unit :: units) ++ post, (avcc (unit :: units)).length, true⟩ := by
  have hfuel : (unit :: units).length < walkFuel (avcc (unit :: units)).length := by
    have hcount : (unit :: units).length ≤ (avcc (unit :: units)).length := by
      apply length_le_length_avcc
    have hsquare := Nat.le_mul_self ((avcc (unit :: units)).length + 1)
    unfold walkFuel
    omega
  have hwalk := walk_avcc (unit :: units) [] post 0 _ hunits (by simpa using hlength) hfuel
  simp only [List.nil_append, List.length_nil, Nat.zero_add] at hwalk
  have hlong : 4 < (avcc (unit :: units)).length := by
    have := List.length_pos_iff.mpr (hunits unit (by simp))
    simp only [avcc_cons, List.length_append, Bytes.length_be32]
    omega
  unfold convert
  rw [hguess, if_pos (by simpa only [Bool.not_false, Bool.and_true, decide_eq_true_eq] using hlong)]
  rw [hwalk]
  simp

theorem Framed.bytes_pos (framed : Framed) (hne : framed.units ≠ []) : 0 < framed.bytes.length := by
  cases framed with
  | avcc units =>
    cases units with
    | nil => contradiction
    | cons unit units =>
      simp only [Framed.bytes, avcc_cons, List.length_append, Bytes.length_be32]
      omega
  | annexB units =>
    cases units with
    | nil => contradiction
    | cons unit units =>
      simp only [Framed.bytes, List.flatMap_cons, List.length_append]
      split
      . rw [length_startCode]
        omega
      . rw [List.length_drop, length_startCode]
        omega

/-
What the decoder gets for a framed unit, wherever the buffer ends behind it.
-/
theorem convert_framed (framed : Framed) (post : List UInt8) (size : Nat)
    (hne : framed.units ≠ []) (hunits : ∀ unit, unit ∈ framed.units → unit ≠ [])
    (hlength : framed.bytes.length + 4 < 2 ^ 32)
    : ∃ mem,
        convert (framed.bytes ++ post) size framed.bytes.length
          =
        some ⟨mem, framed.bytes.length, true⟩
          ∧
        (mem.take framed.bytes.length = framed.expected ↔ framed.Recognised) := by
  cases framed with
  | annexB units =>
    refine ⟨_, convert_of_isAnnexB _ _ ?_, ?_⟩
    . cases units with
      | nil => exact absurd rfl hne
      | cons unit units =>
        right
        rw [Framed.bytes, List.flatMap_cons, List.append_assoc]
        apply isAnnexB_annexB
    . simp [Framed.expected, Framed.Recognised]
  | avcc units =>
    cases units with
    | nil => exact absurd rfl hne
    | cons unit units =>
      simp only [Framed.bytes, Framed.units, Framed.expected, Framed.Recognised] at *
      have hunit : unit.length < 2 ^ 32 := by
        have := length_le_of_mem_avcc (List.mem_cons_self : unit ∈ unit :: units)
        omega
      have hguess := isAnnexB_avcc_iff unit units post hunit
      cases h : isAnnexB (avcc (unit :: units) ++ post) with
      | true =>
        refine ⟨_, convert_of_isAnnexB _ _ (Or.inr h), ?_⟩
        rw [h] at hguess
        rw [List.take_left, avcc_eq_annexB_iff _ (by omega)]
        simp only [true_iff] at hguess
        simp only [List.mem_cons, forall_eq_or_imp]
        constructor
        . intro hone
          constructor
          . omega
          . intro _
            exact hone.right
        . intro hone
          have hfirst : unit.length = 1 := by omega
          exact ⟨hfirst, hone.right hfirst⟩
      | false =>
        refine ⟨_, convert_avcc unit units post size hunits hlength h, ?_⟩
        rw [h] at hguess
        simp only [Bool.false_eq_true, false_iff, not_or] at hguess
        rw [← length_annexB, List.take_left]
        simp only [true_iff]
        constructor
        . exact hguess.right
        . intro hone
          omega

end AnnexB
end Video

import PS3Moonlight.Lib.Memory
import PS3Moonlight.Handshake.Text

/-!
This module contains the hexadecimal coding of `handshake.c` once more, with the memory behind the
pointers: what is written where, and when the length is set. Both directions are inverse to each other,
and nothing but pairs of digits that fit is decoded.
-/

namespace Handshake
namespace HexCodec

/- `sprintf` writes two digits and the terminator, which the next byte overwrites. -/
def binToHexLoop (bin : List UInt8) (i : Nat) (out : Memory) : Memory :=
  match bin with
  | [] => out.put (i * 2) [0]
  | b :: bin =>
    binToHexLoop bin (i + 1)
      (out.put (i * 2) [upperHexDigit (b.toNat / 16), upperHexDigit (b.toNat % 16), 0])

def binToHex (bin : List UInt8) (out : Memory) : Memory :=
  binToHexLoop bin 0 out

/- What a call returns, and the memory behind `out` and `out_len` after it. -/
structure HexOut where
  ret : Int
  out : Memory
  outLen : Nat

/- The bytes from index `i` on, `n` of them: whether all are digits, and the memory. -/
def hexToBinLoop (hex : List UInt8) (n i : Nat) (out : Memory) : Bool × Memory :=
  match n with
  | 0 => ⟨true, out⟩
  | n + 1 =>
    match hexNibble (hex.getD (i * 2) 0), hexNibble (hex.getD (i * 2 + 1) 0) with
    | some high, some low => hexToBinLoop hex n (i + 1) (out.put i [(high * 16 + low).toUInt8])
    | _, _ => ⟨false, out⟩

def hexToBinChecked (hex : List UInt8) (outCapacity : Nat) (out : Memory) (outLen : Nat) : HexOut :=
  let hex := cstr hex
  if hex.length % 2 ≠ 0 ∨ outCapacity < hex.length / 2 then
    ⟨-1, out, outLen⟩
  else
    let decoded := hexToBinLoop hex (hex.length / 2) 0 out
    if decoded.fst then ⟨0, decoded.snd, hex.length / 2⟩ else ⟨-1, decoded.snd, outLen⟩

/-
The loops over memory are those over texts.
-/

theorem binToHexLoop_eq (bin : List UInt8) (i : Nat) (out : Memory)
    : binToHexLoop bin i out = out.put (i * 2) (Handshake.binToHex bin ++ [0]) := by
  induction bin generalizing i out with
  | nil => rfl
  | cons b bin ih =>
    -- the terminator of this byte lies under the digits of the next one
    have hover : ∀ high low : UInt8, ∀ text : List UInt8, text ≠ []
        → (out.put (i * 2) [high, low, 0]).put ((i + 1) * 2) text
          = out.put (i * 2) ([high, low] ++ text) := by
      intro high low text hne
      have hlength : 0 < text.length := List.length_pos_of_ne_nil hne
      rw [← Memory.put_append]
      funext address
      simp only [Memory.put, List.length_cons, List.length_nil]
      have hstart : (i + 1) * 2 = i * 2 + (0 + 1 + 1) := by omega
      rw [hstart]
      split
      . rfl
      . next hout =>
        split
        . next hin =>
          have haddress : address = i * 2 ∨ address = i * 2 + 1 := by omega
          rw [if_pos (by omega)]
          cases haddress with
          | inl h => simp [h]
          | inr h => simp [h]
        . next hin => rw [if_neg (by omega)]
    rw [binToHexLoop, ih, hover _ _ _ (by simp)]
    simp [Handshake.binToHex]

theorem hexToBinLoop_eq {hex : List UInt8} {n i : Nat} (out : Memory)
    (h : hex.length = (i + n) * 2)
    : hexToBinLoop hex n i out
        =
      ⟨(hexLoop (hex.drop (i * 2))).snd, out.put i (hexLoop (hex.drop (i * 2))).fst⟩ := by
  induction n generalizing i out with
  | zero =>
    rw [List.drop_eq_nil_of_le (by omega)]
    simp [hexToBinLoop, hexLoop]
  | succ n ih =>
    have hfirst : i * 2 < hex.length := by omega
    have hsecond : i * 2 + 1 < hex.length := by omega
    have hrest : (i + 1) * 2 = i * 2 + 1 + 1 := by omega
    rw [List.drop_eq_getElem_cons hfirst, List.drop_eq_getElem_cons hsecond, hexToBinLoop,
      List.getD_eq_getElem _ _ hfirst, List.getD_eq_getElem _ _ hsecond, hexLoop]
    cases hexNibble hex[i * 2] with
    | none => simp
    | some high =>
      cases hexNibble hex[i * 2 + 1] with
      | none => simp
      | some low =>
        dsimp only
        rw [ih (out.put i [(high * 16 + low).toUInt8]) (by omega), hrest]
        have hput := Memory.put_append out i [(high * 16 + low).toUInt8]
          (hexLoop (hex.drop (i * 2 + 1 + 1))).fst
        exact Prod.ext rfl hput

/- The bytes that are written are those of the function over texts, and so is the length. -/
theorem hexToBinChecked_eq (hex : List UInt8) (outCapacity : Nat) (out : Memory) (outLen : Nat)
    : hexToBinChecked hex outCapacity out outLen
        =
      { ret := if (Handshake.hexToBinChecked hex outCapacity).snd.isSome then 0 else -1
        out := out.put 0 (Handshake.hexToBinChecked hex outCapacity).fst
        outLen := (Handshake.hexToBinChecked hex outCapacity).snd.getD outLen } := by
  unfold hexToBinChecked Handshake.hexToBinChecked
  dsimp only
  split
  . simp
  . next hsize =>
    rw [hexToBinLoop_eq out (by omega)]
    dsimp only
    rw [Nat.zero_mul, List.drop_zero]
    cases (hexLoop (cstr hex)).snd with
    | true => simp
    | false => simp

/-
What is decoded.
-/

def hexDigits : List UInt8 := ascii "0123456789ABCDEFabcdef"

/- The letter in upper case, every other character as it is. -/
def toUpper (c : UInt8) : UInt8 :=
  if 97 ≤ c ∧ c ≤ 122 then c - 32 else c

theorem hexNibble_isSome (c : UInt8) : (hexNibble c).isSome = true ↔ c ∈ hexDigits := by
  have h : ∀ n : Fin 256, (hexNibble (UInt8.ofFin n)).isSome = true ↔ UInt8.ofFin n ∈ hexDigits := by
    decide +kernel
  exact h c.toFin

theorem of_hexNibble {c : UInt8} {n : Nat} (h : hexNibble c = some n)
    : n < 16 ∧ upperHexDigit n = toUpper c := by
  have hall : ∀ m : Fin 256, ∀ n, n ∈ hexNibble (UInt8.ofFin m)
      → n < 16 ∧ upperHexDigit n = toUpper (UInt8.ofFin m) := by
    decide +kernel
  exact hall c.toFin n h

theorem length_hexLoop_le (hex : List UInt8) : (hexLoop hex).fst.length ≤ hex.length / 2 := by
  fun_induction hexLoop hex with
  | case1 high low hex high' low' hlow hhigh rest ih =>
    have hrest : rest.fst.length ≤ hex.length / 2 := ih
    simp only [List.length_cons]
    omega
  | case2 high low hex hnone => simp
  | case3 hex hpair => simp

theorem hexLoop_snd {hex : List UInt8} (h : hex.length % 2 = 0)
    : (hexLoop hex).snd = true ↔ ∀ c, c ∈ hex → c ∈ hexDigits := by
  fun_induction hexLoop hex with
  | case1 high low hex high' low' hlow hhigh rest ih =>
    simp only [List.length_cons] at h
    have hfirst := (hexNibble_isSome high).mp (by rw [hhigh]; rfl)
    have hsecond := (hexNibble_isSome low).mp (by rw [hlow]; rfl)
    rw [ih (by omega)]
    simp [hfirst, hsecond]
  | case2 high low hex hnone =>
    simp only [Bool.false_eq_true, false_iff]
    intro hall
    have hfirst := (hexNibble_isSome high).mpr (hall high (by simp))
    have hsecond := (hexNibble_isSome low).mpr (hall low (by simp))
    have ⟨n, hn⟩ := Option.isSome_iff_exists.mp hfirst
    have ⟨m, hm⟩ := Option.isSome_iff_exists.mp hsecond
    exact hnone n m hn hm
  | case3 hex hpair =>
    cases hex with
    | nil => simp
    | cons c hex =>
      cases hex with
      | nil => simp at h
      | cons d hex => exact absurd rfl (hpair c d hex)

theorem binToHex_hexLoop {hex : List UInt8} (h : hex.length % 2 = 0)
    (hdecoded : (hexLoop hex).snd = true)
    : Handshake.binToHex (hexLoop hex).fst = hex.map toUpper := by
  fun_induction hexLoop hex with
  | case1 high low hex high' low' hlow hhigh rest ih =>
    simp only [List.length_cons] at h
    have ⟨hhigh16, hupper⟩ := of_hexNibble hhigh
    have ⟨hlow16, hupper'⟩ := of_hexNibble hlow
    have hbyte : (high' * 16 + low').toUInt8.toNat = high' * 16 + low' := by
      rw [Nat.toUInt8_eq, UInt8.toNat_ofNat']
      omega
    have hrest : Handshake.binToHex rest.fst = hex.map toUpper := ih (by omega) hdecoded
    rw [Handshake.binToHex, List.flatMap_cons, hbyte, ← Handshake.binToHex, hrest]
    have hdiv : (high' * 16 + low') / 16 = high' := by omega
    have hmod : (high' * 16 + low') % 16 = low' := by omega
    simp [hdiv, hmod, hupper, hupper']
  | case2 high low hex hnone => simp at hdecoded
  | case3 hex hpair =>
    cases hex with
    | nil => rfl
    | cons c hex =>
      cases hex with
      | nil => simp at h
      | cons d hex => exact absurd rfl (hpair c d hex)

/- A call that succeeds with these bytes. -/
structure Decoded (o : HexOut) (bin : List UInt8) : Prop where
  ret : o.ret = 0
  outLen : o.outLen = bin.length
  bytes : o.out.get 0 bin.length = bin

/- What holds of every call, `hex` being the string behind the pointer. -/
structure Checked (hex : List UInt8) (outCapacity : Nat) (out : Memory) (outLen : Nat) (o : HexOut)
    : Prop where
  accepted : o.ret = 0
    ↔ hex.length % 2 = 0 ∧ (∀ c, c ∈ hex → c ∈ hexDigits) ∧ hex.length / 2 ≤ outCapacity
  upper : o.ret = 0 → o.outLen = hex.length / 2
    ∧ Handshake.binToHex (o.out.get 0 o.outLen) = hex.map toUpper
  inside : ∀ address, outCapacity ≤ address → o.out address = out address
  outLen : o.ret ≠ 0 → o.outLen = outLen

theorem decoded_of_hexLoop {hex bin : List UInt8} {outCapacity : Nat} (out : Memory) (outLen : Nat)
    (h : hexLoop (cstr hex) = ⟨bin, true⟩) (hlength : (cstr hex).length = 2 * bin.length)
    (hcapacity : bin.length ≤ outCapacity)
    : Decoded (hexToBinChecked hex outCapacity out outLen) bin := by
  have hcall : Handshake.hexToBinChecked hex outCapacity = ⟨bin, some bin.length⟩ := by
    unfold Handshake.hexToBinChecked
    dsimp only
    rw [if_neg (by omega), h, hlength]
    simp
  rw [hexToBinChecked_eq, hcall]
  exact ⟨rfl, rfl, Memory.get_put_self out 0 bin⟩

/- The digits end at the terminator. -/
theorem cstr_append_zero {text : List UInt8} (rest : List UInt8) (h : ∀ c, c ∈ text → c ≠ 0)
    : cstr (text ++ 0 :: rest) = text := by
  unfold cstr
  rw [List.takeWhile_append_of_pos (by simpa using h)]
  simp

theorem get_binToHex (bin : List UInt8) (mem : Memory)
    : (binToHex bin mem).get 0 (bin.length * 2 + 1) = Handshake.binToHex bin ++ [0] := by
  have hlength : bin.length * 2 + 1 = (Handshake.binToHex bin ++ [0]).length := by
    rw [List.length_append, length_binToHex, List.length_singleton]
    omega
  rw [binToHex, binToHexLoop_eq, hlength]
  apply Memory.get_put_self

theorem hexToBinChecked_checked (hex : List UInt8) (outCapacity : Nat) (out : Memory) (outLen : Nat)
    : Checked (cstr hex) outCapacity out outLen (hexToBinChecked hex outCapacity out outLen) := by
  rw [hexToBinChecked_eq]
  unfold Handshake.hexToBinChecked
  dsimp only
  split
  . next hsize =>
    -- refused before anything is written
    refine ⟨?_, by simp, by simp, by simp⟩
    simp only [Option.isSome_none, Bool.false_eq_true, if_false, Int.reduceNeg, Int.reduceEq,
      false_iff, not_and]
    intro heven _
    omega
  . next hsize =>
    have heven : (cstr hex).length % 2 = 0 := by omega
    have hfits : (cstr hex).length / 2 ≤ outCapacity := by omega
    have hwritten := length_hexLoop_le (cstr hex)
    have hinside : ∀ address, outCapacity ≤ address
        → out.put 0 (hexLoop (cstr hex)).fst address = out address := by
      intro address haddress
      apply Memory.put_of_not_mem
      omega
    have hdigits := hexLoop_snd heven
    cases hsnd : (hexLoop (cstr hex)).snd with
    | false =>
      rw [hsnd] at hdigits
      refine ⟨?_, by simp, hinside, by simp⟩
      simp [heven, hfits, ← hdigits]
    | true =>
      have hupper := binToHex_hexLoop heven hsnd
      have hlength : (hexLoop (cstr hex)).fst.length = (cstr hex).length / 2 := by
        have hboth := congrArg List.length hupper
        rw [length_binToHex, List.length_map] at hboth
        omega
      rw [hsnd] at hdigits
      refine ⟨?_, ?_, hinside, by simp⟩
      . simp [heven, hfits, ← hdigits]
      . intro _
        simp only [if_true, Option.getD_some, true_and]
        rw [← hlength, Memory.get_put_self, hupper]

theorem hex_round_trip_and_checks
    : (∀ (bin : List UInt8) (outCapacity : Nat) (mem out : Memory) (outLen : Nat),
        bin.length ≤ outCapacity
          → Decoded (hexToBinChecked ((binToHex bin mem).get 0 (bin.length * 2 + 1)) outCapacity out
              outLen) bin
            ∧ Decoded (hexToBinChecked (binToLowerHex bin) outCapacity out outLen) bin)
        ∧
      ∀ (hex : List UInt8) (outCapacity : Nat) (out : Memory) (outLen : Nat),
        Checked (cstr hex) outCapacity out outLen (hexToBinChecked hex outCapacity out outLen) := by
  refine ⟨?_, hexToBinChecked_checked⟩
  intro bin outCapacity mem out outLen hcapacity
  constructor
  . have hcstr : cstr (Handshake.binToHex bin ++ [0]) = Handshake.binToHex bin := by
      apply cstr_append_zero
      intro c hc
      exact (mem_binToHex hc).left
    rw [get_binToHex]
    apply decoded_of_hexLoop out outLen _ _ hcapacity
    . rw [hcstr, hexLoop_binToHex]
    . rw [hcstr, length_binToHex]
  . apply decoded_of_hexLoop out outLen _ _ hcapacity
    . rw [cstr_binToLowerHex, hexLoop_binToLowerHex]
    . rw [cstr_binToLowerHex, length_binToLowerHex]

end HexCodec
end Handshake

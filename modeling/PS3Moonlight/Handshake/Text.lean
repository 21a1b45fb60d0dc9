import Mathlib.Data.List.Basic
import PS3Moonlight.Lib.Marker

/-!
This module contains the text functions of `handshake.c`: the search for an XML element, the two
directions of hexadecimal coding and the form of a UUID. Text is a list of bytes, the functions of the
C library stop at the first zero byte of it.
-/

namespace Handshake

def ascii (s : String) : List UInt8 :=
  s.toList.map fun c => c.toNat.toUInt8

/- The C string at the start of a buffer. -/
def cstr (text : List UInt8) : List UInt8 :=
  text.takeWhile fun c => c != 0

/- What stands before and behind the first occurrence of the pattern. -/
def strstr (text pattern : List UInt8) : Option (List UInt8 × List UInt8) :=
  if pattern.isPrefixOf text then
    some ⟨[], text.drop pattern.length⟩
  else
    match text with
    | [] => none
    | c :: text => (strstr text pattern).map fun parts => ⟨c :: parts.fst, parts.snd⟩

def startTag (tag : List UInt8) : List UInt8 :=
  (ascii "<" ++ tag ++ ascii ">").take 63

def endTag (tag : List UInt8) : List UInt8 :=
  (ascii "</" ++ tag ++ ascii ">").take 63

def extractXml (xml tag : List UInt8) : Option (List UInt8) :=
  match strstr (cstr xml) (startTag tag) with
  | none => none
  | some start =>
    match strstr start.snd (endTag tag) with
    | none => none
    | some element => some element.fst

def upperHexDigit (n : Nat) : UInt8 :=
  if n < 10 then (48 + n).toUInt8 else (55 + n).toUInt8

def lowerHexDigit (n : Nat) : UInt8 :=
  if n < 10 then (48 + n).toUInt8 else (87 + n).toUInt8

def binToHex (bin : List UInt8) : List UInt8 :=
  bin.flatMap fun b => [upperHexDigit (b.toNat / 16), upperHexDigit (b.toNat % 16)]

def binToLowerHex (bin : List UInt8) : List UInt8 :=
  bin.flatMap fun b => [lowerHexDigit (b.toNat / 16), lowerHexDigit (b.toNat % 16)]

def hexNibble (value : UInt8) : Option Nat :=
  if 48 ≤ value ∧ value ≤ 57 then
    some (value.toNat - 48)
  else if 65 ≤ value ∧ value ≤ 70 then
    some (value.toNat - 65 + 10)
  else if 97 ≤ value ∧ value ≤ 102 then
    some (value.toNat - 97 + 10)
  else
    none

/- The bytes that are written, and whether the loop got through. -/
def hexLoop (hex : List UInt8) : List UInt8 × Bool :=
  match hex with
  | high :: low :: hex =>
    match hexNibble high, hexNibble low with
    | some high, some low =>
      let rest := hexLoop hex
      ⟨(high * 16 + low).toUInt8 :: rest.fst, rest.snd⟩
    | _, _ => ⟨[], false⟩
  | _ => ⟨[], true⟩

/-
The bytes that are written to the output, and the value of the output length if it is set.
-/
def hexToBinChecked (hex : List UInt8) (outCapacity : Nat) : List UInt8 × Option Nat :=
  let hex := cstr hex
  if hex.length % 2 ≠ 0 ∨ outCapacity < hex.length / 2 then
    ⟨[], none⟩
  else
    let written := hexLoop hex
    ⟨written.fst, if written.snd then some (hex.length / 2) else none⟩

/- What the callers make of it: the decoded bytes or a failure. -/
def decodeHex (hex : List UInt8) (outCapacity : Nat) : Option (List UInt8) :=
  let out := hexToBinChecked hex outCapacity
  out.snd.map fun length => out.fst.take length

/- Sixteen bytes from `ps3_random_bytes`. -/
abbrev Random := { bytes : List UInt8 // bytes.length = 16 }

def uuidUnparse (uuid : List UInt8) : List UInt8 :=
  binToLowerHex (uuid.take 4) ++ ascii "-" ++ binToLowerHex ((uuid.drop 4).take 2) ++ ascii "-"
    ++ binToLowerHex ((uuid.drop 6).take 2) ++ ascii "-" ++ binToLowerHex ((uuid.drop 8).take 2)
    ++ ascii "-" ++ binToLowerHex (uuid.drop 10)

def generateUuidString (random : Random) : List UInt8 :=
  let version := random.val.modify 6 fun b => (b &&& 0x0F) ||| 0x40
  uuidUnparse (version.modify 8 fun b => (b &&& 0x3F) ||| 0x80)

theorem ne_of_all {text : List UInt8} {c : UInt8} (h : (text.all fun c' => c' != c) = true)
    : ∀ c', c' ∈ text → c' ≠ c := by
  simpa using h

theorem cstr_eq_self {text : List UInt8} (h : ∀ c, c ∈ text → c ≠ 0) : cstr text = text := by
  unfold cstr
  induction text with
  | nil => rfl
  | cons c text ih =>
    have hc := h c (by simp)
    rw [List.takeWhile_cons_of_pos (by simpa using hc), ih]
    intro c' hc'
    exact h c' (by simp [hc'])

/-
The search goes through everything that cannot begin the pattern, and stops at the pattern.
-/

theorem strstr_self (pattern post : List UInt8)
    : strstr (pattern ++ post) pattern = some ⟨[], post⟩ := by
  unfold strstr
  rw [if_pos (by simp)]
  simp

theorem strstr_cons {c : UInt8} {text pattern : List UInt8}
    (h : pattern.isPrefixOf (c :: text) = false)
    : strstr (c :: text) pattern
        =
      (strstr text pattern).map fun parts => ⟨c :: parts.fst, parts.snd⟩ := by
  rw [strstr, h]
  simp

theorem strstr_append {first : UInt8} {pattern before : List UInt8} (text : List UInt8)
    (h : ∀ c, c ∈ before → c ≠ first)
    : strstr (before ++ text) (first :: pattern)
        =
      (strstr text (first :: pattern)).map fun parts => ⟨before ++ parts.fst, parts.snd⟩ := by
  induction before with
  | nil => simp
  | cons c before ih =>
    have hne := h c (by simp)
    have hrest := ih (fun c' hc' => h c' (by simp [hc']))
    rw [List.cons_append, strstr_cons, hrest]
    . simp [Function.comp_def]
    . simp [List.isPrefixOf, hne.symm]

theorem strstr_skip {text rest pattern : List UInt8}
    (h : ∀ u, u <:+ text → u ≠ [] → ¬pattern <+: u ++ rest)
    : strstr (text ++ rest) pattern
        =
      (strstr rest pattern).map fun parts => ⟨text ++ parts.fst, parts.snd⟩ := by
  induction text with
  | nil => simp
  | cons c text ih =>
    have hbegin : pattern.isPrefixOf (c :: (text ++ rest)) = false := by
      rw [← Bool.not_eq_true, List.isPrefixOf_iff_prefix]
      exact h (c :: text) (List.suffix_refl _) (by simp)
    rw [List.cons_append, strstr_cons hbegin, ih]
    . simp [Function.comp_def]
    . intro u hu hne
      exact h u (hu.trans (List.suffix_cons c text)) hne

theorem strstr_eq_none_iff (text pattern : List UInt8)
    : strstr text pattern = none ↔ ¬pattern <:+: text := by
  induction text with
  | nil =>
    rw [strstr, List.infix_nil]
    split
    . next h =>
      rw [List.isPrefixOf_iff_prefix, List.prefix_nil] at h
      simp [h]
    . next h =>
      rw [List.isPrefixOf_iff_prefix, List.prefix_nil] at h
      simp [h]
  | cons c text ih =>
    rw [List.infix_cons_iff, strstr]
    split
    . next h =>
      rw [List.isPrefixOf_iff_prefix] at h
      simp [h]
    . next h =>
      rw [List.isPrefixOf_iff_prefix] at h
      rw [Option.map_eq_none_iff, ih]
      simp [h]

/-
Tags begin with a `<` and have no other one, so a search for one goes through other tags, and through
text without it that a tag follows.
-/

def isTag (tag : List UInt8) : Bool :=
  tag.head? == some 60 && !tag.tail.contains 60

theorem eq_cons_of_isTag {tag : List UInt8} (h : isTag tag = true)
    : ∃ tail, tag = 60 :: tail ∧ 60 ∉ tail := by
  cases tag with
  | nil => contradiction
  | cons c tail =>
    simp only [isTag, List.head?_cons, List.tail_cons, Bool.and_eq_true, beq_iff_eq,
      Option.some.injEq, Bool.not_eq_true', List.contains_eq_mem, decide_eq_false_iff_not] at h
    exact ⟨tail, by rw [h.left], h.right⟩

theorem strstr_skip_tag {tag pattern : List UInt8} (rest : List UInt8) (htag : isTag tag = true)
    (hpattern : isTag pattern = true) (h : ¬pattern <+: tag) (h' : ¬tag <+: pattern)
    : strstr (tag ++ rest) pattern
        =
      (strstr rest pattern).map fun parts => ⟨tag ++ parts.fst, parts.snd⟩ := by
  obtain ⟨tail, htail, hmem⟩ := eq_cons_of_isTag htag
  obtain ⟨ptail, hptail, _⟩ := eq_cons_of_isTag hpattern
  apply strstr_skip
  intro u hu hne
  rw [htail, List.suffix_cons_iff] at hu
  cases hu with
  | inl heq =>
    rw [heq, ← htail]
    exact Marker.not_prefix_append rest h h'
  | inr hsuffix =>
    rw [hptail]
    apply Marker.not_prefix_of_not_mem rest hne
    exact fun hmem' => hmem (hsuffix.mem hmem')

theorem strstr_skip_text {text pattern : List UInt8} (rest : List UInt8)
    (hpattern : isTag pattern = true) (h : ¬pattern <:+: text)
    (hrest : ∀ c, rest.head? = some c → c = 60)
    : strstr (text ++ rest) pattern
        =
      (strstr rest pattern).map fun parts => ⟨text ++ parts.fst, parts.snd⟩ := by
  obtain ⟨ptail, hptail, hmem⟩ := eq_cons_of_isTag hpattern
  apply strstr_skip
  intro u hu hne hbegin
  rw [hptail] at hbegin
  have hu' := Marker.prefix_of_prefix_append hmem hne hrest hbegin
  apply h
  rw [hptail]
  exact hu'.isInfix.trans hu.isInfix

/-
Decoding is the inverse of encoding.
-/

theorem hexNibble_upperHexDigit : ∀ n, n < 16 → hexNibble (upperHexDigit n) = some n := by
  decide

theorem hexNibble_lowerHexDigit : ∀ n, n < 16 → hexNibble (lowerHexDigit n) = some n := by
  decide

/- A digit ends neither a string nor an element. -/
theorem upperHexDigit_ne : ∀ n, n < 16 → upperHexDigit n ≠ 0 ∧ upperHexDigit n ≠ 60 := by
  decide

theorem lowerHexDigit_ne : ∀ n, n < 16 → lowerHexDigit n ≠ 0 ∧ lowerHexDigit n ≠ 60 := by
  decide

/- What is the same for both alphabets. -/

theorem length_flatMap_digits (digit : Nat → UInt8) (bin : List UInt8)
    : (bin.flatMap fun b => [digit (b.toNat / 16), digit (b.toNat % 16)]).length
        =
      2 * bin.length := by
  induction bin with
  | nil => rfl
  | cons b bin ih =>
    simp only [List.flatMap_cons, List.length_append, List.length_cons, List.length_nil] at ih ⊢
    omega

theorem exists_digit_of_mem_flatMap {digit : Nat → UInt8} {bin : List UInt8} {c : UInt8}
    (h : c ∈ bin.flatMap fun b => [digit (b.toNat / 16), digit (b.toNat % 16)])
    : ∃ n, n < 16 ∧ c = digit n := by
  simp only [List.mem_flatMap, List.mem_cons, List.not_mem_nil, or_false] at h
  have ⟨b, _, hc⟩ := h
  have hb : b.toNat < 256 := b.toNat_lt
  cases hc with
  | inl hc => exact ⟨b.toNat / 16, by omega, hc⟩
  | inr hc => exact ⟨b.toNat % 16, by omega, hc⟩

theorem hexLoop_flatMap_digits {digit : Nat → UInt8}
    (hdigit : ∀ n, n < 16 → hexNibble (digit n) = some n) (bin : List UInt8)
    : hexLoop (bin.flatMap fun b => [digit (b.toNat / 16), digit (b.toNat % 16)])
        =
      ⟨bin, true⟩ := by
  induction bin with
  | nil => rfl
  | cons b bin ih =>
    have hb : b.toNat < 256 := b.toNat_lt
    have hhigh := hdigit (b.toNat / 16) (by omega)
    have hlow := hdigit (b.toNat % 16) (by omega)
    have hbyte : (b.toNat / 16 * 16 + b.toNat % 16).toUInt8 = b := by
      rw [Nat.div_add_mod']
      simp
    simp only [List.flatMap_cons, List.cons_append, List.nil_append]
    simp only [hexLoop, hhigh, hlow, ih, hbyte]

theorem length_binToHex (bin : List UInt8) : (binToHex bin).length = 2 * bin.length := by
  apply length_flatMap_digits

theorem length_binToLowerHex (bin : List UInt8) : (binToLowerHex bin).length = 2 * bin.length := by
  apply length_flatMap_digits

theorem mem_binToHex {bin : List UInt8} {c : UInt8} (h : c ∈ binToHex bin) : c ≠ 0 ∧ c ≠ 60 := by
  obtain ⟨n, hn, hc⟩ := exists_digit_of_mem_flatMap h
  rw [hc]
  exact upperHexDigit_ne n hn

theorem hexLoop_binToHex (bin : List UInt8) : hexLoop (binToHex bin) = ⟨bin, true⟩ := by
  apply hexLoop_flatMap_digits hexNibble_upperHexDigit

theorem hexLoop_binToLowerHex (bin : List UInt8) : hexLoop (binToLowerHex bin) = ⟨bin, true⟩ := by
  apply hexLoop_flatMap_digits hexNibble_lowerHexDigit

theorem cstr_binToHex (bin : List UInt8) : cstr (binToHex bin) = binToHex bin := by
  apply cstr_eq_self
  intro c hc
  exact (mem_binToHex hc).left

theorem cstr_binToLowerHex (bin : List UInt8) : cstr (binToLowerHex bin) = binToLowerHex bin := by
  apply cstr_eq_self
  intro c hc
  obtain ⟨n, hn, hc⟩ := exists_digit_of_mem_flatMap hc
  rw [hc]
  exact (lowerHexDigit_ne n hn).left

theorem decodeHex_binToHex (bin : List UInt8) {outCapacity : Nat} (h : bin.length ≤ outCapacity)
    : decodeHex (binToHex bin) outCapacity = some bin := by
  unfold decodeHex hexToBinChecked
  dsimp only
  rw [cstr_binToHex, length_binToHex, hexLoop_binToHex]
  rw [if_neg (by omega)]
  simp

theorem length_decodeHex {hex out : List UInt8} {outCapacity : Nat}
    (h : decodeHex hex outCapacity = some out)
    : out.length ≤ outCapacity := by
  unfold decodeHex hexToBinChecked at h
  dsimp only at h
  split at h
  . simp at h
  . next hsize =>
    rw [Option.map_eq_some_iff] at h
    have ⟨length, hlength, hout⟩ := h
    rw [← hout, List.length_take]
    split at hlength
    . injection hlength with hlength
      omega
    . simp at hlength

end Handshake

import Mathlib.Data.List.TakeWhile
import PS3Moonlight.Handshake.Launch
import PS3Moonlight.Handshake.Credentials

/-!
This module contains the identifier of the client: `hv_init` loads it from its file, or generates one
and saves it. What it ends up with is a valid identifier that the next one loads again.
-/

namespace Handshake

/- The start of the file up to the first byte that would break a request. -/
def storedId (idFile : List UInt8) : List UInt8 :=
  (cstr (idFile.take 63)).takeWhile fun c =>
    c != 10 && c != 13 && c != 9 && c != 96 && c != 32

/- The identifier, the file behind it, and whether the identifier is a new one. -/
structure Identified where
  uniqueId : List UInt8
  idFile : Option (List UInt8)
  generated : Bool
deriving DecidableEq

def hvInitUniqueId (idFile : Option (List UInt8)) (random : Option Random) (idStream : StreamWrite)
    : Option Identified :=
  let stored := storedId (idFile.getD [])
  if uuidStringValid stored then
    some ⟨stored, idFile, false⟩
  else
    match random with
    | none => none
    | some random =>
      let uniqueId := generateUuidString random
      if !idStream.fopen then
        none
      else if idStream.written == (cstr uniqueId).length && idStream.fclose then
        some ⟨uniqueId, some (idStream.content (cstr uniqueId)), true⟩
      else
        none

/- The identifier is the one of the requests. -/
theorem uniqueId_eq_initUniqueId {idFile : Option (List UInt8)} {random : Random}
    {idStream : StreamWrite} {identified : Identified}
    (h : hvInitUniqueId idFile (some random) idStream = some identified)
    : identified.uniqueId = initUniqueId idFile random := by
  have hinit : initUniqueId idFile random
      = if uuidStringValid (storedId (idFile.getD [])) then storedId (idFile.getD [])
        else generateUuidString random := by
    rfl
  rw [hinit]
  unfold hvInitUniqueId at h
  dsimp only at h
  split at h
  . next hvalid =>
    rw [Option.some.injEq] at h
    rw [if_pos hvalid, ← h]
  . next hvalid =>
    rw [if_neg hvalid]
    split at h
    . cases h
    . split at h
      . rw [Option.some.injEq] at h
        rw [← h]
      . cases h

/- Neither the end of a string nor one of the bytes that end the identifier in the file. -/
def isKept (c : UInt8) : Bool :=
  c != 0 && (c != 10 && c != 13 && c != 9 && c != 96 && c != 32)

theorem isKept_of_isXdigit {c : UInt8} (h : isXdigit c = true) : isKept c = true := by
  have hall : (List.all [0, 10, 13, 9, 96, 32] fun c' => !isXdigit c') = true := by decide
  rw [List.all_eq_true] at hall
  have hne : ∀ c', c' ∈ [0, 10, 13, 9, 96, 32] → c ≠ c' := by
    intro c' hmem heq
    have hdigit := hall c' hmem
    rw [← heq, h] at hdigit
    cases hdigit
  simpa [isKept, and_assoc] using hne

theorem isKept_of_uuidStringValid {value : List UInt8} (h : uuidStringValid value = true)
    : ∀ c, c ∈ value → isKept c = true := by
  intro c hc
  cases mem_of_uuidStringValid h hc with
  | inl hdash => rw [hdash]; rfl
  | inr hdigit => exact isKept_of_isXdigit hdigit

theorem cstr_of_isKept {value : List UInt8} (h : ∀ c, c ∈ value → isKept c = true)
    : cstr value = value := by
  apply cstr_eq_self
  intro c hc
  have hkept := h c hc
  rw [isKept, Bool.and_eq_true, bne_iff_ne] at hkept
  exact hkept.left

theorem length_of_uuidStringValid {value : List UInt8} (h : uuidStringValid value = true)
    : value.length = 36 := by
  have hlength := h
  rw [uuidStringValid_eq, Bool.and_eq_true, beq_iff_eq] at hlength
  rw [cstr_of_isKept (isKept_of_uuidStringValid h)] at hlength
  exact hlength.left

/- A valid identifier is loaded as it was saved. -/
theorem storedId_of_uuidStringValid {value : List UInt8} (h : uuidStringValid value = true)
    : storedId value = value := by
  have hkept := isKept_of_uuidStringValid h
  have hlength := length_of_uuidStringValid h
  rw [storedId, List.take_of_length_le (by omega), cstr_of_isKept hkept, List.takeWhile_eq_self_iff]
  intro c hc
  have hc' := hkept c hc
  rw [isKept, Bool.and_eq_true] at hc'
  exact hc'.right

/- What the formatter gives for sixteen bytes is five groups of digits between hyphens. -/

theorem isXdigit_lowerHexDigit : ∀ n, n < 16 → isXdigit (lowerHexDigit n) = true := by
  decide

theorem isXdigit_of_mem_binToLowerHex {bin : List UInt8} {c : UInt8} (h : c ∈ binToLowerHex bin)
    : isXdigit c = true := by
  obtain ⟨n, hn, hc⟩ := exists_digit_of_mem_flatMap h
  rw [hc]
  exact isXdigit_lowerHexDigit n hn

theorem all_zipIdx_group {digits : List UInt8} (hdigits : ∀ c, c ∈ digits → isXdigit c = true)
    {start : Nat}
    (hstart : ∀ i, start ≤ i → i < start + digits.length → ¬(i = 8 ∨ i = 13 ∨ i = 18 ∨ i = 23))
    : ((digits.zipIdx start).all fun p => uuidChar p.snd p.fst) = true := by
  rw [List.all_eq_true]
  intro p hp
  obtain ⟨hle, hlt, hget⟩ := List.mem_zipIdx hp
  rw [uuidChar, if_neg (hstart p.snd hle hlt)]
  apply hdigits
  rw [hget]
  apply List.getElem_mem

theorem uuidStringValid_groups {first second third fourth fifth : List UInt8}
    (hdigits : ∀ c, c ∈ first ++ second ++ third ++ fourth ++ fifth → isXdigit c = true)
    (hfirst : first.length = 8) (hsecond : second.length = 4) (hthird : third.length = 4)
    (hfourth : fourth.length = 4) (hfifth : fifth.length = 12)
    : uuidStringValid (first ++ ascii "-" ++ second ++ ascii "-" ++ third ++ ascii "-" ++ fourth
        ++ ascii "-" ++ fifth)
        =
      true := by
  have hdash : ascii "-" = [45] := by decide
  have hkept : ∀ c, c ∈ first ++ ascii "-" ++ second ++ ascii "-" ++ third ++ ascii "-" ++ fourth
      ++ ascii "-" ++ fifth → isKept c = true := by
    intro c hc
    have hcases : c = 45 ∨ c ∈ first ++ second ++ third ++ fourth ++ fifth := by
      simp only [hdash, List.mem_append, List.mem_singleton] at hc ⊢
      tauto
    cases hcases with
    | inl h => rw [h]; decide
    | inr h => exact isKept_of_isXdigit (hdigits c h)
  simp only [List.mem_append] at hdigits
  rw [uuidStringValid_eq, cstr_of_isKept hkept, hdash]
  simp only [List.zipIdx_append, List.all_append, List.length_append, hfirst, hsecond, hthird,
    hfourth, hfifth, List.length_singleton, Bool.and_eq_true]
  refine ⟨by decide, ⟨⟨⟨⟨⟨⟨⟨⟨?_, ?_⟩, ?_⟩, ?_⟩, ?_⟩, ?_⟩, ?_⟩, ?_⟩, ?_⟩⟩
  . exact all_zipIdx_group (fun c hc => hdigits c (by simp [hc])) (by omega)
  . decide
  . exact all_zipIdx_group (fun c hc => hdigits c (by simp [hc])) (by omega)
  . decide
  . exact all_zipIdx_group (fun c hc => hdigits c (by simp [hc])) (by omega)
  . decide
  . exact all_zipIdx_group (fun c hc => hdigits c (by simp [hc])) (by omega)
  . decide
  . exact all_zipIdx_group (fun c hc => hdigits c (by simp [hc])) (by omega)

theorem uuidStringValid_uuidUnparse {uuid : List UInt8} (h : uuid.length = 16)
    : uuidStringValid (uuidUnparse uuid) = true := by
  rw [uuidUnparse]
  apply uuidStringValid_groups
  . intro c hc
    simp only [List.mem_append] at hc
    rcases hc with (((hc | hc) | hc) | hc) | hc <;> exact isXdigit_of_mem_binToLowerHex hc
  all_goals
    simp only [length_binToLowerHex, List.length_take, List.length_drop]
    omega

theorem uuidStringValid_generateUuidString (random : Random)
    : uuidStringValid (generateUuidString random) = true := by
  apply uuidStringValid_uuidUnparse
  rw [List.length_modify, List.length_modify, random.property]

/- The digit of the version, and the one with the two bits of the variant. -/
def IsVersion4 (text : List UInt8) : Prop :=
  text[14]? = some 52
    ∧ (text[19]? = some 56 ∨ text[19]? = some 57 ∨ text[19]? = some 97 ∨ text[19]? = some 98)

theorem version_digit (b : UInt8) : lowerHexDigit (((b &&& 0x0F) ||| 0x40).toNat / 16) = 52 := by
  have h : ∀ n : Fin 256, lowerHexDigit (((UInt8.ofFin n &&& 0x0F) ||| 0x40).toNat / 16) = 52 := by
    decide +kernel
  exact h b.toFin

theorem variant_digit (b : UInt8)
    : lowerHexDigit (((b &&& 0x3F) ||| 0x80).toNat / 16) ∈ [56, 57, 97, 98] := by
  have h : ∀ n : Fin 256,
      lowerHexDigit (((UInt8.ofFin n &&& 0x3F) ||| 0x80).toNat / 16) ∈ [56, 57, 97, 98] := by
    decide +kernel
  exact h b.toFin

theorem isVersion4_generateUuidString (random : Random)
    : IsVersion4 (generateUuidString random) := by
  rcases random with ⟨bytes, hbytes⟩
  match bytes, hbytes with
  | [b0, b1, b2, b3, b4, b5, b6, b7, b8, b9, b10, b11, b12, b13, b14, b15], hbytes =>
    have hversion : (generateUuidString
          ⟨[b0, b1, b2, b3, b4, b5, b6, b7, b8, b9, b10, b11, b12, b13, b14, b15], hbytes⟩)[14]?
        = some (lowerHexDigit (((b6 &&& 0x0F) ||| 0x40).toNat / 16)) := by
      rfl
    have hvariant : (generateUuidString
          ⟨[b0, b1, b2, b3, b4, b5, b6, b7, b8, b9, b10, b11, b12, b13, b14, b15], hbytes⟩)[19]?
        = some (lowerHexDigit (((b8 &&& 0x3F) ||| 0x80).toNat / 16)) := by
      rfl
    rw [IsVersion4, hversion, hvariant, version_digit]
    have hdigit := variant_digit b8
    simpa using hdigit

/- What holds of the identifier that `hv_init` goes on with. -/
structure IdentitySound (identified : Identified) : Prop where
  length : identified.uniqueId.length = 36
  valid : uuidStringValid identified.uniqueId = true
  version : identified.generated = true → IsVersion4 identified.uniqueId
  stable : ∀ random idStream, hvInitUniqueId identified.idFile random idStream
    = some ⟨identified.uniqueId, identified.idFile, false⟩

theorem hvInitUniqueId_of_valid {idFile : List UInt8}
    (h : uuidStringValid (storedId idFile) = true) (random : Option Random) (idStream : StreamWrite)
    : hvInitUniqueId (some idFile) random idStream
        =
      some ⟨storedId idFile, some idFile, false⟩ := by
  unfold hvInitUniqueId
  dsimp only [Option.getD_some]
  rw [if_pos h]

theorem identitySound_loaded {idFile : List UInt8} (h : uuidStringValid (storedId idFile) = true)
    : IdentitySound ⟨storedId idFile, some idFile, false⟩ where
  length := length_of_uuidStringValid h
  valid := h
  version := by simp
  stable := hvInitUniqueId_of_valid h

theorem identitySound_generated (random : Random)
    : IdentitySound ⟨generateUuidString random, some (generateUuidString random), true⟩ := by
  have hvalid := uuidStringValid_generateUuidString random
  have hstored := storedId_of_uuidStringValid hvalid
  constructor
  . exact length_of_uuidStringValid hvalid
  . exact hvalid
  . exact fun _ => isVersion4_generateUuidString random
  . intro random' idStream
    rw [hvInitUniqueId_of_valid (by rw [hstored, hvalid]), hstored]

/- Without a file there is nothing to load. -/
theorem uuidStringValid_storedId_nil : uuidStringValid (storedId []) = false := by
  rfl

theorem hvInitUniqueId_sound (idFile : Option (List UInt8)) (random : Option Random)
    (idStream : StreamWrite) (identified : Identified)
    (h : hvInitUniqueId idFile random idStream = some identified)
    : IdentitySound identified := by
  unfold hvInitUniqueId at h
  dsimp only at h
  split at h
  . next hvalid =>
    rw [Option.some.injEq] at h
    cases idFile with
    | none =>
      rw [Option.getD_none, uuidStringValid_storedId_nil] at hvalid
      cases hvalid
    | some idFile =>
      rw [← h]
      exact identitySound_loaded hvalid
  . split at h
    . cases h
    . next random =>
      have hcstr : cstr (generateUuidString random) = generateUuidString random := by
        apply cstr_of_isKept
        exact isKept_of_uuidStringValid (uuidStringValid_generateUuidString random)
      rw [hcstr] at h
      split at h
      . cases h
      . split at h
        . next hcomplete =>
          rw [StreamWrite.content, if_pos hcomplete, Option.some.injEq] at h
          rw [← h]
          exact identitySound_generated random
        . cases h

/- A file whose last line break is cut off. -/
theorem hvInitUniqueId_sound_line
    : IdentitySound
        ⟨ascii "00112233-4455-4677-8899-AABBCCDDEEFF",
          some (ascii "00112233-4455-4677-8899-AABBCCDDEEFF\n"), false⟩ := by
  apply hvInitUniqueId_sound (some (ascii "00112233-4455-4677-8899-AABBCCDDEEFF\n")) none
    ⟨true, 36, true, []⟩
  decide +kernel

end Handshake

import PS3Moonlight.Ui.SettingsMenu

/-!
This module contains the way of the settings through the configuration file: what the user interface can
write, line by line what the parser makes of it, and when it gets the same settings back.
-/

namespace Ui

open Handshake (ascii cstr isSpace scanNumber scanLiteral scanNumber_text)

/-
The address that can be there: four numbers, or a text that is not taken for four numbers.
-/
def IsAddress (conversion : IntConversion) (str : List UInt8) : Prop :=
  (∃ octets : Octets, octets.first ≤ 255 ∧ octets.second ≤ 255 ∧ octets.third ≤ 255
      ∧ octets.fourth ≤ 255 ∧ str = dotted octets)
    ∨
  scanOctets conversion str = none ∧ str ≠ [] ∧ str.length ≤ 63 ∧ ∀ c, c ∈ str → c ≠ 0

/- The settings that the menu, the keyboard and the parser can lead to. -/
structure Valid (conversion : IntConversion) (s : Settings) : Prop where
  targetIpStr : IsAddress conversion s.targetIpStr
  first : s.ipOctets.first ≤ 255
  second : s.ipOctets.second ≤ 255
  third : s.ipOctets.third ≤ 255
  fourth : s.ipOctets.fourth ≤ 255
  fps : s.fps = 30 ∨ s.fps = 60
  bitrateIdx : s.bitrateIdx < numBitrateOptions
  mouseMode : s.mouseMode ≤ 1
  vsync : s.vsync ≤ 1
  showStats : s.showStats ≤ 1
  verbose : s.verbose ≤ 1
  streamRes16x9Idx : s.streamRes16x9Idx ≤ 1
  streamRes4x3Idx : s.streamRes4x3Idx ≤ 1
  scalingMode : s.scalingMode ≤ 1

/- Everything that the file has is the same, the octets behind the address may differ. -/
structure Restored (s t : Settings) : Prop where
  targetIpStr : t.targetIpStr = s.targetIpStr
  fps : t.fps = s.fps
  bitrateIdx : t.bitrateIdx = s.bitrateIdx
  mouseMode : t.mouseMode = s.mouseMode
  vsync : t.vsync = s.vsync
  showStats : t.showStats = s.showStats
  verbose : t.verbose = s.verbose
  streamRes16x9Idx : t.streamRes16x9Idx = s.streamRes16x9Idx
  streamRes4x3Idx : t.streamRes4x3Idx = s.streamRes4x3Idx
  scalingMode : t.scalingMode = s.scalingMode

theorem Change.valid {conversion : IntConversion} {s t : Settings} (h : Change s t)
    (hs : Valid conversion s)
    : Valid conversion t := by
  cases h with
  | fps v hv => exact { hs with fps := hv }
  | bitrateIdx v hv => exact { hs with bitrateIdx := hv }
  | mouseMode v hv => exact { hs with mouseMode := hv }
  | vsync v hv => exact { hs with vsync := hv }
  | showStats v hv => exact { hs with showStats := hv }
  | verbose v hv => exact { hs with verbose := hv }
  | streamRes16x9Idx v hv => exact { hs with streamRes16x9Idx := hv }
  | streamRes4x3Idx v hv => exact { hs with streamRes4x3Idx := hv }
  | scalingMode v hv => exact { hs with scalingMode := hv }

theorem takeOctet_le (o : Int) {old : Nat} (h : old ≤ 255) : takeOctet o old ≤ 255 := by
  unfold takeOctet
  split
  . omega
  . exact h

theorem length_text_octet {n : Nat} (h : n ≤ 255) : (Decimal.text n).length ≤ 3 := by
  apply Decimal.length_text_le
  . decide
  . omega

theorem length_dotted_le {octets : Octets} (hfirst : octets.first ≤ 255)
    (hsecond : octets.second ≤ 255) (hthird : octets.third ≤ 255) (hfourth : octets.fourth ≤ 255)
    : (dotted octets).length ≤ 15 := by
  have h1 := length_text_octet hfirst
  have h2 := length_text_octet hsecond
  have h3 := length_text_octet hthird
  have h4 := length_text_octet hfourth
  have hdot : (ascii ".").length = 1 := by decide
  simp only [dotted, List.length_append, hdot]
  omega

theorem length_dotted {octets : Octets} (hfirst : octets.first ≤ 255) (hsecond : octets.second ≤ 255)
    (hthird : octets.third ≤ 255) (hfourth : octets.fourth ≤ 255)
    : (dotted octets).length ≤ 63 := by
  apply Nat.le_trans (length_dotted_le hfirst hsecond hthird hfourth)
  decide

theorem isAddress_dotted (conversion : IntConversion) {octets : Octets}
    (hfirst : octets.first ≤ 255) (hsecond : octets.second ≤ 255) (hthird : octets.third ≤ 255)
    (hfourth : octets.fourth ≤ 255)
    : IsAddress conversion ((dotted octets).take 63) := by
  left
  refine ⟨octets, hfirst, hsecond, hthird, hfourth, ?_⟩
  apply List.take_of_length_le
  apply length_dotted hfirst hsecond hthird hfourth

theorem setTargetIp_valid {conversion : IntConversion} {s : Settings} {str : List UInt8}
    (h : Valid conversion s) (hlength : (cstr str).length ≤ 63)
    : Valid conversion (setTargetIp conversion s str) := by
  unfold setTargetIp
  dsimp only
  split
  . exact h
  . next hne =>
    split
    . next o ho =>
      have hfirst := takeOctet_le o.fst h.first
      have hsecond := takeOctet_le o.snd.fst h.second
      have hthird := takeOctet_le o.snd.snd.fst h.third
      have hfourth := takeOctet_le o.snd.snd.snd h.fourth
      exact
        { h with
          targetIpStr := isAddress_dotted conversion hfirst hsecond hthird hfourth
          first := hfirst
          second := hsecond
          third := hthird
          fourth := hfourth }
    . next hnone =>
      refine { h with targetIpStr := Or.inr ?_ }
      dsimp only
      rw [List.take_of_length_le hlength]
      refine ⟨hnone, by simpa using hne, hlength, ?_⟩
      intro c hc
      have hmem := List.mem_takeWhile_imp hc
      simpa using hmem

theorem length_cstr_le (text : List UInt8) : (cstr text).length ≤ text.length := by
  apply (List.takeWhile_prefix _).length_le

theorem length_utf16ToAscii_le (text : List UInt16) : (utf16ToAscii text).length ≤ 63 := by
  unfold utf16ToAscii
  apply Nat.le_trans (length_cstr_le _)
  rw [List.length_map, List.length_take]
  omega

theorem valid_default (conversion : IntConversion) : Valid conversion defaultSettings := by
  have haddress : IsAddress conversion defaultSettings.targetIpStr := by
    left
    refine ⟨⟨192, 168, 1, 1⟩, by decide, by decide, by decide, by decide, ?_⟩
    decide
  exact
    { targetIpStr := haddress
      first := by decide
      second := by decide
      third := by decide
      fourth := by decide
      fps := Or.inr rfl
      bitrateIdx := by decide
      mouseMode := by decide
      vsync := by decide
      showStats := by decide
      verbose := by decide
      streamRes16x9Idx := by decide
      streamRes4x3Idx := by decide
      scalingMode := by decide }

theorem loadSettings_valid (conversion : IntConversion) (file : Option (List UInt8))
    : Valid conversion (loadSettings conversion defaultSettings file) := by
  apply loadSettings_induction (Valid conversion)
  . intro s value hs hvalue
    apply setTargetIp_valid hs
    apply Nat.le_trans (length_cstr_le value) hvalue.length_le
  . intro s t hs hchange
    apply hchange.valid hs
  . apply valid_default

/-
A line of the file.
-/

/- What the parser gives back as it stands: a text without white space. -/
structure IsToken (text : List UInt8) : Prop where
  ne_nil : text ≠ []
  noSpace : ∀ c, c ∈ text → isSpace c = false
  noNul : ∀ c, c ∈ text → c ≠ 0
  length_le : text.length ≤ 63

/- A key with its line not too long, that is not taken for a comment. -/
structure IsKey (key : List UInt8) : Prop extends IsToken key where
  noEquals : ∀ c, c ∈ key → c ≠ 61
  noComment : ∀ c, c ∈ key → c ≠ 35 ∧ c ≠ 59
  length_lt : key.length < 63

theorem of_isSpace {c : UInt8} (h : isSpace c = false)
    : isBlank c = false ∧ isLineEnd c = false := by
  simp only [isSpace, isBlank, isLineEnd, Bool.or_eq_false_iff, Bool.and_eq_false_iff,
    beq_eq_false_iff_ne, decide_eq_false_iff_not, ne_eq, ← UInt8.toNat_inj,
    UInt8.le_iff_toNat_le, UInt8.reduceToNat] at h ⊢
  omega

/- Nothing is dropped from a text that begins with a character to keep. -/
theorem dropWhile_append_token {drop : UInt8 → Bool} {text : List UInt8} (rest : List UInt8)
    (hne : text ≠ []) (h : ∀ c, c ∈ text → drop c = false)
    : (text ++ rest).dropWhile drop = text ++ rest := by
  cases text with
  | nil => exact absurd rfl hne
  | cons c text =>
    rw [List.cons_append, List.dropWhile_cons_of_neg]
    simpa using h c

theorem dropWhile_token {drop : UInt8 → Bool} {text : List UInt8} (hne : text ≠ [])
    (h : ∀ c, c ∈ text → drop c = false)
    : text.dropWhile drop = text := by
  have hdrop := dropWhile_append_token [] hne h
  rw [List.append_nil] at hdrop
  exact hdrop

/- What is dropped at the end stops at a text with characters to keep. -/
theorem trimEnd_append_token {drop : UInt8 → Bool} {text : List UInt8} (start : List UInt8)
    (hne : text ≠ []) (h : ∀ c, c ∈ text → drop c = false)
    : trimEnd drop (start ++ text) = start ++ text := by
  unfold trimEnd
  rw [List.reverse_append, dropWhile_append_token, List.reverse_append, List.reverse_reverse,
    List.reverse_reverse]
  . simpa using hne
  . simpa using h

theorem trimEnd_append_singleton {drop : UInt8 → Bool} {c : UInt8} (text : List UInt8)
    (h : drop c = true)
    : trimEnd drop (text ++ [c]) = trimEnd drop text := by
  unfold trimEnd
  rw [List.reverse_append, List.reverse_singleton, List.singleton_append,
    List.dropWhile_cons_of_pos h]

theorem takeWhile_take {p : UInt8 → Bool} {n : Nat} {text : List UInt8}
    (h : (text.takeWhile p).length ≤ n)
    : (text.take n).takeWhile p = text.takeWhile p := by
  induction text generalizing n with
  | nil => rw [List.take_nil]
  | cons c text ih =>
    cases hc : p c with
    | true =>
      rw [List.takeWhile_cons_of_pos hc] at h ⊢
      cases n with
      | zero => contradiction
      | succ n =>
        rw [List.take_succ_cons, List.takeWhile_cons_of_pos hc, ih (by simpa using h)]
    | false =>
      rw [List.takeWhile_cons_of_neg (by rw [hc]; decide)]
      cases n with
      | zero => rfl
      | succ n => rw [List.take_succ_cons, List.takeWhile_cons_of_neg (by rw [hc]; decide)]

theorem drop_takeWhile (p : UInt8 → Bool) (text : List UInt8)
    : text.drop (text.takeWhile p).length = text.dropWhile p := by
  have happend := List.takeWhile_append_dropWhile (p := p) (l := text)
  calc text.drop (text.takeWhile p).length
    _ = (text.takeWhile p ++ text.dropWhile p).drop (text.takeWhile p).length := by rw [happend]
    _ = text.dropWhile p := List.drop_left

theorem takeWhile_take_token {keep : UInt8 → Bool} {text rest : List UInt8}
    (h : ∀ c, c ∈ text → keep c = true) (hrest : ∀ c, rest.head? = some c → keep c = false)
    (hlength : text.length ≤ 63)
    : ((text ++ rest).take 63).takeWhile keep = text := by
  have hwhole : (text ++ rest).takeWhile keep = text := by
    rw [List.takeWhile_append_of_pos h]
    cases rest with
    | nil => simp
    | cons c tail =>
      rw [List.takeWhile_cons_of_neg, List.append_nil]
      simpa using hrest c rfl
  rw [takeWhile_take (by rw [hwhole]; exact hlength), hwhole]

/- Key and value are told apart at the equals sign. -/
theorem scanEntry_token {key value : List UInt8} (hkey : IsKey key) (hvalue : IsToken value)
    : scanEntry (key ++ 61 :: value) = some ⟨key, value⟩ := by
  have hscannedKey : ((key ++ 61 :: value).take 63).takeWhile (fun c => c != 61) = key := by
    apply takeWhile_take_token _ _ hkey.length_le
    . intro c hc
      simpa using hkey.noEquals c hc
    . intro c hc
      injection hc with hc
      rw [← hc]
      rfl
  have hscannedValue : ((value.dropWhile isSpace).take 63).takeWhile (fun c => !isSpace c) = value := by
    have htake : ((value ++ []).take 63).takeWhile (fun c => !isSpace c) = value := by
      apply takeWhile_take_token _ _ hvalue.length_le
      . intro c hc
        simpa using hvalue.noSpace c hc
      . intro c hc
        contradiction
    rw [List.append_nil] at htake
    rw [dropWhile_token hvalue.ne_nil hvalue.noSpace, htake]
  have hkeyEmpty : key.isEmpty = false := by simpa using hkey.ne_nil
  have hvalueEmpty : value.isEmpty = false := by simpa using hvalue.ne_nil
  unfold scanEntry
  simp only [hscannedKey, List.drop_left, List.head?_cons, List.drop_succ_cons, List.drop_zero,
    hscannedValue, hkeyEmpty, hvalueEmpty, bne_self_eq_false, Bool.or_self, Bool.false_eq_true,
    ↓reduceIte]

theorem IsToken.isBlank {text : List UInt8} (h : IsToken text)
    : ∀ c, c ∈ text → isBlank c = false := by
  intro c hc
  exact (of_isSpace (h.noSpace c hc)).left

theorem IsToken.isLineEnd {text : List UInt8} (h : IsToken text)
    : ∀ c, c ∈ text → isLineEnd c = false := by
  intro c hc
  exact (of_isSpace (h.noSpace c hc)).right

theorem configLine_eq (key value : List UInt8)
    : configLine key value = key ++ 61 :: value ++ [10] := by
  simp [configLine, ascii]

theorem cstr_configLine {key value : List UInt8} (hkey : IsToken key) (hvalue : IsToken value)
    : cstr (configLine key value) = configLine key value := by
  unfold cstr
  rw [List.takeWhile_eq_self_iff, configLine_eq]
  intro c hc
  simp only [List.mem_append, List.mem_cons, List.not_mem_nil, or_false] at hc
  rcases hc with (hc | hc | hc) | hc
  . simpa using hkey.noNul c hc
  . rw [hc]
    rfl
  . simpa using hvalue.noNul c hc
  . rw [hc]
    rfl

theorem trimEnd_configLine (key : List UInt8) {value : List UInt8} (hvalue : IsToken value)
    : trimEnd (fun c => isLineEnd c || isBlank c) (configLine key value) = key ++ 61 :: value := by
  have hsplit : key ++ 61 :: value = key ++ [61] ++ value := by simp
  rw [configLine_eq, trimEnd_append_singleton _ (by rfl), hsplit]
  apply trimEnd_append_token _ hvalue.ne_nil
  intro c hc
  rw [hvalue.isLineEnd c hc, hvalue.isBlank c hc]
  rfl

/- What is written for a setting is read as its key and its value. -/
theorem parseLine_configLine {key value : List UInt8} (hkey : IsKey key) (hvalue : IsToken value)
    : parseLine (configLine key value) = some ⟨key, value⟩ := by
  have htrimKey : trimEnd isBlank key = key := by
    have htrimKey := trimEnd_append_token [] hkey.ne_nil hkey.isBlank
    rw [List.nil_append] at htrimKey
    exact htrimKey
  have hdropValue : value.dropWhile isBlank = value := by
    apply dropWhile_token hvalue.ne_nil hvalue.isBlank
  have hdropLine : (configLine key value).dropWhile isBlank = configLine key value := by
    rw [configLine_eq, List.append_assoc]
    apply dropWhile_append_token _ hkey.ne_nil hkey.isBlank
  unfold parseLine
  rw [cstr_configLine hkey.toIsToken hvalue, hdropLine]
  dsimp only
  split
  . next hnil => simp [configLine_eq] at hnil
  . next c rest hcons =>
    -- the first character of the line is one of the key
    have hc : c ∈ key := by
      cases key with
      | nil => exact absurd rfl hkey.ne_nil
      | cons k key =>
        injection hcons with hc _
        rw [← hc]
        apply List.mem_cons_self
    have hnone : (c == 35 || c == 59 || isLineEnd c) = false := by
      have ⟨hhash, hsemicolon⟩ := hkey.noComment c hc
      rw [hkey.isLineEnd c hc, beq_eq_false_iff_ne.mpr hhash, beq_eq_false_iff_ne.mpr hsemicolon]
      rfl
    rw [if_neg (by rw [hnone]; decide), trimEnd_configLine key hvalue, scanEntry_token hkey hvalue,
      Option.map_some, htrimKey, hdropValue]

/-
The whole file.
-/

theorem isToken_of_isDigit {text : List UInt8} (hne : text ≠ [])
    (h : ∀ c, c ∈ text → Decimal.isDigit c = true) (hlength : text.length ≤ 63)
    : IsToken text := by
  constructor
  . exact hne
  . intro c hc
    exact (Handshake.of_isDigit (h c hc)).left
  . intro c hc hzero
    have hdigit := h c hc
    rw [hzero] at hdigit
    contradiction
  . exact hlength

theorem isToken_text {n : Nat} (h : n ≤ 255) : IsToken (Decimal.text n) := by
  apply isToken_of_isDigit (Decimal.text_ne_nil n) (Decimal.isDigit_text n)
  have hlength := length_text_octet h
  omega

theorem scanNumber_text_self (n : Nat) : scanNumber (Decimal.text n) = some ⟨n, []⟩ := by
  have hscan : scanNumber (Decimal.text n ++ []) = some ⟨n, []⟩ := by
    apply scanNumber_text
    intro c hc
    contradiction
  rw [List.append_nil] at hscan
  exact hscan

theorem atoi_text (conversion : IntConversion) {n : Nat} (h : n ≤ 255)
    : atoi conversion (Decimal.text n) = n := by
  unfold atoi
  rw [scanNumber_text_self]
  apply conversion.toInt_eq
  . omega
  . omega

/- The lines of a text, taken over one after the other. -/
def loadLines (conversion : IntConversion) (l : Loading) (content : List UInt8) : Loading :=
  (Lines.chunks 10 127 content).foldl (loadLine conversion) l

theorem loadLines_configLine (conversion : IntConversion) (l : Loading) {key value : List UInt8}
    (rest : List UInt8) (hkey : IsKey key) (hvalue : IsToken value)
    : loadLines conversion l (configLine key value ++ rest)
        = loadLines conversion (loadEntry conversion l key value) rest := by
  have hline : configLine key value ++ rest = (key ++ 61 :: value) ++ 10 :: rest := by
    simp [configLine_eq]
  have hsep : 10 ∉ key ++ 61 :: value := by
    simp only [List.mem_append, List.mem_cons, not_or]
    refine ⟨?_, by decide, ?_⟩
    . intro hmem
      have hspace := hkey.noSpace 10 hmem
      contradiction
    . intro hmem
      have hspace := hvalue.noSpace 10 hmem
      contradiction
  have hsize : (key ++ 61 :: value).length < 127 := by
    have hkeySize := hkey.length_lt
    have hvalueSize := hvalue.length_le
    rw [List.length_append, List.length_cons]
    omega
  unfold loadLines
  rw [hline, Lines.chunks_line _ _ hsep hsize, List.foldl_cons, ← configLine_eq]
  rw [loadLine, parseLine_configLine hkey hvalue]

/-
What the keys mean.
-/

section

variable (conversion : IntConversion) (l : Loading) {n : Nat}

theorem boolNat_ne_zero (h : n ≤ 1) : boolNat ((n : Int) ≠ 0) = n := by
  have hn : n = 0 ∨ n = 1 := by omega
  cases hn with
  | inl hn => rw [hn]; rfl
  | inr hn => rw [hn]; rfl

theorem boolNat_eq_one (h : n ≤ 1) : boolNat ((n : Int) = 1) = n := by
  have hn : n = 0 ∨ n = 1 := by omega
  cases hn with
  | inl hn => rw [hn]; rfl
  | inr hn => rw [hn]; rfl

theorem flag_of_le (h : n ≤ 1) : flag n = Decimal.text n := by
  have hn : n = 0 ∨ n = 1 := by omega
  cases hn with
  | inl hn => rw [hn]; rfl
  | inr hn => rw [hn]; rfl

theorem loadEntry_host {value : List UInt8} (h : value ≠ [])
    : loadEntry conversion l (ascii "host_ip") value
        = { l with settings := setTargetIp conversion l.settings value } := by
  have hempty : value.isEmpty = false := by simpa using h
  simp +decide only [loadEntry, hempty, ↓reduceIte]

theorem loadEntry_fps (h : n = 30 ∨ n = 60)
    : loadEntry conversion l (ascii "fps") (Decimal.text n)
        = { l with settings := { l.settings with fps := n } } := by
  have hv := atoi_text conversion (n := n) (by omega)
  simp +decide only [loadEntry, ↓reduceIte]
  rw [hv, if_pos (by omega), Int.toNat_natCast]

theorem loadEntry_bitrateIdx (h : n < numBitrateOptions)
    : loadEntry conversion l (ascii "bitrate_idx") (Decimal.text n)
        = { l with settings := { l.settings with bitrateIdx := n } } := by
  have hn : n < 5 := h
  have hv := atoi_text conversion (n := n) (by omega)
  simp +decide only [loadEntry, ↓reduceIte]
  rw [hv, if_pos (by omega), Int.toNat_natCast]

theorem loadEntry_mouseMode (h : n ≤ 1)
    : loadEntry conversion l (ascii "mouse_mode") (Decimal.text n)
        = { l with settings := { l.settings with mouseMode := n } } := by
  have hv := atoi_text conversion (n := n) (by omega)
  simp +decide only [loadEntry, ↓reduceIte]
  rw [hv, if_pos (by omega), Int.toNat_natCast]

theorem loadEntry_vsync (h : n ≤ 1)
    : loadEntry conversion l (ascii "vsync") (flag n)
        = { l with settings := { l.settings with vsync := n } } := by
  have hv := atoi_text conversion (n := n) (by omega)
  simp +decide only [loadEntry, ↓reduceIte]
  rw [flag_of_le h, hv, boolNat_ne_zero h]

theorem loadEntry_showStats (h : n ≤ 1)
    : loadEntry conversion l (ascii "stats") (flag n)
        = { l with settings := { l.settings with showStats := n } } := by
  have hv := atoi_text conversion (n := n) (by omega)
  simp +decide only [loadEntry, ↓reduceIte]
  rw [flag_of_le h, hv, boolNat_ne_zero h]

theorem loadEntry_verbose (h : n ≤ 1)
    : loadEntry conversion l (ascii "verbose") (flag n)
        = { l with settings := { l.settings with verbose := n } } := by
  have hv := atoi_text conversion (n := n) (by omega)
  simp +decide only [loadEntry, ↓reduceIte]
  rw [flag_of_le h, hv, boolNat_ne_zero h]

theorem loadEntry_streamRes16x9Idx (h : n ≤ 1)
    : loadEntry conversion l (ascii "res_16_9") (Decimal.text n)
        = { l with settings := { l.settings with streamRes16x9Idx := n } } := by
  have hv := atoi_text conversion (n := n) (by omega)
  simp +decide only [loadEntry, ↓reduceIte]
  rw [hv, boolNat_eq_one h]

theorem loadEntry_streamRes4x3Idx (h : n ≤ 1)
    : loadEntry conversion l (ascii "res_4_3") (Decimal.text n)
        = { l with settings := { l.settings with streamRes4x3Idx := n } } := by
  have hv := atoi_text conversion (n := n) (by omega)
  simp +decide only [loadEntry, ↓reduceIte]
  rw [hv, boolNat_eq_one h]

theorem loadEntry_scalingMode (h : n ≤ 1)
    : loadEntry conversion l (ascii "scaling_mode")
        (Decimal.text (if n = scalingModeLegacy then 1 else 0))
        = { l with
            settings := { l.settings with scalingMode := n }
            explicitScalingModeFound := true } := by
  have hn : n = 0 ∨ n = 1 := by omega
  cases hn with
  | inl hn =>
    have hv := atoi_text conversion (n := 0) (by decide)
    simp +decide only [loadEntry, hn, ↓reduceIte]
    rw [hv]
    rfl
  | inr hn =>
    have hv := atoi_text conversion (n := 1) (by decide)
    simp +decide only [loadEntry, hn, ↓reduceIte]
    rw [hv]
    rfl

end

def isKeyChar (c : UInt8) : Bool :=
  !isSpace c && c != 0 && c != 61 && c != 35 && c != 59

theorem isKey_iff (key : List UInt8)
    : (key ≠ [] ∧ key.length < 63 ∧ key.all isKeyChar = true) ↔ IsKey key := by
  constructor
  . intro h
    have ⟨hne, hlength, hall⟩ := h
    have hchar : ∀ c, c ∈ key → isSpace c = false ∧ c ≠ 0 ∧ c ≠ 61 ∧ c ≠ 35 ∧ c ≠ 59 := by
      simpa [isKeyChar, and_assoc] using hall
    exact
      { ne_nil := hne
        noSpace := fun c hc => (hchar c hc).left
        noNul := fun c hc => (hchar c hc).right.left
        length_le := Nat.le_of_lt hlength
        noEquals := fun c hc => (hchar c hc).right.right.left
        noComment := fun c hc => (hchar c hc).right.right.right
        length_lt := hlength }
  . intro h
    refine ⟨h.ne_nil, h.length_lt, ?_⟩
    rw [List.all_eq_true]
    intro c hc
    simp [isKeyChar, h.noSpace c hc, h.noNul c hc, h.noEquals c hc, h.noComment c hc]

instance (key : List UInt8) : Decidable (IsKey key) :=
  decidable_of_iff _ (isKey_iff key)

theorem loadLines_comment (conversion : IntConversion) (l : Loading) (rest : List UInt8)
    : loadLines conversion l (ascii "# PS3-Moonlight Configuration File\n" ++ rest)
        = loadLines conversion l rest := by
  have hline : ascii "# PS3-Moonlight Configuration File\n" ++ rest
      = ascii "# PS3-Moonlight Configuration File" ++ 10 :: rest := by
    have hcomment : ascii "# PS3-Moonlight Configuration File\n"
        = ascii "# PS3-Moonlight Configuration File" ++ [10] := by
      decide
    rw [hcomment, List.append_assoc, List.singleton_append]
  have hparse : parseLine (ascii "# PS3-Moonlight Configuration File" ++ [10]) = none := by
    decide
  unfold loadLines
  rw [hline, Lines.chunks_line _ _ (by decide) (by decide), List.foldl_cons, loadLine, hparse]

/- The file has all settings, so of those before only the octets behind the address can be left. -/
theorem loadSettings_configText {conversion : IntConversion} {s : Settings} (t : Settings)
    (hs : Valid conversion s) (htoken : IsToken s.targetIpStr)
    : loadSettings conversion t (some (configText s))
        = { s with
            targetIpStr := (setTargetIp conversion t s.targetIpStr).targetIpStr
            ipOctets := (setTargetIp conversion t s.targetIpStr).ipOctets } := by
  have hfps := hs.fps
  have hbitrateIdx : s.bitrateIdx < 5 := hs.bitrateIdx
  have hmouseMode := hs.mouseMode
  have hres16x9 := hs.streamRes16x9Idx
  have hres4x3 := hs.streamRes4x3Idx
  have hflag : ∀ n, IsToken (flag n) := by
    intro n
    apply isToken_text
    split
    . decide
    . decide
  have hscaling : IsToken (Decimal.text (if s.scalingMode = scalingModeLegacy then 1 else 0)) := by
    apply isToken_text
    split
    . decide
    . decide
  show migrate (loadLines conversion ⟨t, false, -1, -1⟩ (configText s)) = _
  rw [← List.append_nil (configText s)]
  simp only [configText, List.append_assoc]
  -- first the lines are told apart, then each key is looked up
  rw [loadLines_comment, loadLines_configLine conversion _ _ (by decide) htoken,
    loadLines_configLine conversion _ _ (by decide) (isToken_text (by omega)),
    loadLines_configLine conversion _ _ (by decide) (isToken_text (by omega)),
    loadLines_configLine conversion _ _ (by decide) (isToken_text (by omega)),
    loadLines_configLine conversion _ _ (by decide) (hflag _),
    loadLines_configLine conversion _ _ (by decide) (hflag _),
    loadLines_configLine conversion _ _ (by decide) (hflag _),
    loadLines_configLine conversion _ _ (by decide) (isToken_text (by omega)),
    loadLines_configLine conversion _ _ (by decide) (isToken_text (by omega)),
    loadLines_configLine conversion _ _ (by decide) hscaling]
  rw [loadEntry_host conversion _ htoken.ne_nil, loadEntry_fps conversion _ hs.fps,
    loadEntry_bitrateIdx conversion _ hs.bitrateIdx, loadEntry_mouseMode conversion _ hs.mouseMode,
    loadEntry_vsync conversion _ hs.vsync, loadEntry_showStats conversion _ hs.showStats,
    loadEntry_verbose conversion _ hs.verbose,
    loadEntry_streamRes16x9Idx conversion _ hs.streamRes16x9Idx,
    loadEntry_streamRes4x3Idx conversion _ hs.streamRes4x3Idx,
    loadEntry_scalingMode conversion _ hs.scalingMode]
  rfl

/-
The address.
-/

theorem scanLiteral_append (literal rest : List UInt8)
    : scanLiteral (literal ++ rest) literal = some rest := by
  unfold scanLiteral
  rw [if_pos, List.drop_left]
  rw [List.isPrefixOf_iff_prefix]
  apply List.prefix_append

theorem scanOctets_dotted (conversion : IntConversion) {octets : Octets}
    (hfirst : octets.first ≤ 255) (hsecond : octets.second ≤ 255) (hthird : octets.third ≤ 255)
    (hfourth : octets.fourth ≤ 255)
    : scanOctets conversion (dotted octets)
        = some ⟨octets.first, octets.second, octets.third, octets.fourth⟩ := by
  have hdot : ∀ (n : Nat) (rest : List UInt8),
      scanNumber (Decimal.text n ++ (ascii "." ++ rest)) = some ⟨n, ascii "." ++ rest⟩ := by
    intro n rest
    apply scanNumber_text
    intro c hc
    injection hc with hc
    rw [← hc]
    decide
  have hint : ∀ n : Nat, n ≤ 255 → conversion.toInt n = n := by
    intro n hn
    apply conversion.toInt_eq
    . omega
    . omega
  unfold scanOctets dotted
  simp only [List.append_assoc, hdot, scanLiteral_append, scanNumber_text_self,
    Option.bind_eq_bind, Option.bind_some, Option.pure_def, hint _ hfirst, hint _ hsecond,
    hint _ hthird, hint _ hfourth]

theorem takeOctet_octet {n : Nat} (old : Nat) (h : n ≤ 255) : takeOctet n old = n := by
  unfold takeOctet
  rw [if_pos (by omega), Int.toNat_natCast]

/- The characters of four numbers. -/
theorem mem_dotted (octets : Octets) : ∀ c, c ∈ dotted octets → Decimal.isDigit c = true ∨ c = 46 := by
  intro c hc
  have hdot : ascii "." = [46] := by decide
  simp only [dotted, hdot, List.mem_append, List.mem_singleton] at hc
  have hdigit : ∀ n, c ∈ Decimal.text n → Decimal.isDigit c = true ∨ c = 46 := by
    intro n hmem
    exact Or.inl (Decimal.isDigit_text n c hmem)
  rcases hc with (((((hc | hc) | hc) | hc) | hc) | hc) | hc
  . apply hdigit _ hc
  . exact Or.inr hc
  . apply hdigit _ hc
  . exact Or.inr hc
  . apply hdigit _ hc
  . exact Or.inr hc
  . apply hdigit _ hc

theorem noSpace_dotted (octets : Octets) : ∀ c, c ∈ dotted octets → isSpace c = false := by
  intro c hc
  cases mem_dotted octets c hc with
  | inl hdigit => exact (Handshake.of_isDigit hdigit).left
  | inr hdot =>
    rw [hdot]
    decide

theorem IsAddress.isToken {conversion : IntConversion} {str : List UInt8}
    (h : IsAddress conversion str) (hspace : ∀ c, c ∈ str → isSpace c = false)
    : IsToken str := by
  cases h with
  | inl hdotted =>
    obtain ⟨octets, hfirst, hsecond, hthird, hfourth, hstr⟩ := hdotted
    rw [hstr] at hspace ⊢
    constructor
    . apply dotted_ne_nil
    . exact hspace
    . intro c hc hzero
      cases mem_dotted octets c hc with
      | inl hdigit =>
        rw [hzero] at hdigit
        contradiction
      | inr hdot =>
        rw [hzero] at hdot
        contradiction
    . apply length_dotted hfirst hsecond hthird hfourth
  | inr hname => exact ⟨hname.right.left, hspace, hname.right.right.right, hname.right.right.left⟩

theorem IsAddress.setTargetIp {conversion : IntConversion} {str : List UInt8} (t : Settings)
    (h : IsAddress conversion str) (htoken : IsToken str)
    : (setTargetIp conversion t str).targetIpStr = str := by
  have hcstr : cstr str = str := by
    unfold cstr
    rw [List.takeWhile_eq_self_iff]
    simpa using htoken.noNul
  have hempty : str.isEmpty = false := by simpa using htoken.ne_nil
  unfold Ui.setTargetIp
  dsimp only
  rw [hcstr, if_neg (by rw [hempty]; decide)]
  cases h with
  | inl hdotted =>
    obtain ⟨octets, hfirst, hsecond, hthird, hfourth, hstr⟩ := hdotted
    rw [hstr, scanOctets_dotted conversion hfirst hsecond hthird hfourth]
    dsimp only
    rw [takeOctet_octet _ hfirst, takeOctet_octet _ hsecond, takeOctet_octet _ hthird,
      takeOctet_octet _ hfourth]
    apply List.take_of_length_le
    apply length_dotted hfirst hsecond hthird hfourth
  | inr hname =>
    rw [hname.left]
    apply List.take_of_length_le htoken.length_le

theorem noSpace_of_all {text : List UInt8} (h : (text.all fun c => !isSpace c) = true)
    : ∀ c, c ∈ text → isSpace c = false := by
  simpa using h

/- No address that was read has white space. -/
theorem loadSettings_noSpace (conversion : IntConversion) (file : Option (List UInt8))
    : ∀ c, c ∈ (loadSettings conversion defaultSettings file).targetIpStr → isSpace c = false := by
  apply loadSettings_induction fun s => ∀ c, c ∈ s.targetIpStr → isSpace c = false
  . intro s value hs hvalue
    unfold Ui.setTargetIp
    dsimp only
    split
    . exact hs
    . split
      . intro c hc
        apply noSpace_dotted _ c (List.mem_of_mem_take hc)
      . intro c hc
        apply hvalue.noSpace c
        apply (List.takeWhile_prefix _).subset (List.mem_of_mem_take hc)
  . intro s t hs hchange
    rw [hchange.targetIpStr]
    exact hs
  . apply noSpace_of_all
    decide

namespace SettingsMenu

theorem Operation.valid {conversion : IntConversion} {opening : Opens → Prop} {m t : Menu}
    (h : Operation opening m t) (hm : Valid conversion m.settings)
    : Valid conversion t.settings := by
  cases h with
  | assign now settings hchange => exact hchange.valid hm
  | flush opens _ =>
    unfold Menu.flushSettingsIfDirty
    split
    . exact hm
    . exact hm
  | other _ hsame =>
    rw [hsame.settings]
    exact hm

theorem chain_valid {conversion : IntConversion} {opening : Opens → Prop} {m t : Menu}
    (h : Chain opening m t) (hm : Valid conversion m.settings)
    : Valid conversion t.settings := by
  induction h with
  | refl => exact hm
  | tail _ hlast ih => exact hlast.valid ih

theorem reachable_valid {conversion : IntConversion} {is4x3 : Bool} {file : Option (List UInt8)}
    {m : Menu} (h : (machine conversion is4x3 file).Reachable m)
    : Valid conversion m.settings := by
  have hinv : m.settings.targetIpStr ≠ [] ∧ Valid conversion m.settings := by
    apply h.invariant fun m => m.settings.targetIpStr ≠ [] ∧ Valid conversion m.settings
    . exact ⟨loadSettings_ne_nil conversion file, loadSettings_valid conversion file⟩
    . intro s e t hs hstep
      refine ⟨step_targetIpStr hs.left hstep, ?_⟩
      cases step_cases hs.left e.opening_trivial hstep with
      | inl hchain => apply chain_valid hchain hs.right
      | inr hosk =>
        have ⟨text, opens, _, ht⟩ := hosk
        rw [ht]
        apply setTargetIp_valid hs.right
        apply Nat.le_trans (length_cstr_le _)
        apply length_utf16ToAscii_le
  exact hinv.right

theorem restored_of_noSpace {conversion : IntConversion} {s : Settings} (hs : Valid conversion s)
    (hspace : ∀ c, c ∈ s.targetIpStr → isSpace c = false)
    : Restored s (loadSettings conversion defaultSettings (some (configText s))) := by
  have htoken := hs.targetIpStr.isToken hspace
  rw [loadSettings_configText defaultSettings hs htoken]
  constructor
  . apply hs.targetIpStr.setTargetIp _ htoken
  all_goals rfl

/-
Settings that were written come back from the file if and only if there is no white space in the address.
-/
theorem settings_survive_restart_iff (conversion : IntConversion) (is4x3 : Bool)
    (file : Option (List UInt8)) (m : Menu) (opens : Opens)
    (hreach : (machine conversion is4x3 file).Reachable m) (hopens : opens.ok = true)
    : Restored m.settings (loadSettings conversion defaultSettings (m.saveSettings opens).written)
        ↔ ∀ c, c ∈ m.settings.targetIpStr → isSpace c = false := by
  rw [kept_save hopens]
  constructor
  . intro hrestored
    -- whatever was written, what was read has no white space
    have hspace := loadSettings_noSpace conversion (some (configText m.settings))
    rw [hrestored.targetIpStr] at hspace
    exact hspace
  . intro hspace
    apply restored_of_noSpace (reachable_valid hreach) hspace

/- Cross on the first item opens the keyboard, and the text is confirmed. -/
def enterHost (text : List UInt16) : List Event :=
  [press false true false true, .oskDone text ⟨true, false⟩, .oskUnloaded]

def utf16 (s : String) : List UInt16 :=
  s.toList.map fun c => c.toNat.toUInt16

theorem settings_survive_restart_iff_name
    : ∃ m, (machine exampleConversion false none).run (enterHost (utf16 "sunshine.local")) = some m
        ∧ m.settings.targetIpStr = ascii "sunshine.local"
        ∧ Restored m.settings
          (loadSettings exampleConversion defaultSettings (m.saveSettings ⟨true, false⟩).written) := by
  obtain ⟨m, hrun, htarget⟩ : ∃ m,
      (machine exampleConversion false none).run (enterHost (utf16 "sunshine.local")) = some m
        ∧ m.settings.targetIpStr = ascii "sunshine.local" := by
    exact ⟨_, rfl, by decide⟩
  refine ⟨m, hrun, htarget, ?_⟩
  apply (settings_survive_restart_iff exampleConversion false none m ⟨true, false⟩ ⟨_, hrun⟩ rfl).mpr
  rw [htarget]
  apply noSpace_of_all
  decide

/- The name `my host` does not come back, because reading stops at the space. -/
theorem spaced_host_forgotten
    : ¬ ∀ (conversion : IntConversion) (is4x3 : Bool) (file : Option (List UInt8)) (m : Menu)
          (opens : Opens),
        (machine conversion is4x3 file).Reachable m → opens.ok = true
          → Restored m.settings
            (loadSettings conversion defaultSettings (m.saveSettings opens).written) := by
  intro hclaim
  obtain ⟨m, hrun, htarget⟩ : ∃ m,
      (machine exampleConversion false none).run (enterHost (utf16 "my host")) = some m
        ∧ m.settings.targetIpStr = ascii "my host" := by
    exact ⟨_, rfl, by decide⟩
  have hrestored := hclaim exampleConversion false none m ⟨true, false⟩ ⟨_, hrun⟩ rfl
  have hspace := loadSettings_noSpace exampleConversion (m.saveSettings ⟨true, false⟩).written
  rw [hrestored.targetIpStr, htarget] at hspace
  have hblank := hspace 32 (by decide)
  contradiction

end SettingsMenu

end Ui

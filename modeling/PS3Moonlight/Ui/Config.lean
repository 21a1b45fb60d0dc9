import PS3Moonlight.Handshake.Http
import PS3Moonlight.Lib.Decimal
import PS3Moonlight.Lib.Lines
import Mathlib.Data.List.TakeWhile

/-!
This module contains the settings of `ui.c` and their configuration file: the address as
`ui_set_target_ip` takes it over, the text that `ui_save_settings` writes and the parser of
`ui_load_settings`.
-/

namespace Ui

open Handshake (ascii cstr isSpace scanNumber scanLiteral)

export Handshake (IntConversion)

structure Octets where
  first : Nat
  second : Nat
  third : Nat
  fourth : Nat
  deriving DecidableEq

/- The address and everything that the settings menu changes. -/
structure Settings where
  targetIpStr : List UInt8
  ipOctets : Octets
  fps : Nat
  bitrateIdx : Nat
  mouseMode : Nat
  vsync : Nat
  showStats : Nat
  verbose : Nat
  streamRes16x9Idx : Nat
  streamRes4x3Idx : Nat
  scalingMode : Nat
  deriving DecidableEq

def scalingModeShader : Nat := 0

def scalingModeLegacy : Nat := 1

def numBitrateOptions : Nat := 5

def defaultSettings : Settings where
  targetIpStr := ascii "192.168.1.1"
  ipOctets := ⟨192, 168, 1, 1⟩
  fps := 60
  bitrateIdx := 2
  mouseMode := 0
  vsync := 1
  showStats := 0
  verbose := 0
  streamRes16x9Idx := 0
  streamRes4x3Idx := 0
  scalingMode := scalingModeShader

/-
The address.
-/

/- The four numbers of `%d.%d.%d.%d`, if there are four. -/
def scanOctets (conversion : IntConversion) (str : List UInt8)
    : Option (Int × Int × Int × Int) := do
  let ⟨a, rest⟩ ← scanNumber str
  let rest ← scanLiteral rest (ascii ".")
  let ⟨b, rest⟩ ← scanNumber rest
  let rest ← scanLiteral rest (ascii ".")
  let ⟨c, rest⟩ ← scanNumber rest
  let rest ← scanLiteral rest (ascii ".")
  let ⟨d, _⟩ ← scanNumber rest
  return ⟨conversion.toInt a, conversion.toInt b, conversion.toInt c, conversion.toInt d⟩

/- A number that is no octet leaves the old one. -/
def takeOctet (o : Int) (old : Nat) : Nat :=
  if 0 ≤ o ∧ o ≤ 255 then o.toNat else old

def dotted (octets : Octets) : List UInt8 :=
  Decimal.text octets.first ++ ascii "." ++ Decimal.text octets.second ++ ascii "."
    ++ Decimal.text octets.third ++ ascii "." ++ Decimal.text octets.fourth

def setTargetIp (conversion : IntConversion) (s : Settings) (str : List UInt8) : Settings :=
  let str := cstr str
  if str.isEmpty then
    s
  else
    match scanOctets conversion str with
    | some o =>
      let octets : Octets :=
        { first := takeOctet o.fst s.ipOctets.first
          second := takeOctet o.snd.fst s.ipOctets.second
          third := takeOctet o.snd.snd.fst s.ipOctets.third
          fourth := takeOctet o.snd.snd.snd s.ipOctets.fourth }
      { s with ipOctets := octets, targetIpStr := (dotted octets).take 63 }
    | none => { s with targetIpStr := str.take 63 }

/- `ui_get_target_ip` fills in an empty address, which there never is. -/
def getTargetIp (s : Settings) : Settings :=
  if s.targetIpStr.isEmpty then { s with targetIpStr := (dotted s.ipOctets).take 63 } else s

/- The text of the on-screen keyboard, up to the first character of which nothing is left. -/
def utf16ToAscii (src : List UInt16) : List UInt8 :=
  cstr (((src.takeWhile fun c => c != 0).take 63).map fun c => (c &&& 0xFF).toUInt8)

/-
The file.
-/

def configLine (key value : List UInt8) : List UInt8 :=
  key ++ ascii "=" ++ value ++ ascii "\n"

def flag (value : Nat) : List UInt8 :=
  Decimal.text (if value ≠ 0 then 1 else 0)

/- What `ui_save_settings` writes. -/
def configText (s : Settings) : List UInt8 :=
  ascii "# PS3-Moonlight Configuration File\n"
    ++ configLine (ascii "host_ip") s.targetIpStr
    ++ configLine (ascii "fps") (Decimal.text s.fps)
    ++ configLine (ascii "bitrate_idx") (Decimal.text s.bitrateIdx)
    ++ configLine (ascii "mouse_mode") (Decimal.text s.mouseMode)
    ++ configLine (ascii "vsync") (flag s.vsync)
    ++ configLine (ascii "stats") (flag s.showStats)
    ++ configLine (ascii "verbose") (flag s.verbose)
    ++ configLine (ascii "res_16_9") (Decimal.text s.streamRes16x9Idx)
    ++ configLine (ascii "res_4_3") (Decimal.text s.streamRes4x3Idx)
    ++ configLine (ascii "scaling_mode")
      (Decimal.text (if s.scalingMode = scalingModeLegacy then 1 else 0))

def isBlank (c : UInt8) : Bool :=
  c == 32 || c == 9

def isLineEnd (c : UInt8) : Bool :=
  c == 13 || c == 10

def trimEnd (drop : UInt8 → Bool) (text : List UInt8) : List UInt8 :=
  (text.reverse.dropWhile drop).reverse

/- The key and the value of `%63[^=]=%63s`. -/
def scanEntry (text : List UInt8) : Option (List UInt8 × List UInt8) :=
  let key := (text.take 63).takeWhile fun c => c != 61
  let rest := text.drop key.length
  if key.isEmpty || rest.head? != some 61 then
    none
  else
    let value := (((rest.drop 1).dropWhile isSpace).take 63).takeWhile fun c => !isSpace c
    if value.isEmpty then none else some ⟨key, value⟩

/- The key and the value of a line, trimmed, unless the line is empty or a comment. -/
def parseLine (line : List UInt8) : Option (List UInt8 × List UInt8) :=
  let p := (cstr line).dropWhile isBlank
  match p with
  | [] => none
  | c :: _ =>
    if c == 35 || c == 59 || isLineEnd c then
      none
    else
      (scanEntry (trimEnd (fun c => isLineEnd c || isBlank c) p)).map fun entry =>
        ⟨trimEnd isBlank entry.fst, entry.snd.dropWhile isBlank⟩

def atoi (conversion : IntConversion) (text : List UInt8) : Int :=
  match scanNumber text with
  | none => 0
  | some number => conversion.toInt number.fst

def boolNat (b : Bool) : Nat :=
  if b then 1 else 0

/- The settings and what was found of the keys for the scaling mode. -/
structure Loading where
  settings : Settings
  explicitScalingModeFound : Bool
  legacyScalingVal : Int
  legacyUpscalerVal : Int

def loadEntry (conversion : IntConversion) (l : Loading) (key value : List UInt8) : Loading :=
  let s := l.settings
  let v := atoi conversion value
  if key = ascii "host_ip" ∨ key = ascii "ip" then
    if value.isEmpty then l else { l with settings := setTargetIp conversion s value }
  else if key = ascii "fps" then
    if v = 30 ∨ v = 60 then { l with settings := { s with fps := v.toNat } } else l
  else if key = ascii "bitrate_idx" then
    if 0 ≤ v ∧ v < numBitrateOptions then
      { l with settings := { s with bitrateIdx := v.toNat } }
    else
      l
  else if key = ascii "mouse_mode" then
    if v = 0 ∨ v = 1 then { l with settings := { s with mouseMode := v.toNat } } else l
  else if key = ascii "vsync" then
    { l with settings := { s with vsync := boolNat (v ≠ 0) } }
  else if key = ascii "stats" then
    { l with settings := { s with showStats := boolNat (v ≠ 0) } }
  else if key = ascii "verbose" then
    { l with settings := { s with verbose := boolNat (v ≠ 0) } }
  else if key = ascii "res_16_9" then
    { l with settings := { s with streamRes16x9Idx := boolNat (v = 1) } }
  else if key = ascii "res_4_3" then
    { l with settings := { s with streamRes4x3Idx := boolNat (v = 1) } }
  else if key = ascii "scaling_mode" then
    { l with
      settings := { s with scalingMode := if v ≠ 0 then scalingModeLegacy else scalingModeShader }
      explicitScalingModeFound := true }
  else if key = ascii "scaling" then
    { l with legacyScalingVal := v }
  else if key = ascii "upscaler" then
    { l with legacyUpscalerVal := v }
  else
    l

def loadLine (conversion : IntConversion) (l : Loading) (line : List UInt8) : Loading :=
  match parseLine line with
  | none => l
  | some entry => loadEntry conversion l entry.fst entry.snd

/- The keys of older versions, which only count without the modern one. -/
def migrate (l : Loading) : Settings :=
  if l.explicitScalingModeFound then
    l.settings
  else if 0 ≤ l.legacyScalingVal then
    { l.settings with
      scalingMode := if l.legacyScalingVal = 3 then scalingModeLegacy else scalingModeShader }
  else if 0 ≤ l.legacyUpscalerVal then
    { l.settings with
      scalingMode := if l.legacyUpscalerVal ≠ 0 then scalingModeShader else scalingModeLegacy }
  else
    l.settings

/- `ui_load_settings` on the content of the file that could be opened, if there is one. -/
def loadSettings (conversion : IntConversion) (s : Settings) (file : Option (List UInt8)) : Settings :=
  match file with
  | none => s
  | some content =>
    migrate ((Lines.chunks 10 127 content).foldl (loadLine conversion) ⟨s, false, -1, -1⟩)

/-
What becomes of the settings.
-/

/- A value that the menu and the parser can give to a setting. -/
inductive Change (s : Settings) : Settings → Prop where
  | fps (v : Nat) (h : v = 30 ∨ v = 60) : Change s { s with fps := v }
  | bitrateIdx (v : Nat) (h : v < numBitrateOptions) : Change s { s with bitrateIdx := v }
  | mouseMode (v : Nat) (h : v ≤ 1) : Change s { s with mouseMode := v }
  | vsync (v : Nat) (h : v ≤ 1) : Change s { s with vsync := v }
  | showStats (v : Nat) (h : v ≤ 1) : Change s { s with showStats := v }
  | verbose (v : Nat) (h : v ≤ 1) : Change s { s with verbose := v }
  | streamRes16x9Idx (v : Nat) (h : v ≤ 1) : Change s { s with streamRes16x9Idx := v }
  | streamRes4x3Idx (v : Nat) (h : v ≤ 1) : Change s { s with streamRes4x3Idx := v }
  | scalingMode (v : Nat) (h : v ≤ 1) : Change s { s with scalingMode := v }

/- What the parser does to the settings with one entry. -/
inductive Entry (conversion : IntConversion) (s : Settings) (value : List UInt8) : Settings → Prop where
  | unchanged : Entry conversion s value s
  | targetIp : Entry conversion s value (setTargetIp conversion s value)
  | changed (t : Settings) (h : Change s t) : Entry conversion s value t

theorem Change.targetIpStr {s t : Settings} (h : Change s t) : t.targetIpStr = s.targetIpStr := by
  cases h with
  | _ => rfl

theorem boolNat_le (b : Bool) : boolNat b ≤ 1 := by
  cases b with
  | true => decide
  | false => decide

theorem scalingMode_le (c : Prop) [Decidable c]
    : (if c then scalingModeLegacy else scalingModeShader) ≤ 1 := by
  split
  . decide
  . decide

theorem entry_ite {conversion : IntConversion} {s : Settings} {value : List UInt8} {c : Prop}
    [Decidable c] {yes no : Loading} (hyes : c → Entry conversion s value yes.settings)
    (hno : ¬ c → Entry conversion s value no.settings)
    : Entry conversion s value (if c then yes else no).settings := by
  cases Decidable.em c with
  | inl hc =>
    rw [if_pos hc]
    apply hyes hc
  | inr hc =>
    rw [if_neg hc]
    apply hno hc

theorem loadEntry_entry (conversion : IntConversion) (l : Loading) (key value : List UInt8)
    : Entry conversion l.settings value (loadEntry conversion l key value).settings := by
  unfold loadEntry
  dsimp only
  apply entry_ite
  . intro _
    apply entry_ite
    . intro _
      exact Entry.unchanged
    . intro _
      exact Entry.targetIp
  intro _
  apply entry_ite
  . intro _
    apply entry_ite
    . intro hv
      apply Entry.changed
      apply Change.fps
      omega
    . intro _
      exact Entry.unchanged
  intro _
  apply entry_ite
  . intro _
    apply entry_ite
    . intro hv
      apply Entry.changed
      apply Change.bitrateIdx
      omega
    . intro _
      exact Entry.unchanged
  intro _
  apply entry_ite
  . intro _
    apply entry_ite
    . intro hv
      apply Entry.changed
      apply Change.mouseMode
      omega
    . intro _
      exact Entry.unchanged
  intro _
  apply entry_ite
  . intro _
    apply Entry.changed _ (Change.vsync _ (boolNat_le _))
  intro _
  apply entry_ite
  . intro _
    apply Entry.changed _ (Change.showStats _ (boolNat_le _))
  intro _
  apply entry_ite
  . intro _
    apply Entry.changed _ (Change.verbose _ (boolNat_le _))
  intro _
  apply entry_ite
  . intro _
    apply Entry.changed _ (Change.streamRes16x9Idx _ (boolNat_le _))
  intro _
  apply entry_ite
  . intro _
    apply Entry.changed _ (Change.streamRes4x3Idx _ (boolNat_le _))
  intro _
  apply entry_ite
  . intro _
    apply Entry.changed _ (Change.scalingMode _ (scalingMode_le _))
  intro _
  apply entry_ite
  . intro _
    exact Entry.unchanged
  intro _
  apply entry_ite
  . intro _
    exact Entry.unchanged
  . intro _
    exact Entry.unchanged

/- What a value of the file can be: short, and without white space. -/
structure IsValue (value : List UInt8) : Prop where
  noSpace : ∀ c, c ∈ value → isSpace c = false
  length_le : value.length ≤ 63

theorem parseLine_value {line key value : List UInt8} (h : parseLine line = some ⟨key, value⟩)
    : IsValue value := by
  unfold parseLine at h
  dsimp only at h
  split at h
  . contradiction
  . split at h
    . contradiction
    . rw [Option.map_eq_some_iff] at h
      have ⟨entry, hentry, heq⟩ := h
      injection heq with _ hvalue
      unfold scanEntry at hentry
      dsimp only at hentry
      split at hentry
      . contradiction
      . split at hentry
        . contradiction
        . injection hentry with hentry
          rw [← hvalue, ← hentry]
          constructor
          . intro c hc
            have hmem := (List.dropWhile_suffix isBlank).subset hc
            simpa using List.mem_takeWhile_imp hmem
          . apply Nat.le_trans (List.dropWhile_suffix isBlank).length_le
            apply Nat.le_trans (List.takeWhile_prefix _).length_le
            rw [List.length_take]
            omega

theorem loadLine_entry (conversion : IntConversion) (l : Loading) (line : List UInt8)
    : ∃ value, IsValue value
        ∧ Entry conversion l.settings value (loadLine conversion l line).settings := by
  unfold loadLine
  split
  . refine ⟨[], ⟨by simp, by simp⟩, ?_⟩
    exact Entry.unchanged
  . next entry hparse =>
    refine ⟨entry.snd, parseLine_value hparse, ?_⟩
    apply loadEntry_entry

/-
The rule behind what holds of loaded settings, whatever the file says: it is kept by every change of a
setting and by every value that can be an address.
-/
theorem loadSettings_induction {conversion : IntConversion} (inv : Settings → Prop)
    (hip : ∀ s value, inv s → IsValue value → inv (setTargetIp conversion s value))
    (hchange : ∀ s t, inv s → Change s t → inv t) {s : Settings} (h : inv s)
    (file : Option (List UInt8))
    : inv (loadSettings conversion s file) := by
  -- first one entry, then the lines by induction, then the migration of older keys
  have hentry : ∀ (s t : Settings) (value : List UInt8), inv s → IsValue value
      → Entry conversion s value t → inv t := by
    intro s t value hs hvalue hentry
    cases hentry with
    | unchanged => exact hs
    | targetIp => exact hip s value hs hvalue
    | changed _ ht => exact hchange s t hs ht
  have hlines : ∀ (lines : List (List UInt8)) (l : Loading), inv l.settings
      → inv (lines.foldl (loadLine conversion) l).settings := by
    intro lines
    induction lines with
    | nil =>
      intro l hl
      exact hl
    | cons line lines ih =>
      intro l hl
      have ⟨value, hvalue, hline⟩ := loadLine_entry conversion l line
      apply ih
      apply hentry _ _ value hl hvalue hline
  have hmigrate : ∀ l : Loading, inv l.settings → inv (migrate l) := by
    intro l hl
    unfold migrate
    split
    . exact hl
    . split
      . apply hchange _ _ hl (Change.scalingMode _ (scalingMode_le _))
      . split
        . apply hchange _ _ hl
          apply Change.scalingMode
          split
          . decide
          . decide
        . exact hl
  unfold loadSettings
  split
  . exact h
  . apply hmigrate
    apply hlines
    exact h

/-
There always is an address.
-/

theorem dotted_ne_nil (octets : Octets) : dotted octets ≠ [] := by
  simp [dotted, Decimal.text_ne_nil]

theorem setTargetIp_ne_nil (conversion : IntConversion) {s : Settings} (str : List UInt8)
    (h : s.targetIpStr ≠ [])
    : (setTargetIp conversion s str).targetIpStr ≠ [] := by
  have htake : ∀ text : List UInt8, text ≠ [] → text.take 63 ≠ [] := by
    intro text htext
    simpa using htext
  unfold setTargetIp
  dsimp only
  split
  . exact h
  . next hne =>
    split
    . apply htake _ (dotted_ne_nil _)
    . apply htake
      simpa using hne

theorem loadSettings_ne_nil (conversion : IntConversion) (file : Option (List UInt8))
    : (loadSettings conversion defaultSettings file).targetIpStr ≠ [] := by
  apply loadSettings_induction fun s => s.targetIpStr ≠ []
  . intro s value h _
    apply setTargetIp_ne_nil conversion value h
  . intro s t h hchange
    rw [hchange.targetIpStr]
    exact h
  . decide

theorem getTargetIp_of_ne_nil {s : Settings} (h : s.targetIpStr ≠ []) : getTargetIp s = s := by
  unfold getTargetIp
  rw [if_neg]
  simpa using h

end Ui

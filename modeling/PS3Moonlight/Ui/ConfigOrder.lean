import PS3Moonlight.Lib.KeyedFold
import PS3Moonlight.Ui.ConfigRoundTrip

/-!
This module contains what an entry of the configuration file does as a command to one setting. The entries
of different keys write different settings, so their order does not matter, and the keys for the scaling
mode are decided between at the end.
-/

namespace Ui

open Handshake (ascii cstr isSpace)

/- What is left of an entry once its key was looked up and its value was accepted. -/
inductive Command where
  | octets (o : Int × Int × Int × Int)
  | name (str : List UInt8)
  | fps (v : Nat)
  | bitrateIdx (v : Nat)
  | mouseMode (v : Nat)
  | vsync (v : Nat)
  | showStats (v : Nat)
  | verbose (v : Nat)
  | streamRes16x9Idx (v : Nat)
  | streamRes4x3Idx (v : Nat)
  | scalingMode (v : Nat)
  | legacyScaling (v : Int)
  | legacyUpscaler (v : Int)
  deriving DecidableEq

def Command.key (command : Command) : List UInt8 :=
  match command with
  | octets _ => ascii "host_ip"
  | name _ => ascii "host_ip"
  | fps _ => ascii "fps"
  | bitrateIdx _ => ascii "bitrate_idx"
  | mouseMode _ => ascii "mouse_mode"
  | vsync _ => ascii "vsync"
  | showStats _ => ascii "stats"
  | verbose _ => ascii "verbose"
  | streamRes16x9Idx _ => ascii "res_16_9"
  | streamRes4x3Idx _ => ascii "res_4_3"
  | scalingMode _ => ascii "scaling_mode"
  | legacyScaling _ => ascii "scaling"
  | legacyUpscaler _ => ascii "upscaler"

def Loading.apply (l : Loading) (command : Command) : Loading :=
  let s := l.settings
  match command with
  | .octets o =>
    let octets : Octets :=
      { first := takeOctet o.fst s.ipOctets.first
        second := takeOctet o.snd.fst s.ipOctets.second
        third := takeOctet o.snd.snd.fst s.ipOctets.third
        fourth := takeOctet o.snd.snd.snd s.ipOctets.fourth }
    { l with settings := { s with ipOctets := octets, targetIpStr := (dotted octets).take 63 } }
  | .name str => { l with settings := { s with targetIpStr := str } }
  | .fps v => { l with settings := { s with fps := v } }
  | .bitrateIdx v => { l with settings := { s with bitrateIdx := v } }
  | .mouseMode v => { l with settings := { s with mouseMode := v } }
  | .vsync v => { l with settings := { s with vsync := v } }
  | .showStats v => { l with settings := { s with showStats := v } }
  | .verbose v => { l with settings := { s with verbose := v } }
  | .streamRes16x9Idx v => { l with settings := { s with streamRes16x9Idx := v } }
  | .streamRes4x3Idx v => { l with settings := { s with streamRes4x3Idx := v } }
  | .scalingMode v =>
    { l with settings := { s with scalingMode := v }, explicitScalingModeFound := true }
  | .legacyScaling v => { l with legacyScalingVal := v }
  | .legacyUpscaler v => { l with legacyUpscalerVal := v }

/- The command of an address, which an empty one is not. -/
def hostCommand (conversion : IntConversion) (value : List UInt8) : Option Command :=
  if (cstr value).isEmpty then
    none
  else
    match scanOctets conversion (cstr value) with
    | some o => some (.octets o)
    | none => some (.name ((cstr value).take 63))

def entryCommand (conversion : IntConversion) (key value : List UInt8) : Option Command :=
  let v := atoi conversion value
  if key = ascii "host_ip" ∨ key = ascii "ip" then
    hostCommand conversion value
  else if key = ascii "fps" then
    if v = 30 ∨ v = 60 then some (.fps v.toNat) else none
  else if key = ascii "bitrate_idx" then
    if 0 ≤ v ∧ v < numBitrateOptions then some (.bitrateIdx v.toNat) else none
  else if key = ascii "mouse_mode" then
    if v = 0 ∨ v = 1 then some (.mouseMode v.toNat) else none
  else if key = ascii "vsync" then
    some (.vsync (boolNat (v ≠ 0)))
  else if key = ascii "stats" then
    some (.showStats (boolNat (v ≠ 0)))
  else if key = ascii "verbose" then
    some (.verbose (boolNat (v ≠ 0)))
  else if key = ascii "res_16_9" then
    some (.streamRes16x9Idx (boolNat (v = 1)))
  else if key = ascii "res_4_3" then
    some (.streamRes4x3Idx (boolNat (v = 1)))
  else if key = ascii "scaling_mode" then
    some (.scalingMode (if v ≠ 0 then scalingModeLegacy else scalingModeShader))
  else if key = ascii "scaling" then
    some (.legacyScaling v)
  else if key = ascii "upscaler" then
    some (.legacyUpscaler v)
  else
    none

def Loading.applyOption (l : Loading) (command : Option Command) : Loading :=
  match command with
  | none => l
  | some command => l.apply command

/- `host_ip` and `ip` are one key. -/
def canonicalKey (key : List UInt8) : List UInt8 :=
  if key = ascii "ip" then ascii "host_ip" else key

theorem setTargetIp_hostCommand (conversion : IntConversion) (l : Loading) (value : List UInt8)
    : { l with settings := setTargetIp conversion l.settings value }
        = l.applyOption (hostCommand conversion value) := by
  unfold setTargetIp hostCommand
  dsimp only
  split
  . rfl
  . cases scanOctets conversion (cstr value) with
    | none => rfl
    | some o => rfl

theorem applyOption_ite {c : Prop} [Decidable c] (l : Loading) (yes no : Option Command)
    : l.applyOption (if c then yes else no) = if c then l.applyOption yes else l.applyOption no := by
  split
  . rfl
  . rfl

theorem loadEntry_eq (conversion : IntConversion) (l : Loading) (key value : List UInt8)
    : loadEntry conversion l key value = l.applyOption (entryCommand conversion key value) := by
  have hhost : (if value.isEmpty then l
      else { l with settings := setTargetIp conversion l.settings value })
        = l.applyOption (hostCommand conversion value) := by
    split
    . next hempty =>
      rw [List.isEmpty_iff] at hempty
      rw [hempty]
      rfl
    . apply setTargetIp_hostCommand
  unfold loadEntry entryCommand
  dsimp only
  rw [hhost]
  simp only [applyOption_ite]
  rfl

/-
Different keys write different settings.
-/

def HasKey (key : List UInt8) (command : Option Command) : Prop :=
  ∀ c, command = some c → c.key = canonicalKey key

theorem hasKey_none (key : List UInt8) : HasKey key none := by
  intro c hc
  contradiction

theorem hasKey_some {key : List UInt8} {command : Command} (h : command.key = canonicalKey key)
    : HasKey key (some command) := by
  intro c hc
  injection hc with hc
  rw [← hc]
  exact h

/- A command that the value may or may not give. -/
theorem hasKey_guard {c : Prop} [Decidable c] {key : List UInt8} {command : Command}
    (h : command.key = canonicalKey key)
    : HasKey key (if c then some command else none) := by
  split
  . apply hasKey_some h
  . apply hasKey_none

/- One step of the lookup. -/
theorem hasKey_lookup {key text : List UInt8} {yes no : Option Command} (hyes : HasKey text yes)
    (hno : HasKey key no)
    : HasKey key (if key = text then yes else no) := by
  split
  . next hkey =>
    rw [hkey]
    exact hyes
  . exact hno

theorem hasKey_hostCommand (conversion : IntConversion) {key : List UInt8} (value : List UInt8)
    (h : key = ascii "host_ip" ∨ key = ascii "ip")
    : HasKey key (hostCommand conversion value) := by
  have hkey : canonicalKey key = ascii "host_ip" := by
    cases h with
    | inl h => rw [h]; decide
    | inr h => rw [h]; decide
  unfold hostCommand
  split
  . apply hasKey_none
  . split
    . exact hasKey_some hkey.symm
    . exact hasKey_some hkey.symm

theorem entryCommand_hasKey (conversion : IntConversion) (key value : List UInt8)
    : HasKey key (entryCommand conversion key value) := by
  unfold entryCommand
  dsimp only
  cases Decidable.em (key = ascii "host_ip" ∨ key = ascii "ip") with
  | inl hkey =>
    rw [if_pos hkey]
    apply hasKey_hostCommand conversion value hkey
  | inr hkey =>
    rw [if_neg hkey]
    apply hasKey_lookup (hasKey_guard rfl)
    apply hasKey_lookup (hasKey_guard rfl)
    apply hasKey_lookup (hasKey_guard rfl)
    apply hasKey_lookup (hasKey_some rfl)
    apply hasKey_lookup (hasKey_some rfl)
    apply hasKey_lookup (hasKey_some rfl)
    apply hasKey_lookup (hasKey_some rfl)
    apply hasKey_lookup (hasKey_some rfl)
    apply hasKey_lookup (hasKey_some rfl)
    apply hasKey_lookup (hasKey_some rfl)
    apply hasKey_lookup (hasKey_some rfl)
    apply hasKey_none

/- Commands with different keys write different fields. -/
theorem apply_comm (l : Loading) {c d : Command} (h : c.key ≠ d.key)
    : (l.apply c).apply d = (l.apply d).apply c := by
  cases c with
  | _ =>
    cases d with
    | _ => first | rfl | exact absurd rfl h

theorem loadEntry_comm (conversion : IntConversion) (l : Loading) {key key' : List UInt8}
    (value value' : List UInt8) (h : canonicalKey key ≠ canonicalKey key')
    : loadEntry conversion (loadEntry conversion l key value) key' value'
        = loadEntry conversion (loadEntry conversion l key' value') key value := by
  have hkey := entryCommand_hasKey conversion key value
  have hkey' := entryCommand_hasKey conversion key' value'
  rw [loadEntry_eq, loadEntry_eq, loadEntry_eq, loadEntry_eq]
  cases hc : entryCommand conversion key value with
  | none => rfl
  | some c =>
    cases hd : entryCommand conversion key' value' with
    | none => rfl
    | some d =>
      apply apply_comm
      rw [hkey c hc, hkey' d hd]
      exact h

/-
The entries of a file, each of which is a line that fits into the buffer.
-/

abbrev Entries := List (List UInt8 × List UInt8)

def entries (content : List UInt8) : Entries :=
  (content.splitOn 10).filterMap parseLine

def loadEntries (conversion : IntConversion) (l : Loading) (es : Entries) : Loading :=
  es.foldl (fun l e => loadEntry conversion l e.fst e.snd) l

def entryKey (e : List UInt8 × List UInt8) : List UInt8 :=
  canonicalKey e.fst

theorem foldl_loadLine (conversion : IntConversion) (l : Loading) (lines : List (List UInt8))
    : lines.foldl (loadLine conversion) l = loadEntries conversion l (lines.filterMap parseLine) := by
  unfold loadEntries
  rw [List.foldl_filterMap]
  congr 1
  funext l line
  unfold loadLine
  split
  . next hnone => rw [hnone]
  . next entry hsome => rw [hsome]

theorem trimEnd_append {drop : UInt8 → Bool} (text : List UInt8) {c : UInt8} (h : drop c = true)
    : trimEnd drop (text ++ [c]) = trimEnd drop text := by
  unfold trimEnd
  rw [List.reverse_append, List.reverse_singleton, List.singleton_append,
    List.dropWhile_cons_of_pos h]

theorem dropWhile_append_singleton {drop : UInt8 → Bool} (text : List UInt8) {c : UInt8}
    (h : drop c = false)
    : (text ++ [c]).dropWhile drop = text.dropWhile drop ++ [c] := by
  rw [List.dropWhile_append]
  split
  . next hempty =>
    rw [List.isEmpty_iff] at hempty
    rw [hempty, List.dropWhile_cons_of_neg (by rw [h]; decide)]
    rfl
  . rfl

/- What is behind the end of a string makes no difference. -/
theorem cstr_append_of_mem {text : List UInt8} (rest : List UInt8) (h : (0 : UInt8) ∈ text)
    : cstr (text ++ rest) = cstr text := by
  unfold cstr
  rw [List.takeWhile_append, if_neg]
  intro hlength
  have hself := (List.takeWhile_prefix fun c : UInt8 => c != 0).eq_of_length hlength
  rw [List.takeWhile_eq_self_iff] at hself
  have hzero := hself 0 h
  contradiction

/- The newline at its end makes no difference to a line. -/
theorem parseLine_newline (line : List UInt8) : parseLine (line ++ [10]) = parseLine line := by
  cases Decidable.em ((0 : UInt8) ∈ line) with
  | inl hmem =>
    unfold parseLine
    rw [cstr_append_of_mem _ hmem]
  | inr hmem =>
    have hline : ∀ c, c ∈ line → c ≠ 0 := by
      intro c hc hzero
      rw [hzero] at hc
      contradiction
    have hnewline : ∀ c, c ∈ line ++ [10] → c ≠ 0 := by
      intro c hc
      rw [List.mem_append, List.mem_singleton] at hc
      cases hc with
      | inl hc => apply hline c hc
      | inr hc => rw [hc]; decide
    unfold parseLine
    rw [Handshake.cstr_eq_self hline, Handshake.cstr_eq_self hnewline,
      dropWhile_append_singleton _ (by decide)]
    dsimp only
    generalize line.dropWhile isBlank = p
    cases p with
    | nil => rfl
    | cons c p =>
      rw [List.cons_append]
      dsimp only
      rw [← List.cons_append, trimEnd_append _ (by decide)]

def emptyLoading (s : Settings) : Loading :=
  ⟨s, false, -1, -1⟩

theorem loadSettings_chunks (conversion : IntConversion) (s : Settings) (content : List UInt8)
    : loadSettings conversion s (some content)
        = migrate (loadEntries conversion (emptyLoading s)
          ((Lines.chunks 10 127 content).filterMap parseLine)) := by
  rw [← foldl_loadLine]
  rfl

theorem loadSettings_entries (conversion : IntConversion) (s : Settings) {content : List UInt8}
    (hfit : ∀ line, line ∈ content.splitOn 10 → line.length ≤ 127)
    : loadSettings conversion s (some content)
        = migrate (loadEntries conversion (emptyLoading s) (entries content)) := by
  rw [loadSettings_chunks, Lines.filterMap_chunks_fit parseLine_newline rfl hfit]
  rfl

/-
What becomes of the scaling mode.
-/

def valueOf (es : Entries) (key : List UInt8) : Option (List UInt8) :=
  (es.find? fun e => entryKey e = key).map Prod.snd

/- A number of an older version, where a negative one is as good as none. -/
def legacyValue (conversion : IntConversion) (es : Entries) (key : List UInt8) : Option Int :=
  ((valueOf es key).map (atoi conversion)).filter fun v => 0 ≤ v

/- The newest key decides, each older one only without the newer ones. -/
def decidedScalingMode (conversion : IntConversion) (es : Entries) (old : Nat) : Nat :=
  match valueOf es (ascii "scaling_mode") with
  | some value => if atoi conversion value ≠ 0 then scalingModeLegacy else scalingModeShader
  | none =>
    match legacyValue conversion es (ascii "scaling") with
    | some v => if v = 3 then scalingModeLegacy else scalingModeShader
    | none =>
      match legacyValue conversion es (ascii "upscaler") with
      | some v => if v ≠ 0 then scalingModeShader else scalingModeLegacy
      | none => old

/- What commands with other keys leave alone, an entry with another key leaves alone. -/
theorem loadEntry_other {β : Type} (get : Loading → β) {k : List UInt8}
    (hget : ∀ (l : Loading) (c : Command), c.key ≠ k → get (l.apply c) = get l)
    (conversion : IntConversion) (l : Loading) {key : List UInt8} (value : List UInt8)
    (h : canonicalKey key ≠ k)
    : get (loadEntry conversion l key value) = get l := by
  have hkey := entryCommand_hasKey conversion key value
  rw [loadEntry_eq]
  cases hc : entryCommand conversion key value with
  | none => rfl
  | some c =>
    apply hget
    rw [hkey c hc]
    exact h

theorem eq_of_canonicalKey {key k : List UInt8} (h : canonicalKey key = k) (hk : k ≠ ascii "host_ip")
    : key = k := by
  unfold canonicalKey at h
  split at h
  . exact absurd h.symm hk
  . exact h

/- The scaling mode, and whether it is more than what there was before. -/
def Loading.scaling (l : Loading) : Nat × Bool :=
  ⟨l.settings.scalingMode, l.explicitScalingModeFound⟩

section

variable (conversion : IntConversion) (l : Loading) {es : Entries}

/- What only one key writes is what the entry with this key makes it. -/
theorem loadEntries_decided {β : Type} (get : Loading → β) (put : List UInt8 → β) {k : List UInt8}
    (hk : k ≠ ascii "host_ip")
    (hother : ∀ (l : Loading) (c : Command), c.key ≠ k → get (l.apply c) = get l)
    (hput : ∀ (l : Loading) (value : List UInt8), get (loadEntry conversion l k value) = put value)
    (hnodup : (es.map entryKey).Nodup)
    : get (loadEntries conversion l es) = ((valueOf es k).map put).getD (get l) := by
  unfold loadEntries valueOf
  rw [Option.map_map]
  apply KeyedFold.foldl_find? get
  . intro l e hkey
    apply loadEntry_other get hother conversion l e.snd hkey
  . intro l e hkey
    rw [eq_of_canonicalKey hkey hk]
    apply hput
  . exact hnodup

theorem loadEntries_scalingMode (hnodup : (es.map entryKey).Nodup)
    : (loadEntries conversion l es).scaling
        = ((valueOf es (ascii "scaling_mode")).map fun value =>
            (if atoi conversion value ≠ 0 then scalingModeLegacy else scalingModeShader, true)).getD
          l.scaling := by
  apply loadEntries_decided conversion l Loading.scaling _ _ _ _ hnodup
  . decide
  . intro l c hc
    cases c with
    | _ => first | rfl | exact absurd rfl hc
  . intro l value
    simp +decide only [loadEntry, ↓reduceIte]
    rfl

theorem loadEntries_legacyScaling (hnodup : (es.map entryKey).Nodup)
    : (loadEntries conversion l es).legacyScalingVal
        = ((valueOf es (ascii "scaling")).map (atoi conversion)).getD l.legacyScalingVal := by
  apply loadEntries_decided conversion l Loading.legacyScalingVal _ _ _ _ hnodup
  . decide
  . intro l c hc
    cases c with
    | _ => first | rfl | exact absurd rfl hc
  . intro l value
    simp +decide only [loadEntry, ↓reduceIte]

theorem loadEntries_legacyUpscaler (hnodup : (es.map entryKey).Nodup)
    : (loadEntries conversion l es).legacyUpscalerVal
        = ((valueOf es (ascii "upscaler")).map (atoi conversion)).getD l.legacyUpscalerVal := by
  apply loadEntries_decided conversion l Loading.legacyUpscalerVal _ _ _ _ hnodup
  . decide
  . intro l c hc
    cases c with
    | _ => first | rfl | exact absurd rfl hc
  . intro l value
    simp +decide only [loadEntry, ↓reduceIte]

end

/- The initial value of a key stands for a key that is not there. -/
theorem filter_of_nonneg {v : Option Int} (h : 0 ≤ v.getD (-1))
    : (v.filter fun v => 0 ≤ v) = some (v.getD (-1)) := by
  cases v with
  | none => contradiction
  | some v => simpa using h

theorem filter_of_neg {v : Option Int} (h : ¬ 0 ≤ v.getD (-1)) : (v.filter fun v => 0 ≤ v) = none := by
  cases v with
  | none => rfl
  | some v => simpa using h

theorem migrate_scalingMode (conversion : IntConversion) (s : Settings) {es : Entries}
    (hnodup : (es.map entryKey).Nodup)
    : (migrate (loadEntries conversion (emptyLoading s) es)).scalingMode
        = decidedScalingMode conversion es s.scalingMode := by
  have hmode := loadEntries_scalingMode conversion (emptyLoading s) hnodup
  have hscaling := loadEntries_legacyScaling conversion (emptyLoading s) hnodup
  have hupscaler := loadEntries_legacyUpscaler conversion (emptyLoading s) hnodup
  generalize loadEntries conversion (emptyLoading s) es = l at hmode hscaling hupscaler
  unfold decidedScalingMode
  cases hvalue : valueOf es (ascii "scaling_mode") with
  | some value =>
    rw [hvalue] at hmode
    have hfound : l.explicitScalingModeFound = true := congrArg Prod.snd hmode
    unfold migrate
    rw [if_pos hfound]
    exact congrArg Prod.fst hmode
  | none =>
    rw [hvalue] at hmode
    have hfound : l.explicitScalingModeFound = false := congrArg Prod.snd hmode
    unfold migrate legacyValue
    rw [if_neg (by rw [hfound]; decide)]
    dsimp only
    split
    . next hle =>
      rw [hscaling] at hle ⊢
      rw [filter_of_nonneg hle]
      rfl
    . next hle =>
      rw [hscaling] at hle
      rw [filter_of_neg hle]
      dsimp only
      split
      . next hle' =>
        rw [hupscaler] at hle' ⊢
        rw [filter_of_nonneg hle']
        rfl
      . next hle' =>
        rw [hupscaler] at hle'
        rw [filter_of_neg hle']
        exact congrArg Prod.fst hmode

/-
No key occurs twice, so the lines can be in any order.
-/
theorem loadSettings_any_order (conversion : IntConversion) (s : Settings)
    (content content' : List UInt8)
    (hfit : ∀ line, line ∈ content.splitOn 10 → line.length ≤ 127)
    (hkeys : ((entries content).map entryKey).Nodup)
    (hperm : (content'.splitOn 10).Perm (content.splitOn 10))
    : loadSettings conversion s (some content') = loadSettings conversion s (some content)
        ∧ (loadSettings conversion s (some content)).scalingMode
          = decidedScalingMode conversion (entries content) s.scalingMode := by
  have hfit' : ∀ line, line ∈ content'.splitOn 10 → line.length ≤ 127 := by
    intro line hline
    apply hfit line (hperm.mem_iff.mp hline)
  rw [loadSettings_entries conversion s hfit, loadSettings_entries conversion s hfit']
  constructor
  . congr 1
    apply KeyedFold.foldl_perm _ (hperm.filterMap parseLine) hkeys
    intro l e e' hne
    apply loadEntry_comm conversion l e.snd e'.snd hne
  . apply migrate_scalingMode conversion s hkeys

/- An old key behind a newer one, and the other way round. -/
theorem loadSettings_any_order_example
    : let content := ascii "scaling=3\nupscaler=1\nfps=30\n"
      let content' := ascii "upscaler=1\nfps=30\nscaling=3\n"
      let conversion := SettingsMenu.exampleConversion
      loadSettings conversion defaultSettings (some content')
        = loadSettings conversion defaultSettings (some content)
        ∧ (loadSettings conversion defaultSettings (some content)).scalingMode
          = decidedScalingMode conversion (entries content) defaultSettings.scalingMode := by
  apply loadSettings_any_order SettingsMenu.exampleConversion defaultSettings
    (ascii "scaling=3\nupscaler=1\nfps=30\n") (ascii "upscaler=1\nfps=30\nscaling=3\n")
  . decide
  . decide
  . decide

end Ui

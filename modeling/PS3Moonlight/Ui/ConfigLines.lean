import PS3Moonlight.Ui.ConfigOrder

/-!
This module contains the configuration file as lines of any length, next to the pieces of them that
`ui_load_settings` reads through its buffer: what the rest of a long line can do, and which files are read
line by line nevertheless.
-/

namespace Ui

open Handshake (ascii cstr isSpace)

/- The next word, behind the white space before it. -/
def word (text : List UInt8) : List UInt8 :=
  (text.dropWhile isSpace).takeWhile fun c => !isSpace c

/- What stands in front of the first `=`, and the word behind it. -/
def keyField (text : List UInt8) : List UInt8 :=
  text.takeWhile fun c => c != 61

def valueField (text : List UInt8) : List UInt8 :=
  word ((text.dropWhile fun c => c != 61).drop 1)

/-
What a line says, however long it is: nothing if it is blank or a comment, and else the key in front of
the first `=` and the word behind it.
-/
def statedEntry (line : List UInt8) : Option (List UInt8 × List UInt8) :=
  let p := (cstr line).dropWhile isBlank
  match p with
  | [] => none
  | c :: _ =>
    if c == 35 || c == 59 || isLineEnd c then
      none
    else
      if (valueField p).isEmpty then none else some ⟨trimEnd isBlank (keyField p), valueField p⟩

/- The settings of the lines of the file. -/
def lineSettings (conversion : IntConversion) (s : Settings) (content : List UInt8) : Settings :=
  migrate (loadEntries conversion (emptyLoading s) ((content.splitOn 10).filterMap statedEntry))

def commands (conversion : IntConversion) (es : Entries) : List Command :=
  es.filterMap fun e => entryCommand conversion e.fst e.snd

def lineCommand (conversion : IntConversion) (line : List UInt8) : Option Command :=
  (statedEntry line).bind fun e => entryCommand conversion e.fst e.snd

/- The entries of a line that is read piece by piece. -/
def pieceEntries (line : List UInt8) : Entries :=
  (Lines.chunks 10 127 line).filterMap parseLine

def readLines (conversion : IntConversion) (s : Settings) (lines : List (List UInt8)) : Loading :=
  loadEntries conversion (emptyLoading s) (lines.flatMap pieceEntries)

/- A line from which the loader takes what the line says. -/
def ReadAsLine (conversion : IntConversion) (line : List UInt8) : Prop :=
  commands conversion (pieceEntries line) = (lineCommand conversion line).toList

/- A line without which every file has the same settings. -/
def Removable (conversion : IntConversion) (line : List UInt8) : Prop :=
  ∀ (s : Settings) (before after : List (List UInt8)) (content content' : List UInt8),
    content.splitOn 10 = before ++ line :: after → content'.splitOn 10 = before ++ after
      → loadSettings conversion s (some content) = loadSettings conversion s (some content')

/-
Only the commands count.
-/

section

variable (conversion : IntConversion) (l : Loading)

theorem loadEntries_commands (es : Entries)
    : loadEntries conversion l es = (commands conversion es).foldl Loading.apply l := by
  unfold loadEntries commands
  rw [List.foldl_filterMap]
  congr 1
  funext l e
  rw [loadEntry_eq]
  unfold Loading.applyOption
  split
  . next hnone => rw [hnone]
  . next command hsome => rw [hsome]

theorem commands_lines (lines : List (List UInt8))
    (h : ∀ line, line ∈ lines → ReadAsLine conversion line)
    : commands conversion (lines.flatMap pieceEntries)
        = commands conversion (lines.filterMap statedEntry) := by
  induction lines with
  | nil => rfl
  | cons line lines ih =>
    have hline := h line List.mem_cons_self
    have hlines := ih fun line hmem => h line (List.mem_cons_of_mem _ hmem)
    unfold ReadAsLine lineCommand at hline
    unfold commands at hline hlines ⊢
    rw [List.flatMap_cons, List.filterMap_append, hline, hlines, List.filterMap_cons]
    cases statedEntry line with
    | none => rfl
    | some e =>
      rw [Option.bind_some, List.filterMap_cons]
      cases entryCommand conversion e.fst e.snd with
      | none => rfl
      | some command => rfl

end

theorem loadSettings_pieces (conversion : IntConversion) (s : Settings) (content : List UInt8)
    : loadSettings conversion s (some content)
        = migrate (readLines conversion s (content.splitOn 10)) := by
  unfold readLines
  rw [loadSettings_chunks, Lines.filterMap_chunks parseLine_newline rfl]
  rfl

/-
A line that fits.
-/

theorem takeWhile_append_of_all {p : UInt8 → Bool} (text : List UInt8) {rest : List UInt8}
    (h : ∀ c, c ∈ rest → p c = false)
    : (text ++ rest).takeWhile p = text.takeWhile p := by
  rw [List.takeWhile_append]
  split
  . next hlength =>
    have hrest : rest.takeWhile p = [] := by
      cases rest with
      | nil => rfl
      | cons c rest =>
        rw [List.takeWhile_cons_of_neg]
        rw [h c List.mem_cons_self]
        decide
    rw [hrest, List.append_nil, (List.takeWhile_prefix p).eq_of_length hlength]
  . rfl

/- White space behind a word makes no difference to it. -/
theorem word_append (text : List UInt8) {rest : List UInt8} (h : ∀ c, c ∈ rest → isSpace c = true)
    : word (text ++ rest) = word text := by
  unfold word
  have hrest : rest.dropWhile isSpace = [] := by
    rw [List.dropWhile_eq_nil_iff]
    exact h
  rw [List.dropWhile_append]
  split
  . next hempty =>
    rw [List.isEmpty_iff] at hempty
    rw [hrest, hempty]
  . apply takeWhile_append_of_all
    intro c hc
    rw [h c hc]
    rfl

theorem noSpace_valueField (text : List UInt8) : ∀ c, c ∈ valueField text → isSpace c = false := by
  intro c hc
  have hmem := List.mem_takeWhile_imp hc
  simpa using hmem

theorem scanEntry_fits {text : List UInt8} (hkey : (keyField text).length ≤ 63)
    (hvalue : (valueField text).length ≤ 63)
    : scanEntry text
        = if (keyField text).isEmpty ∨ (valueField text).isEmpty then none
          else some ⟨keyField text, valueField text⟩ := by
  unfold scanEntry
  dsimp only
  rw [takeWhile_take hkey, drop_takeWhile, ← keyField]
  unfold valueField word at hvalue ⊢
  rw [takeWhile_take hvalue]
  cases hbehind : text.dropWhile fun c => c != 61 with
  | nil => simp
  | cons c rest =>
    have hc : c = 61 := by
      have hhead := List.head?_dropWhile_not (fun c => c != 61) text
      rw [hbehind] at hhead
      simpa using hhead
    rw [hc]
    cases keyField text with
    | nil => rfl
    | cons k key => simp

/- The white space at the end of a text is in neither field. -/
theorem valueField_append (text : List UInt8) {rest : List UInt8}
    (h : ∀ c, c ∈ rest → isSpace c = true)
    : valueField (text ++ rest) = valueField text := by
  have hrest : (rest.dropWhile fun c => c != 61) = [] := by
    rw [List.dropWhile_eq_nil_iff]
    intro c hc
    have hspace := h c hc
    rw [bne_iff_ne]
    intro heq
    rw [heq] at hspace
    contradiction
  unfold valueField
  rw [List.dropWhile_append]
  split
  . next hempty =>
    rw [List.isEmpty_iff] at hempty
    rw [hrest, hempty]
  . next hne =>
    rw [List.drop_append_of_le_length, word_append _ h]
    rw [List.isEmpty_iff, ← List.length_eq_zero_iff] at hne
    omega

theorem keyField_append {text : List UInt8} (rest : List UInt8) (h : valueField text ≠ [])
    : keyField (text ++ rest) = keyField text := by
  unfold keyField
  rw [List.takeWhile_append, if_neg]
  intro hlength
  -- there is an `=` in the text, so its beginning is not all of it
  have hself := (List.takeWhile_prefix fun c : UInt8 => c != 61).eq_of_length hlength
  apply h
  unfold valueField
  have hbehind : (text.dropWhile fun c => c != 61) = [] := by
    rw [List.dropWhile_eq_nil_iff, ← List.takeWhile_eq_self_iff]
    exact hself
  rw [hbehind]
  rfl

theorem length_keyField_append_le (text rest : List UInt8)
    : (keyField text).length ≤ (keyField (text ++ rest)).length := by
  unfold keyField
  rw [List.takeWhile_append]
  split
  . rw [List.length_append]
    have hle := (List.takeWhile_prefix (l := text) fun c : UInt8 => c != 61).length_le
    omega
  . exact Nat.le_refl _

theorem trimEnd_append_space (drop : UInt8 → Bool) (text : List UInt8)
    : ∃ rest, text = trimEnd drop text ++ rest ∧ ∀ c, c ∈ rest → drop c = true := by
  refine ⟨(text.reverse.takeWhile drop).reverse, ?_, ?_⟩
  . unfold trimEnd
    rw [← List.reverse_append, List.takeWhile_append_dropWhile, List.reverse_reverse]
  . intro c hc
    rw [List.mem_reverse] at hc
    exact List.mem_takeWhile_imp hc

theorem isSpace_of_end {c : UInt8} (h : (isLineEnd c || isBlank c) = true) : isSpace c = true := by
  cases hc : isSpace c with
  | true => rfl
  | false =>
    have ⟨hblank, hend⟩ := of_isSpace hc
    rw [hblank, hend] at h
    contradiction

/- Behind the blanks at its beginning, a line whose fields fit into their buffers. -/
structure FitsFields (p : List UInt8) : Prop where
  key : (keyField p).length ≤ 63
  value : (valueField p).length ≤ 63

/- An entry with no key at all is as good as no entry. -/
theorem entryCommand_nil (conversion : IntConversion) (value : List UInt8)
    : entryCommand conversion [] value = none := by
  simp +decide only [entryCommand, ↓reduceIte]

theorem scanEntry_trimEnd {p : List UInt8} (h : FitsFields p)
    : scanEntry (trimEnd (fun c => isLineEnd c || isBlank c) p)
        = if (keyField p).isEmpty ∨ (valueField p).isEmpty then none
          else some ⟨keyField p, valueField p⟩ := by
  have ⟨rest, hp, hrest⟩ := trimEnd_append_space (fun c => isLineEnd c || isBlank c) p
  have hspace : ∀ c, c ∈ rest → isSpace c = true := by
    intro c hc
    apply isSpace_of_end (hrest c hc)
  generalize trimEnd (fun c => isLineEnd c || isBlank c) p = text at hp ⊢
  have hvalue : valueField p = valueField text := by rw [hp, valueField_append _ hspace]
  have hvalueSize := h.value
  rw [hvalue] at hvalueSize
  have hkeySize : (keyField text).length ≤ 63 := by
    apply Nat.le_trans _ h.key
    rw [hp]
    apply length_keyField_append_le
  rw [scanEntry_fits hkeySize hvalueSize, hvalue]
  cases hne : valueField text with
  | nil => simp
  | cons c value =>
    have hkey : keyField p = keyField text := by
      rw [hp, keyField_append]
      rw [hne]
      exact List.cons_ne_nil c value
    rw [hkey]

/- What is behind a line that fits into the buffers, it says as well. -/
theorem parseLine_command (conversion : IntConversion) {line : List UInt8}
    (h : FitsFields ((cstr line).dropWhile isBlank))
    : ((parseLine line).bind fun e => entryCommand conversion e.fst e.snd)
        = lineCommand conversion line := by
  unfold lineCommand parseLine statedEntry
  dsimp only
  generalize (cstr line).dropWhile isBlank = p at h
  cases p with
  | nil => rfl
  | cons c p =>
    dsimp only
    split
    . rfl
    . rw [scanEntry_trimEnd h]
      cases hvalue : valueField (c :: p) with
      | nil => simp
      | cons d value =>
        have hdrop : (d :: value).dropWhile isBlank = d :: value := by
          have hd := noSpace_valueField (c :: p) d (by rw [hvalue]; exact List.mem_cons_self)
          apply List.dropWhile_cons_of_neg
          rw [(of_isSpace hd).left]
          decide
        cases hkey : keyField (c :: p) with
        | nil =>
          have hnone := entryCommand_nil conversion (d :: value)
          simpa [trimEnd] using hnone.symm
        | cons k key => simp [hdrop]

theorem readAsLine_of_fits (conversion : IntConversion) {line : List UInt8} (hsep : 10 ∉ line)
    (hline : line.length ≤ 127) (hfields : FitsFields ((cstr line).dropWhile isBlank))
    : ReadAsLine conversion line := by
  unfold ReadAsLine pieceEntries commands
  rw [Lines.filterMap_chunks_short rfl hsep hline, ← parseLine_command conversion hfields]
  cases parseLine line with
  | none => rfl
  | some e =>
    rw [Option.bind_some, Option.toList_some, List.filterMap_cons]
    cases entryCommand conversion e.fst e.snd with
    | none => rfl
    | some command => rfl

/-
What the rest of a line can do that is not read as one.
-/

/- Everything but the setting that the command is about. -/
def Command.forget (command : Command) (l : Loading) : Loading :=
  let s := l.settings
  match command with
  | .octets _ => { l with settings := { s with targetIpStr := [] } }
  | .name _ => { l with settings := { s with targetIpStr := [] } }
  | .fps _ => { l with settings := { s with fps := 0 } }
  | .bitrateIdx _ => { l with settings := { s with bitrateIdx := 0 } }
  | .mouseMode _ => { l with settings := { s with mouseMode := 0 } }
  | .vsync _ => { l with settings := { s with vsync := 0 } }
  | .showStats _ => { l with settings := { s with showStats := 0 } }
  | .verbose _ => { l with settings := { s with verbose := 0 } }
  | .streamRes16x9Idx _ => { l with settings := { s with streamRes16x9Idx := 0 } }
  | .streamRes4x3Idx _ => { l with settings := { s with streamRes4x3Idx := 0 } }
  | .scalingMode _ =>
    { l with settings := { s with scalingMode := 0 }, explicitScalingModeFound := false }
  | .legacyScaling _ => { l with legacyScalingVal := -1 }
  | .legacyUpscaler _ => { l with legacyUpscalerVal := -1 }

theorem forget_apply (c d : Command) (l : Loading)
    : c.forget (l.apply d) = c.forget ((c.forget l).apply d) := by
  cases c with
  | _ =>
    cases d with
    | _ => rfl

theorem apply_forget (c : Command) (l : Loading) : (c.forget l).apply c = l.apply c := by
  cases c with
  | _ => rfl

/- The last command makes up for a difference in its setting. -/
theorem foldl_concat_of_forget (cs : List Command) {c : Command} {l l' : Loading}
    (h : c.forget l = c.forget l')
    : (cs ++ [c]).foldl Loading.apply l = (cs ++ [c]).foldl Loading.apply l' := by
  have hforget := KeyedFold.foldl_forget (fun l d => forget_apply c d l) cs h
  rw [List.foldl_append, List.foldl_append, List.foldl_cons, List.foldl_cons, ← apply_forget c,
    hforget, apply_forget]

theorem readLines_singleton (conversion : IntConversion) (s : Settings) (key value : List UInt8)
    {line : List UInt8} {c : Command} (hline : pieceEntries line = [⟨key, value⟩])
    (hc : entryCommand conversion key value = some c)
    : readLines conversion s [line] = (emptyLoading s).apply c := by
  unfold readLines loadEntries
  rw [List.flatMap_singleton, hline, List.foldl_cons, List.foldl_nil, loadEntry_eq, hc]
  rfl

/- Two beginnings of a file that are only told apart by what the command writes. -/
structure ToldApart (conversion : IntConversion) (c : Command) (s s' : Settings)
    (before before' : List (List UInt8)) : Prop where
  forget : c.forget (readLines conversion s before) = c.forget (readLines conversion s' before')
  ne : migrate (readLines conversion s before) ≠ migrate (readLines conversion s' before')
  sep : ∀ line, line ∈ before ∨ line ∈ before' → 10 ∉ line

theorem toldApart_settings (conversion : IntConversion) {c : Command} (s : Settings)
    (hforget : c.forget (emptyLoading defaultSettings) = c.forget (emptyLoading s))
    (hne : defaultSettings ≠ s)
    : ∃ s s' before before', ToldApart conversion c s s' before before' := by
  refine ⟨defaultSettings, s, [], [], hforget, hne, ?_⟩
  simp

/- The old keys are not settings themselves, so it takes a line to change them. -/
theorem toldApart_lines (conversion : IntConversion) {c : Command} {line line' : List UInt8}
    {l l' : Loading} (hl : readLines conversion defaultSettings [line] = l)
    (hl' : readLines conversion defaultSettings [line'] = l') (hforget : c.forget l = c.forget l')
    (hne : migrate l ≠ migrate l') (hsep : 10 ∉ line) (hsep' : 10 ∉ line')
    : ToldApart conversion c defaultSettings defaultSettings [line] [line'] where
  forget := by rw [hl, hl', hforget]
  ne := by rwa [hl, hl']
  sep := by
    intro text htext
    rw [List.mem_singleton, List.mem_singleton] at htext
    cases htext with
    | inl htext => rwa [htext]
    | inr htext => rwa [htext]

theorem exists_toldApart (conversion : IntConversion) (c : Command)
    : ∃ s s' before before', ToldApart conversion c s s' before before' := by
  have hone := atoi_text conversion (n := 1) (by decide)
  have hzero := atoi_text conversion (n := 0) (by decide)
  have hthree := atoi_text conversion (n := 3) (by decide)
  cases c with
  | octets o =>
    apply toldApart_settings conversion { defaultSettings with targetIpStr := [] } rfl
    decide
  | name str =>
    apply toldApart_settings conversion { defaultSettings with targetIpStr := [] } rfl
    decide
  | fps v =>
    apply toldApart_settings conversion { defaultSettings with fps := 30 } rfl
    decide
  | bitrateIdx v =>
    apply toldApart_settings conversion { defaultSettings with bitrateIdx := 0 } rfl
    decide
  | mouseMode v =>
    apply toldApart_settings conversion { defaultSettings with mouseMode := 1 } rfl
    decide
  | vsync v =>
    apply toldApart_settings conversion { defaultSettings with vsync := 0 } rfl
    decide
  | showStats v =>
    apply toldApart_settings conversion { defaultSettings with showStats := 1 } rfl
    decide
  | verbose v =>
    apply toldApart_settings conversion { defaultSettings with verbose := 1 } rfl
    decide
  | streamRes16x9Idx v =>
    apply toldApart_settings conversion { defaultSettings with streamRes16x9Idx := 1 } rfl
    decide
  | streamRes4x3Idx v =>
    apply toldApart_settings conversion { defaultSettings with streamRes4x3Idx := 1 } rfl
    decide
  | scalingMode v =>
    apply toldApart_settings conversion { defaultSettings with scalingMode := 1 } rfl
    decide
  | legacyScaling v =>
    have hlegacy : readLines conversion defaultSettings [ascii "scaling=3"]
        = (emptyLoading defaultSettings).apply (.legacyScaling 3) := by
      apply readLines_singleton conversion _ (ascii "scaling") (Decimal.text 3)
      . decide
      . simp +decide [entryCommand, hthree]
    have hshader : readLines conversion defaultSettings [ascii "scaling=0"]
        = (emptyLoading defaultSettings).apply (.legacyScaling 0) := by
      apply readLines_singleton conversion _ (ascii "scaling") (Decimal.text 0)
      . decide
      . simp +decide [entryCommand, hzero]
    refine ⟨_, _, _, _, toldApart_lines conversion hlegacy hshader rfl ?_ ?_ ?_⟩
    . decide
    . decide
    . decide
  | legacyUpscaler v =>
    have hshader : readLines conversion defaultSettings [ascii "upscaler=1"]
        = (emptyLoading defaultSettings).apply (.legacyUpscaler 1) := by
      apply readLines_singleton conversion _ (ascii "upscaler") (Decimal.text 1)
      . decide
      . simp +decide [entryCommand, hone]
    have hlegacy : readLines conversion defaultSettings [ascii "upscaler=0"]
        = (emptyLoading defaultSettings).apply (.legacyUpscaler 0) := by
      apply readLines_singleton conversion _ (ascii "upscaler") (Decimal.text 0)
      . decide
      . simp +decide [entryCommand, hzero]
    refine ⟨_, _, _, _, toldApart_lines conversion hshader hlegacy rfl ?_ ?_ ?_⟩
    . decide
    . decide
    . decide

theorem commands_append (conversion : IntConversion) (es es' : Entries)
    : commands conversion (es ++ es') = commands conversion es ++ commands conversion es' := by
  apply List.filterMap_append

/- A line at the end is ignored if it is ignored everywhere. -/
theorem readLines_of_removable {conversion : IntConversion} {line : List UInt8} (hsep : 10 ∉ line)
    (h : Removable conversion line) (s : Settings) {before : List (List UInt8)}
    (hbefore : ∀ line, line ∈ before → 10 ∉ line)
    : migrate (readLines conversion s (before ++ [line])) = migrate (readLines conversion s before) := by
  have hcontent : ([(10 : UInt8)].intercalate (before ++ line :: [[]])).splitOn 10
      = before ++ line :: [[]] := by
    apply List.splitOn_intercalate
    . intro text htext
      simp only [List.mem_append, List.mem_cons, List.not_mem_nil, or_false] at htext
      rcases htext with htext | htext | htext
      . exact hbefore text htext
      . rwa [htext]
      . rw [htext]
        exact List.not_mem_nil
    . simp
  have hcontent' : ([(10 : UInt8)].intercalate (before ++ [[]])).splitOn 10 = before ++ [[]] := by
    apply List.splitOn_intercalate
    . intro text htext
      simp only [List.mem_append, List.mem_cons, List.not_mem_nil, or_false] at htext
      cases htext with
      | inl htext => exact hbefore text htext
      | inr htext =>
        rw [htext]
        exact List.not_mem_nil
    . simp
  have hsame := h s before [[]] _ _ hcontent hcontent'
  rw [loadSettings_pieces, loadSettings_pieces, hcontent, hcontent'] at hsame
  have hend : ∀ lines, readLines conversion s (lines ++ [[]]) = readLines conversion s lines := by
    intro lines
    unfold readLines
    rw [List.flatMap_append, List.flatMap_singleton]
    have hnil : pieceEntries [] = [] := rfl
    rw [hnil, List.append_nil]
  rw [hend before, ← List.singleton_append, ← List.append_assoc, hend] at hsame
  exact hsame

/- A line is only ignored in every file if no command comes out of it: a last one could be made out. -/
theorem removable_iff {conversion : IntConversion} {line : List UInt8} (hsep : 10 ∉ line)
    : Removable conversion line ↔ commands conversion (pieceEntries line) = [] := by
  constructor
  . intro hremovable
    cases List.eq_nil_or_concat' (commands conversion (pieceEntries line)) with
    | inl hnil => exact hnil
    | inr hconcat =>
      obtain ⟨cs, c, hcs⟩ := hconcat
      obtain ⟨s, s', before, before', h⟩ := exists_toldApart conversion c
      have hread : ∀ s before, readLines conversion s (before ++ [line])
          = (cs ++ [c]).foldl Loading.apply (readLines conversion s before) := by
        intro s before
        unfold readLines
        rw [List.flatMap_append, List.flatMap_singleton, ← hcs, loadEntries_commands,
          loadEntries_commands, commands_append, List.foldl_append]
      have hsame : migrate (readLines conversion s before)
          = migrate (readLines conversion s' before') := by
        calc migrate (readLines conversion s before)
          _ = migrate (readLines conversion s (before ++ [line])) := by
            rw [readLines_of_removable hsep hremovable s fun l hl => h.sep l (Or.inl hl)]
          _ = migrate (readLines conversion s' (before' ++ [line])) := by
            rw [hread, hread, foldl_concat_of_forget cs h.forget]
          _ = migrate (readLines conversion s' before') := by
            rw [readLines_of_removable hsep hremovable s' fun l hl => h.sep l (Or.inr hl)]
      exact absurd hsame h.ne
  . intro hnil s before after content content' hcontent hcontent'
    rw [loadSettings_pieces, loadSettings_pieces, hcontent, hcontent']
    unfold readLines
    rw [loadEntries_commands, loadEntries_commands, List.flatMap_append, List.flatMap_append,
      List.flatMap_cons, commands_append, commands_append, commands_append, hnil, List.nil_append]

theorem loadSettings_of_readAsLine (conversion : IntConversion) (s : Settings) {content : List UInt8}
    (h : ∀ line, line ∈ content.splitOn 10 → ReadAsLine conversion line)
    : loadSettings conversion s (some content) = lineSettings conversion s content := by
  unfold lineSettings
  rw [loadSettings_pieces, readLines, loadEntries_commands, loadEntries_commands,
    commands_lines conversion _ h]

/- Files with lines that fit into the buffers have the settings of their lines. -/
theorem loadSettings_of_fits (conversion : IntConversion) (s : Settings) {content : List UInt8}
    (h : ∀ line, line ∈ content.splitOn 10
      → line.length ≤ 127 ∧ FitsFields ((cstr line).dropWhile isBlank))
    : loadSettings conversion s (some content) = lineSettings conversion s content := by
  apply loadSettings_of_readAsLine
  intro line hmem
  obtain ⟨hline, hfields⟩ := h line hmem
  exact readAsLine_of_fits conversion (Lines.not_mem_of_mem_splitOn content line hmem) hline hfields

/-
A file has the settings of its lines if each line is read as one, which lines that fit into the buffers
are. A line that says nothing can be left out of every file if and only if it is read as one.
-/
theorem loadSettings_line_by_line (conversion : IntConversion)
    : (∀ (s : Settings) (content : List UInt8),
        (∀ line, line ∈ content.splitOn 10 → ReadAsLine conversion line)
          → loadSettings conversion s (some content) = lineSettings conversion s content)
      ∧
      (∀ (s : Settings) (content : List UInt8),
        (∀ line, line ∈ content.splitOn 10
            → line.length ≤ 127 ∧ FitsFields ((cstr line).dropWhile isBlank))
          → loadSettings conversion s (some content) = lineSettings conversion s content)
      ∧
      ∀ line : List UInt8, 10 ∉ line → lineCommand conversion line = none
        → (Removable conversion line ↔ ReadAsLine conversion line) := by
  refine ⟨?_, ?_, ?_⟩
  . intro s content h
    exact loadSettings_of_readAsLine conversion s h
  . intro s content h
    exact loadSettings_of_fits conversion s h
  . intro line hsep hnone
    unfold ReadAsLine
    rw [hnone]
    apply removable_iff hsep

/- A comment, a blank line and a setting with a blank before it. -/
def commentedFile : List UInt8 :=
  ascii "# fps=60\n\n fps=30\n"

theorem loadSettings_line_by_line_commented
    : loadSettings SettingsMenu.exampleConversion defaultSettings (some commentedFile)
          = lineSettings SettingsMenu.exampleConversion defaultSettings commentedFile
        ∧ (lineSettings SettingsMenu.exampleConversion defaultSettings commentedFile).fps = 30 := by
  constructor
  . apply (loadSettings_line_by_line SettingsMenu.exampleConversion).right.left
    have hlines : commentedFile.splitOn 10
        = [ascii "# fps=60", [], ascii " fps=30", []] := by
      decide
    rw [hlines]
    intro line hmem
    simp only [List.mem_cons, List.not_mem_nil, or_false] at hmem
    rcases hmem with h | h | h | h <;> rw [h] <;> exact ⟨by decide, by decide, by decide⟩
  . decide

/- A comment of 127 characters before `fps=30`. -/
def longComment : List UInt8 :=
  ascii "#" ++ List.replicate 126 120 ++ ascii "fps=30\n"

theorem longComment_changes_fps
    : ¬ ∀ (conversion : IntConversion) (s : Settings) (content : List UInt8),
        loadSettings conversion s (some content) = lineSettings conversion s content := by
  intro hclaim
  have hsame := hclaim SettingsMenu.exampleConversion defaultSettings longComment
  have hfps := congrArg Settings.fps hsame
  revert hfps
  decide

end Ui

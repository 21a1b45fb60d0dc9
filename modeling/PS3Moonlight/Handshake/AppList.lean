import PS3Moonlight.Handshake.Launch

/-!
This module contains `hv_get_app_list`: the scanner over the App elements of a reply, with its two
spellings, its limit and its fallback, and which elements of a reply it finds.
-/

namespace Handshake

variable {κ : Type}

def maxAppEntries : Nat := 32

/- The array of a name, which always is terminated. -/
abbrev AppName := { bytes : List UInt8 // bytes.length = 64 ∧ bytes.getLast? = some 0 }

structure AppEntry where
  id : Int
  name : AppName
deriving DecidableEq

/- `strncpy` of at most 63 bytes into 64 bytes that are zero. -/
def copyName (title : List UInt8) : AppName where
  val := title.take 63 ++ List.replicate (64 - (title.take 63).length) 0
  property := by
    have hle : (title.take 63).length ≤ 63 := List.length_take_le 63 title
    constructor
    . rw [List.length_append, List.length_replicate]
      omega
    . rw [List.getLast?_append, List.getLast?_replicate, if_neg (by omega)]
      rfl

def findApp (curr : List UInt8) : Option (List UInt8) :=
  match strstr curr (ascii "<App>") with
  | some parts => some (ascii "<App>" ++ parts.snd)
  | none => (strstr curr (ascii "<app>")).map fun parts => ascii "<app>" ++ parts.snd

def findAppEnd (appStart : List UInt8) : Option (List UInt8 × List UInt8) :=
  match strstr appStart (ascii "</App>") with
  | some parts => some parts
  | none => strstr appStart (ascii "</app>")

/- The block of the next element, without its end tag, and what stands behind the end tag. -/
def nextApp (curr : List UInt8) : Option (List UInt8 × List UInt8) :=
  (findApp curr).bind findAppEnd

def extractTitle (block : List UInt8) : Option (List UInt8) :=
  (extractXml block (ascii "AppTitle")).or (extractXml block (ascii "apptitle"))

def extractId (block : List UInt8) : Option (List UInt8) :=
  (extractXml block (ascii "ID")).or (extractXml block (ascii "id"))

def appEntry (conversion : IntConversion) (block : List UInt8) : Option AppEntry :=
  match extractTitle block, extractId block with
  | some title, some id => some ⟨atoi conversion id, copyName title⟩
  | _, _ => none

theorem strstr_length {text pattern : List UInt8} {parts : List UInt8 × List UInt8}
    (h : strstr text pattern = some parts)
    : parts.fst.length + pattern.length + parts.snd.length = text.length := by
  induction text generalizing parts with
  | nil =>
    rw [strstr] at h
    split at h
    . next hbegin =>
      rw [List.isPrefixOf_iff_prefix, List.prefix_nil] at hbegin
      rw [Option.some.injEq] at h
      simp [← h, hbegin]
    . contradiction
  | cons c text ih =>
    rw [strstr] at h
    split at h
    . next hbegin =>
      rw [List.isPrefixOf_iff_prefix] at hbegin
      rw [Option.some.injEq] at h
      have hle := hbegin.length_le
      simp only [← h, List.length_nil, List.length_drop, List.length_cons] at hle ⊢
      omega
    . rw [Option.map_eq_some_iff] at h
      obtain ⟨parts', hparts', h⟩ := h
      have hlength := ih hparts'
      simp only [← h, List.length_cons]
      omega

theorem length_findApp {curr appStart : List UInt8} (h : findApp curr = some appStart)
    : appStart.length ≤ curr.length := by
  have hupper : (ascii "<App>").length = 5 := by decide
  have hlower : (ascii "<app>").length = 5 := by decide
  unfold findApp at h
  split at h
  . next parts hparts =>
    have hlength := strstr_length hparts
    rw [Option.some.injEq] at h
    rw [← h, List.length_append]
    omega
  . rw [Option.map_eq_some_iff] at h
    obtain ⟨parts, hparts, h⟩ := h
    have hlength := strstr_length hparts
    rw [← h, List.length_append]
    omega

/- The scanner advances strictly. -/
theorem length_nextApp {curr : List UInt8} {next : List UInt8 × List UInt8}
    (h : nextApp curr = some next)
    : next.snd.length < curr.length := by
  have hupper : (ascii "</App>").length = 6 := by decide
  have hlower : (ascii "</app>").length = 6 := by decide
  rw [nextApp, Option.bind_eq_some_iff] at h
  obtain ⟨appStart, hstart, h⟩ := h
  have hle := length_findApp hstart
  unfold findAppEnd at h
  split at h
  . next parts hparts =>
    have hlength := strstr_length hparts
    rw [Option.some.injEq] at h
    rw [← h]
    omega
  . have hlength := strstr_length h
    omega

def appLoop (conversion : IntConversion) (curr : List UInt8) (apps : List AppEntry)
    : List AppEntry :=
  if apps.length < maxAppEntries then
    match _ : nextApp curr with
    | none => apps
    | some next => appLoop conversion next.snd (apps ++ (appEntry conversion next.fst).toList)
  else
    apps
termination_by curr.length
decreasing_by
  apply length_nextApp
  assumption

/- The entry of a reply without an entry in an App element. -/
def fallbackEntry (conversion : IntConversion) (reply : List UInt8) : Option AppEntry :=
  (extractXml reply (ascii "ID")).map fun id =>
    ⟨atoi conversion id,
      copyName ((extractXml reply (ascii "AppTitle")).getD (ascii "Default Host Game"))⟩

def parseAppList (conversion : IntConversion) (reply : List UInt8) : List AppEntry :=
  match appLoop conversion (cstr reply) [] with
  | [] => (fallbackEntry conversion reply).toList
  | apps => apps

def appListPath (info : HandshakeInfo) (uuid : Random) : List UInt8 :=
  (ascii "/applist?uniqueid=" ++ info.uniqueId ++ ascii "&uuid=" ++ generateUuidString uuid).take 511

/- The result code, and the entries up to the count of the list. -/
def hvGetAppList (ssl : PolarSsl κ) (info : HandshakeInfo) (uuid : Option Random)
    (io : HttpsIo κ) (store : TrustStore) : Int × List AppEntry :=
  match uuid with
  | none => ⟨-1, []⟩
  | some uuid =>
    match ps3HttpsRequest ssl info (appListPath info uuid) io store with
    | none => ⟨-1, []⟩
    | some reply =>
      let apps := parseAppList io.conversion reply
      ⟨if 0 < apps.length then 0 else -1, apps⟩

def hvGetFirstAppid (ssl : PolarSsl κ) (info : HandshakeInfo) (uuid : Option Random)
    (io : HttpsIo κ) (store : TrustStore) : Int :=
  match hvGetAppList ssl info uuid io store with
  | ⟨0, app :: _⟩ => app.id
  | _ => -1

/-
The list has room for what is found.
-/

theorem length_appLoop_le {conversion : IntConversion} {curr : List UInt8} {apps : List AppEntry}
    (h : apps.length ≤ maxAppEntries)
    : (appLoop conversion curr apps).length ≤ maxAppEntries := by
  fun_induction appLoop conversion curr apps with
  | case1 => exact h
  | case2 curr apps hlt next hnext ih =>
    apply ih
    rw [List.length_append]
    have hone : (appEntry conversion next.fst).toList.length ≤ 1 := by
      cases appEntry conversion next.fst with
      | none => decide
      | some app => exact Nat.le_refl 1
    omega
  | case3 => exact h

theorem length_parseAppList_le (conversion : IntConversion) (reply : List UInt8)
    : (parseAppList conversion reply).length ≤ maxAppEntries := by
  unfold parseAppList
  split
  . cases fallbackEntry conversion reply with
    | none => decide
    | some app => show 1 ≤ 32; decide
  . apply length_appLoop_le
    decide

theorem length_hvGetAppList_le (ssl : PolarSsl κ) (info : HandshakeInfo) (uuid : Option Random)
    (io : HttpsIo κ) (store : TrustStore)
    : (hvGetAppList ssl info uuid io store).snd.length ≤ maxAppEntries := by
  unfold hvGetAppList
  split
  . exact Nat.zero_le _
  . split
    . exact Nat.zero_le _
    . apply length_parseAppList_le

/-
A reply as the host writes it: App elements, the spelling of a start tag is that of its end tag, with any
text around them.
-/

def appTags : List (List UInt8) :=
  [ascii "<App>", ascii "<app>", ascii "</App>", ascii "</app>"]

abbrev Around := { text : List UInt8 // ¬ascii "<App>" <:+: text ∧ ¬ascii "<app>" <:+: text }

structure AppElement where
  lower : Bool
  body : List UInt8
  flat : ∀ tag, tag ∈ appTags → ¬tag <:+: body

def AppElement.startTag (e : AppElement) : List UInt8 :=
  if e.lower then ascii "<app>" else ascii "<App>"

def AppElement.endTag (e : AppElement) : List UInt8 :=
  if e.lower then ascii "</app>" else ascii "</App>"

def AppElement.bytes (e : AppElement) : List UInt8 :=
  e.startTag ++ (e.body ++ e.endTag)

/- The text of an element is what stands between it and the next one. -/
def elementsBytes (elements : List (AppElement × Around)) : List UInt8 :=
  elements.flatMap fun p => p.fst.bytes ++ p.snd.val

structure AppDocument where
  head : Around
  elements : List (AppElement × Around)

def AppDocument.bytes (d : AppDocument) : List UInt8 :=
  d.head.val ++ elementsBytes d.elements

/- The first elements with both fields. -/
def AppDocument.entries (conversion : IntConversion) (d : AppDocument) : List AppEntry :=
  (d.elements.filterMap fun p => appEntry conversion p.fst.body).take maxAppEntries

/- No `</App>` stands behind an `<app>` element. -/
def SpellingsInOrder (elements : List (AppElement × Around)) : Prop :=
  match elements with
  | [] => True
  | p :: elements =>
    (p.fst.lower = true → ¬ascii "</App>" <:+: p.snd.val ++ elementsBytes elements)
      ∧ SpellingsInOrder elements

theorem isTag_of_mem_appTags : ∀ tag, tag ∈ appTags → isTag tag = true := by
  decide

theorem not_prefix_of_mem_appTags : ∀ tag, tag ∈ appTags → ∀ tag', tag' ∈ appTags → tag ≠ tag'
    → ¬tag <+: tag' := by
  decide

theorem startTag_mem (e : AppElement) : e.startTag ∈ appTags := by
  rw [AppElement.startTag]
  split <;> decide

theorem endTag_mem (e : AppElement) : e.endTag ∈ appTags := by
  rw [AppElement.endTag]
  split <;> decide

theorem elementsBytes_cons (p : AppElement × Around) (elements : List (AppElement × Around))
    : elementsBytes (p :: elements) = p.fst.bytes ++ (p.snd.val ++ elementsBytes elements) := by
  rw [elementsBytes, List.flatMap_cons, List.append_assoc]
  rfl

theorem head_of_isTag {tag : List UInt8} (h : isTag tag = true) (rest : List UInt8)
    : ∀ c, (tag ++ rest).head? = some c → c = 60 := by
  obtain ⟨tail, htail, _⟩ := eq_cons_of_isTag h
  intro c hc
  rw [htail, List.cons_append, List.head?_cons, Option.some.injEq] at hc
  exact hc.symm

theorem head_elementsBytes (elements : List (AppElement × Around))
    : ∀ c, (elementsBytes elements).head? = some c → c = 60 := by
  cases elements with
  | nil => simp [elementsBytes]
  | cons p elements =>
    rw [elementsBytes_cons, AppElement.bytes, List.append_assoc]
    exact head_of_isTag (isTag_of_mem_appTags _ (startTag_mem p.fst)) _

/- The search for another tag goes through an element. -/

theorem strstr_skip_appTag {tag pattern : List UInt8} (htag : tag ∈ appTags)
    (hpattern : pattern ∈ appTags) (hne : pattern ≠ tag) (rest : List UInt8)
    : strstr (tag ++ rest) pattern
        =
      (strstr rest pattern).map fun parts => ⟨tag ++ parts.fst, parts.snd⟩ := by
  apply strstr_skip_tag rest (isTag_of_mem_appTags tag htag) (isTag_of_mem_appTags pattern hpattern)
  . exact not_prefix_of_mem_appTags pattern hpattern tag htag hne
  . exact not_prefix_of_mem_appTags tag htag pattern hpattern hne.symm

theorem strstr_skip_body (e : AppElement) {pattern : List UInt8} (hpattern : pattern ∈ appTags)
    {rest : List UInt8} (hrest : ∀ c, rest.head? = some c → c = 60)
    : strstr (e.body ++ rest) pattern
        =
      (strstr rest pattern).map fun parts => ⟨e.body ++ parts.fst, parts.snd⟩ := by
  exact strstr_skip_text rest (isTag_of_mem_appTags pattern hpattern) (e.flat pattern hpattern) hrest

theorem strstr_bytes_eq_none {e : AppElement} {pattern rest : List UInt8}
    (hpattern : pattern ∈ appTags) (hstart : pattern ≠ e.startTag) (hend : pattern ≠ e.endTag)
    (h : strstr rest pattern = none)
    : strstr (e.bytes ++ rest) pattern = none := by
  rw [AppElement.bytes, List.append_assoc, List.append_assoc,
    strstr_skip_appTag (startTag_mem e) hpattern hstart,
    strstr_skip_body e hpattern (head_of_isTag (isTag_of_mem_appTags _ (endTag_mem e)) _),
    strstr_skip_appTag (endTag_mem e) hpattern hend, h]
  rfl

theorem strstr_endTag (e : AppElement) (rest : List UInt8)
    : strstr (e.bytes ++ rest) e.endTag = some ⟨e.startTag ++ e.body, rest⟩ := by
  have hne : e.endTag ≠ e.startTag := by
    rw [AppElement.startTag, AppElement.endTag]
    split <;> decide
  rw [AppElement.bytes, List.append_assoc, List.append_assoc,
    strstr_skip_appTag (startTag_mem e) (endTag_mem e) hne,
    strstr_skip_body e (endTag_mem e) (head_of_isTag (isTag_of_mem_appTags _ (endTag_mem e)) _),
    strstr_self]
  simp

theorem strstr_startTag (e : AppElement) (rest : List UInt8)
    : strstr (e.bytes ++ rest) e.startTag = some ⟨[], e.body ++ (e.endTag ++ rest)⟩ := by
  rw [AppElement.bytes, List.append_assoc, strstr_self, List.append_assoc]

theorem strstr_around (a : Around) (elements : List (AppElement × Around)) {pattern : List UInt8}
    (hpattern : pattern = ascii "<App>" ∨ pattern = ascii "<app>")
    : strstr (a.val ++ elementsBytes elements) pattern
        =
      (strstr (elementsBytes elements) pattern).map fun parts => ⟨a.val ++ parts.fst, parts.snd⟩ := by
  apply strstr_skip_text
  . cases hpattern with
    | inl h => rw [h]; decide
    | inr h => rw [h]; decide
  . cases hpattern with
    | inl h => rw [h]; exact a.property.left
    | inr h => rw [h]; exact a.property.right
  . exact head_elementsBytes elements

theorem lower_of_not_infix {e : AppElement} {rest : List UInt8}
    (h : ¬ascii "</App>" <:+: e.bytes ++ rest)
    : e.lower = true := by
  cases hlower : e.lower with
  | true => rfl
  | false =>
    exfalso
    apply h
    refine ⟨e.startTag ++ e.body, rest, ?_⟩
    simp [AppElement.bytes, AppElement.endTag, hlower]

/- Where no end tag is in upper case, no start tag is. -/
theorem strstr_upper_eq_none (elements : List (AppElement × Around))
    (h : ¬ascii "</App>" <:+: elementsBytes elements)
    : strstr (elementsBytes elements) (ascii "<App>") = none := by
  induction elements with
  | nil => decide
  | cons p elements ih =>
    rw [elementsBytes_cons] at h ⊢
    have hlower := lower_of_not_infix h
    apply strstr_bytes_eq_none
    . decide
    . rw [AppElement.startTag, hlower]
      decide
    . rw [AppElement.endTag, hlower]
      decide
    . rw [strstr_around p.snd elements (Or.inl rfl), ih]
      . rfl
      . intro hinfix
        apply h
        apply hinfix.trans
        rw [← List.append_assoc]
        exact (List.suffix_append _ _).isInfix

theorem findApp_elements (a : Around) (p : AppElement × Around)
    (elements : List (AppElement × Around)) (h : SpellingsInOrder (p :: elements))
    : findApp (a.val ++ elementsBytes (p :: elements))
        =
      some (p.fst.bytes ++ (p.snd.val ++ elementsBytes elements)) := by
  have hstart := strstr_startTag p.fst (p.snd.val ++ elementsBytes elements)
  unfold AppElement.startTag at hstart
  rw [findApp, strstr_around a (p :: elements) (Or.inl rfl),
    strstr_around a (p :: elements) (Or.inr rfl), elementsBytes_cons]
  cases hlower : p.fst.lower with
  | false =>
    rw [hlower, if_neg (by decide)] at hstart
    rw [hstart]
    simp [AppElement.bytes, AppElement.startTag, hlower]
  | true =>
    rw [hlower, if_pos rfl] at hstart
    have hnone : strstr (p.fst.bytes ++ (p.snd.val ++ elementsBytes elements)) (ascii "<App>")
        = none := by
      apply strstr_bytes_eq_none
      . decide
      . rw [AppElement.startTag, hlower]
        decide
      . rw [AppElement.endTag, hlower]
        decide
      . rw [strstr_around p.snd elements (Or.inl rfl), strstr_upper_eq_none]
        . rfl
        . intro hinfix
          apply h.left hlower
          exact hinfix.trans (List.suffix_append _ _).isInfix
    rw [hnone, hstart]
    simp [AppElement.bytes, AppElement.startTag, hlower]

theorem findAppEnd_bytes (e : AppElement) (rest : List UInt8)
    (h : e.lower = true → ¬ascii "</App>" <:+: rest)
    : findAppEnd (e.bytes ++ rest) = some ⟨e.startTag ++ e.body, rest⟩ := by
  have hend := strstr_endTag e rest
  unfold AppElement.endTag at hend
  unfold findAppEnd
  cases hlower : e.lower with
  | false =>
    rw [hlower] at hend
    simp only [Bool.false_eq_true, if_false] at hend
    rw [hend]
  | true =>
    rw [hlower, if_pos rfl] at hend
    rw [strstr_bytes_eq_none, hend]
    . decide
    . rw [AppElement.startTag, hlower]
      decide
    . rw [AppElement.endTag, hlower]
      decide
    . rw [strstr_eq_none_iff]
      exact h hlower

theorem nextApp_elements (a : Around) (p : AppElement × Around)
    (elements : List (AppElement × Around)) (h : SpellingsInOrder (p :: elements))
    : nextApp (a.val ++ elementsBytes (p :: elements))
        =
      some ⟨p.fst.startTag ++ p.fst.body, p.snd.val ++ elementsBytes elements⟩ := by
  rw [nextApp, findApp_elements a p elements h, Option.bind_some, findAppEnd_bytes _ _ h.left]

theorem nextApp_around (a : Around) : nextApp (a.val ++ elementsBytes []) = none := by
  rw [nextApp, findApp, strstr_around a [] (Or.inl rfl), strstr_around a [] (Or.inr rfl)]
  rfl

/- The start tag of a block does not disturb the search for its fields. -/

theorem cstr_startTag_append (e : AppElement) (text : List UInt8)
    : cstr (e.startTag ++ text) = e.startTag ++ cstr text := by
  have hne : (e.startTag.all fun c => c != 0) = true := by
    rw [AppElement.startTag]
    split <;> decide
  rw [List.all_eq_true] at hne
  rw [cstr, List.takeWhile_append_of_pos hne]
  rfl

def fieldNames : List (List UInt8) :=
  [ascii "AppTitle", ascii "apptitle", ascii "ID", ascii "id"]

theorem field_tags : ∀ name, name ∈ fieldNames → isTag (startTag name) = true
    ∧ ∀ tag, tag ∈ appTags → ¬startTag name <+: tag ∧ ¬tag <+: startTag name := by
  decide

theorem extractXml_startTag_append (e : AppElement) {name : List UInt8} (hname : name ∈ fieldNames)
    : extractXml (e.startTag ++ e.body) name = extractXml e.body name := by
  have htags := field_tags name hname
  have hne := htags.right e.startTag (startTag_mem e)
  rw [extractXml, extractXml, cstr_startTag_append, strstr_skip_tag _
    (isTag_of_mem_appTags _ (startTag_mem e)) htags.left hne.left hne.right]
  cases strstr (cstr e.body) (startTag name) <;> rfl

theorem appEntry_startTag_append (conversion : IntConversion) (e : AppElement)
    : appEntry conversion (e.startTag ++ e.body) = appEntry conversion e.body := by
  unfold appEntry extractTitle extractId
  rw [extractXml_startTag_append e (by decide), extractXml_startTag_append e (by decide),
    extractXml_startTag_append e (by decide), extractXml_startTag_append e (by decide)]

theorem appLoop_of_none (conversion : IntConversion) {curr : List UInt8} (apps : List AppEntry)
    (h : nextApp curr = none)
    : appLoop conversion curr apps = apps := by
  rw [appLoop]
  split
  . split
    . rfl
    . next hnext =>
      rw [h] at hnext
      contradiction
  . rfl

theorem appLoop_of_some (conversion : IntConversion) {curr : List UInt8}
    {next : List UInt8 × List UInt8} {apps : List AppEntry} (happs : apps.length < maxAppEntries)
    (h : nextApp curr = some next)
    : appLoop conversion curr apps
        =
      appLoop conversion next.snd (apps ++ (appEntry conversion next.fst).toList) := by
  rw [appLoop, if_pos happs]
  split
  . next hnext =>
    rw [h] at hnext
    contradiction
  . next hnext =>
    rw [h, Option.some.injEq] at hnext
    rw [hnext]

theorem appLoop_elements (conversion : IntConversion) (a : Around)
    (elements : List (AppElement × Around)) (h : SpellingsInOrder elements) (apps : List AppEntry)
    (happs : apps.length ≤ maxAppEntries)
    : appLoop conversion (a.val ++ elementsBytes elements) apps
        =
      (apps ++ elements.filterMap fun p => appEntry conversion p.fst.body).take maxAppEntries := by
  induction elements generalizing a apps with
  | nil =>
    rw [appLoop_of_none conversion apps (nextApp_around a), List.filterMap_nil, List.append_nil,
      List.take_of_length_le happs]
  | cons p elements ih =>
    by_cases hlt : apps.length < maxAppEntries
    . rw [appLoop_of_some conversion hlt (nextApp_elements a p elements h), appEntry_startTag_append,
        ih p.snd h.right]
      . rw [List.append_assoc, List.filterMap_cons]
        cases appEntry conversion p.fst.body <;> rfl
      . have hle : (appEntry conversion p.fst.body).toList.length ≤ 1 := by
          cases appEntry conversion p.fst.body <;> simp
        rw [List.length_append]
        omega
    . have heq : apps.length = maxAppEntries := by omega
      rw [appLoop, if_neg hlt, ← heq, List.take_left']
      rfl

theorem parseAppList_document (conversion : IntConversion) {d : AppDocument} {reply : List UInt8}
    (h : cstr reply = d.bytes) (horder : SpellingsInOrder d.elements)
    : parseAppList conversion reply
        =
      match d.entries conversion with
      | [] => (fallbackEntry conversion reply).toList
      | entries => entries := by
  rw [parseAppList, h, AppDocument.bytes, appLoop_elements _ _ _ horder [] (by decide),
    List.nil_append]
  rfl

theorem hvGetAppList_of_reply {ssl : PolarSsl κ} {info : HandshakeInfo} {uuid : Random}
    {io : HttpsIo κ} {store : TrustStore} {reply : List UInt8}
    (h : ps3HttpsRequest ssl info (appListPath info uuid) io store = some reply)
    : hvGetAppList ssl info (some uuid) io store
        =
      ⟨if 0 < (parseAppList io.conversion reply).length then 0 else -1,
        parseAppList io.conversion reply⟩ := by
  rw [hvGetAppList, h]

/-
The entries are those of the elements. A reply without elements is searched as a whole.
-/
theorem hvGetAppList_document (ssl : PolarSsl κ) (info : HandshakeInfo) (uuid : Random)
    (io : HttpsIo κ) (store : TrustStore) (d : AppDocument) (reply : List UInt8)
    (hreply : ps3HttpsRequest ssl info (appListPath info uuid) io store = some reply)
    (hdocument : cstr reply = d.bytes) (horder : SpellingsInOrder d.elements)
    : (d.entries io.conversion ≠ []
        → hvGetAppList ssl info (some uuid) io store = ⟨0, d.entries io.conversion⟩)
        ∧
      (d.entries io.conversion = [] → extractXml reply (ascii "ID") = none
        → hvGetAppList ssl info (some uuid) io store = ⟨-1, []⟩)
        ∧
      (d.elements = [] → ∀ id, extractXml reply (ascii "ID") = some id
        → hvGetAppList ssl info (some uuid) io store
          = ⟨0, [⟨atoi io.conversion id, copyName ((extractXml reply (ascii "AppTitle")).getD
              (ascii "Default Host Game"))⟩]⟩)
        ∧
      ∀ curr next, nextApp curr = some next → next.snd.length < curr.length := by
  rw [hvGetAppList_of_reply hreply, parseAppList_document io.conversion hdocument horder]
  refine ⟨?_, ?_, ?_, fun _ _ => length_nextApp⟩
  . intro hentries
    cases h : d.entries io.conversion with
    | nil => contradiction
    | cons app apps => simp
  . intro hentries hid
    rw [hentries, fallbackEntry, hid]
    rfl
  . intro helements id hid
    have hentries : d.entries io.conversion = [] := by
      rw [AppDocument.entries, helements]
      rfl
    rw [hentries, fallbackEntry, hid]
    rfl

/- A host that gives the reply to the request for its applications. -/
def appListIo (reply : List UInt8) : HttpsIo (List UInt8) :=
  { exampleEnv.step5 with
    sslWrite := [185]
    sslRead := [.data reply true, .close] }

theorem appListIo_conversion (reply : List UInt8) : (appListIo reply).conversion = wrapping := by
  rfl

def listingInfo : HandshakeInfo :=
  hvInit (ascii "192.168.1.10") none (sixteen 2)

def headAround : Around :=
  ⟨ascii "HTTP/1.1 200 OK\r\n\r\n", by decide⟩

def noneAround : Around :=
  ⟨[], by decide⟩

def appElement (lower : Bool) (body : List UInt8) (flat : ∀ tag, tag ∈ appTags → ¬tag <:+: body)
    : AppElement where
  lower := lower
  body := body
  flat := flat

/- Two elements with both fields, the second one in the other spelling, and one without a title. -/
def exampleDocument : AppDocument where
  head := headAround
  elements :=
    [⟨appElement false (ascii "<ID>1</ID>") (by decide), noneAround⟩,
      ⟨appElement false (ascii "<AppTitle>A</AppTitle><ID>2</ID>") (by decide), noneAround⟩,
      ⟨appElement true (ascii "<apptitle>B</apptitle><id>3</id>") (by decide), noneAround⟩]

theorem hvGetAppList_document_two
    : hvGetAppList plainSsl listingInfo (some (sixteen 1)) (appListIo exampleDocument.bytes)
        pinnedStore
        =
      ⟨0, [⟨2, copyName (ascii "A")⟩, ⟨3, copyName (ascii "B")⟩]⟩ := by
  have hreply : ps3HttpsRequest plainSsl listingInfo (appListPath listingInfo (sixteen 1))
      (appListIo exampleDocument.bytes) pinnedStore = some exampleDocument.bytes := by
    decide +kernel
  have hentries : exampleDocument.entries wrapping
      = [⟨2, copyName (ascii "A")⟩, ⟨3, copyName (ascii "B")⟩] := by
    decide +kernel
  have horder : SpellingsInOrder exampleDocument.elements := by
    refine ⟨?_, ?_, ?_, trivial⟩ <;> decide
  have hresult := (hvGetAppList_document plainSsl listingInfo (sixteen 1)
    (appListIo exampleDocument.bytes) pinnedStore exampleDocument exampleDocument.bytes hreply
    (by decide) horder).left
  rw [appListIo_conversion, hentries] at hresult
  exact hresult (by simp)

/- No element, but an ID in the text. -/
def idDocument : AppDocument where
  head := ⟨ascii "HTTP/1.1 200 OK\r\n\r\n<ID>5</ID>", by decide⟩
  elements := []

/- The ID in one element and the title in another one. -/
def splitDocument : AppDocument where
  head := headAround
  elements :=
    [⟨appElement false (ascii "<ID>1</ID>") (by decide), noneAround⟩,
      ⟨appElement false (ascii "<AppTitle>A</AppTitle>") (by decide), noneAround⟩]

/- An element in upper case behind one in lower case. -/
def mixedDocument : AppDocument where
  head := headAround
  elements :=
    [⟨appElement true (ascii "<AppTitle>A</AppTitle><ID>1</ID>") (by decide), noneAround⟩,
      ⟨appElement false (ascii "<AppTitle>B</AppTitle><ID>2</ID>") (by decide), noneAround⟩]

theorem parseAppList_mixedDocument
    : parseAppList wrapping mixedDocument.bytes = [⟨2, copyName (ascii "B")⟩] := by
  have hfirst : nextApp (cstr mixedDocument.bytes)
      = some ⟨ascii "<App><AppTitle>B</AppTitle><ID>2</ID>", []⟩ := by
    decide +kernel
  have hentry : appEntry wrapping (ascii "<App><AppTitle>B</AppTitle><ID>2</ID>")
      = some ⟨2, copyName (ascii "B")⟩ := by
    decide +kernel
  rw [parseAppList, appLoop_of_some _ (by decide) hfirst, appLoop_of_none _ _ (by decide), hentry]
  rfl

/-
The fallback finds an ID outside of all elements, and it makes one entry of two elements. The search for
`<App>` passes over the elements in the other spelling.
-/
theorem hvGetAppList_not_entries
    : (hvGetAppList plainSsl listingInfo (some (sixteen 1)) (appListIo idDocument.bytes)
          pinnedStore).snd
        = [⟨5, copyName (ascii "Default Host Game")⟩]
          ∧ idDocument.entries wrapping = []
        ∧
      (hvGetAppList plainSsl listingInfo (some (sixteen 1)) (appListIo splitDocument.bytes)
          pinnedStore).snd
        = [⟨1, copyName (ascii "A")⟩]
          ∧ splitDocument.entries wrapping = []
        ∧
      (hvGetAppList plainSsl listingInfo (some (sixteen 1)) (appListIo mixedDocument.bytes)
          pinnedStore).snd
        = [⟨2, copyName (ascii "B")⟩]
          ∧ mixedDocument.entries wrapping
            = [⟨1, copyName (ascii "A")⟩, ⟨2, copyName (ascii "B")⟩] := by
  have hid : ps3HttpsRequest plainSsl listingInfo (appListPath listingInfo (sixteen 1))
      (appListIo idDocument.bytes) pinnedStore = some idDocument.bytes := by
    decide +kernel
  have hsplit : ps3HttpsRequest plainSsl listingInfo (appListPath listingInfo (sixteen 1))
      (appListIo splitDocument.bytes) pinnedStore = some splitDocument.bytes := by
    decide +kernel
  have hmixed : ps3HttpsRequest plainSsl listingInfo (appListPath listingInfo (sixteen 1))
      (appListIo mixedDocument.bytes) pinnedStore = some mixedDocument.bytes := by
    decide +kernel
  have hidEntries : idDocument.entries wrapping = [] := by rfl
  have hsplitEntries : splitDocument.entries wrapping = [] := by decide +kernel
  rw [hvGetAppList_of_reply hid, hvGetAppList_of_reply hsplit, hvGetAppList_of_reply hmixed,
    appListIo_conversion, appListIo_conversion, appListIo_conversion,
    parseAppList_document wrapping (by decide) (by trivial) (d := idDocument), hidEntries,
    parseAppList_document wrapping (by decide) ⟨by decide, by decide, trivial⟩
      (d := splitDocument),
    hsplitEntries, parseAppList_mixedDocument]
  refine ⟨?_, rfl, ?_, rfl, rfl, ?_⟩ <;> decide +kernel

end Handshake

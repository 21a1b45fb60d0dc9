import PS3Moonlight.Handshake.PairSecurity

/-!
This module contains the version of the host: `hv_get_server_info` rewrites its text, and the library
parses it with `extractVersionQuadFromString`. The one character that is rewritten is judged by the
numbers that the parser reads.
-/

namespace Handshake

def serverInfoPath (info : HandshakeInfo) : List UInt8 :=
  (ascii "/serverinfo?uniqueid=" ++ info.uniqueId).take 511

/- The loop over `server_app_version`, with the character before in the array. -/
def sanitizeLoop (prev : Option UInt8) (text : List UInt8) : List UInt8 :=
  match text with
  | [] => []
  | c :: text =>
    let c := if c == 45 && prev == some 46 then 48 else c
    c :: sanitizeLoop (some c) text

/- The string in `server_app_version`. -/
def serverAppVersion (reply : List UInt8) : List UInt8 :=
  match extractXml reply (ascii "appversion") with
  | some appver => sanitizeLoop none (appver.take 31)
  | none => ascii "7.1.431.0"

def hvGetServerInfo (info : HandshakeInfo) (io : HttpIo) : Option (List UInt8) :=
  (ps3HttpRequest info (serverInfoPath info) io).map serverAppVersion

/- The cast of a `long` of the given width, which `strtol` saturates, to `int`. -/
def longToInt (longWidth : Nat) (n : Int) : Int :=
  let long := max (-2 ^ (longWidth - 1)) (min n (2 ^ (longWidth - 1) - 1))
  (long + 2 ^ 31) % 2 ^ 32 - 2 ^ 31

/- The value and the text behind it, where a text without a number is not passed. -/
def strtol (longWidth : Nat) (text : List UInt8) : Int × List UInt8 :=
  match scanNumber text with
  | none => ⟨0, text⟩
  | some number => ⟨longToInt longWidth number.fst, number.snd⟩

/- The loop over the components that are left. -/
def quadLoop (longWidth components : Nat) (nextNumber : List UInt8) : List Int :=
  match components with
  | 0 => []
  | components + 1 =>
    let number := strtol longWidth nextNumber
    number.fst :: quadLoop longWidth components (number.snd.drop 1)

def extractVersionQuadFromString (longWidth : Nat) (string : List UInt8) : List Int :=
  quadLoop longWidth 4 (cstr string)

/- A decimal integer as text. -/
structure Component where
  negative : Bool
  digits : List UInt8
  ne_nil : digits ≠ []
  isDigit : ∀ c, c ∈ digits → isDigit c = true

def Component.text (c : Component) : List UInt8 :=
  if c.negative then 45 :: c.digits else c.digits

def Component.value (c : Component) : Int :=
  if c.negative then -Decimal.value c.digits else Decimal.value c.digits

/- What the loop makes of a component behind a dot. -/
def Component.sanitized (c : Component) : List UInt8 :=
  if c.negative then 48 :: c.digits else c.digits

structure Version where
  first : Component
  second : Component
  third : Component
  fourth : Component

def Version.text (v : Version) : List UInt8 :=
  v.first.text ++ 46 :: (v.second.text ++ 46 :: (v.third.text ++ 46 :: v.fourth.text))

/- The components as the comment in the source wants them, a negative one replaced by 0. -/
def Version.clamped (v : Version) : List Int :=
  [max 0 v.first.value, max 0 v.second.value, max 0 v.third.value, max 0 v.fourth.value]

theorem digit_ne {c : UInt8} (h : isDigit c = true) : c ≠ 45 ∧ c ≠ 46 ∧ c ≠ 0 := by
  refine ⟨?_, ?_, ?_⟩
  all_goals
    intro hc
    rw [hc] at h
    contradiction

/- Digits stay as they are, and a dot behind them is seen by the next component. -/

theorem sanitizeLoop_cons {c : UInt8} (hc : c ≠ 45) (prev : Option UInt8) (text : List UInt8)
    : sanitizeLoop prev (c :: text) = c :: sanitizeLoop (some c) text := by
  rw [sanitizeLoop]
  simp [hc]

theorem sanitizeLoop_digits {digits : List UInt8} (h : ∀ c, c ∈ digits → isDigit c = true)
    (prev : Option UInt8)
    : sanitizeLoop prev digits = digits := by
  induction digits generalizing prev with
  | nil => rfl
  | cons c digits ih =>
    rw [sanitizeLoop_cons (digit_ne (h c (by simp))).left, ih]
    intro c' hc'
    exact h c' (by simp [hc'])

theorem sanitizeLoop_digits_dot {digits : List UInt8} (h : ∀ c, c ∈ digits → isDigit c = true)
    (prev : Option UInt8) (rest : List UInt8)
    : sanitizeLoop prev (digits ++ 46 :: rest) = digits ++ 46 :: sanitizeLoop (some 46) rest := by
  induction digits generalizing prev with
  | nil => exact sanitizeLoop_cons (by decide) prev rest
  | cons c digits ih =>
    rw [List.cons_append, sanitizeLoop_cons (digit_ne (h c (by simp))).left, ih]
    . rfl
    . intro c' hc'
      exact h c' (by simp [hc'])

theorem sanitizeLoop_first (c : Component) (rest : List UInt8)
    : sanitizeLoop none (c.text ++ 46 :: rest) = c.text ++ 46 :: sanitizeLoop (some 46) rest := by
  rw [Component.text]
  split
  . rw [List.cons_append, sanitizeLoop]
    simp [sanitizeLoop_digits_dot c.isDigit]
  . apply sanitizeLoop_digits_dot c.isDigit

theorem sanitizeLoop_next (c : Component) (rest : List UInt8)
    : sanitizeLoop (some 46) (c.text ++ 46 :: rest)
        =
      c.sanitized ++ 46 :: sanitizeLoop (some 46) rest := by
  rw [Component.text, Component.sanitized]
  split
  . rw [List.cons_append, sanitizeLoop]
    simp [sanitizeLoop_digits_dot c.isDigit]
  . apply sanitizeLoop_digits_dot c.isDigit

theorem sanitizeLoop_last (c : Component)
    : sanitizeLoop (some 46) c.text = c.sanitized := by
  rw [Component.text, Component.sanitized]
  split
  . rw [sanitizeLoop]
    simp [sanitizeLoop_digits c.isDigit]
  . apply sanitizeLoop_digits c.isDigit

theorem sanitizeLoop_text (v : Version)
    : sanitizeLoop none v.text
        =
      v.first.text ++ 46 :: (v.second.sanitized ++ 46 ::
        (v.third.sanitized ++ 46 :: v.fourth.sanitized)) := by
  rw [Version.text, sanitizeLoop_first, sanitizeLoop_next, sanitizeLoop_next, sanitizeLoop_last]

theorem text_ne_zero (c : Component) : ∀ b, b ∈ c.text → b ≠ 0 := by
  intro b hb
  unfold Component.text at hb
  split at hb
  . rw [List.mem_cons] at hb
    cases hb with
    | inl hb => rw [hb]; decide
    | inr hb => exact (digit_ne (c.isDigit b hb)).right.right
  . exact (digit_ne (c.isDigit b hb)).right.right

theorem sanitized_ne_zero (c : Component) : ∀ b, b ∈ c.sanitized → b ≠ 0 := by
  intro b hb
  unfold Component.sanitized at hb
  split at hb
  . rw [List.mem_cons] at hb
    cases hb with
    | inl hb => rw [hb]; decide
    | inr hb => exact (digit_ne (c.isDigit b hb)).right.right
  . exact (digit_ne (c.isDigit b hb)).right.right

theorem cstr_sanitizeLoop (v : Version)
    : cstr (sanitizeLoop none v.text) = sanitizeLoop none v.text := by
  apply cstr_eq_self
  intro b hb
  simp only [sanitizeLoop_text, List.mem_append, List.mem_cons] at hb
  rcases hb with hb | hb | hb | hb | hb | hb | hb
  . exact text_ne_zero _ b hb
  . rw [hb]; decide
  . exact sanitized_ne_zero _ b hb
  . rw [hb]; decide
  . exact sanitized_ne_zero _ b hb
  . rw [hb]; decide
  . exact sanitized_ne_zero _ b hb

/- What the parser reads. -/

theorem scanNumber_component (c : Component) {rest : List UInt8}
    (hrest : ∀ b, rest.head? = some b → isDigit b = false)
    : scanNumber (c.text ++ rest) = some ⟨c.value, rest⟩ := by
  rw [Component.text, Component.value]
  cases c.negative with
  | true => exact scanNumber_minus c.ne_nil c.isDigit hrest
  | false => exact scanNumber_digits c.ne_nil c.isDigit hrest

/- The sign has become a leading zero, so the number behind it is still there. -/
theorem scanNumber_sanitized (c : Component) {rest : List UInt8}
    (hrest : ∀ b, rest.head? = some b → isDigit b = false)
    : scanNumber (c.sanitized ++ rest) = some ⟨Decimal.value c.digits, rest⟩ := by
  rw [Component.sanitized]
  cases c.negative with
  | true =>
    have hdigits : ∀ b, b ∈ 48 :: c.digits → isDigit b = true := by
      intro b hb
      rw [List.mem_cons] at hb
      cases hb with
      | inl hb => rw [hb]; decide
      | inr hb => exact c.isDigit b hb
    exact scanNumber_digits (by simp) hdigits hrest
  | false => exact scanNumber_digits c.ne_nil c.isDigit hrest

theorem strtol_of_scanNumber {longWidth : Nat} {text : List UInt8} {number : Int × List UInt8}
    (h : scanNumber text = some number)
    : strtol longWidth text = ⟨longToInt longWidth number.fst, number.snd⟩ := by
  rw [strtol, h]

theorem head_dot (rest : List UInt8)
    : ∀ b, (46 :: rest).head? = some b → isDigit b = false := by
  intro b hb
  rw [List.head?_cons, Option.some.injEq] at hb
  rw [← hb]
  decide

theorem extractVersionQuadFromString_sanitizeLoop (longWidth : Nat) (v : Version)
    : extractVersionQuadFromString longWidth (sanitizeLoop none v.text)
        =
      [longToInt longWidth v.first.value, longToInt longWidth (Decimal.value v.second.digits),
        longToInt longWidth (Decimal.value v.third.digits),
        longToInt longWidth (Decimal.value v.fourth.digits)] := by
  have hlast := scanNumber_sanitized v.fourth (fun b (h : ([] : List UInt8).head? = some b) => by
    contradiction)
  rw [List.append_nil] at hlast
  have hfirst := scanNumber_component v.first (head_dot (v.second.sanitized ++ 46 ::
    (v.third.sanitized ++ 46 :: v.fourth.sanitized)))
  have hsecond := scanNumber_sanitized v.second (head_dot (v.third.sanitized ++ 46 ::
    v.fourth.sanitized))
  have hthird := scanNumber_sanitized v.third (head_dot v.fourth.sanitized)
  rw [extractVersionQuadFromString, cstr_sanitizeLoop, sanitizeLoop_text]
  simp only [quadLoop, strtol_of_scanNumber hfirst, strtol_of_scanNumber hsecond,
    strtol_of_scanNumber hthird, strtol_of_scanNumber hlast, List.drop_one, List.tail_cons]

theorem longToInt_bounds (longWidth : Nat) (n : Int)
    : -2 ^ 31 ≤ longToInt longWidth n ∧ longToInt longWidth n < 2 ^ 31 := by
  unfold longToInt
  dsimp only
  omega

theorem longToInt_eq_self {longWidth : Nat} (hwidth : 32 ≤ longWidth) {n : Int} (hge : -2 ^ 31 ≤ n)
    (hlt : n < 2 ^ 31)
    : longToInt longWidth n = n := by
  have hpow : (2 : Int) ^ 31 ≤ 2 ^ (longWidth - 1) := by
    apply pow_le_pow_right₀ (by decide)
    omega
  unfold longToInt
  dsimp only
  generalize (2 : Int) ^ (longWidth - 1) = limit at hpow
  omega

theorem longToInt_eq_self_iff {longWidth : Nat} (hwidth : 32 ≤ longWidth) {n : Int} (h : 0 ≤ n)
    : longToInt longWidth n = n ↔ n < 2 ^ 31 := by
  constructor
  . intro heq
    rw [← heq]
    exact (longToInt_bounds longWidth n).right
  . intro hlt
    exact longToInt_eq_self hwidth (by omega) hlt

/-
A component that comes out right: one that an `int` can hold, or a negative one whose number happens to
be read as zero.
-/
def Survives (longWidth : Nat) (value read : Int) : Prop :=
  if value < 0 then longToInt longWidth read = 0 else value < 2 ^ 31

instance decidableSurvives (longWidth : Nat) (value read : Int)
    : Decidable (Survives longWidth value read) :=
  inferInstanceAs (Decidable (if value < 0 then longToInt longWidth read = 0 else value < 2 ^ 31))

def Version.Survives (longWidth : Nat) (v : Version) : Prop :=
  Handshake.Survives longWidth v.first.value v.first.value
    ∧ Handshake.Survives longWidth v.second.value (-v.second.value)
    ∧ Handshake.Survives longWidth v.third.value (-v.third.value)
    ∧ Handshake.Survives longWidth v.fourth.value (-v.fourth.value)

theorem first_eq_iff {longWidth : Nat} (hwidth : 32 ≤ longWidth) (n : Int)
    : longToInt longWidth n = max 0 n ↔ Survives longWidth n n := by
  unfold Survives
  split
  . next hneg => rw [max_eq_left (by omega)]
  . next hpos => rw [max_eq_right (by omega), longToInt_eq_self_iff hwidth (by omega)]

theorem next_eq_iff {longWidth : Nat} (hwidth : 32 ≤ longWidth) (c : Component)
    : longToInt longWidth (Decimal.value c.digits) = max 0 c.value
        ↔
      Survives longWidth c.value (-c.value) := by
  have hvalue : (Decimal.value c.digits : Int) = if c.value < 0 then -c.value else c.value := by
    unfold Component.value
    split <;> split <;> omega
  rw [hvalue]
  unfold Survives
  split
  . next hneg => rw [max_eq_left (by omega)]
  . next hpos => rw [max_eq_right (by omega), longToInt_eq_self_iff hwidth (by omega)]

theorem serverAppVersion_eq {reply : List UInt8} {v : Version}
    (h : extractXml reply (ascii "appversion") = some v.text) (hlength : v.text.length ≤ 31)
    : serverAppVersion reply = sanitizeLoop none v.text := by
  rw [serverAppVersion, h]
  dsimp only
  rw [List.take_of_length_le hlength]

theorem hvGetServerInfo_clamped_iff (longWidth : Nat) (info : HandshakeInfo) (io : HttpIo)
    (reply : List UInt8) (v : Version) (hwidth : 32 ≤ longWidth)
    (hreply : ps3HttpRequest info (serverInfoPath info) io = some reply)
    (hversion : extractXml reply (ascii "appversion") = some v.text)
    (hlength : v.text.length ≤ 31)
    : (hvGetServerInfo info io).map (extractVersionQuadFromString longWidth) = some v.clamped
        ↔
      v.Survives longWidth := by
  rw [hvGetServerInfo, hreply, Option.map_some, Option.map_some, Option.some.injEq,
    serverAppVersion_eq hversion hlength, extractVersionQuadFromString_sanitizeLoop,
    Version.clamped, Version.Survives, ← first_eq_iff hwidth, ← next_eq_iff hwidth,
    ← next_eq_iff hwidth, ← next_eq_iff hwidth]
  simp only [List.cons.injEq, and_true]

def component (negative : Bool) (n : Nat) : Component where
  negative := negative
  digits := Decimal.text n
  ne_nil := Decimal.text_ne_nil n
  isDigit := Decimal.isDigit_text n

/- The version of a host, with the fourth component given. -/
def exampleVersion (fourth : Component) : Version :=
  ⟨component false 7, component false 1, component false 431, fourth⟩

def versionReply (version : Version) : List UInt8 :=
  ascii "HTTP/1.1 200 OK\r\n\r\n<appversion>" ++ version.text ++ ascii "</appversion>"

def versionIo (version : Version) : HttpIo where
  socket := true
  inetPton := true
  connectWithCancel := true
  send := [126]
  recv := [.data (versionReply version) true, .close]
  conversion := wrapping

theorem hvGetServerInfo_clamped_zero
    : (hvGetServerInfo exampleInfo (versionIo (exampleVersion (component false 0)))).map
          (extractVersionQuadFromString 64)
        =
      some (exampleVersion (component false 0)).clamped := by
  apply (hvGetServerInfo_clamped_iff 64 exampleInfo
    (versionIo (exampleVersion (component false 0)))
    (versionReply (exampleVersion (component false 0))) (exampleVersion (component false 0))
    (by decide) (by decide +kernel) (by decide +kernel) (by decide +kernel)).mpr
  refine ⟨?_, ?_, ?_, ?_⟩ <;> decide +kernel

/- The version 7.1.431.-1, which the source gives as an example. -/
theorem hvGetServerInfo_not_clamped
    : (hvGetServerInfo exampleInfo (versionIo (exampleVersion (component true 1)))).map
          (extractVersionQuadFromString 64)
        =
      some [7, 1, 431, 1]
        ∧
      (exampleVersion (component true 1)).clamped = [7, 1, 431, 0] := by
  constructor <;> decide +kernel

end Handshake

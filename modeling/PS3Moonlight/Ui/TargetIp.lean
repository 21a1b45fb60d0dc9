import PS3Moonlight.Ui.ConfigRoundTrip

/-!
This module contains the address over any number of calls of `ui_set_target_ip`: the octets of earlier
addresses stay behind the new one, and a number that is no octet lets one of them through.
-/

namespace Ui
namespace TargetIp

open Handshake (ascii cstr isSpace isDigit scanNumber scanLiteral)

/- The settings when `ui.c` is loaded, the address being its initial one. -/
def initialTarget (s : Settings) : Settings :=
  { s with targetIpStr := defaultSettings.targetIpStr, ipOctets := defaultSettings.ipOctets }

def afterCalls (conversion : IntConversion) (s : Settings) (calls : List (List UInt8)) : Settings :=
  calls.foldl (setTargetIp conversion) (initialTarget s)

/- The four numbers that are entered, before they are stored in an `int`. -/
def enteredNumbers (str : List UInt8) : Option (Int × Int × Int × Int) := do
  let ⟨a, rest⟩ ← scanNumber str
  let rest ← scanLiteral rest (ascii ".")
  let ⟨b, rest⟩ ← scanNumber rest
  let rest ← scanLiteral rest (ascii ".")
  let ⟨c, rest⟩ ← scanNumber rest
  let rest ← scanLiteral rest (ascii ".")
  let ⟨d, _⟩ ← scanNumber rest
  return ⟨a, b, c, d⟩

def numbers (octets : Octets) : Int × Int × Int × Int :=
  ⟨octets.first, octets.second, octets.third, octets.fourth⟩

structure InRange (octets : Octets) : Prop where
  first : octets.first ≤ 255
  second : octets.second ≤ 255
  third : octets.third ≤ 255
  fourth : octets.fourth ≤ 255

/-
The address is the old one, the four octets that are entered or the text that is entered, and it is
taken over as it is.
-/
structure NeverMixed (conversion : IntConversion) (s : Settings) (str : List UInt8) : Prop where
  target : (setTargetIp conversion s str).targetIpStr = s.targetIpStr
    ∨ (∃ octets : Octets, InRange octets
        ∧ enteredNumbers (cstr str) = some (numbers octets)
        ∧ (setTargetIp conversion s str).targetIpStr = dotted octets)
    ∨ (setTargetIp conversion s str).targetIpStr = (cstr str).take 63
  again : setTargetIp conversion (setTargetIp conversion s str)
      (setTargetIp conversion s str).targetIpStr
    = setTargetIp conversion s str

/- The number is no octet once it is stored, or it is the octet that is there already. -/
def keepsOctet (conversion : IntConversion) (n : Int) (old : Nat) : Prop :=
  ¬(0 ≤ conversion.toInt n ∧ conversion.toInt n ≤ 255) ∨ conversion.toInt n = old

/- Four numbers that leave an address of four octets as it is. -/
structure Repeats (conversion : IntConversion) (s : Settings) (o : Int × Int × Int × Int) : Prop where
  dotted : s.targetIpStr = dotted s.ipOctets
  first : keepsOctet conversion o.fst s.ipOctets.first
  second : keepsOctet conversion o.snd.fst s.ipOctets.second
  third : keepsOctet conversion o.snd.snd.fst s.ipOctets.third
  fourth : keepsOctet conversion o.snd.snd.snd s.ipOctets.fourth

/- Either no four numbers, or four octets, or nothing new. -/
def Meets (conversion : IntConversion) (s : Settings) (str : List UInt8) : Prop :=
  ∀ o, enteredNumbers (cstr str) = some o
    → (∃ octets : Octets, InRange octets ∧ o = numbers octets)
      ∨ Repeats conversion s o

/-
The beginning of a text has four numbers only if the text has.
-/

/- The digits begin behind the sign. -/
def unsigned (text : List UInt8) : List UInt8 :=
  if text.head? == some 45 || text.head? == some 43 then text.drop 1 else text

theorem scanNumber_eq_some {text rest : List UInt8} {n : Int} (h : scanNumber text = some ⟨n, rest⟩)
    : ((unsigned (text.dropWhile isSpace)).takeWhile isDigit).isEmpty = false
        ∧ rest = (unsigned (text.dropWhile isSpace)).dropWhile isDigit := by
  unfold scanNumber at h
  dsimp only at h
  rw [← unsigned] at h
  split at h
  . contradiction
  . next hne =>
    injection h with h
    injection h with _ hrest
    rw [drop_takeWhile] at hrest
    exact ⟨by simpa using hne, hrest.symm⟩

theorem exists_scanNumber {text : List UInt8}
    (h : ((unsigned (text.dropWhile isSpace)).takeWhile isDigit).isEmpty = false)
    : ∃ n, scanNumber text
        = some ⟨n, (unsigned (text.dropWhile isSpace)).dropWhile isDigit⟩ := by
  unfold scanNumber
  dsimp only
  rw [← unsigned, if_neg (by rw [h]; decide)]
  rw [drop_takeWhile]
  exact ⟨_, rfl⟩

theorem unsigned_append {text : List UInt8} (more : List UInt8) (h : text ≠ [])
    : unsigned (text ++ more) = unsigned text ++ more := by
  cases text with
  | nil => contradiction
  | cons c text =>
    unfold unsigned
    simp only [List.cons_append, List.head?_cons, List.drop_succ_cons, List.drop_zero]
    split
    . rfl
    . rfl

theorem scanNumber_append {text rest : List UInt8} {n : Int} (more : List UInt8)
    (h : scanNumber text = some ⟨n, rest⟩)
    : ∃ m rest', scanNumber (text ++ more) = some ⟨m, rest'⟩
        ∧ (rest ≠ [] → rest' = rest ++ more) := by
  have ⟨hdigits, hrest⟩ := scanNumber_eq_some h
  have hbody : text.dropWhile isSpace ≠ [] := by
    intro hnil
    simp [hnil, unsigned] at hdigits
  have hunsigned : unsigned ((text ++ more).dropWhile isSpace)
      = unsigned (text.dropWhile isSpace) ++ more := by
    rw [List.dropWhile_append, if_neg (by simpa using hbody), unsigned_append more hbody]
  generalize unsigned (text.dropWhile isSpace) = body at hdigits hrest hunsigned
  -- the digits only go on behind the text if they go on to its end
  have hmore : ((body ++ more).takeWhile isDigit).isEmpty = false := by
    cases body with
    | nil => simp at hdigits
    | cons c body =>
      by_cases hc : isDigit c = true
      . simp [hc]
      . simp [hc] at hdigits
  rw [← hunsigned] at hmore
  have ⟨m, hm⟩ := exists_scanNumber hmore
  refine ⟨m, _, hm, ?_⟩
  intro hne
  rw [hrest] at hne ⊢
  rw [hunsigned, List.dropWhile_append, if_neg (by simpa using hne)]

theorem scanLiteral_append' {text literal rest : List UInt8} (more : List UInt8)
    (h : scanLiteral text literal = some rest)
    : scanLiteral (text ++ more) literal = some (rest ++ more) := by
  unfold scanLiteral at h ⊢
  split at h
  . next hbegin =>
    injection h with h
    rw [List.isPrefixOf_iff_prefix] at hbegin
    rw [if_pos, List.drop_append_of_le_length hbegin.length_le, h]
    rw [List.isPrefixOf_iff_prefix]
    exact hbegin.trans (List.prefix_append text more)
  . contradiction

theorem scanLiteral_ne_nil {text rest : List UInt8} (h : scanLiteral text (ascii ".") = some rest)
    : text ≠ [] := by
  intro hnil
  rw [hnil] at h
  contradiction

theorem enteredNumbers_append {text : List UInt8} (more : List UInt8)
    (h : (enteredNumbers text).isSome = true)
    : (enteredNumbers (text ++ more)).isSome = true := by
  have ⟨o, ho⟩ := Option.isSome_iff_exists.mp h
  simp only [enteredNumbers, Option.bind_eq_bind, Option.bind_eq_some_iff, Option.pure_def] at ho
  have ⟨⟨a, rest1⟩, ha, rest1', hdot1, ⟨b, rest2⟩, hb, rest2', hdot2, ⟨c, rest3⟩, hc, rest3', hdot3,
    ⟨d, rest4⟩, hd, _⟩ := ho
  obtain ⟨a', next1, ha', hnext1⟩ := scanNumber_append more ha
  rw [hnext1 (scanLiteral_ne_nil hdot1)] at ha'
  obtain ⟨b', next2, hb', hnext2⟩ := scanNumber_append more hb
  rw [hnext2 (scanLiteral_ne_nil hdot2)] at hb'
  obtain ⟨c', next3, hc', hnext3⟩ := scanNumber_append more hc
  rw [hnext3 (scanLiteral_ne_nil hdot3)] at hc'
  obtain ⟨d', next4, hd', _⟩ := scanNumber_append more hd
  simp [enteredNumbers, ha', scanLiteral_append' more hdot1, hb', scanLiteral_append' more hdot2, hc',
    scanLiteral_append' more hdot3, hd']

theorem enteredNumbers_take {text : List UInt8} (n : Nat) (h : enteredNumbers text = none)
    : enteredNumbers (text.take n) = none := by
  cases htake : enteredNumbers (text.take n) with
  | none => rfl
  | some o =>
    have hwhole := enteredNumbers_append (text.drop n) (Option.isSome_iff_exists.mpr ⟨o, htake⟩)
    rw [List.take_append_drop, h] at hwhole
    contradiction

/-
What is stored of the numbers.
-/

def stored (conversion : IntConversion) (o : Int × Int × Int × Int) : Int × Int × Int × Int :=
  ⟨conversion.toInt o.fst, conversion.toInt o.snd.fst, conversion.toInt o.snd.snd.fst,
    conversion.toInt o.snd.snd.snd⟩

theorem scanOctets_eq (conversion : IntConversion) (str : List UInt8)
    : scanOctets conversion str = (enteredNumbers str).map (stored conversion) := by
  simp only [scanOctets, enteredNumbers, Option.bind_eq_bind, Option.pure_def, Option.map_bind,
    Function.comp_def, Option.map_some, stored]

/- The new octets. -/
def taken (conversion : IntConversion) (o : Int × Int × Int × Int) (old : Octets) : Octets where
  first := takeOctet (conversion.toInt o.fst) old.first
  second := takeOctet (conversion.toInt o.snd.fst) old.second
  third := takeOctet (conversion.toInt o.snd.snd.fst) old.third
  fourth := takeOctet (conversion.toInt o.snd.snd.snd) old.fourth

theorem taken_inRange (conversion : IntConversion) (o : Int × Int × Int × Int) {old : Octets}
    (h : InRange old)
    : InRange (taken conversion o old) := by
  constructor
  . exact takeOctet_le _ h.first
  . exact takeOctet_le _ h.second
  . exact takeOctet_le _ h.third
  . exact takeOctet_le _ h.fourth

theorem dotted_take {octets : Octets} (h : InRange octets) : (dotted octets).take 63 = dotted octets := by
  apply List.take_of_length_le
  apply length_dotted h.first h.second h.third h.fourth

/- The three ways through the function. -/

theorem setTargetIp_of_empty {conversion : IntConversion} {s : Settings} {str : List UInt8}
    (h : cstr str = [])
    : setTargetIp conversion s str = s := by
  unfold setTargetIp
  dsimp only
  rw [h]
  rfl

theorem setTargetIp_of_none {conversion : IntConversion} {s : Settings} {str : List UInt8}
    (hne : cstr str ≠ []) (h : enteredNumbers (cstr str) = none)
    : setTargetIp conversion s str = { s with targetIpStr := (cstr str).take 63 } := by
  unfold setTargetIp
  dsimp only
  rw [if_neg (by simpa using hne), scanOctets_eq, h]
  rfl

theorem setTargetIp_of_some {conversion : IntConversion} {s : Settings} {str : List UInt8}
    {o : Int × Int × Int × Int} (hrange : InRange s.ipOctets) (h : enteredNumbers (cstr str) = some o)
    : setTargetIp conversion s str
        =
      { s with
        ipOctets := taken conversion o s.ipOctets
        targetIpStr := dotted (taken conversion o s.ipOctets) } := by
  have hne : cstr str ≠ [] := by
    intro hnil
    rw [hnil] at h
    contradiction
  have htake := dotted_take (taken_inRange conversion o hrange)
  unfold setTargetIp
  dsimp only
  rw [if_neg (by simpa using hne), scanOctets_eq, h]
  dsimp only [Option.map_some, stored]
  rw [← taken, htake]

/-
The address that any calls leave: the octets, or a text that is not taken for four numbers.
-/
structure Known (s : Settings) : Prop where
  inRange : InRange s.ipOctets
  target : s.targetIpStr = dotted s.ipOctets
    ∨ s.targetIpStr ≠ [] ∧ cstr s.targetIpStr = s.targetIpStr ∧ s.targetIpStr.length ≤ 63
      ∧ enteredNumbers s.targetIpStr = none

theorem cstr_take_cstr (str : List UInt8) (n : Nat) : cstr ((cstr str).take n) = (cstr str).take n := by
  apply Handshake.cstr_eq_self
  intro c hc
  simpa using List.mem_takeWhile_imp (List.mem_of_mem_take hc)

theorem Known.setTargetIp (conversion : IntConversion) {s : Settings} (str : List UInt8) (h : Known s)
    : Known (setTargetIp conversion s str) := by
  by_cases hempty : cstr str = []
  . rw [setTargetIp_of_empty hempty]
    exact h
  . cases hentered : enteredNumbers (cstr str) with
    | none =>
      rw [setTargetIp_of_none hempty hentered]
      refine ⟨h.inRange, Or.inr ⟨?_, cstr_take_cstr str 63, ?_, enteredNumbers_take 63 hentered⟩⟩
      . simpa using hempty
      . rw [List.length_take]
        omega
    | some o =>
      rw [setTargetIp_of_some h.inRange hentered]
      exact ⟨taken_inRange conversion o h.inRange, Or.inl rfl⟩

theorem known_afterCalls (conversion : IntConversion) (s : Settings) (calls : List (List UInt8))
    : Known (afterCalls conversion s calls) := by
  have hcalls : ∀ t, Known t → Known (calls.foldl (Ui.setTargetIp conversion) t) := by
    induction calls with
    | nil =>
      intro t ht
      exact ht
    | cons str calls ih =>
      intro t ht
      exact ih _ (ht.setTargetIp conversion str)
  have hrange : InRange defaultSettings.ipOctets := by
    constructor <;> decide
  have htarget : defaultSettings.targetIpStr = dotted defaultSettings.ipOctets := by
    decide
  apply hcalls
  exact ⟨hrange, Or.inl htarget⟩

/-
Four octets in a text are read as they are.
-/

def exactConversion : IntConversion where
  toInt n := n
  toInt_eq := by
    intro n _ _
    rfl

theorem enteredNumbers_dotted {octets : Octets} (h : InRange octets)
    : enteredNumbers (dotted octets) = some (numbers octets) := by
  have hscan := scanOctets_dotted exactConversion h.first h.second h.third h.fourth
  rw [scanOctets_eq] at hscan
  have ⟨o, ho, hstored⟩ := Option.map_eq_some_iff.mp hscan
  have heq : o = numbers octets := hstored
  rw [ho, heq]

theorem numbers_injective {first second : Octets} (h : numbers first = numbers second)
    : first = second := by
  rcases first with ⟨a, b, c, d⟩
  rcases second with ⟨a', b', c', d'⟩
  simpa [numbers] using h

theorem dotted_injective {first second : Octets} (hfirst : InRange first) (hsecond : InRange second)
    (h : dotted first = dotted second)
    : first = second := by
  have hnumbers := enteredNumbers_dotted hfirst
  rw [h, enteredNumbers_dotted hsecond, Option.some.injEq] at hnumbers
  exact numbers_injective hnumbers.symm

theorem cstr_dotted (octets : Octets) : cstr (dotted octets) = dotted octets := by
  apply Handshake.cstr_eq_self
  intro c hc hzero
  cases mem_dotted octets c hc with
  | inl hdigit =>
    rw [hzero] at hdigit
    contradiction
  | inr hdot =>
    rw [hzero] at hdot
    contradiction

theorem taken_numbers (conversion : IntConversion) {octets : Octets} (old : Octets) (h : InRange octets)
    : taken conversion (numbers octets) old = octets := by
  have hint : ∀ n : Nat, n ≤ 255 → conversion.toInt n = n := by
    intro n hn
    apply conversion.toInt_eq
    . omega
    . omega
  rcases octets with ⟨a, b, c, d⟩
  simp only [taken, numbers, hint _ h.first, hint _ h.second, hint _ h.third, hint _ h.fourth,
    takeOctet_octet _ h.first, takeOctet_octet _ h.second, takeOctet_octet _ h.third,
    takeOctet_octet _ h.fourth]

theorem takeOctet_eq_iff (o : Int) (old : Nat)
    : takeOctet o old = old ↔ ¬(0 ≤ o ∧ o ≤ 255) ∨ o = old := by
  unfold takeOctet
  split
  . omega
  . next hout =>
    constructor
    . intro _
      exact Or.inl hout
    . intro _
      rfl

theorem taken_eq_iff (conversion : IntConversion) (o : Int × Int × Int × Int) (old : Octets)
    : taken conversion o old = old
        ↔
      keepsOctet conversion o.fst old.first ∧ keepsOctet conversion o.snd.fst old.second
        ∧ keepsOctet conversion o.snd.snd.fst old.third
        ∧ keepsOctet conversion o.snd.snd.snd old.fourth := by
  rcases old with ⟨a, b, c, d⟩
  simp only [taken, Octets.mk.injEq, takeOctet_eq_iff, keepsOctet]

/- The address is taken over as it is. -/
theorem setTargetIp_self (conversion : IntConversion) {s : Settings} (h : Known s)
    : setTargetIp conversion s s.targetIpStr = s := by
  cases h.target with
  | inl hdotted =>
    have hentered : enteredNumbers (cstr s.targetIpStr) = some (numbers s.ipOctets) := by
      rw [hdotted, cstr_dotted, enteredNumbers_dotted h.inRange]
    rw [setTargetIp_of_some h.inRange hentered, taken_numbers conversion _ h.inRange, ← hdotted]
  | inr hname =>
    have ⟨hne, hcstr, hlength, hnone⟩ := hname
    rw [setTargetIp_of_none (by rw [hcstr]; exact hne) (by rw [hcstr]; exact hnone), hcstr,
      List.take_of_length_le hlength]

/- Four numbers that are not four octets leave the address only if it is the one of four octets. -/
theorem target_of_some_iff (conversion : IntConversion) {s : Settings} {str : List UInt8}
    {o : Int × Int × Int × Int} (h : Known s) (ho : enteredNumbers (cstr str) = some o)
    : (setTargetIp conversion s str).targetIpStr = s.targetIpStr ↔ Repeats conversion s o := by
  have hrange := taken_inRange conversion o h.inRange
  rw [setTargetIp_of_some h.inRange ho]
  dsimp only
  constructor
  . intro hsame
    cases h.target with
    | inl hdotted =>
      rw [hdotted] at hsame
      have hkept := dotted_injective hrange h.inRange hsame
      rw [taken_eq_iff] at hkept
      exact ⟨hdotted, hkept.left, hkept.right.left, hkept.right.right.left, hkept.right.right.right⟩
    | inr hname =>
      have hnone := hname.right.right.right
      rw [← hsame, enteredNumbers_dotted hrange] at hnone
      contradiction
  . intro hrepeats
    have hkept : taken conversion o s.ipOctets = s.ipOctets := by
      rw [taken_eq_iff]
      exact ⟨hrepeats.first, hrepeats.second, hrepeats.third, hrepeats.fourth⟩
    rw [hkept, hrepeats.dotted]

theorem cstr_eq_of_take_eq_dotted {str : List UInt8} {octets : Octets} (h : InRange octets)
    (htake : dotted octets = (cstr str).take 63)
    : cstr str = dotted octets := by
  have hlength := congrArg List.length htake
  have hshort := length_dotted_le h.first h.second h.third h.fourth
  rw [List.length_take] at hlength
  rw [htake, List.take_of_length_le (by omega)]

theorem setTargetIp_neverMixed_iff (conversion : IntConversion) (s : Settings)
    (calls : List (List UInt8)) (str : List UInt8)
    : NeverMixed conversion (afterCalls conversion s calls) str
        ↔
      Meets conversion (afterCalls conversion s calls) str := by
  have hknown := known_afterCalls conversion s calls
  generalize afterCalls conversion s calls = s at hknown
  constructor
  . intro hnever o ho
    rcases hnever.target with hsame | ⟨octets, hrange, hentered, _⟩ | htext
    . exact Or.inr ((target_of_some_iff conversion hknown ho).mp hsame)
    . rw [ho, Option.some.injEq] at hentered
      exact Or.inl ⟨octets, hrange, hentered⟩
    . have hrange := taken_inRange conversion o hknown.inRange
      rw [setTargetIp_of_some hknown.inRange ho] at htext
      rw [cstr_eq_of_take_eq_dotted hrange htext, enteredNumbers_dotted hrange,
        Option.some.injEq] at ho
      exact Or.inl ⟨_, hrange, ho.symm⟩
  . intro hmeets
    refine ⟨?_, setTargetIp_self conversion (hknown.setTargetIp conversion str)⟩
    by_cases hempty : cstr str = []
    . left
      rw [setTargetIp_of_empty hempty]
    . cases hentered : enteredNumbers (cstr str) with
      | none =>
        right
        right
        rw [setTargetIp_of_none hempty hentered]
      | some o =>
        cases hmeets o hentered with
        | inl hoctets =>
          obtain ⟨octets, hrange, ho⟩ := hoctets
          right
          left
          rw [ho] at hentered
          refine ⟨octets, hrange, by rw [ho], ?_⟩
          rw [setTargetIp_of_some hknown.inRange hentered, taken_numbers conversion _ hrange]
        | inr hrepeats =>
          left
          exact (target_of_some_iff conversion hknown hentered).mpr hrepeats

/- An octet of the address before it is left behind the new ones. -/
theorem setTargetIp_mixes
    : ¬NeverMixed exactConversion (afterCalls exactConversion defaultSettings [])
        (ascii "10.0.0.999") := by
  intro hnever
  have hresult : (setTargetIp exactConversion (afterCalls exactConversion defaultSettings [])
      (ascii "10.0.0.999")).targetIpStr = ascii "10.0.0.1" := by
    decide
  have hentered : enteredNumbers (cstr (ascii "10.0.0.999")) = some ⟨10, 0, 0, 999⟩ := by
    decide
  rcases hnever.target with hsame | ⟨octets, hrange, hoctets, _⟩ | htext
  . rw [hresult] at hsame
    contradiction
  . rw [hentered, Option.some.injEq] at hoctets
    have hfourth := congrArg (fun o => o.snd.snd.snd) hoctets
    have hle := hrange.fourth
    simp only [numbers] at hfourth
    omega
  . rw [hresult] at htext
    contradiction

end TargetIp
end Ui

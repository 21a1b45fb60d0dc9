import PS3Moonlight.Handshake.Text
import PS3Moonlight.Lib.Decimal

/-!
This module contains the two kinds of requests of `handshake.c`, plain HTTP and HTTPS, as functions of
what the socket calls answer. A request that fails has no response.
-/

namespace Handshake

def maxHttpResponseSize : Nat := 1024 * 1024

def sunshineHttpPort : List UInt8 := ascii "47989"

def sunshineHttpsPort : List UInt8 := ascii "47984"

structure HandshakeInfo where
  address : List UInt8
  uniqueId : List UInt8

/-
What `sscanf` and `atoi` store for a number, which the C library only says for the numbers that fit
into an `int`.
-/
structure IntConversion where
  toInt : Int → Int
  toInt_eq : ∀ n, -2 ^ 31 ≤ n → n < 2 ^ 31 → toInt n = n

/- The last 32 bits are kept. -/
def wrapping : IntConversion where
  toInt n := n.bmod (2 ^ 32)
  toInt_eq := by
    intro n hlow hhigh
    exact Int.bmod_eq_of_le (by omega) (by omega)

/- What one `recv` or `ssl_read` gives, and whether `realloc` has room for it. -/
inductive Recv where
  | data (bytes : List UInt8) (realloc : Bool)
  | close
  | error

def isSpace (c : UInt8) : Bool :=
  c == 32 || (9 ≤ c && c ≤ 13)

def isDigit (c : UInt8) : Bool :=
  48 ≤ c && c ≤ 57

/- A number as `%d` and `%u` of `sscanf` read it, and what stands behind it. -/
def scanNumber (text : List UInt8) : Option (Int × List UInt8) :=
  let text := text.dropWhile isSpace
  let negative := text.head? == some 45
  let text := if negative || text.head? == some 43 then text.drop 1 else text
  let digits := text.takeWhile isDigit
  let value : Nat := digits.foldl (fun n c => n * 10 + (c.toNat - 48)) 0
  if digits.isEmpty then
    none
  else
    some ⟨if negative then -value else value, text.drop digits.length⟩

def scanLiteral (text literal : List UInt8) : Option (List UInt8) :=
  if literal.isPrefixOf text then some (text.drop literal.length) else none

/- The status of `HTTP/%*u.%*u %d`. -/
def scanStatus (conversion : IntConversion) (text : List UInt8) : Option Int := do
  let text ← scanLiteral text (ascii "HTTP/")
  let ⟨_, text⟩ ← scanNumber text
  let text ← scanLiteral text (ascii ".")
  let ⟨_, text⟩ ← scanNumber text
  let ⟨status, _⟩ ← scanNumber text
  return conversion.toInt status

def httpResponseOk (conversion : IntConversion) (response : List UInt8) : Bool :=
  match scanStatus conversion (cstr response) with
  | none => false
  | some status => 200 ≤ status && status < 300

def appendString (s data : List UInt8) (realloc : Bool) : Option (List UInt8) :=
  if maxHttpResponseSize - s.length < data.length || !realloc then none else some (s ++ data)

/-
The loop over `recv`, which any answer but data ends. A peer that says nothing more runs into the
timeout of the socket, which is an answer too.
-/
def recvLoop (response : List UInt8) (recv : List Recv) : Option (List UInt8) :=
  match recv with
  | .data bytes realloc :: recv =>
    match appendString response bytes realloc with
    | none => none
    | some response => recvLoop response recv
  | _ => some response

/- The loop over `send`, the list has what the calls return. -/
def sendLoop (requestLen written : Nat) (send : List Int) : Bool :=
  if requestLen ≤ written then
    true
  else
    match send with
    | [] => false
    | ret :: send => if ret ≤ 0 then false else sendLoop requestLen (written + ret.toNat) send

def requestText (info : HandshakeInfo) (urlPath port : List UInt8) : List UInt8 :=
  ascii "GET " ++ urlPath ++ ascii " HTTP/1.1\r\nHost: " ++ info.address ++ ascii ":" ++ port
    ++ ascii "\r\nUser-Agent: Moonlight-PS3\r\nConnection: close\r\n\r\n"

/- What the socket calls of one request answer, and what is stored for the numbers of its response. -/
structure HttpIo where
  socket : Bool
  inetPton : Bool
  connectWithCancel : Bool
  send : List Int
  recv : List Recv
  conversion : IntConversion

/- Sending the request and receiving the response, which both kinds of requests do alike. -/
def exchange (request : List UInt8) (send : List Int) (recv : List Recv)
    (conversion : IntConversion) : Option (List UInt8) :=
  if 4096 ≤ request.length then
    none
  else if sendLoop request.length 0 send then
    match recvLoop [] recv with
    | none => none
    | some response => if httpResponseOk conversion response then some response else none
  else
    none

def ps3HttpRequest (info : HandshakeInfo) (urlPath : List UInt8) (io : HttpIo)
    : Option (List UInt8) :=
  if io.socket && io.inetPton && io.connectWithCancel then
    exchange (requestText info urlPath sunshineHttpPort) io.send io.recv io.conversion
  else
    none

/- A digit is neither a blank nor a sign. -/
theorem of_isDigit {c : UInt8} (h : Decimal.isDigit c = true)
    : isSpace c = false ∧ c ≠ 45 ∧ c ≠ 43 := by
  simp only [Decimal.isDigit, isSpace, Bool.and_eq_true, decide_eq_true_eq, Bool.or_eq_false_iff,
    beq_eq_false_iff_ne, Bool.and_eq_false_iff, decide_eq_false_iff_not, ne_eq, ← UInt8.toNat_inj,
    UInt8.le_iff_toNat_le, UInt8.reduceToNat] at h ⊢
  omega

theorem takeWhile_digits {digits rest : List UInt8} (hdigits : ∀ c, c ∈ digits → isDigit c = true)
    (hrest : ∀ c, rest.head? = some c → isDigit c = false)
    : (digits ++ rest).takeWhile isDigit = digits := by
  rw [List.takeWhile_append_of_pos hdigits]
  cases rest with
  | nil => simp
  | cons c rest =>
    rw [List.takeWhile_cons_of_neg]
    . simp
    . simp [hrest c rfl]

/- Digits are read as far as they go, with or without a minus sign in front of them. -/

theorem scanNumber_digits {digits rest : List UInt8} (hne : digits ≠ [])
    (hdigits : ∀ c, c ∈ digits → isDigit c = true)
    (hrest : ∀ c, rest.head? = some c → isDigit c = false)
    : scanNumber (digits ++ rest) = some ⟨Decimal.value digits, rest⟩ := by
  have htake := takeWhile_digits hdigits hrest
  cases digits with
  | nil => contradiction
  | cons c digits =>
    have ⟨hspace, hminus, hplus⟩ := of_isDigit (hdigits c (by simp))
    rw [List.cons_append] at htake ⊢
    unfold scanNumber
    rw [List.dropWhile_cons_of_neg (by simp [hspace])]
    simp only [List.head?_cons, Option.some_beq_some, beq_eq_false_iff_ne.mpr hminus,
      beq_eq_false_iff_ne.mpr hplus, Bool.or_self, Bool.false_eq_true, ↓reduceIte, htake,
      List.isEmpty_cons, List.length_cons, List.drop_succ_cons, List.drop_left]
    rfl

theorem scanNumber_minus {digits rest : List UInt8} (hne : digits ≠ [])
    (hdigits : ∀ c, c ∈ digits → isDigit c = true)
    (hrest : ∀ c, rest.head? = some c → isDigit c = false)
    : scanNumber (45 :: (digits ++ rest)) = some ⟨-Decimal.value digits, rest⟩ := by
  have hempty : digits.isEmpty = false := by simpa using hne
  unfold scanNumber
  rw [List.dropWhile_cons_of_neg (by decide)]
  simp only [List.head?_cons, BEq.rfl, Bool.true_or, if_true, List.drop_succ_cons, List.drop_zero,
    takeWhile_digits hdigits hrest, hempty, Bool.false_eq_true, if_false, List.drop_left]
  rfl

/- A number that is not negative is read back, together with what stands behind it. -/
theorem scanNumber_text (n : Nat) {rest : List UInt8}
    (hrest : ∀ c, rest.head? = some c → isDigit c = false)
    : scanNumber (Decimal.text n ++ rest) = some ⟨n, rest⟩ := by
  rw [scanNumber_digits (Decimal.text_ne_nil n) (Decimal.isDigit_text n) hrest, Decimal.value_text]

end Handshake

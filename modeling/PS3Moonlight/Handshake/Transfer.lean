import PS3Moonlight.Lib.Bytes
import PS3Moonlight.Handshake.TrustStore

/-!
This module contains the two kinds of requests once more, with their loops over the answers of the
socket or the TLS library as they are written and with the buffer of the response in memory. They
refine the requests that only speak about the response. Both of them take any answer that is not
positive for the end of the response.
-/

namespace Handshake
namespace Transfer

variable {κ : Type}

/- `struct string`: the block of memory behind `ptr`, and `len`. -/
structure HttpString where
  ptr : Option (List UInt8)
  len : Nat
  len_le : len ≤ maxHttpResponseSize
  null : ptr = none → len = 0
  terminated : ∀ mem, ptr = some mem → mem.length = len + 1 ∧ mem.getLast? = some 0

def initString : HttpString where
  ptr := none
  len := 0
  len_le := by decide
  null := fun _ => rfl
  terminated := by simp

def HttpString.content (s : HttpString) : List UInt8 :=
  (s.ptr.getD []).take s.len

/- `realloc` keeps what fits of the old block, the rest of the new one is whatever the heap has there. -/
def resize (old : List UInt8) (size : Nat) (heap : List UInt8) : List UInt8 :=
  (old ++ heap ++ List.replicate size 0).take size

theorem length_resize (old : List UInt8) (size : Nat) (heap : List UInt8)
    : (resize old size heap).length = size := by
  rw [resize, List.length_take, List.length_append, List.length_replicate]
  omega

theorem take_resize (old : List UInt8) {size n : Nat} (heap : List UInt8) (hold : n ≤ old.length)
    (hsize : n ≤ size)
    : (resize old size heap).take n = old.take n := by
  rw [resize, List.take_take, Nat.min_eq_left hsize, List.append_assoc,
    List.take_append_of_le_length hold]

/- The block after `memcpy` and the write of the terminator. -/
def appendedBlock (s : HttpString) (data heap : List UInt8) : List UInt8 :=
  let newLen := s.len + data.length
  Bytes.write (Bytes.write (resize (s.ptr.getD []) (newLen + 1) heap) s.len data) newLen [0]

theorem write_terminated {mem : List UInt8} (data : List UInt8) {len : Nat}
    (h : mem.length = len + data.length + 1)
    : Bytes.write (Bytes.write mem len data) (len + data.length) [0]
        =
      mem.take len ++ data ++ [0] := by
  have hlength : (Bytes.write mem len data).length = len + data.length + 1 := by
    rw [Bytes.length_write (by omega), h]
  rw [Bytes.write, Bytes.take_write data (by omega), List.drop_eq_nil_of_le, List.append_nil]
  rw [hlength]
  exact Nat.le_refl _

theorem len_le_block (s : HttpString) : s.len ≤ (s.ptr.getD []).length := by
  cases h : s.ptr with
  | none => simp [s.null h]
  | some mem =>
    have hmem := (s.terminated mem h).left
    rw [Option.getD_some]
    omega

theorem appendedBlock_eq (s : HttpString) (data heap : List UInt8)
    : appendedBlock s data heap = s.content ++ data ++ [0] := by
  rw [appendedBlock, write_terminated data (length_resize _ _ _),
    take_resize _ _ (len_le_block s) (by omega)]
  rfl

theorem length_content (s : HttpString) : s.content.length = s.len := by
  rw [HttpString.content, List.length_take]
  exact Nat.min_eq_left (len_le_block s)

/- A block is its content and the terminator. -/
theorem ptr_eq_some {s : HttpString} {mem : List UInt8} (h : s.ptr = some mem)
    : mem = s.content ++ [0] := by
  have ⟨hlength, hlast⟩ := s.terminated mem h
  have hcontent : s.content = mem.dropLast := by
    rw [HttpString.content, h, Option.getD_some, List.dropLast_eq_take]
    congr 1
    omega
  rw [hcontent]
  exact (List.dropLast_append_getLast? 0 (by rw [hlast]; rfl)).symm

theorem append_len_le {s : HttpString} {data : List UInt8}
    (h : ¬maxHttpResponseSize - s.len < data.length)
    : s.len + data.length ≤ maxHttpResponseSize := by
  have hle := s.len_le
  omega

theorem appendedBlock_terminated (s : HttpString) (data heap : List UInt8)
    : ∀ mem, some (appendedBlock s data heap) = some mem
      → mem.length = s.len + data.length + 1 ∧ mem.getLast? = some 0 := by
  intro mem hmem
  rw [Option.some.injEq, appendedBlock_eq] at hmem
  rw [← hmem, List.length_append, List.length_append, length_content]
  exact ⟨rfl, by simp⟩

def HttpString.appendString (s : HttpString) (data : List UInt8) (realloc : Option (List UInt8))
    : Option HttpString :=
  if h : maxHttpResponseSize - s.len < data.length then
    none
  else
    match realloc with
    | none => none
    | some heap => some {
        ptr := some (appendedBlock s data heap)
        len := s.len + data.length
        len_le := append_len_le h
        null := fun h => absurd h (Option.some_ne_none _)
        terminated := appendedBlock_terminated s data heap
      }

/- What one call of `recv` or `ssl_read` gives, and the new block of `realloc` if there is one. -/
inductive RecvAnswer where
  | data (bytes : { bytes : List UInt8 // bytes ≠ [] }) (realloc : Option (List UInt8))
  | close
  | error

/- `POLARSSL_ERR_NET_WANT_READ`, `POLARSSL_ERR_NET_WANT_WRITE` or anything else. -/
inductive SslAnswer (α : Type) where
  | wantRead
  | wantWrite
  | done (answer : α)

/-
The lists have what the calls answer one after the other, behind them every call fails. A loop that
comes to an end has only taken finitely many answers.
-/

def recvLoop (s : HttpString) (recv : List RecvAnswer) : Option HttpString :=
  match recv with
  | .data bytes realloc :: recv =>
    match s.appendString bytes.val realloc with
    | none => none
    | some s => recvLoop s recv
  | _ => some s

def sslHandshakeLoop (sslHandshake : List (SslAnswer Bool)) : Bool :=
  match sslHandshake with
  | .done ok :: _ => ok
  | .wantRead :: sslHandshake => sslHandshakeLoop sslHandshake
  | .wantWrite :: sslHandshake => sslHandshakeLoop sslHandshake
  | [] => false

def sslWriteLoop (requestLen written : Nat) (sslWrite : List (SslAnswer Int)) : Bool :=
  if requestLen ≤ written then
    true
  else
    match sslWrite with
    | [] => false
    | .wantRead :: sslWrite => sslWriteLoop requestLen written sslWrite
    | .wantWrite :: sslWrite => sslWriteLoop requestLen written sslWrite
    | .done ret :: sslWrite =>
      if ret ≤ 0 then false else sslWriteLoop requestLen (written + ret.toNat) sslWrite

/- Whether the loop breaks out instead of going to the cleanup, and the response so far. -/
def sslReadLoop (s : HttpString) (sslRead : List (SslAnswer RecvAnswer)) : Bool × HttpString :=
  match sslRead with
  | .wantRead :: sslRead => sslReadLoop s sslRead
  | .wantWrite :: sslRead => sslReadLoop s sslRead
  | .done (.data bytes realloc) :: sslRead =>
    match s.appendString bytes.val realloc with
    | none => ⟨false, s⟩
    | some s => sslReadLoop s sslRead
  | _ => ⟨true, s⟩

def HttpString.responseOk (conversion : IntConversion) (s : HttpString) : Bool :=
  match s.ptr with
  | none => false
  | some mem => httpResponseOk conversion mem

structure HttpCalls where
  socket : Bool
  inetPton : Bool
  connectWithCancel : Bool
  send : List Int
  recv : List RecvAnswer
  conversion : IntConversion

def ps3HttpRequest (info : HandshakeInfo) (urlPath : List UInt8) (io : HttpCalls)
    : Int × HttpString :=
  let request := requestText info urlPath sunshineHttpPort
  if !io.socket then ⟨-1, initString⟩
  else if !io.inetPton then ⟨-1, initString⟩
  else if !io.connectWithCancel then ⟨-1, initString⟩
  else if 4096 ≤ request.length then ⟨-1, initString⟩
  else if !sendLoop request.length 0 io.send then ⟨-1, initString⟩
  else
    match recvLoop initString io.recv with
    | none => ⟨-1, initString⟩
    | some response =>
      if response.responseOk io.conversion then ⟨0, response⟩ else ⟨-1, initString⟩

structure HttpsCalls (κ : Type) where
  ctrDrbgInit : Bool
  clientCredentials : Bool
  socket : Bool
  inetPton : Bool
  connectWithCancel : Bool
  sslInit : Bool
  sslHandshake : List (SslAnswer Bool)
  peerCertificate : Option κ
  fopen : Bool
  sslWrite : List (SslAnswer Int)
  sslRead : List (SslAnswer RecvAnswer)
  conversion : IntConversion

/- Everything up to the certificate of the host. -/
def connectHttps (ssl : PolarSsl κ) (io : HttpsCalls κ) (store : TrustStore) : Bool :=
  io.ctrDrbgInit && io.clientCredentials && io.socket && io.inetPton && io.connectWithCancel
    && io.sslInit && sslHandshakeLoop io.sslHandshake
    && verifyServerFingerprint ssl io.peerCertificate io.fopen store

/- Whether the body gets to its end, and the response at the label `cleanup`. -/
def httpsBody (ssl : PolarSsl κ) (info : HandshakeInfo) (urlPath : List UInt8) (io : HttpsCalls κ)
    (store : TrustStore) : Bool × HttpString :=
  let request := requestText info urlPath sunshineHttpsPort
  if !connectHttps ssl io store then ⟨false, initString⟩
  else if 4096 ≤ request.length then ⟨false, initString⟩
  else if !sslWriteLoop request.length 0 io.sslWrite then ⟨false, initString⟩
  else
    let response := sslReadLoop initString io.sslRead
    ⟨response.fst && response.snd.responseOk io.conversion, response.snd⟩

def ps3HttpsRequest (ssl : PolarSsl κ) (info : HandshakeInfo) (urlPath : List UInt8)
    (io : HttpsCalls κ) (store : TrustStore) : Int × HttpString :=
  let body := httpsBody ssl info urlPath io store
  if body.fst then ⟨0, body.snd⟩ else ⟨-1, initString⟩

/- The answers but those that ask for the same call again. -/
def answered {α : Type} (answers : List (SslAnswer α)) : List α :=
  match answers with
  | [] => []
  | .wantRead :: answers => answered answers
  | .wantWrite :: answers => answered answers
  | .done a :: answers => a :: answered answers

theorem sslWriteLoop_eq (requestLen written : Nat) (sslWrite : List (SslAnswer Int))
    : sslWriteLoop requestLen written sslWrite = sendLoop requestLen written (answered sslWrite) := by
  induction sslWrite generalizing written with
  | nil => rfl
  | cons answer sslWrite ih =>
    -- The check of the loop comes before the call, so it is made again after a call that is repeated.
    have hagain : (if requestLen ≤ written then true
          else sendLoop requestLen written (answered sslWrite))
        = sendLoop requestLen written (answered sslWrite) := by
      split
      . next h => rw [sendLoop.eq_def, if_pos h]
      . rfl
    rw [sslWriteLoop.eq_def]
    cases answer with
    | wantRead =>
      dsimp only
      rw [ih, hagain]
      rfl
    | wantWrite =>
      dsimp only
      rw [ih, hagain]
      rfl
    | done ret =>
      rw [answered, sendLoop]
      simp only [ih]

theorem sslReadLoop_eq (s : HttpString) (sslRead : List (SslAnswer RecvAnswer))
    : recvLoop s (answered sslRead)
        =
      if (sslReadLoop s sslRead).fst then some (sslReadLoop s sslRead).snd else none := by
  induction sslRead generalizing s with
  | nil => rfl
  | cons answer sslRead ih =>
    cases answer with
    | wantRead => exact ih s
    | wantWrite => exact ih s
    | done answer =>
      cases answer with
      | data bytes realloc =>
        rw [answered, recvLoop, sslReadLoop]
        cases h : s.appendString bytes.val realloc with
        | none => rfl
        | some t => exact ih t
      | close => rfl
      | error => rfl

/- What both kinds of requests do behind the connection. -/
def transfer (request : List UInt8) (send : List Int) (recv : List RecvAnswer)
    (conversion : IntConversion) : Int × HttpString :=
  if 4096 ≤ request.length then ⟨-1, initString⟩
  else if !sendLoop request.length 0 send then ⟨-1, initString⟩
  else
    match recvLoop initString recv with
    | none => ⟨-1, initString⟩
    | some response =>
      if response.responseOk conversion then ⟨0, response⟩ else ⟨-1, initString⟩

def HttpCalls.connected (io : HttpCalls) : Bool :=
  io.socket && io.inetPton && io.connectWithCancel

theorem ps3HttpRequest_eq (info : HandshakeInfo) (urlPath : List UInt8) (io : HttpCalls)
    : ps3HttpRequest info urlPath io
        =
      if io.connected then
        transfer (requestText info urlPath sunshineHttpPort) io.send io.recv io.conversion
      else ⟨-1, initString⟩ := by
  unfold ps3HttpRequest transfer HttpCalls.connected
  cases io.socket <;> cases io.inetPton <;> cases io.connectWithCancel <;> rfl

theorem ps3HttpsRequest_eq (ssl : PolarSsl κ) (info : HandshakeInfo) (urlPath : List UInt8)
    (io : HttpsCalls κ) (store : TrustStore)
    : ps3HttpsRequest ssl info urlPath io store
        =
      if connectHttps ssl io store then
        transfer (requestText info urlPath sunshineHttpsPort) (answered io.sslWrite)
          (answered io.sslRead) io.conversion
      else ⟨-1, initString⟩ := by
  unfold ps3HttpsRequest httpsBody transfer
  rw [← sslWriteLoop_eq, sslReadLoop_eq]
  generalize requestText info urlPath sunshineHttpsPort = request
  cases connectHttps ssl io store with
  | false => rfl
  | true =>
    by_cases hlength : 4096 ≤ request.length
    . simp [hlength]
    . cases hwrite : sslWriteLoop request.length 0 io.sslWrite with
      | false => simp [hwrite]
      | true =>
        simp only [hlength, if_false, hwrite, Bool.not_true, Bool.false_eq_true, if_true]
        cases (sslReadLoop initString io.sslRead).fst with
        | false => rfl
        | true => rfl

/- What the answers say. -/

/- How much of the request the calls take. -/
def accepted (send : List Int) : Nat :=
  match send with
  | [] => 0
  | ret :: send => if ret ≤ 0 then 0 else ret.toNat + accepted send

/- All chunks up to the answer that is not positive. -/
def received (recv : List RecvAnswer) : List UInt8 :=
  match recv with
  | .data bytes _ :: recv => bytes.val ++ received recv
  | _ => []

def allocated (recv : List RecvAnswer) : Bool :=
  match recv with
  | .data _ realloc :: recv => realloc.isSome && allocated recv
  | _ => true

/- Whether the first answer that is not positive is zero. -/
def endsOrderly (recv : List RecvAnswer) : Bool :=
  match recv with
  | .data _ _ :: recv => endsOrderly recv
  | .close :: _ => true
  | _ => false

theorem sendLoop_eq (requestLen written : Nat) (send : List Int)
    : sendLoop requestLen written send = decide (requestLen ≤ written + accepted send) := by
  induction send generalizing written with
  | nil =>
    rw [sendLoop, accepted]
    simp
  | cons ret send ih =>
    rw [sendLoop, accepted]
    by_cases hle : requestLen ≤ written
    . have hsum : ∀ n, requestLen ≤ written + n := by omega
      simp [hle, hsum]
    . rw [if_neg hle]
      split
      . simp [hle]
      . rw [ih, Nat.add_assoc]

theorem appendString_eq_some {s t : HttpString} {data : List UInt8} {realloc : Option (List UInt8)}
    (h : s.appendString data realloc = some t)
    : realloc.isSome = true ∧ t.content = s.content ++ data := by
  unfold HttpString.appendString at h
  split at h
  . contradiction
  . split at h
    . contradiction
    . next heap =>
      rw [Option.some.injEq] at h
      refine ⟨rfl, ?_⟩
      have hblock := appendedBlock_eq s data heap
      rw [← h, HttpString.content, Option.getD_some]
      dsimp only
      rw [hblock]
      apply List.take_left'
      rw [List.length_append, length_content]

theorem appendString_eq_none_iff (s : HttpString) (data : List UInt8)
    (realloc : Option (List UInt8))
    : s.appendString data realloc = none
        ↔
      realloc.isSome = false ∨ maxHttpResponseSize < s.len + data.length := by
  have hle := s.len_le
  unfold HttpString.appendString
  split
  . next h =>
    have hlt : maxHttpResponseSize < s.len + data.length := by omega
    simp [hlt]
  . next h =>
    have hge : ¬maxHttpResponseSize < s.len + data.length := by omega
    cases realloc <;> simp [hge]

/- The loop collects all chunks, unless they do not fit. -/
theorem recvLoop_spec (s : HttpString) (recv : List RecvAnswer)
    : match recvLoop s recv with
      | none => allocated recv = false ∨ maxHttpResponseSize < s.len + (received recv).length
      | some t => t.content = s.content ++ received recv ∧ allocated recv = true := by
  induction recv generalizing s with
  | nil => exact ⟨(List.append_nil _).symm, rfl⟩
  | cons answer recv ih =>
    cases answer with
    | close => exact ⟨(List.append_nil _).symm, rfl⟩
    | error => exact ⟨(List.append_nil _).symm, rfl⟩
    | data bytes realloc =>
      rw [recvLoop, received, allocated]
      cases happend : s.appendString bytes.val realloc with
      | none =>
        rw [appendString_eq_none_iff] at happend
        rw [List.length_append]
        cases happend with
        | inl hrealloc =>
          rw [hrealloc]
          exact Or.inl rfl
        | inr hlt => exact Or.inr (by omega)
      | some t =>
        have ⟨hrealloc, hcontent⟩ := appendString_eq_some happend
        have hlen : t.len = s.len + bytes.val.length := by
          rw [← length_content t, hcontent, List.length_append, length_content]
        have hrest := ih t
        rw [hrealloc, Bool.true_and, List.length_append, ← Nat.add_assoc, ← hlen,
          ← List.append_assoc, ← hcontent]
        exact hrest

theorem recvLoop_eq_some_iff (recv : List RecvAnswer)
    : (∃ t, recvLoop initString recv = some t)
        ↔
      allocated recv = true ∧ (received recv).length ≤ maxHttpResponseSize := by
  have hspec := recvLoop_spec initString recv
  have hlen : initString.len = 0 := by rfl
  rw [hlen] at hspec
  cases h : recvLoop initString recv with
  | none =>
    rw [h] at hspec
    dsimp only at hspec
    constructor
    . intro hsome
      obtain ⟨t, ht⟩ := hsome
      contradiction
    . intro hfits
      cases hspec with
      | inl hrealloc => rw [hfits.left] at hrealloc; contradiction
      | inr hlt => omega
  | some t =>
    rw [h] at hspec
    refine iff_of_true ⟨t, rfl⟩ ⟨hspec.right, ?_⟩
    have hcontent : t.content = received recv := by
      rw [hspec.left]
      rfl
    rw [← hcontent, length_content]
    exact t.len_le

theorem content_recvLoop {recv : List RecvAnswer} {t : HttpString}
    (h : recvLoop initString recv = some t)
    : t.content = received recv := by
  have hspec := recvLoop_spec initString recv
  rw [h] at hspec
  rw [hspec.left]
  rfl

theorem cstr_terminated (text : List UInt8) : cstr (text ++ [0]) = cstr text := by
  rw [cstr, cstr, List.takeWhile_append]
  split
  . next h =>
    rw [(List.takeWhile_sublist _).eq_of_length h]
    simp
  . rfl

theorem responseOk_eq (conversion : IntConversion) (s : HttpString)
    : s.responseOk conversion = httpResponseOk conversion s.content := by
  unfold HttpString.responseOk
  split
  . next h =>
    have hcontent : s.content = [] := by
      rw [HttpString.content, h]
      simp
    rw [hcontent]
    rfl
  . next mem h =>
    rw [ptr_eq_some h, httpResponseOk, cstr_terminated]
    rfl

theorem ptr_of_responseOk {conversion : IntConversion} {s : HttpString}
    (h : s.responseOk conversion = true)
    : s.ptr = some (s.content ++ [0]) := by
  unfold HttpString.responseOk at h
  split at h
  . contradiction
  . next mem hmem => rw [hmem, ptr_eq_some hmem]

/- Everything that a request checks behind the connection. -/
def Passes (request : List UInt8) (send : List Int) (recv : List RecvAnswer)
    (conversion : IntConversion) : Prop :=
  request.length < 4096 ∧ request.length ≤ accepted send ∧ allocated recv = true
    ∧ (received recv).length ≤ maxHttpResponseSize ∧ httpResponseOk conversion (received recv) = true

theorem transfer_of_passes {request : List UInt8} {send : List Int} {recv : List RecvAnswer}
    {conversion : IntConversion} (h : Passes request send recv conversion)
    : ∃ t, transfer request send recv conversion = ⟨0, t⟩ ∧ t.ptr = some (received recv ++ [0])
        ∧ t.len = (received recv).length := by
  obtain ⟨hlength, hsend, hrealloc, hsize, hok⟩ := h
  obtain ⟨t, ht⟩ := (recvLoop_eq_some_iff recv).mpr ⟨hrealloc, hsize⟩
  have hcontent := content_recvLoop ht
  have hresponse : t.responseOk conversion = true := by
    rw [responseOk_eq, hcontent, hok]
  refine ⟨t, ?_, ?_, ?_⟩
  . rw [transfer, if_neg (by omega), sendLoop_eq, ht]
    simp [hsend, hresponse]
  . rw [ptr_of_responseOk hresponse, hcontent]
  . rw [← length_content, hcontent]

theorem transfer_of_not_passes {request : List UInt8} {send : List Int} {recv : List RecvAnswer}
    {conversion : IntConversion} (h : ¬Passes request send recv conversion)
    : transfer request send recv conversion = ⟨-1, initString⟩ := by
  unfold transfer
  split
  . rfl
  . next hlength =>
    rw [sendLoop_eq, Nat.zero_add]
    split
    . rfl
    . next hsend =>
      split
      . rfl
      . next t ht =>
        split
        . next hresponse =>
          exfalso
          apply h
          have hfits := (recvLoop_eq_some_iff recv).mp ⟨t, ht⟩
          rw [responseOk_eq, content_recvLoop ht] at hresponse
          simp only [Bool.not_eq_true', decide_eq_false_iff_not, not_not] at hsend
          exact ⟨by omega, hsend, hfits.left, hfits.right, hresponse⟩
        . rfl

/- The whole response that the answers say, or nothing. -/
def WholeOrNothing (request : List UInt8) (send : List Int) (recv : List RecvAnswer)
    (conversion : IntConversion) (result : Int × HttpString) : Prop :=
  (result.fst = 0
      ∧ request.length ≤ accepted send
      ∧ result.snd.ptr = some (received recv ++ [0])
      ∧ result.snd.len = (received recv).length
      ∧ (received recv).length ≤ maxHttpResponseSize
      ∧ (∃ status, scanStatus conversion (cstr (received recv)) = some status
        ∧ 200 ≤ status ∧ status < 300)
      ∧ endsOrderly recv = true)
    ∨
  (result.fst = -1 ∧ result.snd.ptr = none ∧ result.snd.len = 0)

theorem httpResponseOk_iff (conversion : IntConversion) (response : List UInt8)
    : httpResponseOk conversion response = true
        ↔
      ∃ status, scanStatus conversion (cstr response) = some status
        ∧ 200 ≤ status ∧ status < 300 := by
  unfold httpResponseOk
  cases scanStatus conversion (cstr response) with
  | none => simp
  | some status => simp

theorem wholeOrNothing_nothing (request : List UInt8) (send : List Int) (recv : List RecvAnswer)
    (conversion : IntConversion)
    : WholeOrNothing request send recv conversion ⟨-1, initString⟩ := by
  exact Or.inr ⟨rfl, rfl, rfl⟩

theorem wholeOrNothing_transfer_iff (request : List UInt8) (send : List Int)
    (recv : List RecvAnswer) (conversion : IntConversion)
    : WholeOrNothing request send recv conversion (transfer request send recv conversion)
        ↔
      endsOrderly recv = true ∨ ¬Passes request send recv conversion := by
  by_cases hpasses : Passes request send recv conversion
  . obtain ⟨t, htransfer, hptr, hlen⟩ := transfer_of_passes hpasses
    have hsend := hpasses.right.left
    have hsize := hpasses.right.right.right.left
    have hok := hpasses.right.right.right.right
    rw [htransfer, WholeOrNothing, hptr, hlen, ← httpResponseOk_iff]
    simp [hsend, hsize, hok, hpasses]
  . rw [transfer_of_not_passes hpasses]
    exact iff_of_true (wholeOrNothing_nothing request send recv conversion) (Or.inr hpasses)

/-
Both kinds of requests give the whole response or nothing, unless an error or a timeout ends a response
that looks right so far.
-/
theorem requests_wholeOrNothing_iff (ssl : PolarSsl κ) (info : HandshakeInfo) (urlPath : List UInt8)
    (http : HttpCalls) (https : HttpsCalls κ) (store : TrustStore)
    : (WholeOrNothing (requestText info urlPath sunshineHttpPort) http.send http.recv
            http.conversion (ps3HttpRequest info urlPath http)
          ↔
        endsOrderly http.recv = true
          ∨ ¬(http.connected = true
            ∧ Passes (requestText info urlPath sunshineHttpPort) http.send http.recv
              http.conversion))
        ∧
      (WholeOrNothing (requestText info urlPath sunshineHttpsPort) (answered https.sslWrite)
            (answered https.sslRead) https.conversion
            (ps3HttpsRequest ssl info urlPath https store)
          ↔
        endsOrderly (answered https.sslRead) = true
          ∨ ¬(connectHttps ssl https store = true
            ∧ Passes (requestText info urlPath sunshineHttpsPort) (answered https.sslWrite)
              (answered https.sslRead) https.conversion)) := by
  rw [ps3HttpRequest_eq, ps3HttpsRequest_eq]
  constructor
  . cases http.connected with
    | false => simp [wholeOrNothing_nothing]
    | true =>
      rw [if_pos rfl, wholeOrNothing_transfer_iff]
      simp
  . cases connectHttps ssl https store with
    | false => simp [wholeOrNothing_nothing]
    | true =>
      rw [if_pos rfl, wholeOrNothing_transfer_iff]
      simp

/- A connection that takes a request of 96 bytes at once. -/
def connectedCalls (recv : List RecvAnswer) : HttpCalls where
  socket := true
  inetPton := true
  connectWithCancel := true
  send := [96]
  recv := recv
  conversion := wrapping

/- The connection runs into its timeout in the middle of the body. -/
def cutResponse : List RecvAnswer :=
  [.data ⟨ascii "HTTP/1.1 200 OK\r\n\r\n<ro", by decide⟩ (some []), .error]

theorem not_wholeOrNothing_cutResponse
    : ¬WholeOrNothing (requestText ⟨ascii "10.0.0.2", []⟩ (ascii "/serverinfo") sunshineHttpPort)
          [96] cutResponse wrapping
          (ps3HttpRequest ⟨ascii "10.0.0.2", []⟩ (ascii "/serverinfo") (connectedCalls cutResponse))
        ∧
      (ps3HttpRequest ⟨ascii "10.0.0.2", []⟩ (ascii "/serverinfo") (connectedCalls cutResponse)).fst
        = 0 := by
  have hpasses : Passes
      (requestText ⟨ascii "10.0.0.2", []⟩ (ascii "/serverinfo") sunshineHttpPort) [96]
      cutResponse wrapping := by
    refine ⟨?_, ?_, ?_, ?_, ?_⟩ <;> decide +kernel
  have heq : ps3HttpRequest ⟨ascii "10.0.0.2", []⟩ (ascii "/serverinfo") (connectedCalls cutResponse)
      = transfer (requestText ⟨ascii "10.0.0.2", []⟩ (ascii "/serverinfo") sunshineHttpPort) [96]
        cutResponse wrapping := by
    rw [ps3HttpRequest_eq]
    rfl
  rw [heq]
  constructor
  . rw [wholeOrNothing_transfer_iff]
    intro h
    cases h with
    | inl horderly => contradiction
    | inr hnot => exact hnot hpasses
  . obtain ⟨t, ht, _⟩ := transfer_of_passes hpasses
    rw [ht]

/-
The requests of the other modules are these ones, seen by their response.
-/

def RecvAnswer.recv (answer : RecvAnswer) : Recv :=
  match answer with
  | .data bytes realloc => .data bytes.val realloc.isSome
  | .close => .close
  | .error => .error

def outcome (result : Int × HttpString) : Option (List UInt8) :=
  if result.fst = 0 then some result.snd.content else none

theorem recvLoop_refines (s : HttpString) (recv : List RecvAnswer)
    : (recvLoop s recv).map HttpString.content
        =
      Handshake.recvLoop s.content (recv.map RecvAnswer.recv) := by
  induction recv generalizing s with
  | nil => rfl
  | cons answer recv ih =>
    cases answer with
    | close => rfl
    | error => rfl
    | data bytes realloc =>
      rw [List.map_cons, RecvAnswer.recv, recvLoop, Handshake.recvLoop, appendString,
        length_content]
      have hle := s.len_le
      cases happend : s.appendString bytes.val realloc with
      | none =>
        rw [appendString_eq_none_iff] at happend
        cases happend with
        | inl hrealloc => simp [hrealloc]
        | inr hlt =>
          have hroom : maxHttpResponseSize - s.len < bytes.val.length := by omega
          simp [hroom]
      | some t =>
        have ⟨hrealloc, hcontent⟩ := appendString_eq_some happend
        have hroom : ¬maxHttpResponseSize - s.len < bytes.val.length := by
          intro hlt
          have hnone := (appendString_eq_none_iff s bytes.val realloc).mpr (Or.inr (by omega))
          rw [hnone] at happend
          contradiction
        dsimp only
        rw [ih, hcontent]
        simp [hrealloc, hroom]

theorem transfer_refines (request : List UInt8) (send : List Int) (recv : List RecvAnswer)
    (conversion : IntConversion)
    : outcome (transfer request send recv conversion)
        =
      exchange request send (recv.map RecvAnswer.recv) conversion := by
  have hrecv := recvLoop_refines initString recv
  have hempty : initString.content = [] := by rfl
  rw [hempty] at hrecv
  unfold transfer exchange
  rw [← hrecv]
  split
  . rfl
  . cases sendLoop request.length 0 send with
    | false => rfl
    | true =>
      cases recvLoop initString recv with
      | none => rfl
      | some t =>
        simp only [Bool.not_true, Bool.false_eq_true, if_false, if_true, Option.map_some,
          ← responseOk_eq]
        split <;> rfl

def HttpCalls.io (io : HttpCalls) : HttpIo where
  socket := io.socket
  inetPton := io.inetPton
  connectWithCancel := io.connectWithCancel
  send := io.send
  recv := io.recv.map RecvAnswer.recv
  conversion := io.conversion

def HttpsCalls.io (io : HttpsCalls κ) : HttpsIo κ where
  ctrDrbgInit := io.ctrDrbgInit
  clientCredentials := io.clientCredentials
  socket := io.socket
  inetPton := io.inetPton
  connectWithCancel := io.connectWithCancel
  sslInit := io.sslInit
  sslHandshake := sslHandshakeLoop io.sslHandshake
  peerCertificate := io.peerCertificate
  fopen := io.fopen
  sslWrite := answered io.sslWrite
  sslRead := (answered io.sslRead).map RecvAnswer.recv
  conversion := io.conversion

theorem ps3HttpRequest_refines (info : HandshakeInfo) (urlPath : List UInt8) (io : HttpCalls)
    : outcome (ps3HttpRequest info urlPath io) = Handshake.ps3HttpRequest info urlPath io.io := by
  rw [ps3HttpRequest_eq, Handshake.ps3HttpRequest]
  by_cases h : io.connected = true
  . have hio : (io.io.socket && io.io.inetPton && io.io.connectWithCancel) = true := h
    rw [if_pos h, if_pos hio]
    apply transfer_refines
  . have hio : ¬(io.io.socket && io.io.inetPton && io.io.connectWithCancel) = true := h
    rw [if_neg h, if_neg hio]
    rfl

theorem connectHttps_eq (ssl : PolarSsl κ) (io : HttpsCalls κ) (store : TrustStore)
    : connectHttps ssl io store
        =
      (io.io.established && verifyServerFingerprint ssl io.peerCertificate io.fopen store) := by
  rfl

theorem ps3HttpsRequest_refines (ssl : PolarSsl κ) (info : HandshakeInfo) (urlPath : List UInt8)
    (io : HttpsCalls κ) (store : TrustStore)
    : outcome (ps3HttpsRequest ssl info urlPath io store)
        =
      Handshake.ps3HttpsRequest ssl info urlPath io.io store := by
  rw [ps3HttpsRequest_eq, Handshake.ps3HttpsRequest, connectHttps_eq]
  cases io.io.established with
  | false => rfl
  | true =>
    rw [Bool.true_and, if_pos rfl]
    by_cases h : verifyServerFingerprint ssl io.peerCertificate io.fopen store = true
    . have hio : verifyServerFingerprint ssl io.io.peerCertificate io.io.fopen store = true := h
      rw [if_pos h, if_pos hio]
      apply transfer_refines
    . have hio : ¬verifyServerFingerprint ssl io.io.peerCertificate io.io.fopen store = true := h
      rw [if_neg h, if_neg hio]
      rfl

end Transfer
end Handshake

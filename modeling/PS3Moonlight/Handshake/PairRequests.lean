import PS3Moonlight.Handshake.UniqueId

/-!
This module contains the requests that `hv_pair` makes, in their order, with what they are meant to say
and what goes out of the three buffers in between: the certificate in `cert_hex`, the path in `path` and
the whole request in `request`. Only the last one is checked, which is enough.
-/

namespace Handshake
namespace PairRequests

variable {κ : Type}

/-
One request: its whole query, the content of `path`, and the text that is given to `send` or
`ssl_write` if it comes to that.
-/
structure Request where
  query : List UInt8
  uuid : Random
  port : List UInt8
  path : List UInt8
  sent : Option (List UInt8)

/- What fits into `request`. -/
def requestBuffer (info : HandshakeInfo) (urlPath port : List UInt8) : Option (List UInt8) :=
  let request := requestText info urlPath port
  if 4096 ≤ request.length then none else some request

def sentHttp (info : HandshakeInfo) (urlPath : List UInt8) (io : HttpIo) : Option (List UInt8) :=
  if io.socket && io.inetPton && io.connectWithCancel then
    requestBuffer info urlPath sunshineHttpPort
  else
    none

def sentHttps (ssl : PolarSsl κ) (info : HandshakeInfo) (urlPath : List UInt8) (io : HttpsIo κ)
    (store : TrustStore) : Option (List UInt8) :=
  if io.established && verifyServerFingerprint ssl io.peerCertificate io.fopen store then
    requestBuffer info urlPath sunshineHttpsPort
  else
    none

def httpRequest (info : HandshakeInfo) (query : List UInt8) (uuid : Random) (path : List UInt8)
    (io : HttpIo) : Request where
  query := query
  uuid := uuid
  port := sunshineHttpPort
  path := path
  sent := sentHttp info path io

/- The first query with the whole file. -/
def wholeStep1Query (salt : Random) (file : List UInt8) : List UInt8 :=
  ascii "phrase=getservercert&salt=" ++ binToHex salt ++ ascii "&clientcert=" ++ binToLowerHex file

def step1Request (info : HandshakeInfo) (preparation : Preparation κ) (file : List UInt8)
    (io : HttpIo) : Request :=
  httpRequest info (wholeStep1Query preparation.salt file) preparation.uuid
    (pairPath info preparation.uuid (step1Query preparation)) io

/- The other queries have a fixed size. -/
def pairHttp (info : HandshakeInfo) (query : List UInt8) (uuid : Random) (io : HttpIo) : Request :=
  httpRequest info query uuid (pairPath info uuid query) io

/- The rounds of the second step, up to the one that ends it. -/
def step2Requests (info : HandshakeInfo) (query : List UInt8) (retry : Nat → Retry) (rounds : Nat)
    : List Request :=
  match rounds with
  | 0 => []
  | rounds + 1 =>
    let round := retry 0
    let again := step2Requests info query (fun n => retry (n + 1)) rounds
    match round.uuid with
    | none => []
    | some uuid =>
      if round.ipEntry then
        []
      else
        pairHttp info query uuid round.io ::
          match ps3HttpRequest info (pairPath info uuid query) round.io with
          | none => again
          | some reply =>
            if !saysPaired reply then
              again
            else
              match extractXml reply (ascii "challengeresponse") with
              | none => again
              | some _ => []

def laterRequest (info : HandshakeInfo) (query : List UInt8) (request : PairRequest) : List Request :=
  match request.uuid with
  | none => []
  | some uuid => [pairHttp info query uuid request.io]

def step3Requests (ssl : PolarSsl κ) (info : HandshakeInfo) (key decrypted : List UInt8)
    (clientCert : κ) (clientSecret : Random) (request : PairRequest) : List Request :=
  let clientSig := ssl.sig clientCert
  if 0 < clientSig.length ∧ clientSig.length ≤ 480 then
    laterRequest info (step3Query ssl key decrypted clientSig clientSecret) request
  else
    []

def step4Requests (ssl : PolarSsl κ) (info : HandshakeInfo) (serverCert : κ)
    (pairingSecret : List UInt8) (clientSecret : Random)
    (pkSign : List UInt8 → Option (List UInt8)) (request : PairRequest) : List Request :=
  if secretVerified ssl serverCert pairingSecret then
    match pkSign (ssl.sha256 clientSecret) with
    | none => []
    | some clientSignature =>
      if 0 < clientSignature.length ∧ clientSignature.length ≤ 256 then
        laterRequest info (step4Query clientSecret clientSignature) request
      else
        []
  else
    []

def step5Requests (ssl : PolarSsl κ) (info : HandshakeInfo) (env : PairEnv κ) (serverCert : κ)
    (store : TrustStore) : List Request :=
  match saveServerFingerprint ssl serverCert env.fingerprintFile store with
  | ⟨false, _⟩ => []
  | ⟨true, store⟩ =>
    match env.step5Uuid with
    | none => []
    | some uuid =>
      let query := ascii "phrase=pairchallenge"
      let path := pairPath info uuid query
      [⟨query, uuid, sunshineHttpsPort, path, sentHttps ssl info path env.step5 store⟩]

/- The requests of one call of `hv_pair`. -/
def pairRequests (ssl : PolarSsl κ) (info : HandshakeInfo) (pin : Option (List UInt8))
    (env : PairEnv κ) (store : TrustStore) : List Request :=
  match prepare pin env with
  | none => []
  | some preparation =>
    step1Request info preparation (env.clientCertFile.getD []) env.step1 ::
      match pairStep1 ssl info preparation env.step1, env.challenge with
      | some serverCert, some challenge =>
        let key := aesKey ssl preparation.salt pin
        let query := step2Query ssl key challenge
        step2Requests info query env.retry 60 ++
          match pairStep2 info query env.retry 60, env.clientSecret with
          | some response, some clientSecret =>
            let decrypted := ecb (ssl.aesDecrypt key) response
            step3Requests ssl info key decrypted preparation.clientCert clientSecret env.step3 ++
              match pairStep3 ssl info key decrypted preparation.clientCert clientSecret env.step3 with
              | none => []
              | some pairingSecret =>
                step4Requests ssl info serverCert pairingSecret clientSecret env.pkSign env.step4 ++
                  match pairStep4 ssl info serverCert pairingSecret clientSecret env.pkSign env.step4
                  with
                  | none => []
                  | some _ => step5Requests ssl info env serverCert store
          | _, _ => []
      | _, _ => []

/-
The requests are what the functions send.
-/

theorem exchange_eq_bind (info : HandshakeInfo) (urlPath port : List UInt8) (send : List Int)
    (recv : List Recv) (conversion : IntConversion)
    : exchange (requestText info urlPath port) send recv conversion
        =
      (requestBuffer info urlPath port).bind fun request =>
        exchange request send recv conversion := by
  unfold requestBuffer
  dsimp only
  split
  . next hlength => rw [exchange, if_pos hlength, Option.bind_none]
  . rw [Option.bind_some]

theorem ps3HttpRequest_eq_bind (info : HandshakeInfo) (urlPath : List UInt8) (io : HttpIo)
    : ps3HttpRequest info urlPath io
        =
      (sentHttp info urlPath io).bind fun request =>
        exchange request io.send io.recv io.conversion := by
  unfold ps3HttpRequest sentHttp
  split
  . apply exchange_eq_bind
  . rfl

theorem ps3HttpsRequest_eq_bind (ssl : PolarSsl κ) (info : HandshakeInfo) (urlPath : List UInt8)
    (io : HttpsIo κ) (store : TrustStore)
    : ps3HttpsRequest ssl info urlPath io store
        =
      (sentHttps ssl info urlPath io store).bind fun request =>
        exchange request io.sslWrite io.sslRead io.conversion := by
  unfold ps3HttpsRequest sentHttps
  cases io.established with
  | false => rfl
  | true =>
    cases verifyServerFingerprint ssl io.peerCertificate io.fopen store with
    | false => rfl
    | true =>
      exact exchange_eq_bind info urlPath sunshineHttpsPort io.sslWrite io.sslRead io.conversion

/-
What a request says, and when one of the buffers is too small for it.
-/

def completePath (info : HandshakeInfo) (uuid : Random) (query : List UInt8) : List UInt8 :=
  ascii "/pair?uniqueid=" ++ info.uniqueId ++ ascii "&uuid=" ++ generateUuidString uuid
    ++ ascii "&devicename=PS3&updateState=1&" ++ query

def Request.complete (info : HandshakeInfo) (r : Request) : List UInt8 :=
  requestText info (completePath info r.uuid r.query) r.port

/- Something is missing in `path`, or the request does not fit into `request`. -/
def Request.Cut (info : HandshakeInfo) (r : Request) : Prop :=
  r.path ≠ completePath info r.uuid r.query ∨ 4096 ≤ (requestText info r.path r.port).length

structure NotTruncated (info : HandshakeInfo) (code : Int) (r : Request) : Prop where
  whole : ∀ text, r.sent = some text → text = r.complete info
  fails : r.Cut info → r.sent = none ∧ code = -1

theorem pairPath_eq (info : HandshakeInfo) (uuid : Random) (query : List UInt8)
    : pairPath info uuid query = (completePath info uuid query).take 8191 := by
  rfl

theorem length_le_requestText (info : HandshakeInfo) (urlPath port : List UInt8)
    : urlPath.length ≤ (requestText info urlPath port).length := by
  simp only [requestText, List.length_append]
  omega

theorem requestBuffer_of_cut {info : HandshakeInfo} {urlPath port : List UInt8}
    (h : 4096 ≤ (requestText info urlPath port).length)
    : requestBuffer info urlPath port = none := by
  unfold requestBuffer
  dsimp only
  rw [if_pos h]

theorem requestBuffer_eq_some {info : HandshakeInfo} {urlPath port text : List UInt8}
    (h : requestBuffer info urlPath port = some text)
    : text = requestText info urlPath port
        ∧ (requestText info urlPath port).length < 4096 := by
  unfold requestBuffer at h
  dsimp only at h
  split at h
  . contradiction
  . next hlength =>
    injection h with h
    exact ⟨h.symm, by omega⟩

/- The encoding of the certificate stops behind 4095 bytes of the file. -/
theorem certHexLoop_eq (file : List UInt8) {length : Nat} (heven : length % 2 = 0)
    (hle : length ≤ 8190)
    : certHexLoop file length = binToLowerHex (file.take ((8190 - length) / 2)) := by
  induction file generalizing length with
  | nil => simp [certHexLoop, binToLowerHex]
  | cons c file ih =>
    rw [certHexLoop]
    split
    . next hroom =>
      have hcount : (8190 - length) / 2 = (8190 - (length + 2)) / 2 + 1 := by omega
      rw [ih (by omega) (by omega), hcount, List.take_succ_cons]
      simp [binToLowerHex]
    . next hfull =>
      have hcount : (8190 - length) / 2 = 0 := by omega
      rw [hcount]
      rfl

/- A path that has lost something is long. -/
theorem step1Path_long {info : HandshakeInfo} {preparation : Preparation κ} {file : List UInt8}
    (hhex : preparation.certHex = certHexLoop file 0)
    (hne : pairPath info preparation.uuid (step1Query preparation)
      ≠ completePath info preparation.uuid (wholeStep1Query preparation.salt file))
    : 4096 ≤ (pairPath info preparation.uuid (step1Query preparation)).length := by
  rw [certHexLoop_eq file (by rfl) (by decide)] at hhex
  rw [pairPath_eq, List.length_take] at *
  cases Nat.lt_or_ge 4095 file.length with
  | inl hfile =>
    have hcert : preparation.certHex.length = 8190 := by
      rw [hhex, length_binToLowerHex, List.length_take]
      omega
    have hquery : 8190 ≤ (completePath info preparation.uuid (step1Query preparation)).length := by
      simp only [completePath, step1Query, List.length_append]
      omega
    omega
  | inr hfile =>
    have hwhole : step1Query preparation = wholeStep1Query preparation.salt file := by
      rw [step1Query, hhex, List.take_of_length_le hfile, wholeStep1Query]
    rw [hwhole] at hne ⊢
    have hlong : ¬(completePath info preparation.uuid
        (wholeStep1Query preparation.salt file)).length ≤ 8191 := by
      intro hshort
      exact hne (List.take_of_length_le hshort)
    omega

theorem pairPath_long {info : HandshakeInfo} {uuid : Random} {query : List UInt8}
    (hne : pairPath info uuid query ≠ completePath info uuid query)
    : 4096 ≤ (pairPath info uuid query).length := by
  rw [pairPath_eq] at *
  have hlong : ¬(completePath info uuid query).length ≤ 8191 := by
    intro hshort
    exact hne (List.take_of_length_le hshort)
  rw [List.length_take]
  omega

/- A request that would be cut is too long for `request`. -/
theorem Request.Cut.long {info : HandshakeInfo} {r : Request}
    (hlong : r.path ≠ completePath info r.uuid r.query → 4096 ≤ r.path.length) (h : r.Cut info)
    : 4096 ≤ (requestText info r.path r.port).length := by
  cases h with
  | inl hne => exact Nat.le_trans (hlong hne) (length_le_requestText info r.path r.port)
  | inr hrequest => exact hrequest

theorem notTruncated_of_buffer {info : HandshakeInfo} {code : Int} {r : Request}
    (hsent : ∀ text, r.sent = some text → requestBuffer info r.path r.port = some text)
    (hlong : r.path ≠ completePath info r.uuid r.query → 4096 ≤ r.path.length)
    (hcode : 4096 ≤ (requestText info r.path r.port).length → code = -1)
    : NotTruncated info code r := by
  constructor
  . intro text htext
    have ⟨heq, hfits⟩ := requestBuffer_eq_some (hsent text htext)
    have hpath : r.path = completePath info r.uuid r.query := by
      by_cases hne : r.path = completePath info r.uuid r.query
      . exact hne
      . have hcut := Request.Cut.long hlong (Or.inl hne)
        omega
    rw [heq, hpath]
    rfl
  . intro hcut
    have hrequest := hcut.long hlong
    refine ⟨?_, hcode hrequest⟩
    cases hnone : r.sent with
    | none => rfl
    | some text =>
      have hsome := hsent text hnone
      rw [requestBuffer_of_cut hrequest] at hsome
      contradiction

theorem sentHttp_eq_some {info : HandshakeInfo} {urlPath text : List UInt8} {io : HttpIo}
    (h : sentHttp info urlPath io = some text)
    : requestBuffer info urlPath sunshineHttpPort = some text := by
  unfold sentHttp at h
  split at h
  . exact h
  . contradiction

theorem ps3HttpRequest_of_long {info : HandshakeInfo} {urlPath : List UInt8} (io : HttpIo)
    (h : 4096 ≤ (requestText info urlPath sunshineHttpPort).length)
    : ps3HttpRequest info urlPath io = none := by
  rw [ps3HttpRequest_eq_bind]
  unfold sentHttp
  split
  . rw [requestBuffer_of_cut h, Option.bind_none]
  . rfl

theorem pairHttp_notTruncated {info : HandshakeInfo} {query : List UInt8} {uuid : Random}
    {io : HttpIo} {code : Int}
    (hcode : 4096 ≤ (requestText info (pairPath info uuid query) sunshineHttpPort).length → code = -1)
    : NotTruncated info code (pairHttp info query uuid io) := by
  apply notTruncated_of_buffer
  . intro text htext
    exact sentHttp_eq_some htext
  . exact pairPath_long
  . exact hcode

/-
Every round of the second step makes a request of the same length, so all of them fail if one is cut.
-/

theorem length_generateUuidString (random : Random) : (generateUuidString random).length = 36 := by
  exact length_of_uuidStringValid (uuidStringValid_generateUuidString random)

theorem length_requestText_pairPath (info : HandshakeInfo) (uuid uuid' : Random)
    (query port : List UInt8)
    : (requestText info (pairPath info uuid query) port).length
        =
      (requestText info (pairPath info uuid' query) port).length := by
  simp only [requestText, pairPath, List.length_append, List.length_take, length_generateUuidString]

theorem pairStep2_of_long {info : HandshakeInfo} {query : List UInt8} (retry : Nat → Retry)
    (rounds : Nat)
    (h : ∀ uuid, 4096 ≤ (requestText info (pairPath info uuid query) sunshineHttpPort).length)
    : pairStep2 info query retry rounds = none := by
  induction rounds generalizing retry with
  | zero => rfl
  | succ rounds ih =>
    rw [pairStep2]
    split
    . rfl
    . next uuid huuid =>
      split
      . rfl
      . rw [ps3HttpRequest_of_long _ (h uuid)]
        apply ih

theorem mem_step2Requests {info : HandshakeInfo} {query : List UInt8} {retry : Nat → Retry}
    {rounds : Nat} {r : Request} (h : r ∈ step2Requests info query retry rounds)
    : ∃ uuid io, r = pairHttp info query uuid io := by
  induction rounds generalizing retry with
  | zero => simp [step2Requests] at h
  | succ rounds ih =>
    rw [step2Requests] at h
    split at h
    . simp at h
    . next uuid huuid =>
      split at h
      . simp at h
      . rw [List.mem_cons] at h
        cases h with
        | inl h => exact ⟨uuid, _, h⟩
        | inr h =>
          split at h
          . exact ih h
          . split at h
            . exact ih h
            . split at h
              . exact ih h
              . simp at h

theorem laterRequest_notTruncated {info : HandshakeInfo} {query : List UInt8} {request : PairRequest}
    {code : Int} {r : Request} (h : r ∈ laterRequest info query request)
    (hcode : pairRequest info request query = none → code = -1)
    : NotTruncated info code r := by
  unfold laterRequest at h
  split at h
  . simp at h
  . next uuid huuid =>
    rw [List.mem_singleton] at h
    rw [h]
    apply pairHttp_notTruncated
    intro hlong
    apply hcode
    simp [pairRequest, huuid, ps3HttpRequest_of_long request.io hlong]

theorem hvPair_of_exchange {ssl : PolarSsl κ} {info : HandshakeInfo} {pin : Option (List UInt8)}
    {env : PairEnv κ} {store : TrustStore} (h : pairExchange ssl info pin env = none)
    : (hvPair ssl info pin env store).fst = -1 := by
  rw [hvPair, h]

theorem step1_notTruncated (ssl : PolarSsl κ) {info : HandshakeInfo}
    {preparation : Preparation κ} {file : List UInt8} {io : HttpIo} {code : Int}
    (hhex : preparation.certHex = certHexLoop file 0)
    (hcode : pairStep1 ssl info preparation io = none → code = -1)
    : NotTruncated info code (step1Request info preparation file io) := by
  apply notTruncated_of_buffer
  . intro text htext
    exact sentHttp_eq_some htext
  . exact step1Path_long hhex
  . intro hlong
    apply hcode
    have hnone := ps3HttpRequest_of_long io hlong
    dsimp only [step1Request, httpRequest] at hnone
    simp [pairStep1, hnone]

theorem step2_notTruncated {info : HandshakeInfo} {query : List UInt8} {retry : Nat → Retry}
    {rounds : Nat} {code : Int} {r : Request} (h : r ∈ step2Requests info query retry rounds)
    (hcode : pairStep2 info query retry rounds = none → code = -1)
    : NotTruncated info code r := by
  obtain ⟨uuid, io, hr⟩ := mem_step2Requests h
  rw [hr]
  apply pairHttp_notTruncated
  intro hlong
  apply hcode
  apply pairStep2_of_long
  intro uuid'
  rw [length_requestText_pairPath info uuid' uuid]
  exact hlong

theorem step3_notTruncated {ssl : PolarSsl κ} {info : HandshakeInfo} {key decrypted : List UInt8}
    {clientCert : κ} {clientSecret : Random} {request : PairRequest} {code : Int} {r : Request}
    (h : r ∈ step3Requests ssl info key decrypted clientCert clientSecret request)
    (hcode : pairStep3 ssl info key decrypted clientCert clientSecret request = none → code = -1)
    : NotTruncated info code r := by
  unfold step3Requests at h
  dsimp only at h
  split at h
  . apply laterRequest_notTruncated h
    intro hnone
    apply hcode
    simp [pairStep3, hnone]
  . simp at h

theorem step4_notTruncated {ssl : PolarSsl κ} {info : HandshakeInfo} {serverCert : κ}
    {pairingSecret : List UInt8} {clientSecret : Random} {pkSign : List UInt8 → Option (List UInt8)}
    {request : PairRequest} {code : Int} {r : Request}
    (h : r ∈ step4Requests ssl info serverCert pairingSecret clientSecret pkSign request)
    (hcode : pairStep4 ssl info serverCert pairingSecret clientSecret pkSign request = none
      → code = -1)
    : NotTruncated info code r := by
  unfold step4Requests at h
  split at h
  . split at h
    . simp at h
    . next signature hsignature =>
      split at h
      . apply laterRequest_notTruncated h
        intro hnone
        apply hcode
        simp [pairStep4, hsignature, hnone]
      . simp at h
  . simp at h

theorem step5_notTruncated {ssl : PolarSsl κ} {info : HandshakeInfo} {pin : Option (List UInt8)}
    {env : PairEnv κ} {serverCert : κ} {store : TrustStore} {r : Request}
    (hexchange : pairExchange ssl info pin env = some serverCert)
    (h : r ∈ step5Requests ssl info env serverCert store)
    : NotTruncated info (hvPair ssl info pin env store).fst r := by
  rw [hvPair, hexchange]
  unfold step5Requests at h
  split at h
  . simp at h
  . next store' hsave =>
    dsimp only
    rw [hsave]
    split at h
    . simp at h
    . next uuid huuid =>
      rw [List.mem_singleton] at h
      rw [h]
      apply notTruncated_of_buffer
      . intro text htext
        dsimp only [sentHttps] at htext
        split at htext
        . exact htext
        . contradiction
      . exact pairPath_long
      . intro hlong
        have hnone : ps3HttpsRequest ssl info (pairPath info uuid (ascii "phrase=pairchallenge"))
            env.step5 store' = none := by
          rw [ps3HttpsRequest_eq_bind]
          unfold sentHttps
          split
          . rw [requestBuffer_of_cut hlong, Option.bind_none]
          . rfl
        have hstep5 : pairStep5 ssl info env store' = none := by
          simp [pairStep5, huuid, hnone]
        dsimp only
        rw [hstep5]

theorem pairRequests_not_truncated (ssl : PolarSsl κ) (info : HandshakeInfo)
    (pin : Option (List UInt8)) (env : PairEnv κ) (store : TrustStore)
    : ∀ r, r ∈ pairRequests ssl info pin env store
        → NotTruncated info (hvPair ssl info pin env store).fst r := by
  intro r h
  -- a step that fails ends the exchange, so the pairing fails too
  have hfails : pairExchange ssl info pin env = none → (hvPair ssl info pin env store).fst = -1 := by
    exact hvPair_of_exchange
  unfold pairRequests at h
  split at h
  . simp at h
  . next preparation hprepare =>
    have ⟨file, hfile, hhex⟩ : ∃ file, env.clientCertFile = some file
        ∧ certHexLoop file 0 = preparation.certHex := by
      exact (prepare_eq_some_iff.mp hprepare).right.right.right.left
    rw [hfile, Option.getD_some] at h
    rw [List.mem_cons] at h
    cases h with
    | inl h =>
      rw [h]
      apply step1_notTruncated ssl hhex.symm
      intro hnone
      apply hfails
      simp [pairExchange, hprepare, hnone]
    | inr h =>
      split at h
      . next serverCert challenge hstep1 hchallenge =>
        dsimp only at h
        rw [List.mem_append] at h
        cases h with
        | inl h =>
          apply step2_notTruncated h
          intro hnone
          apply hfails
          simp [pairExchange, hprepare, hstep1, hchallenge, hnone]
        | inr h =>
          split at h
          . next response clientSecret hstep2 hsecret =>
            rw [List.mem_append] at h
            cases h with
            | inl h =>
              apply step3_notTruncated h
              intro hnone
              apply hfails
              simp [pairExchange, hprepare, hstep1, hchallenge, hstep2, hsecret, hnone]
            | inr h =>
              split at h
              . simp at h
              . next pairingSecret hstep3 =>
                rw [List.mem_append] at h
                cases h with
                | inl h =>
                  apply step4_notTruncated h
                  intro hnone
                  apply hfails
                  simp [pairExchange, hprepare, hstep1, hchallenge, hstep2, hsecret, hstep3, hnone]
                | inr h =>
                  split at h
                  . simp at h
                  . next reply hstep4 =>
                    apply step5_notTruncated _ h
                    simp [pairExchange, hprepare, hstep1, hchallenge, hstep2, hsecret, hstep3, hstep4]
          . simp at h
      . simp at h

theorem pairRequests_not_truncated_example
    : ∃ r, r ∈ pairRequests plainSsl exampleInfo (some (ascii "1234")) exampleEnv none
        ∧ r.sent.isSome = true
        ∧ NotTruncated exampleInfo
          (hvPair plainSsl exampleInfo (some (ascii "1234")) exampleEnv none).fst r := by
  have hsent : ((pairRequests plainSsl exampleInfo (some (ascii "1234")) exampleEnv none).head?.bind
      Request.sent).isSome = true := by
    decide +kernel
  have ⟨text, htext⟩ := Option.isSome_iff_exists.mp hsent
  have ⟨r, hr, hrsent⟩ := Option.bind_eq_some_iff.mp htext
  have hmem := List.mem_of_head? hr
  refine ⟨r, hmem, by rw [hrsent]; rfl, ?_⟩
  exact pairRequests_not_truncated plainSsl exampleInfo (some (ascii "1234")) exampleEnv none r hmem

end PairRequests
end Handshake

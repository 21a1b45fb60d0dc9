import PS3Moonlight.Handshake.Pair
import Mathlib.Data.Option.Basic

/-!
This module contains what a pairing accepts, stated about the replies of the host and not about the
function: a transcript collects the values of one exchange, and `hv_pair` gets through exactly if
there is a transcript all of whose checks hold.
-/

namespace Handshake

variable {κ : Type}

structure Transcript (κ : Type) where
  uuid : Random
  salt : Random
  clientCertFile : List UInt8
  clientCert : κ
  reply1 : List UInt8
  plaincertHex : List UInt8
  plaincert : List UInt8
  serverCert : κ
  challenge : Random
  round : Nat
  uuid2 : Random
  reply2 : List UInt8
  responseHex : List UInt8
  response : List UInt8
  clientSecret : Random
  reply3 : List UInt8
  pairingSecretHex : List UInt8
  pairingSecret : List UInt8
  clientSignature : List UInt8
  reply4 : List UInt8

namespace Transcript

def preparation (tr : Transcript κ) : Preparation κ :=
  ⟨tr.uuid, tr.salt, certHexLoop tr.clientCertFile 0, tr.clientCert⟩

def key (tr : Transcript κ) (ssl : PolarSsl κ) (pin : Option (List UInt8)) : List UInt8 :=
  aesKey ssl tr.salt pin

def decrypted (tr : Transcript κ) (ssl : PolarSsl κ) (pin : Option (List UInt8)) : List UInt8 :=
  ecb (ssl.aesDecrypt (tr.key ssl pin)) tr.response

def query2 (tr : Transcript κ) (ssl : PolarSsl κ) (pin : Option (List UInt8)) : List UInt8 :=
  step2Query ssl (tr.key ssl pin) tr.challenge

def query3 (tr : Transcript κ) (ssl : PolarSsl κ) (pin : Option (List UInt8)) : List UInt8 :=
  step3Query ssl (tr.key ssl pin) (tr.decrypted ssl pin) (ssl.sig tr.clientCert) tr.clientSecret

end Transcript

/- A round of the second step that makes the client ask again. -/
structure Undecided (info : HandshakeInfo) (query : List UInt8) (round : Retry) : Prop where
  drawn : round.uuid.isSome = true
  active : round.ipEntry = false
  refused : ∀ uuid, round.uuid = some uuid → ∀ reply,
    ps3HttpRequest info (pairPath info uuid query) round.io = some reply → saysPaired reply = true
      → extractXml reply (ascii "challengeresponse") = none

/- The round that ends the second step. -/
structure Decided (info : HandshakeInfo) (query : List UInt8) (round : Retry) (uuid : Random)
    (reply responseHex : List UInt8) : Prop where
  drawn : round.uuid = some uuid
  active : round.ipEntry = false
  answered : ps3HttpRequest info (pairPath info uuid query) round.io = some reply
  paired : saysPaired reply = true
  challenged : extractXml reply (ascii "challengeresponse") = some responseHex

/-
All checks of the first four steps. Of the challenge response only the size is checked.
-/
structure Agreed (ssl : PolarSsl κ) (info : HandshakeInfo) (pin : Option (List UInt8))
    (env : PairEnv κ) (tr : Transcript κ) : Prop where
  pinValid : pinValid pin = true
  uuid : env.uuid = some tr.uuid
  salt : env.salt = some tr.salt
  clientCertFile : env.clientCertFile = some tr.clientCertFile
  ctrDrbgInit : env.ctrDrbgInit = true
  pkParseKeyfile : env.pkParseKeyfile = true
  clientCert : env.clientCert = some tr.clientCert
  reply1 :
    ps3HttpRequest info (pairPath info tr.uuid (step1Query tr.preparation)) env.step1
      = some tr.reply1
  paired1 : saysPaired tr.reply1 = true
  plaincertHex : extractXml tr.reply1 (ascii "plaincert") = some tr.plaincertHex
  plaincert : decodeHex tr.plaincertHex (8192 - 1) = some tr.plaincert
  serverCert : ssl.x509CrtParse (cstr tr.plaincert) = some tr.serverCert
  challenge : env.challenge = some tr.challenge
  round : tr.round < 60
  undecided : ∀ n, n < tr.round → Undecided info (tr.query2 ssl pin) (env.retry n)
  decided :
    Decided info (tr.query2 ssl pin) (env.retry tr.round) tr.uuid2 tr.reply2 tr.responseHex
  response : decodeHex tr.responseHex 64 = some tr.response
  responseSize : 48 ≤ tr.response.length ∧ tr.response.length % 16 = 0
  clientSecret : env.clientSecret = some tr.clientSecret
  clientSig : 0 < (ssl.sig tr.clientCert).length ∧ (ssl.sig tr.clientCert).length ≤ 480
  reply3 : pairRequest info env.step3 (tr.query3 ssl pin) = some tr.reply3
  pairingSecretHex : extractXml tr.reply3 (ascii "pairingsecret") = some tr.pairingSecretHex
  pairingSecret : decodeHex tr.pairingSecretHex 272 = some tr.pairingSecret
  pairingSecretSize : 16 < tr.pairingSecret.length
  verified : secretVerified ssl tr.serverCert tr.pairingSecret = true
  clientSignature : env.pkSign (ssl.sha256 tr.clientSecret) = some tr.clientSignature
  clientSignatureSize : 0 < tr.clientSignature.length ∧ tr.clientSignature.length ≤ 256
  reply4 :
    pairRequest info env.step4 (step4Query tr.clientSecret tr.clientSignature) = some tr.reply4

theorem pairRequest_eq_some_iff {info : HandshakeInfo} {request : PairRequest}
    {query reply : List UInt8}
    : pairRequest info request query = some reply
        ↔
      ∃ uuid, request.uuid = some uuid
        ∧ ps3HttpRequest info (pairPath info uuid query) request.io = some reply
        ∧ saysPaired reply = true := by
  simp only [pairRequest, Option.bind_eq_bind, Option.bind_eq_some_iff, Option.guard_eq_some',
    Option.pure_def, Option.some.injEq, exists_const]
  constructor
  . intro h
    have ⟨uuid, huuid, reply', hreply, hpaired, heq⟩ := h
    rw [← heq]
    exact ⟨uuid, huuid, hreply, hpaired⟩
  . intro h
    have ⟨uuid, huuid, hreply, hpaired⟩ := h
    exact ⟨uuid, huuid, reply, hreply, hpaired, rfl⟩

theorem prepare_eq_some_iff {pin : Option (List UInt8)} {env : PairEnv κ}
    {preparation : Preparation κ}
    : prepare pin env = some preparation
        ↔
      pinValid pin = true ∧ env.uuid = some preparation.uuid ∧ env.salt = some preparation.salt
        ∧ (∃ file, env.clientCertFile = some file ∧ certHexLoop file 0 = preparation.certHex)
        ∧ env.ctrDrbgInit = true ∧ env.pkParseKeyfile = true
        ∧ env.clientCert = some preparation.clientCert := by
  simp only [prepare, Option.bind_eq_bind, Option.bind_eq_some_iff, Option.guard_eq_some',
    Option.pure_def, Option.some.injEq, exists_const]
  constructor
  . intro h
    have ⟨hpin, uuid, huuid, salt, hsalt, file, hfile, hdrbg, hkey, cert, hcert, heq⟩ := h
    rw [← heq]
    exact ⟨hpin, huuid, hsalt, ⟨file, hfile, rfl⟩, hdrbg, hkey, hcert⟩
  . intro h
    have ⟨hpin, huuid, hsalt, ⟨file, hfile, hhex⟩, hdrbg, hkey, hcert⟩ := h
    refine ⟨hpin, _, huuid, _, hsalt, file, hfile, hdrbg, hkey, _, hcert, ?_⟩
    rw [hhex]

theorem pairStep1_eq_some_iff {ssl : PolarSsl κ} {info : HandshakeInfo}
    {preparation : Preparation κ} {io : HttpIo} {serverCert : κ}
    : pairStep1 ssl info preparation io = some serverCert
        ↔
      ∃ reply plaincertHex plaincert,
        ps3HttpRequest info (pairPath info preparation.uuid (step1Query preparation)) io = some reply
          ∧ saysPaired reply = true
          ∧ extractXml reply (ascii "plaincert") = some plaincertHex
          ∧ decodeHex plaincertHex (8192 - 1) = some plaincert
          ∧ ssl.x509CrtParse (cstr plaincert) = some serverCert := by
  simp only [pairStep1, Option.bind_eq_bind, Option.bind_eq_some_iff, Option.guard_eq_some',
    exists_const]
  constructor
  . intro h
    have ⟨reply, hreply, hpaired, hex, hhex, plaincert, hplaincert, hparse⟩ := h
    exact ⟨reply, hex, plaincert, hreply, hpaired, hhex, hplaincert, hparse⟩
  . intro h
    have ⟨reply, hex, plaincert, hreply, hpaired, hhex, hplaincert, hparse⟩ := h
    exact ⟨reply, hreply, hpaired, hex, hhex, plaincert, hplaincert, hparse⟩

theorem decodeResponse_eq_some_iff {responseHex response : List UInt8}
    : decodeResponse responseHex = some response
        ↔
      decodeHex responseHex 64 = some response
        ∧ 48 ≤ response.length ∧ response.length % 16 = 0 := by
  simp only [decodeResponse, Option.bind_eq_bind, Option.bind_eq_some_iff, Option.guard_eq_some',
    Option.pure_def, Option.some.injEq, exists_const]
  constructor
  . intro h
    have ⟨response', hdecode, hsize, heq⟩ := h
    rw [← heq]
    exact ⟨hdecode, hsize⟩
  . intro h
    exact ⟨response, h.left, h.right, rfl⟩

/-
One round of the second step: it is repeated, it decides the step, or the pairing fails.
-/

theorem pairStep2_of_undecided {info : HandshakeInfo} {query : List UInt8} {retry : Nat → Retry}
    (rounds : Nat) (h : Undecided info query (retry 0))
    : pairStep2 info query retry (rounds + 1)
        =
      pairStep2 info query (fun n => retry (n + 1)) rounds := by
  have ⟨uuid, huuid⟩ := Option.isSome_iff_exists.mp h.drawn
  have hrefused := h.refused uuid huuid
  rw [pairStep2]
  simp only [huuid, h.active, Bool.false_eq_true, ↓reduceIte]
  split
  . rfl
  . next reply hreply =>
    cases hpaired : saysPaired reply with
    | false => rfl
    | true => simp [hrefused reply hreply hpaired]

theorem pairStep2_of_decided {info : HandshakeInfo} {query : List UInt8} {retry : Nat → Retry}
    (rounds : Nat) {uuid : Random} {reply responseHex : List UInt8}
    (h : Decided info query (retry 0) uuid reply responseHex)
    : pairStep2 info query retry (rounds + 1) = decodeResponse responseHex := by
  rw [pairStep2]
  simp [h.drawn, h.active, h.answered, h.paired, h.challenged]

theorem undecided_or_decided {info : HandshakeInfo} {query : List UInt8} {retry : Nat → Retry}
    {rounds : Nat} {response : List UInt8}
    (h : pairStep2 info query retry (rounds + 1) = some response)
    : Undecided info query (retry 0)
        ∨
      ∃ uuid reply responseHex, Decided info query (retry 0) uuid reply responseHex := by
  rw [pairStep2] at h
  split at h
  . simp at h
  . next uuid huuid =>
    split at h
    . simp at h
    . next hactive =>
      rw [Bool.not_eq_true] at hactive
      cases hhex : (ps3HttpRequest info (pairPath info uuid query) (retry 0).io).bind fun reply =>
          if saysPaired reply then extractXml reply (ascii "challengeresponse") else none with
      | none =>
        left
        refine ⟨by simp [huuid], hactive, ?_⟩
        intro uuid' huuid' reply hreply hpaired
        rw [huuid, Option.some.injEq] at huuid'
        rw [← huuid'] at hreply
        simpa [hreply, hpaired] using hhex
      | some responseHex =>
        right
        rw [Option.bind_eq_some_iff] at hhex
        have ⟨reply, hreply, hif⟩ := hhex
        split at hif
        . next hpaired => exact ⟨uuid, reply, responseHex, huuid, hactive, hreply, hpaired, hif⟩
        . simp at hif

/-
The whole loop: some round decides it, all rounds before are repeated.
-/
theorem pairStep2_eq_some_iff {info : HandshakeInfo} {query response : List UInt8} {rounds : Nat}
    (retry : Nat → Retry)
    : pairStep2 info query retry rounds = some response
        ↔
      ∃ round uuid reply responseHex, round < rounds
        ∧ (∀ n, n < round → Undecided info query (retry n))
        ∧ Decided info query (retry round) uuid reply responseHex
        ∧ decodeResponse responseHex = some response := by
  induction rounds generalizing retry with
  | zero => simp [pairStep2]
  | succ rounds ih =>
    constructor
    . intro h
      cases undecided_or_decided h with
      | inl hundecided =>
        rw [pairStep2_of_undecided rounds hundecided] at h
        have ⟨round, uuid, reply, hex, hround, hbefore, hdecided, hdecode⟩ := (ih _).mp h
        refine ⟨round + 1, uuid, reply, hex, by omega, ?_, hdecided, hdecode⟩
        intro n hn
        cases n with
        | zero => exact hundecided
        | succ n =>
          apply hbefore
          omega
      | inr hdecided =>
        have ⟨uuid, reply, hex, hdecided⟩ := hdecided
        rw [pairStep2_of_decided rounds hdecided] at h
        exact ⟨0, uuid, reply, hex, by omega, by simp, hdecided, h⟩
    . intro h
      have ⟨round, uuid, reply, hex, hround, hbefore, hdecided, hdecode⟩ := h
      cases round with
      | zero =>
        rw [pairStep2_of_decided rounds hdecided]
        exact hdecode
      | succ round =>
        rw [pairStep2_of_undecided rounds (hbefore 0 (by omega)), ih]
        refine ⟨round, uuid, reply, hex, by omega, ?_, hdecided, hdecode⟩
        intro n hn
        apply hbefore
        omega

theorem pairStep3_eq_some_iff {ssl : PolarSsl κ} {info : HandshakeInfo}
    {key decrypted pairingSecret : List UInt8} {clientCert : κ} {clientSecret : Random}
    {request : PairRequest}
    : pairStep3 ssl info key decrypted clientCert clientSecret request = some pairingSecret
        ↔
      (0 < (ssl.sig clientCert).length ∧ (ssl.sig clientCert).length ≤ 480)
        ∧ ∃ reply pairingSecretHex,
          pairRequest info request
              (step3Query ssl key decrypted (ssl.sig clientCert) clientSecret) = some reply
            ∧ extractXml reply (ascii "pairingsecret") = some pairingSecretHex
            ∧ decodeHex pairingSecretHex 272 = some pairingSecret
            ∧ 16 < pairingSecret.length := by
  simp only [pairStep3, Option.bind_eq_bind, Option.bind_eq_some_iff, Option.guard_eq_some',
    Option.pure_def, Option.some.injEq, exists_const]
  constructor
  . intro h
    have ⟨hsig, reply, hreply, hex, hhex, secret, hsecret, hsize, heq⟩ := h
    rw [← heq]
    exact ⟨hsig, reply, hex, hreply, hhex, hsecret, hsize⟩
  . intro h
    have ⟨hsig, reply, hex, hreply, hhex, hsecret, hsize⟩ := h
    exact ⟨hsig, reply, hreply, hex, hhex, pairingSecret, hsecret, hsize, rfl⟩

theorem pairStep4_eq_some_iff {ssl : PolarSsl κ} {info : HandshakeInfo} {serverCert : κ}
    {pairingSecret reply : List UInt8} {clientSecret : Random}
    {pkSign : List UInt8 → Option (List UInt8)} {request : PairRequest}
    : pairStep4 ssl info serverCert pairingSecret clientSecret pkSign request = some reply
        ↔
      secretVerified ssl serverCert pairingSecret = true
        ∧ ∃ clientSignature, pkSign (ssl.sha256 clientSecret) = some clientSignature
          ∧ (0 < clientSignature.length ∧ clientSignature.length ≤ 256)
          ∧ pairRequest info request (step4Query clientSecret clientSignature) = some reply := by
  simp only [pairStep4, Option.bind_eq_bind, Option.bind_eq_some_iff, Option.guard_eq_some',
    exists_const]

/-
The function gets to the point of pinning a certificate exactly if some transcript passes the checks.
-/
theorem pairExchange_eq_some_iff {ssl : PolarSsl κ} {info : HandshakeInfo}
    {pin : Option (List UInt8)} {env : PairEnv κ} {serverCert : κ}
    : pairExchange ssl info pin env = some serverCert
        ↔
      ∃ tr, Agreed ssl info pin env tr ∧ tr.serverCert = serverCert := by
  simp only [pairExchange, Option.bind_eq_bind, Option.bind_eq_some_iff, Option.pure_def,
    Option.some.injEq, prepare_eq_some_iff, pairStep1_eq_some_iff, pairStep2_eq_some_iff,
    pairStep3_eq_some_iff, pairStep4_eq_some_iff, decodeResponse_eq_some_iff]
  constructor
  . intro h
    have ⟨preparation, hprepared, cert, hstep1, challenge, hchallenge, response, hstep2,
      clientSecret, hclientSecret, pairingSecret, hstep3, reply4, hstep4, hcert⟩ := h
    have ⟨hpin, huuid, hsalt, ⟨file, hfile, hhex⟩, hdrbg, hkey, hclientCert⟩ := hprepared
    have ⟨reply1, plaincertHex, plaincert, hreply1, hpaired1, hplaincertHex, hplaincert, hparse⟩ :=
      hstep1
    have ⟨round, uuid2, reply2, responseHex, hround, hundecided, hdecided, hresponse, hsize⟩ := hstep2
    have ⟨hsig, reply3, secretHex, hreply3, hsecretHex, hsecret, hsecretSize⟩ := hstep3
    have ⟨hverified, signature, hsignature, hsignatureSize, hreply4⟩ := hstep4
    refine ⟨⟨preparation.uuid, preparation.salt, file, preparation.clientCert, reply1, plaincertHex,
      plaincert, cert, challenge, round, uuid2, reply2, responseHex, response, clientSecret, reply3,
      secretHex, pairingSecret, signature, reply4⟩, ?_, hcert⟩
    have hpreparation : preparation
        = ⟨preparation.uuid, preparation.salt, certHexLoop file 0, preparation.clientCert⟩ := by
      rw [hhex]
    rw [hpreparation] at hreply1
    exact ⟨hpin, huuid, hsalt, hfile, hdrbg, hkey, hclientCert, hreply1, hpaired1, hplaincertHex,
      hplaincert, hparse, hchallenge, hround, hundecided, hdecided, hresponse, hsize, hclientSecret,
      hsig, hreply3, hsecretHex, hsecret, hsecretSize, hverified, hsignature, hsignatureSize, hreply4⟩
  . intro h
    have ⟨tr, ha, hcert⟩ := h
    refine ⟨tr.preparation, ⟨ha.pinValid, ha.uuid, ha.salt, ⟨_, ha.clientCertFile, rfl⟩,
      ha.ctrDrbgInit, ha.pkParseKeyfile, ha.clientCert⟩, tr.serverCert, ?_, tr.challenge,
      ha.challenge, tr.response, ?_, tr.clientSecret, ha.clientSecret, tr.pairingSecret, ?_,
      tr.reply4, ?_, hcert⟩
    . exact ⟨_, _, _, ha.reply1, ha.paired1, ha.plaincertHex, ha.plaincert, ha.serverCert⟩
    . exact ⟨_, _, _, _, ha.round, ha.undecided, ha.decided, ha.response, ha.responseSize⟩
    . exact ⟨ha.clientSig, _, _, ha.reply3, ha.pairingSecretHex, ha.pairingSecret,
        ha.pairingSecretSize⟩
    . exact ⟨ha.verified, _, ha.clientSignature, ha.clientSignatureSize, ha.reply4⟩

theorem Agreed.step2 {ssl : PolarSsl κ} {info : HandshakeInfo} {pin : Option (List UInt8)}
    {env : PairEnv κ} {tr : Transcript κ} (h : Agreed ssl info pin env tr)
    : pairStep2 info (tr.query2 ssl pin) env.retry 60 = some tr.response := by
  rw [pairStep2_eq_some_iff]
  refine ⟨tr.round, tr.uuid2, tr.reply2, tr.responseHex, h.round, h.undecided, h.decided, ?_⟩
  rw [decodeResponse_eq_some_iff]
  exact ⟨h.response, h.responseSize⟩

theorem Undecided.not_decided {info : HandshakeInfo} {query : List UInt8} {round : Retry}
    {uuid : Random} {reply responseHex : List UInt8} (h : Undecided info query round)
    : ¬Decided info query round uuid reply responseHex := by
  intro hdecided
  have hrefused := h.refused uuid hdecided.drawn reply hdecided.answered hdecided.paired
  rw [hdecided.challenged] at hrefused
  simp at hrefused

theorem Decided.round_unique {info : HandshakeInfo} {query : List UInt8} {retry : Nat → Retry}
    {round round' : Nat} {uuid uuid' : Random} {reply reply' responseHex responseHex' : List UInt8}
    (hbefore : ∀ n, n < round → Undecided info query (retry n))
    (h : Decided info query (retry round) uuid reply responseHex)
    (hbefore' : ∀ n, n < round' → Undecided info query (retry n))
    (h' : Decided info query (retry round') uuid' reply' responseHex')
    : round = round' := by
  apply Nat.le_antisymm
  . apply Nat.le_of_not_lt
    intro hlt
    exact (hbefore round' hlt).not_decided h'
  . apply Nat.le_of_not_lt
    intro hlt
    exact (hbefore' round hlt).not_decided h

/-
An exchange has at most one transcript.
-/
theorem Agreed.unique {ssl : PolarSsl κ} {info : HandshakeInfo} {pin : Option (List UInt8)}
    {env : PairEnv κ} {tr tr' : Transcript κ} (h : Agreed ssl info pin env tr)
    (h' : Agreed ssl info pin env tr')
    : tr = tr' := by
  cases tr
  cases tr'
  cases h.uuid.symm.trans h'.uuid
  cases h.salt.symm.trans h'.salt
  cases h.clientCertFile.symm.trans h'.clientCertFile
  cases h.clientCert.symm.trans h'.clientCert
  cases h.reply1.symm.trans h'.reply1
  cases h.plaincertHex.symm.trans h'.plaincertHex
  cases h.plaincert.symm.trans h'.plaincert
  cases h.serverCert.symm.trans h'.serverCert
  cases h.challenge.symm.trans h'.challenge
  cases Decided.round_unique h.undecided h.decided h'.undecided h'.decided
  cases h.decided.drawn.symm.trans h'.decided.drawn
  cases h.decided.answered.symm.trans h'.decided.answered
  cases h.decided.challenged.symm.trans h'.decided.challenged
  cases h.response.symm.trans h'.response
  cases h.clientSecret.symm.trans h'.clientSecret
  cases h.reply3.symm.trans h'.reply3
  cases h.pairingSecretHex.symm.trans h'.pairingSecretHex
  cases h.pairingSecret.symm.trans h'.pairingSecret
  cases h.clientSignature.symm.trans h'.clientSignature
  cases h.reply4.symm.trans h'.reply4
  rfl

end Handshake

import PS3Moonlight.Handshake.TrustStore
import PS3Moonlight.Lib.Blocks

/-!
This module contains the five steps of `hv_pair`. Everything the function does not compute itself is
in its environment: the random numbers, the files of the client, whether the user has gone back to the
address screen, and what the host answers to each request.
-/

namespace Handshake

variable {κ : Type}

structure PairRequest where
  uuid : Option Random
  io : HttpIo

/- One round of the second step, in which the user may have cancelled. -/
structure Retry where
  uuid : Option Random
  ipEntry : Bool
  io : HttpIo

structure PairEnv (κ : Type) where
  uuid : Option Random
  salt : Option Random
  clientCertFile : Option (List UInt8)
  ctrDrbgInit : Bool
  pkParseKeyfile : Bool
  clientCert : Option κ
  step1 : HttpIo
  challenge : Option Random
  retry : Nat → Retry
  clientSecret : Option Random
  step3 : PairRequest
  pkSign : List UInt8 → Option (List UInt8)
  step4 : PairRequest
  fingerprintFile : FileWrite
  step5Uuid : Option Random
  step5 : HttpsIo κ

def pinValid (pin : Option (List UInt8)) : Bool :=
  match pin with
  | none => false
  | some pin => (cstr pin).length == 4 && (cstr pin).all isDigit

def pinDigits (pin : Option (List UInt8)) : List UInt8 :=
  cstr (pin.getD [])

/- The encoding of the client's certificate file, as much of it as fits. -/
def certHexLoop (file : List UInt8) (length : Nat) : List UInt8 :=
  match file with
  | [] => []
  | c :: file =>
    if length < 8192 - 3 then binToLowerHex [c] ++ certHexLoop file (length + 2) else []

def pairPath (info : HandshakeInfo) (uuid : Random) (query : List UInt8) : List UInt8 :=
  (ascii "/pair?uniqueid=" ++ info.uniqueId ++ ascii "&uuid=" ++ generateUuidString uuid
    ++ ascii "&devicename=PS3&updateState=1&" ++ query).take 8191

def saysPaired (reply : List UInt8) : Bool :=
  extractXml reply (ascii "paired") == some (ascii "1")

/- An HTTP request of a later step that the host has to answer with `paired` equal to 1. -/
def pairRequest (info : HandshakeInfo) (request : PairRequest) (query : List UInt8)
    : Option (List UInt8) := do
  let uuid ← request.uuid
  let reply ← ps3HttpRequest info (pairPath info uuid query) request.io
  guard (saysPaired reply)
  return reply

/- What is read and drawn before the first request. -/
structure Preparation (κ : Type) where
  uuid : Random
  salt : Random
  certHex : List UInt8
  clientCert : κ

def prepare (pin : Option (List UInt8)) (env : PairEnv κ) : Option (Preparation κ) := do
  guard (pinValid pin)
  let uuid ← env.uuid
  let salt ← env.salt
  let file ← env.clientCertFile
  guard env.ctrDrbgInit
  guard env.pkParseKeyfile
  let clientCert ← env.clientCert
  return ⟨uuid, salt, certHexLoop file 0, clientCert⟩

def step1Query (preparation : Preparation κ) : List UInt8 :=
  ascii "phrase=getservercert&salt=" ++ binToHex preparation.salt ++ ascii "&clientcert="
    ++ preparation.certHex

/- getservercert: the host's certificate, as it was parsed from its PEM text. -/
def pairStep1 (ssl : PolarSsl κ) (info : HandshakeInfo) (preparation : Preparation κ) (io : HttpIo)
    : Option κ := do
  let reply ← ps3HttpRequest info (pairPath info preparation.uuid (step1Query preparation)) io
  guard (saysPaired reply)
  let plaincertHex ← extractXml reply (ascii "plaincert")
  let plaincert ← decodeHex plaincertHex (8192 - 1)
  ssl.x509CrtParse (cstr plaincert)

def aesKey (ssl : PolarSsl κ) (salt : Random) (pin : Option (List UInt8)) : List UInt8 :=
  (ssl.sha256 (salt ++ pinDigits pin)).take 16

/- The loop of `aes_crypt_ecb` over the blocks of the data. -/
def ecb (crypt : List UInt8 → List UInt8) (data : List UInt8) : List UInt8 :=
  Blocks.map crypt 16 data

def step2Query (ssl : PolarSsl κ) (key : List UInt8) (challenge : Random) : List UInt8 :=
  ascii "clientchallenge=" ++ binToHex (ssl.aesEncrypt key challenge)

/- The encrypted challenge response of a reply, `none` stands for a malformed one. -/
def decodeResponse (responseHex : List UInt8) : Option (List UInt8) := do
  let response ← decodeHex responseHex 64
  guard (48 ≤ response.length ∧ response.length % 16 = 0)
  return response

/-
clientchallenge: the request is repeated until the user has entered the PIN on the host. The result is
the encrypted challenge response of the round that ends the loop.
-/
def pairStep2 (info : HandshakeInfo) (query : List UInt8) (retry : Nat → Retry) (rounds : Nat)
    : Option (List UInt8) :=
  match rounds with
  | 0 => none
  | rounds + 1 =>
    let round := retry 0
    let again := pairStep2 info query (fun n => retry (n + 1)) rounds
    match round.uuid with
    | none => none
    | some uuid =>
      if round.ipEntry then
        none
      else
        match ps3HttpRequest info (pairPath info uuid query) round.io with
        | none => again
        | some reply =>
          if !saysPaired reply then
            again
          else
            match extractXml reply (ascii "challengeresponse") with
            | none => again
            | some responseHex => decodeResponse responseHex

def step3Query (ssl : PolarSsl κ) (key : List UInt8) (decrypted clientSig : List UInt8)
    (clientSecret : Random) : List UInt8 :=
  let serverNonce := (decrypted.drop 32).take 16
  let hash := ssl.sha256 (serverNonce ++ clientSig ++ clientSecret)
  ascii "serverchallengeresp=" ++ binToHex (ecb (ssl.aesEncrypt key) hash)

/- serverchallengeresp: the reply carries the host's pairing secret. -/
def pairStep3 (ssl : PolarSsl κ) (info : HandshakeInfo) (key decrypted : List UInt8)
    (clientCert : κ) (clientSecret : Random) (request : PairRequest) : Option (List UInt8) := do
  let clientSig := ssl.sig clientCert
  guard (0 < clientSig.length ∧ clientSig.length ≤ 480)
  let reply ← pairRequest info request (step3Query ssl key decrypted clientSig clientSecret)
  let pairingSecretHex ← extractXml reply (ascii "pairingsecret")
  let pairingSecret ← decodeHex pairingSecretHex 272
  guard (16 < pairingSecret.length)
  return pairingSecret

/- The signature over the first half of the pairing secret is the second half. -/
def secretVerified (ssl : PolarSsl κ) (serverCert : κ) (pairingSecret : List UInt8) : Bool :=
  ssl.pkVerify serverCert (ssl.sha256 (pairingSecret.take 16)) (pairingSecret.drop 16)

def step4Query (clientSecret : Random) (clientSignature : List UInt8) : List UInt8 :=
  ascii "clientpairingsecret=" ++ binToHex (clientSecret ++ clientSignature)

/- clientpairingsecret: the host is checked and gets the client's own signed secret. -/
def pairStep4 (ssl : PolarSsl κ) (info : HandshakeInfo) (serverCert : κ)
    (pairingSecret : List UInt8) (clientSecret : Random)
    (pkSign : List UInt8 → Option (List UInt8)) (request : PairRequest)
    : Option (List UInt8) := do
  guard (secretVerified ssl serverCert pairingSecret)
  let clientSignature ← pkSign (ssl.sha256 clientSecret)
  guard (0 < clientSignature.length ∧ clientSignature.length ≤ 256)
  pairRequest info request (step4Query clientSecret clientSignature)

/- The first four steps up to the point where the host's certificate is about to be pinned. -/
def pairExchange (ssl : PolarSsl κ) (info : HandshakeInfo) (pin : Option (List UInt8))
    (env : PairEnv κ) : Option κ := do
  let preparation ← prepare pin env
  let serverCert ← pairStep1 ssl info preparation env.step1
  let key := aesKey ssl preparation.salt pin
  let challenge ← env.challenge
  let response ← pairStep2 info (step2Query ssl key challenge) env.retry 60
  let decrypted := ecb (ssl.aesDecrypt key) response
  let clientSecret ← env.clientSecret
  let pairingSecret ←
    pairStep3 ssl info key decrypted preparation.clientCert clientSecret env.step3
  let _ ← pairStep4 ssl info serverCert pairingSecret clientSecret env.pkSign env.step4
  return serverCert

/- pairchallenge, over HTTPS with the pinned certificate. -/
def pairStep5 (ssl : PolarSsl κ) (info : HandshakeInfo) (env : PairEnv κ) (store : TrustStore)
    : Option (List UInt8) := do
  let uuid ← env.step5Uuid
  let reply ←
    ps3HttpsRequest ssl info (pairPath info uuid (ascii "phrase=pairchallenge")) env.step5 store
  guard (saysPaired reply)
  return reply

/- The result code, and the file with the pinned fingerprint after the call. -/
def hvPair (ssl : PolarSsl κ) (info : HandshakeInfo) (pin : Option (List UInt8)) (env : PairEnv κ)
    (store : TrustStore) : Int × TrustStore :=
  match pairExchange ssl info pin env with
  | none => ⟨-1, store⟩
  | some serverCert =>
    match saveServerFingerprint ssl serverCert env.fingerprintFile store with
    | ⟨false, store⟩ => ⟨-1, store⟩
    | ⟨true, store⟩ =>
      match pairStep5 ssl info env store with
      | none => ⟨-1, store⟩
      | some _ => ⟨0, store⟩

end Handshake

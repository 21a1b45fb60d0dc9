import PS3Moonlight.Handshake.PairForgery

/-!
This module contains what a pairing guarantees: which certificate it pins, whether it needs the PIN,
and what a failed pairing does to the pin of an earlier one.
-/

namespace Handshake

variable {κ : Type}

/- The host behind the pinned certificate answers the last step. -/
def Confirmed (ssl : PolarSsl κ) (info : HandshakeInfo) (env : PairEnv κ)
    (fingerprint : List UInt8) : Prop :=
  ∃ uuid peer reply,
    env.step5Uuid = some uuid ∧ env.step5.established = true
      ∧ env.step5.peerCertificate = some peer
      ∧ certificateFingerprint ssl peer = some fingerprint ∧ env.step5.fopen = true
      ∧ exchange
          (requestText info (pairPath info uuid (ascii "phrase=pairchallenge")) sunshineHttpsPort)
          env.step5.sslWrite env.step5.sslRead env.step5.conversion
        = some reply
      ∧ saysPaired reply = true

/- All checks of the five steps, the file with the fingerprint included. -/
def Accepted (ssl : PolarSsl κ) (info : HandshakeInfo) (pin : Option (List UInt8))
    (env : PairEnv κ) (tr : Transcript κ) : Prop :=
  Agreed ssl info pin env tr
    ∧ ∃ fingerprint, certificateFingerprint ssl tr.serverCert = some fingerprint
      ∧ env.fingerprintFile.fopen = true ∧ env.fingerprintFile.complete = true
      ∧ Confirmed ssl info env fingerprint

/-
What a host that knows the PIN has put into its challenge response.
-/
def Committed (ssl : PolarSsl κ) (pin : Option (List UInt8)) (tr : Transcript κ) : Prop :=
  (tr.decrypted ssl pin).take 32
    =
  ssl.sha256 (tr.challenge ++ ssl.sig tr.serverCert ++ tr.pairingSecret.take 16)

/-
What is left of an earlier pin if the pairing fails after the fingerprint's file has been opened.
-/
def PinKept (ssl : PolarSsl κ) (info : HandshakeInfo) (pin : Option (List UInt8))
    (env : PairEnv κ) (store : TrustStore) : Prop :=
  ∀ tr fingerprint, Agreed ssl info pin env tr
    → certificateFingerprint ssl tr.serverCert = some fingerprint
    → env.fingerprintFile.fopen = true
    → if env.fingerprintFile.complete then
        Confirmed ssl info env fingerprint ∨ store = some fingerprint
      else
        store = if env.fingerprintFile.unlink then none else some env.fingerprintFile.left

theorem ps3HttpsRequest_eq_some_iff {ssl : PolarSsl κ} {info : HandshakeInfo}
    {urlPath reply : List UInt8} {io : HttpsIo κ} {store : TrustStore}
    : ps3HttpsRequest ssl info urlPath io store = some reply
        ↔
      io.established = true ∧ verifyServerFingerprint ssl io.peerCertificate io.fopen store = true
        ∧ exchange (requestText info urlPath sunshineHttpsPort) io.sslWrite io.sslRead
            io.conversion = some reply := by
  unfold ps3HttpsRequest
  split
  . next hestablished =>
    split
    . next hverified => simp [hestablished, hverified]
    . next hverified => simp [hverified]
  . next hestablished => simp [hestablished]

theorem pairStep5_isSome_iff {ssl : PolarSsl κ} {info : HandshakeInfo} {env : PairEnv κ}
    {fingerprint : List UInt8}
    : (pairStep5 ssl info env (some fingerprint)).isSome = true
        ↔
      Confirmed ssl info env fingerprint := by
  simp only [Option.isSome_iff_exists, pairStep5, Option.bind_eq_bind, Option.bind_eq_some_iff,
    Option.guard_eq_some', Option.pure_def, Option.some.injEq, exists_const,
    ps3HttpsRequest_eq_some_iff, verifyServerFingerprint_iff]
  constructor
  . intro h
    have ⟨_, uuid, huuid, reply, ⟨hestablished, hverified, hreply⟩, hpaired, _⟩ := h
    have ⟨peer, fingerprint', hpeer, hfingerprint, hfopen, hstore⟩ := hverified
    rw [← hstore] at hfingerprint
    exact ⟨uuid, peer, reply, huuid, hestablished, hpeer, hfingerprint, hfopen, hreply, hpaired⟩
  . intro h
    have ⟨uuid, peer, reply, huuid, hestablished, hpeer, hfingerprint, hfopen, hreply, hpaired⟩ := h
    exact ⟨reply, uuid, huuid, reply,
      ⟨hestablished, ⟨peer, fingerprint, hpeer, hfingerprint, hfopen, rfl⟩, hreply⟩, hpaired, rfl⟩

/-
The four ends of a pairing.
-/

theorem hvPair_of_not_agreed {ssl : PolarSsl κ} {info : HandshakeInfo} {pin : Option (List UInt8)}
    {env : PairEnv κ} (store : TrustStore) (h : ∀ tr, ¬Agreed ssl info pin env tr)
    : hvPair ssl info pin env store = ⟨-1, store⟩ := by
  unfold hvPair
  split
  . rfl
  . next serverCert hexchange =>
    have ⟨tr, ha, _⟩ := pairExchange_eq_some_iff.mp hexchange
    exact absurd ha (h tr)

theorem hvPair_of_agreed {ssl : PolarSsl κ} {info : HandshakeInfo} {pin : Option (List UInt8)}
    {env : PairEnv κ} (store : TrustStore) {tr : Transcript κ} (h : Agreed ssl info pin env tr)
    : hvPair ssl info pin env store
        =
      match certificateFingerprint ssl tr.serverCert with
      | none => ⟨-1, store⟩
      | some fingerprint =>
        if env.fingerprintFile.fopen then
          if env.fingerprintFile.complete then
            ⟨if (pairStep5 ssl info env (some fingerprint)).isSome then 0 else -1, some fingerprint⟩
          else
            ⟨-1, if env.fingerprintFile.unlink then none else some env.fingerprintFile.left⟩
        else
          ⟨-1, store⟩ := by
  unfold hvPair
  rw [pairExchange_eq_some_iff.mpr ⟨tr, h, rfl⟩]
  dsimp only
  unfold saveServerFingerprint
  cases certificateFingerprint ssl tr.serverCert with
  | none => rfl
  | some fingerprint =>
    cases env.fingerprintFile.fopen with
    | false => rfl
    | true =>
      cases env.fingerprintFile.complete with
      | false => rfl
      | true =>
        simp only [Bool.not_true, Bool.false_eq_true, ↓reduceIte]
        cases pairStep5 ssl info env (some fingerprint) with
        | none => rfl
        | some reply => rfl

/-
A pairing succeeds exactly if some transcript passes all checks, and it then leaves the fingerprint
of the certificate in the transcript.
-/
theorem hvPair_eq_zero_iff {ssl : PolarSsl κ} {info : HandshakeInfo} {pin : Option (List UInt8)}
    {env : PairEnv κ} {store : TrustStore}
    : (hvPair ssl info pin env store).fst = 0 ↔ ∃ tr, Accepted ssl info pin env tr := by
  constructor
  . intro h
    apply Classical.byContradiction
    intro hnone
    cases Classical.em (∃ tr, Agreed ssl info pin env tr) with
    | inl hagreed =>
      have ⟨tr, ha⟩ := hagreed
      rw [hvPair_of_agreed store ha] at h
      apply hnone
      refine ⟨tr, ha, ?_⟩
      split at h
      . simp at h
      . next fingerprint hfingerprint =>
        split at h
        . next hfopen =>
          split at h
          . next hcomplete =>
            dsimp only at h
            split at h
            . next hstep5 =>
              exact ⟨fingerprint, hfingerprint, hfopen, hcomplete, pairStep5_isSome_iff.mp hstep5⟩
            . simp at h
          . simp at h
        . simp at h
    | inr hagreed =>
      rw [hvPair_of_not_agreed store (fun tr ha => hagreed ⟨tr, ha⟩)] at h
      simp at h
  . intro h
    have ⟨tr, ha, fingerprint, hfingerprint, hfopen, hcomplete, hconfirmed⟩ := h
    rw [hvPair_of_agreed store ha, hfingerprint]
    simp [hfopen, hcomplete, pairStep5_isSome_iff.mpr hconfirmed]

theorem hvPair_snd_of_accepted {ssl : PolarSsl κ} {info : HandshakeInfo}
    {pin : Option (List UInt8)} {env : PairEnv κ} (store : TrustStore) {tr : Transcript κ}
    {fingerprint : List UInt8} (ha : Agreed ssl info pin env tr)
    (hfingerprint : certificateFingerprint ssl tr.serverCert = some fingerprint)
    (hfopen : env.fingerprintFile.fopen = true) (hcomplete : env.fingerprintFile.complete = true)
    : (hvPair ssl info pin env store).snd = some fingerprint := by
  rw [hvPair_of_agreed store ha, hfingerprint]
  simp [hfopen, hcomplete]

theorem saysPaired_iff {reply : List UInt8}
    : saysPaired reply = true ↔ extractXml reply (ascii "paired") = some (ascii "1") := by
  simp [saysPaired]

/-
A successful pairing is about one certificate: the one of the first reply verified the signature, is
the one that is pinned, and is the one of the host that answers the last step.
-/
theorem paired_certificates_agree (ssl : PolarSsl κ) (info : HandshakeInfo)
    (pin : Option (List UInt8)) (env : PairEnv κ) (store : TrustStore)
    (h : (hvPair ssl info pin env store).fst = 0)
    : ∃ (tr : Transcript κ) (peer : κ) (uuid5 : Random) (reply5 : List UInt8),
        Agreed ssl info pin env tr
          ∧
        ssl.x509CrtParse (cstr tr.plaincert) = some tr.serverCert
          ∧
        ssl.pkVerify tr.serverCert (ssl.sha256 (tr.pairingSecret.take 16))
            (tr.pairingSecret.drop 16)
          = true
          ∧
        (hvPair ssl info pin env store).snd = some (ssl.sha256 (ssl.raw tr.serverCert))
          ∧
        (ssl.sha256 (ssl.raw tr.serverCert)).length = 32
          ∧
        env.step5.peerCertificate = some peer
          ∧
        ssl.sha256 (ssl.raw peer) = ssl.sha256 (ssl.raw tr.serverCert)
          ∧
        ps3HttpsRequest ssl info (pairPath info uuid5 (ascii "phrase=pairchallenge")) env.step5
            (some (ssl.sha256 (ssl.raw tr.serverCert)))
          = some reply5
          ∧
        (∀ reply, reply ∈ [tr.reply1, tr.reply2, tr.reply3, tr.reply4, reply5]
          → extractXml reply (ascii "paired") = some (ascii "1")) := by
  have ⟨tr, ha, fingerprint, hfingerprint, hfopen, hcomplete, hconfirmed⟩ :=
    hvPair_eq_zero_iff.mp h
  have ⟨uuid5, peer, reply5, huuid5, hestablished, hpeer, hsame, hreadable, hreply5, hpaired5⟩ :=
    hconfirmed
  have hstore := hvPair_snd_of_accepted store ha hfingerprint hfopen hcomplete
  have ⟨hsha, hlength⟩ := certificateFingerprint_eq_some hfingerprint
  have hpeerSha := (certificateFingerprint_eq_some hsame).left
  have ⟨_, _, _, hpaired3⟩ := pairRequest_eq_some_iff.mp ha.reply3
  have ⟨_, _, _, hpaired4⟩ := pairRequest_eq_some_iff.mp ha.reply4
  refine ⟨tr, peer, uuid5, reply5, ha, ha.serverCert, ha.verified, ?_, ?_, hpeer, ?_, ?_, ?_⟩
  . rw [hstore, hsha]
  . apply ssl.length_sha256 _
  . rw [← hpeerSha, hsha]
  . rw [ps3HttpsRequest_eq_some_iff, verifyServerFingerprint_iff]
    refine ⟨hestablished, ⟨peer, fingerprint, hpeer, hsame, hreadable, ?_⟩, hreply5⟩
    rw [hsha]
  . simp only [List.mem_cons, List.not_mem_nil, or_false, forall_eq_or_imp, forall_eq,
      ← saysPaired_iff]
    exact ⟨ha.paired1, ha.decided.paired, hpaired3, hpaired4, hpaired5⟩

/-
A failed pairing leaves the pin alone exactly if the file is not opened or ends up as it was.
-/
theorem failed_pairing_keeps_pin_iff (ssl : PolarSsl κ) (info : HandshakeInfo)
    (pin : Option (List UInt8)) (env : PairEnv κ) (store : TrustStore)
    : ((hvPair ssl info pin env store).fst ≠ 0 → (hvPair ssl info pin env store).snd = store)
        ↔
      PinKept ssl info pin env store := by
  constructor
  . intro h tr fingerprint ha hfingerprint hfopen
    rw [hvPair_of_agreed store ha, hfingerprint] at h
    simp only [hfopen, ↓reduceIte] at h
    split
    . next hcomplete =>
      simp only [hcomplete, ↓reduceIte] at h
      cases hstep5 : (pairStep5 ssl info env (some fingerprint)).isSome with
      | true =>
        left
        exact pairStep5_isSome_iff.mp hstep5
      | false =>
        right
        rw [hstep5] at h
        exact (h (by simp)).symm
    . next hcomplete =>
      simp only [hcomplete, Bool.false_eq_true, ↓reduceIte] at h
      exact (h (by simp)).symm
  . intro h hfailed
    cases Classical.em (∃ tr, Agreed ssl info pin env tr) with
    | inl hagreed =>
      have ⟨tr, ha⟩ := hagreed
      have hkept := h tr
      rw [hvPair_of_agreed store ha] at hfailed ⊢
      split
      . rfl
      . next fingerprint hfingerprint =>
        have hkept := hkept fingerprint ha hfingerprint
        simp only [hfingerprint] at hfailed
        cases hfopen : env.fingerprintFile.fopen with
        | false => rfl
        | true =>
          have hkept := hkept hfopen
          simp only [hfopen, ↓reduceIte] at hfailed ⊢
          cases hcomplete : env.fingerprintFile.complete with
          | true =>
            simp only [hcomplete, ↓reduceIte] at hkept hfailed ⊢
            cases hkept with
            | inl hconfirmed => simp [pairStep5_isSome_iff.mpr hconfirmed] at hfailed
            | inr hsame => exact hsame.symm
          | false =>
            simp only [hcomplete, Bool.false_eq_true, ↓reduceIte] at hkept ⊢
            exact hkept.symm
    | inr hagreed =>
      rw [hvPair_of_not_agreed store (fun tr ha => hagreed ⟨tr, ha⟩)]

theorem exists_length_ne (bytes : List UInt8) {length : Nat} (h : 0 < length)
    : ∃ other : List UInt8, other.length = length ∧ other ≠ bytes := by
  cases Classical.em (List.replicate length 0 = bytes) with
  | inl hzero =>
    refine ⟨List.replicate length 1, List.length_replicate, ?_⟩
    rw [← hzero]
    intro hsame
    have hone := List.replicate_inj.mp hsame
    simp [Nat.ne_of_gt h] at hone
  | inr hzero => exact ⟨_, List.length_replicate, hzero⟩

/-
A host that is accepted is accepted as well with a challenge response that is not committed to
anything, and gets the same certificate pinned.
-/
theorem accepted_without_commitment {ssl : PolarSsl κ} {info : HandshakeInfo}
    {pin : Option (List UInt8)} {env : PairEnv κ} {tr : Transcript κ} (store : TrustStore)
    (h : Accepted ssl info pin env tr)
    : ∃ response,
        (hvPair ssl info pin (env.answering tr.round response) store).fst = 0
          ∧
        (hvPair ssl info pin (env.answering tr.round response) store).snd
          = (hvPair ssl info pin env store).snd
          ∧
        ¬∃ tr', Agreed ssl info pin (env.answering tr.round response) tr'
          ∧ Committed ssl pin tr' := by
  have ⟨ha, fingerprint, hfingerprint, hfopen, hcomplete, hconfirmed⟩ := h
  have ⟨claimed, hlength, hclaimed⟩ : ∃ claimed : List UInt8, claimed.length = 32
      ∧ claimed ≠ ssl.sha256 (tr.challenge ++ ssl.sig tr.serverCert ++ tr.pairingSecret.take 16) := by
    apply exists_length_ne
    omega
  have hencrypted : (ecb (ssl.aesEncrypt (tr.key ssl pin)) claimed).length = 32 := by
    unfold ecb
    rw [Blocks.length_map (ssl.length_aesEncrypt _) (by omega), hlength]
  have hanswering := ha.answering hencrypted
  refine ⟨ecb (ssl.aesEncrypt (tr.key ssl pin)) claimed ++ tr.response.drop 32, ?_, ?_, ?_⟩
  . rw [hvPair_eq_zero_iff]
    exact ⟨_, hanswering, fingerprint, hfingerprint, hfopen, hcomplete, hconfirmed⟩
  . rw [hvPair_snd_of_accepted store ha hfingerprint hfopen hcomplete]
    apply hvPair_snd_of_accepted store hanswering hfingerprint hfopen hcomplete
  . intro hcommitted
    have ⟨tr', ha', hcommitted'⟩ := hcommitted
    rw [← hanswering.unique ha', Committed, take_decrypted_answering hlength] at hcommitted'
    exact hclaimed hcommitted'

/-
A small instance of the library: a certificate is its own encoding and its own signature, the
signature of a secret is its hash.
-/
def plainSsl : PolarSsl (List UInt8) where
  x509CrtParse text := if text.isEmpty then none else some text
  raw certificate := certificate
  sig certificate := certificate
  pkVerify _ hash signature := signature == hash
  sha256 bytes := (bytes ++ List.replicate 32 0).take 32
  aesEncrypt _ block := block
  aesDecrypt _ block := block
  length_sha256 bytes := by
    simp
  length_aesEncrypt _ _ h := h
  length_aesDecrypt _ _ h := h
  aesDecrypt_aesEncrypt _ _ _ := rfl

def sixteen (b : UInt8) : Random :=
  ⟨List.replicate 16 b, List.length_replicate⟩

/- A host that takes a request of the given length and gives one reply. -/
def replying (requestLen : Int) (body : List UInt8) : HttpIo where
  socket := true
  inetPton := true
  connectWithCancel := true
  send := [requestLen]
  recv := [.data (ascii "HTTP/1.1 200 OK\r\n\r\n<paired>1</paired>" ++ body) true, .close]
  conversion := wrapping

def exampleInfo : HandshakeInfo where
  address := ascii "192.168.1.10"
  uniqueId := ascii "0123456789abcdef"

/-
A host with the certificate 41 42 and the challenge response of 48 zero bytes, whatever the PIN.
-/
def exampleEnv : PairEnv (List UInt8) where
  uuid := some (sixteen 1)
  salt := some (sixteen 2)
  clientCertFile := some [67]
  ctrDrbgInit := true
  pkParseKeyfile := true
  clientCert := some [67]
  step1 := replying 264 (ascii "<plaincert>4142</plaincert>")
  challenge := some (sixteen 3)
  retry _ :=
    { uuid := some (sixteen 4)
      ipEntry := false
      io := replying 240
        (ascii "<challengeresponse>" ++ binToHex (List.replicate 48 0)
          ++ ascii "</challengeresponse>") }
  clientSecret := some (sixteen 5)
  step3 :=
    { uuid := some (sixteen 6)
      io := replying 276
        (ascii "<pairingsecret>" ++ binToHex (List.replicate 32 7 ++ List.replicate 16 0)
          ++ ascii "</pairingsecret>") }
  pkSign hash := some hash
  step4 :=
    { uuid := some (sixteen 8)
      io := replying 308 [] }
  fingerprintFile :=
    { fopen := true
      fwrite := 32
      fclose := true
      unlink := true
      left := [] }
  step5Uuid := some (sixteen 9)
  step5 :=
    { ctrDrbgInit := true
      clientCredentials := true
      socket := true
      inetPton := true
      connectWithCancel := true
      sslInit := true
      sslHandshake := true
      peerCertificate := some (ascii "AB")
      fopen := true
      sslWrite := [212]
      sslRead := (replying 212 []).recv
      conversion := wrapping }

theorem paired_certificates_agree_example
    : ∃ tr : Transcript (List UInt8),
        Agreed plainSsl exampleInfo (some (ascii "1234")) exampleEnv tr
          ∧
        (hvPair plainSsl exampleInfo (some (ascii "1234")) exampleEnv none).snd
          = some (plainSsl.sha256 (plainSsl.raw tr.serverCert)) := by
  have ⟨tr, _, _, _, hagreed, _, _, hstore, _⟩ := paired_certificates_agree plainSsl exampleInfo
    (some (ascii "1234")) exampleEnv none (by decide +kernel)
  exact ⟨tr, hagreed, hstore⟩

/-
The last step is rejected after the new fingerprint has replaced the earlier one.
-/
theorem failed_pairing_loses_pin
    : ¬ ∀ (κ : Type) (ssl : PolarSsl κ) (info : HandshakeInfo) (pin : Option (List UInt8))
          (env : PairEnv κ) (store : TrustStore),
        (hvPair ssl info pin env store).fst ≠ 0
          → (hvPair ssl info pin env store).snd = store := by
  intro hclaim
  have h := hclaim _ plainSsl exampleInfo (some (ascii "1234"))
    { exampleEnv with step5 := { exampleEnv.step5 with sslHandshake := false } }
    (some (List.replicate 32 1)) (by decide +kernel)
  exact absurd h (by decide +kernel)

end Handshake

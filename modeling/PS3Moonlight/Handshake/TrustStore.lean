import PS3Moonlight.Handshake.Http

/-!
This module contains the pinned fingerprint of the host's certificate: the file behind
`server_cert_hash_path`, its replacement and its comparison, and the HTTPS request that only talks to
a host whose certificate has the pinned fingerprint.
-/

namespace Handshake

/-
What `handshake.c` uses of PolarSSL, for a type of parsed certificates. Parsing, hashing and
verification are the functions of the library, a result code of zero is `true` or a value.
-/
structure PolarSsl (κ : Type) where
  x509CrtParse : List UInt8 → Option κ
  -- the bytes of the DER encoding and of the signature, empty without one
  raw : κ → List UInt8
  sig : κ → List UInt8
  pkVerify : κ → List UInt8 → List UInt8 → Bool
  sha256 : List UInt8 → List UInt8
  aesEncrypt : List UInt8 → List UInt8 → List UInt8
  aesDecrypt : List UInt8 → List UInt8 → List UInt8
  length_sha256 : ∀ bytes, (sha256 bytes).length = 32
  -- on single blocks of 16 bytes
  length_aesEncrypt : ∀ key block, block.length = 16 → (aesEncrypt key block).length = 16
  length_aesDecrypt : ∀ key block, block.length = 16 → (aesDecrypt key block).length = 16
  aesDecrypt_aesEncrypt : ∀ key block, block.length = 16
    → aesDecrypt key (aesEncrypt key block) = block

variable {κ : Type}

/- The contents of the file at `server_cert_hash_path`, if there is one. -/
abbrev TrustStore := Option (List UInt8)

def certificateFingerprint (ssl : PolarSsl κ) (certificate : κ) : Option (List UInt8) :=
  if (ssl.raw certificate).isEmpty then none else some (ssl.sha256 (ssl.raw certificate))

/-
How the calls on the file turn out: how many bytes `fwrite` takes, and what is left in a file that
could be neither written completely nor removed.
-/
structure FileWrite where
  fopen : Bool
  fwrite : Nat
  fclose : Bool
  unlink : Bool
  left : List UInt8

def FileWrite.complete (file : FileWrite) : Bool :=
  file.fwrite == 32 && file.fclose

/- Whether the fingerprint is saved, and the file after it. -/
def saveServerFingerprint (ssl : PolarSsl κ) (certificate : κ) (file : FileWrite)
    (store : TrustStore) : Bool × TrustStore :=
  match certificateFingerprint ssl certificate with
  | none => ⟨false, store⟩
  | some fingerprint =>
    if !file.fopen then
      ⟨false, store⟩
    else if file.complete then
      ⟨true, some fingerprint⟩
    else
      ⟨false, if file.unlink then none else some file.left⟩

/- The bitwise comparison over all bytes finds a difference exactly if there is one. -/
def difference (actual expected : List UInt8) : UInt8 :=
  (List.zip actual expected).foldl (fun d bytes => d ||| (bytes.fst ^^^ bytes.snd)) 0

def verifyServerFingerprint (ssl : PolarSsl κ) (certificate : Option κ) (fopen : Bool)
    (store : TrustStore) : Bool :=
  match certificate.bind (certificateFingerprint ssl) with
  | none => false
  | some actual =>
    match if fopen then store else none with
    | none => false
    | some content => content.length == 32 && difference actual content == 0

/- What the calls of one HTTPS request answer, and what is stored for the numbers of its response. -/
structure HttpsIo (κ : Type) where
  ctrDrbgInit : Bool
  clientCredentials : Bool
  socket : Bool
  inetPton : Bool
  connectWithCancel : Bool
  sslInit : Bool
  sslHandshake : Bool
  peerCertificate : Option κ
  fopen : Bool
  sslWrite : List Int
  sslRead : List Recv
  conversion : IntConversion

/- Whether everything up to the TLS handshake succeeds. -/
def HttpsIo.established (io : HttpsIo κ) : Bool :=
  io.ctrDrbgInit && io.clientCredentials && io.socket && io.inetPton && io.connectWithCancel
    && io.sslInit && io.sslHandshake

def ps3HttpsRequest (ssl : PolarSsl κ) (info : HandshakeInfo) (urlPath : List UInt8)
    (io : HttpsIo κ) (store : TrustStore) : Option (List UInt8) :=
  if io.established then
    if verifyServerFingerprint ssl io.peerCertificate io.fopen store then
      exchange (requestText info urlPath sunshineHttpsPort) io.sslWrite io.sslRead io.conversion
    else
      none
  else
    none

theorem foldl_difference_eq_zero_iff (pairs : List (UInt8 × UInt8)) (d : UInt8)
    : pairs.foldl (fun d bytes => d ||| (bytes.fst ^^^ bytes.snd)) d = 0
        ↔
      d = 0 ∧ ∀ bytes, bytes ∈ pairs → bytes.fst = bytes.snd := by
  induction pairs generalizing d with
  | nil => simp
  | cons bytes pairs ih =>
    rw [List.foldl_cons, ih, UInt8.or_eq_zero_iff, List.forall_mem_cons, UInt8.xor_eq_zero_iff,
      and_assoc]

theorem difference_eq_zero_iff {actual expected : List UInt8}
    (hlength : actual.length = expected.length)
    : difference actual expected = 0 ↔ actual = expected := by
  unfold difference
  rw [foldl_difference_eq_zero_iff]
  induction actual generalizing expected with
  | nil =>
    rw [List.length_nil] at hlength
    simp [List.eq_nil_of_length_eq_zero hlength.symm]
  | cons a actual ih =>
    cases expected with
    | nil => simp at hlength
    | cons b expected =>
      simp only [List.length_cons, Nat.add_right_cancel_iff] at hlength
      have hrest := ih hlength
      simp only [true_and] at hrest ⊢
      rw [List.zip_cons_cons, List.forall_mem_cons, hrest, List.cons.injEq]

theorem certificateFingerprint_eq_some {ssl : PolarSsl κ} {certificate : κ}
    {fingerprint : List UInt8}
    (h : certificateFingerprint ssl certificate = some fingerprint)
    : fingerprint = ssl.sha256 (ssl.raw certificate) ∧ fingerprint.length = 32 := by
  unfold certificateFingerprint at h
  split at h
  . simp at h
  . injection h with h
    rw [← h]
    exact ⟨rfl, ssl.length_sha256 _⟩

/-
The comparison accepts exactly the certificates whose fingerprint is the content of the file.
-/
theorem verifyServerFingerprint_iff (ssl : PolarSsl κ) (certificate : Option κ) (fopen : Bool)
    (store : TrustStore)
    : verifyServerFingerprint ssl certificate fopen store = true
        ↔
      ∃ peer fingerprint, certificate = some peer
        ∧ certificateFingerprint ssl peer = some fingerprint ∧ fopen = true
        ∧ store = some fingerprint := by
  unfold verifyServerFingerprint
  cases certificate with
  | none => simp
  | some peer =>
    rw [Option.bind_some]
    cases hactual : certificateFingerprint ssl peer with
    | none => simp [hactual]
    | some actual =>
      have hlength := (certificateFingerprint_eq_some hactual).right
      cases fopen with
      | false => simp
      | true =>
        cases store with
        | none => simp
        | some content =>
          simp only [↓reduceIte, Bool.and_eq_true, beq_iff_eq, Option.some.injEq, true_and]
          constructor
          . intro h
            have heq := (difference_eq_zero_iff (by omega)).mp h.right
            exact ⟨peer, actual, rfl, hactual, heq.symm⟩
          . intro h
            have ⟨peer', actual', hpeer, hactual', hcontent⟩ := h
            rw [← hpeer, hactual, Option.some.injEq] at hactual'
            rw [hcontent, ← hactual']
            exact ⟨hlength, (difference_eq_zero_iff rfl).mpr rfl⟩

end Handshake

import PS3Moonlight.Handshake.Text

/-!
This module contains the credentials of the client: `hv_generate_credentials` with the two files that it
writes, and the end of `hv_init`, which takes files that exist for credentials.
-/

namespace Handshake

variable {κ : Type}

/- The files at `client_key_path` and `client_cert_path`. -/
structure CredentialFiles where
  key : Option (List UInt8)
  cert : Option (List UInt8)
deriving DecidableEq

/-
How the calls on a buffered stream turn out: what `fwrite` or `fprintf` returns, whether `fclose` gets
rid of the rest, and what is in the file if one of them does not take everything.
-/
structure StreamWrite where
  fopen : Bool
  written : Nat
  fclose : Bool
  left : List UInt8

def StreamWrite.content (stream : StreamWrite) (text : List UInt8) : List UInt8 :=
  if stream.written == text.length && stream.fclose then text else stream.left

/- What the library and the file system do, for a type of keys. The encoders leave a C string. -/
structure CredentialsEnv (κ : Type) where
  ctrDrbgInit : Bool
  pkInitCtx : Bool
  rsaGenKey : Option κ
  keyFile : StreamWrite
  pkWriteKeyPem : κ → Option (List UInt8)
  x509writeCrtPem : κ → Option (List UInt8)
  certFile : StreamWrite

/- The value of `result` at the label `cleanup`, and the files there. -/
def generateCredentials (env : CredentialsEnv κ) (files : CredentialFiles) : Int × CredentialFiles :=
  if !env.ctrDrbgInit then ⟨-1, files⟩
  else if !env.pkInitCtx then ⟨-1, files⟩
  else
    match env.rsaGenKey with
    | none => ⟨-1, files⟩
    | some key =>
      if !env.keyFile.fopen then ⟨-1, files⟩
      else
        match env.pkWriteKeyPem key with
        | none => ⟨-1, { files with key := some [] }⟩
        | some buf =>
          let keyPem := cstr buf
          let files := { files with key := some (env.keyFile.content keyPem) }
          if env.keyFile.written ≠ keyPem.length then ⟨-1, files⟩
          else
            match env.x509writeCrtPem key with
            | none => ⟨-1, files⟩
            | some pemBuf =>
              if !env.certFile.fopen then ⟨-1, files⟩
              -- neither fprintf nor fclose is checked
              else ⟨0, { files with cert := some (env.certFile.content (cstr pemBuf)) }⟩

def hvGenerateCredentials (env : CredentialsEnv κ) (files : CredentialFiles)
    : Int × CredentialFiles :=
  let body := generateCredentials env files
  if body.fst ≠ 0 then ⟨body.fst, ⟨none, none⟩⟩ else body

/- Whether `hv_init` takes the files for credentials without another look at them. -/
def CredentialFiles.exist (files : CredentialFiles) : Bool :=
  files.cert.isSome && files.key.isSome

def hvInitCredentials (env : CredentialsEnv κ) (files : CredentialFiles) : Int × CredentialFiles :=
  if files.exist then ⟨0, files⟩ else hvGenerateCredentials env files

/- The complete encodings of one key and of the certificate for it. -/
def Complete (env : CredentialsEnv κ) (files : CredentialFiles) : Prop :=
  ∃ key buf pemBuf, env.rsaGenKey = some key ∧ env.pkWriteKeyPem key = some buf
    ∧ env.x509writeCrtPem key = some pemBuf
    ∧ files = ⟨some (cstr buf), some (cstr pemBuf)⟩

/- All or nothing, so that the next `hv_init` does not take anything else for credentials. -/
structure CredentialsSound (env : CredentialsEnv κ) (result : Int × CredentialFiles) : Prop where
  all : result.fst = 0 → Complete env result.snd
  nothing : result.fst ≠ 0 → result.snd = ⟨none, none⟩
  next : result.snd.exist = true → Complete env result.snd

/- Everything in the text gets into the file, whatever the calls say about it. -/
def StreamWrite.Lands (stream : StreamWrite) (text : List UInt8) : Prop :=
  (stream.written = text.length ∧ stream.fclose = true) ∨ stream.left = text

/- All the steps that are checked succeed, with this key and these encodings. -/
structure CredentialsEnv.Succeeds (env : CredentialsEnv κ) (key : κ) (buf pemBuf : List UInt8)
    : Prop where
  ctrDrbgInit : env.ctrDrbgInit = true
  pkInitCtx : env.pkInitCtx = true
  rsaGenKey : env.rsaGenKey = some key
  openKey : env.keyFile.fopen = true
  pkWriteKeyPem : env.pkWriteKeyPem key = some buf
  written : env.keyFile.written = (cstr buf).length
  x509writeCrtPem : env.x509writeCrtPem key = some pemBuf
  openCert : env.certFile.fopen = true

/- If they do, both files have to be complete when they are closed. -/
def CredentialsLand (env : CredentialsEnv κ) : Prop :=
  ∀ key buf pemBuf, env.Succeeds key buf pemBuf
    → env.keyFile.Lands (cstr buf) ∧ env.certFile.Lands (cstr pemBuf)

theorem content_eq_iff (stream : StreamWrite) (text : List UInt8)
    : stream.content text = text ↔ stream.Lands text := by
  unfold StreamWrite.content StreamWrite.Lands
  split
  . next h =>
    rw [Bool.and_eq_true, beq_iff_eq] at h
    simp [h]
  . next h =>
    rw [Bool.and_eq_true, beq_iff_eq] at h
    simp [h]

theorem generateCredentials_of_succeeds {env : CredentialsEnv κ} {key : κ} {buf pemBuf : List UInt8}
    (h : env.Succeeds key buf pemBuf) (files : CredentialFiles)
    : generateCredentials env files
        =
      ⟨0, ⟨some (env.keyFile.content (cstr buf)), some (env.certFile.content (cstr pemBuf))⟩⟩ := by
  simp [generateCredentials, h.ctrDrbgInit, h.pkInitCtx, h.rsaGenKey, h.openKey, h.pkWriteKeyPem,
    h.written, h.x509writeCrtPem, h.openCert]

/- What is left is the result of the first step that fails. -/
theorem generateCredentials_cases (env : CredentialsEnv κ) (files : CredentialFiles)
    : (generateCredentials env files).fst = -1 ∨ ∃ key buf pemBuf, env.Succeeds key buf pemBuf := by
  unfold generateCredentials
  split
  . exact Or.inl rfl
  . next hdrbg =>
    split
    . exact Or.inl rfl
    . next hpk =>
      split
      . exact Or.inl rfl
      . next key hkey =>
        split
        . exact Or.inl rfl
        . next hopen =>
          split
          . exact Or.inl rfl
          . next buf hbuf =>
            dsimp only
            split
            . exact Or.inl rfl
            . next hwritten =>
              split
              . exact Or.inl rfl
              . next pemBuf hpem =>
                split
                . exact Or.inl rfl
                . next hcert =>
                  right
                  refine ⟨key, buf, pemBuf, ?_, ?_, hkey, ?_, hbuf, ?_, hpem, ?_⟩
                  . simpa using hdrbg
                  . simpa using hpk
                  . simpa using hopen
                  . simpa using hwritten
                  . simpa using hcert

theorem hvGenerateCredentials_of_succeeds {env : CredentialsEnv κ} {key : κ}
    {buf pemBuf : List UInt8} (h : env.Succeeds key buf pemBuf) (files : CredentialFiles)
    : hvGenerateCredentials env files
        =
      ⟨0, ⟨some (env.keyFile.content (cstr buf)), some (env.certFile.content (cstr pemBuf))⟩⟩ := by
  rw [hvGenerateCredentials, generateCredentials_of_succeeds h]
  rfl

theorem hvGenerateCredentials_of_not_succeeds {env : CredentialsEnv κ}
    (h : ¬∃ key buf pemBuf, env.Succeeds key buf pemBuf) (files : CredentialFiles)
    : hvGenerateCredentials env files = ⟨-1, ⟨none, none⟩⟩ := by
  have hfst : (generateCredentials env files).fst = -1 := by
    cases generateCredentials_cases env files with
    | inl hfst => exact hfst
    | inr hsucceeds => exact absurd hsucceeds h
  rw [hvGenerateCredentials, if_pos (by rw [hfst]; decide), hfst]

theorem complete_iff_of_succeeds {env : CredentialsEnv κ} {key : κ} {buf pemBuf : List UInt8}
    (h : env.Succeeds key buf pemBuf)
    : Complete env ⟨some (env.keyFile.content (cstr buf)), some (env.certFile.content (cstr pemBuf))⟩
        ↔
      env.keyFile.Lands (cstr buf) ∧ env.certFile.Lands (cstr pemBuf) := by
  rw [← content_eq_iff, ← content_eq_iff]
  constructor
  . intro hcomplete
    obtain ⟨key', buf', pemBuf', hkey, hbuf, hpem, hfiles⟩ := hcomplete
    rw [h.rsaGenKey, Option.some.injEq] at hkey
    rw [← hkey, h.pkWriteKeyPem, Option.some.injEq] at hbuf
    rw [← hkey, h.x509writeCrtPem, Option.some.injEq] at hpem
    rw [← hbuf, ← hpem, CredentialFiles.mk.injEq, Option.some.injEq, Option.some.injEq] at hfiles
    exact hfiles
  . intro hlands
    rw [hlands.left, hlands.right]
    exact ⟨key, buf, pemBuf, h.rsaGenKey, h.pkWriteKeyPem, h.x509writeCrtPem, rfl⟩

theorem hvGenerateCredentials_sound_iff (env : CredentialsEnv κ) (files : CredentialFiles)
    : CredentialsSound env (hvGenerateCredentials env files) ↔ CredentialsLand env := by
  by_cases hsucceeds : ∃ key buf pemBuf, env.Succeeds key buf pemBuf
  . obtain ⟨key, buf, pemBuf, h⟩ := hsucceeds
    rw [hvGenerateCredentials_of_succeeds h]
    constructor
    . intro hsound key' buf' pemBuf' h'
      have hcomplete := hsound.all rfl
      rw [complete_iff_of_succeeds h] at hcomplete
      have hkey := h.rsaGenKey
      rw [h'.rsaGenKey, Option.some.injEq] at hkey
      have hbuf := h'.pkWriteKeyPem
      rw [hkey, h.pkWriteKeyPem, Option.some.injEq] at hbuf
      have hpem := h'.x509writeCrtPem
      rw [hkey, h.x509writeCrtPem, Option.some.injEq] at hpem
      rw [← hbuf, ← hpem]
      exact hcomplete
    . intro hland
      have hcomplete := (complete_iff_of_succeeds h).mpr (hland key buf pemBuf h)
      exact ⟨fun _ => hcomplete, fun hne => absurd rfl hne, fun _ => hcomplete⟩
  . rw [hvGenerateCredentials_of_not_succeeds hsucceeds]
    apply iff_of_true
    . constructor
      . intro hzero
        contradiction
      . intro _
        rfl
      . intro hexist
        contradiction
    . intro key buf pemBuf h
      exact absurd ⟨key, buf, pemBuf, h⟩ hsucceeds

/- A disk that takes the key and three bytes of the certificate. -/
def fullDiskEnv : CredentialsEnv Unit where
  ctrDrbgInit := true
  pkInitCtx := true
  rsaGenKey := some ()
  keyFile := ⟨true, 5, true, []⟩
  pkWriteKeyPem := fun _ => some (ascii "-----")
  x509writeCrtPem := fun _ => some (ascii "-----CERT")
  certFile := ⟨true, 9, false, ascii "---"⟩

theorem not_credentialsSound_fullDisk
    : ¬CredentialsSound fullDiskEnv (hvGenerateCredentials fullDiskEnv ⟨none, none⟩)
        ∧
      hvGenerateCredentials fullDiskEnv ⟨none, none⟩
          = ⟨0, ⟨some (ascii "-----"), some (ascii "---")⟩⟩
        ∧
      hvInitCredentials fullDiskEnv (hvGenerateCredentials fullDiskEnv ⟨none, none⟩).snd
          = ⟨0, ⟨some (ascii "-----"), some (ascii "---")⟩⟩ := by
  have hresult : hvGenerateCredentials fullDiskEnv ⟨none, none⟩
      = ⟨0, ⟨some (ascii "-----"), some (ascii "---")⟩⟩ := by
    decide
  rw [hresult]
  refine ⟨?_, rfl, by decide⟩
  intro hsound
  obtain ⟨key, buf, pemBuf, _, _, hpem, hfiles⟩ := hsound.all rfl
  rw [CredentialFiles.mk.injEq, ← Option.some.inj hpem] at hfiles
  have hcert := hfiles.right
  revert hcert
  decide

end Handshake

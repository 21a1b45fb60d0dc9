import PS3Moonlight.Lib.Bytes
import PS3Moonlight.Handshake.PairSecurity

/-!
This module contains the start of a session: `hv_launch` sends the session key of `main` to the host,
as hexadecimal and decimal text in the query of a request, and the stream configuration hands it to
the library as bytes. The host and the library have to end up with the same key and the same IV.
-/

namespace Handshake

variable {κ : Type}

def isXdigit (c : UInt8) : Bool :=
  (hexNibble c).isSome

def uuidStringValid (value : List UInt8) : Bool :=
  (cstr value).length == 36
    && value.zipIdx.all fun ⟨c, i⟩ =>
      if i = 8 ∨ i = 13 ∨ i = 18 ∨ i = 23 then c == 45 else isXdigit c

/-
The identifier that `hv_init` puts into every request: the one of the file as far as it is clean, or
a new one.
-/
def initUniqueId (idFile : Option (List UInt8)) (random : Random) : List UInt8 :=
  let stored :=
    (cstr ((idFile.getD []).take 63)).takeWhile fun c =>
      c != 10 && c != 13 && c != 9 && c != 96 && c != 32
  if uuidStringValid stored then stored else generateUuidString random

/- What the other requests use of the info that `hv_init` fills, if it succeeds. -/
def hvInit (address : List UInt8) (idFile : Option (List UInt8)) (random : Random)
    : HandshakeInfo where
  address := address
  uniqueId := initUniqueId idFile random

/- What the user interface says when the request is built. -/
structure StreamMode where
  width : Int
  height : Int
  fps : Int

structure LaunchRequest (κ : Type) where
  uuid : Option Random
  mode : StreamMode
  io : HttpsIo κ

structure LaunchEnv (κ : Type) where
  resume : LaunchRequest κ
  cancelUuid : Option Random
  cancel : HttpsIo κ
  launch : LaunchRequest κ

def launchText (info : HandshakeInfo) (verb : List UInt8) (uuid : Random) (mode : StreamMode)
    (appId : Int) (rikey : List UInt8) (rikeyid : Int) : List UInt8 :=
  ascii "/" ++ verb ++ ascii "?uniqueid=" ++ info.uniqueId ++ ascii "&uuid="
    ++ generateUuidString uuid ++ ascii "&appid=" ++ Decimal.signedText appId ++ ascii "&mode="
    ++ Decimal.signedText mode.width ++ ascii "x" ++ Decimal.signedText mode.height ++ ascii "x"
    ++ Decimal.signedText mode.fps ++ ascii "&additionalStates=1&sops=1" ++ ascii "&rikey=" ++ rikey
    ++ ascii "&rikeyid=" ++ Decimal.signedText rikeyid
    ++ ascii "&localAudioPlayMode=0&surroundAudioInfo=196610"
    ++ ascii "&remoteControllersBitmap=1&gcmap=1&corever=1"

def buildLaunchParams (info : HandshakeInfo) (verb : List UInt8) (request : LaunchRequest κ)
    (appId : Int) (rikey : List UInt8) (rikeyid : Int) : Option (List UInt8) := do
  let uuid ← request.uuid
  let path := launchText info verb uuid request.mode appId rikey rikeyid
  guard (path.length < 4096)
  return path

def cancelPath (info : HandshakeInfo) (uuid : Random) : List UInt8 :=
  (ascii "/cancel?uniqueid=" ++ info.uniqueId ++ ascii "&uuid=" ++ generateUuidString uuid).take 511

def atoi (conversion : IntConversion) (text : List UInt8) : Int :=
  match scanNumber (cstr text) with
  | none => 0
  | some number => conversion.toInt number.fst

/- The number in an element of a reply, 0 if the element is missing. -/
def elementNumber (conversion : IntConversion) (reply tag : List UInt8) : Int :=
  match extractXml reply tag with
  | none => 0
  | some element => atoi conversion element

def parseSessionUrl (info : HandshakeInfo) (reply : List UInt8) : List UInt8 :=
  match extractXml reply (ascii "sessionUrl0") with
  | some url => url.take 255
  | none => (ascii "rtsp://" ++ info.address ++ ascii ":48010").take 255

/- The paths of the requests, and the session URL if `hv_launch` returned 0. -/
structure Launch where
  requests : List (List UInt8)
  sessionUrl : Option (List UInt8)

/- The path of the request that ends an old session, which is sent if there is a random number. -/
def cancelRequests (info : HandshakeInfo) (uuid : Option Random) : List (List UInt8) :=
  match uuid with
  | none => []
  | some uuid => [cancelPath info uuid]

def hvLaunchFresh (ssl : PolarSsl κ) (info : HandshakeInfo) (appId : Int) (rikey : List UInt8)
    (rikeyid : Int) (env : LaunchEnv κ) (store : TrustStore) (sent : List (List UInt8)) : Launch :=
  match buildLaunchParams info (ascii "launch") env.launch appId rikey rikeyid with
  | none => ⟨sent, none⟩
  | some path =>
    let sent := sent ++ [path]
    match ps3HttpsRequest ssl info path env.launch.io store with
    | none => ⟨sent, none⟩
    | some reply =>
      if elementNumber env.launch.io.conversion reply (ascii "gamesession") = 0 then
        ⟨sent, none⟩
      else
        ⟨sent, some (parseSessionUrl info reply)⟩

def hvLaunch (ssl : PolarSsl κ) (info : HandshakeInfo) (appId : Int) (rikey : List UInt8)
    (rikeyid : Int) (env : LaunchEnv κ) (store : TrustStore) : Launch :=
  match buildLaunchParams info (ascii "resume") env.resume appId rikey rikeyid with
  | none => ⟨[], none⟩
  | some path =>
    let fresh :=
      hvLaunchFresh ssl info appId rikey rikeyid env store
        (path :: cancelRequests info env.cancelUuid)
    match ps3HttpsRequest ssl info path env.resume.io store with
    | none => fresh
    | some reply =>
      if elementNumber env.resume.io.conversion reply (ascii "resume") = 1 then
        ⟨[path], some (parseSessionUrl info reply)⟩
      else
        fresh

structure StreamConfiguration where
  width : Int
  height : Int
  fps : Int
  bitrate : Int
  packetSize : Int
  streamingRemotely : Int
  audioConfiguration : Int
  supportedVideoFormats : Int
  clientRefreshRateX100 : Int
  colorSpace : Int
  colorRange : Int
  encryptionFlags : Int
  remoteInputAesKey : List UInt8
  remoteInputAesIv : List UInt8

def liInitializeStreamConfiguration : StreamConfiguration where
  width := 0
  height := 0
  fps := 0
  bitrate := 0
  packetSize := 0
  streamingRemotely := 0
  audioConfiguration := 0
  supportedVideoFormats := 0
  clientRefreshRateX100 := 0
  colorSpace := 0
  colorRange := 0
  encryptionFlags := 0
  remoteInputAesKey := List.replicate 16 0
  remoteInputAesIv := List.replicate 16 0

/- What `main` draws for one session. -/
structure Draw where
  rikeyBin : Random
  randomValue : UInt32

namespace Draw

def rikeyHex (draw : Draw) : List UInt8 :=
  binToHex draw.rikeyBin

def rikeyid (draw : Draw) : Int :=
  (draw.randomValue.toNat % 1000000 : Nat)

end Draw

def streamConfiguration (draw : Draw) (mode : StreamMode) (bitrate vresHeight : Int)
    : StreamConfiguration :=
  { liInitializeStreamConfiguration with
    width := mode.width
    height := mode.height
    fps := mode.fps
    bitrate := bitrate
    packetSize := 1024
    streamingRemotely := 0
    audioConfiguration := 0x302CA
    supportedVideoFormats := 1
    clientRefreshRateX100 := if vresHeight = 576 then 5000 else 5994
    remoteInputAesKey := draw.rikeyBin }

/- The audio stream's `avRiKeyId`, the base of its IVs. -/
def avRiKeyId (config : StreamConfiguration) : Nat :=
  Bytes.readBe32 config.remoteInputAesIv 0

/- The requests of a session and the configuration that LiStartConnection is called with. -/
structure Session where
  requests : List (List UInt8)
  sessionUrl : List UInt8
  streamConfig : StreamConfiguration

/- The part of `main` from the keys to LiStartConnection, which a failed launch does not reach. -/
def launchSession (ssl : PolarSsl κ) (info : HandshakeInfo) (appId : Int) (draw : Draw)
    (env : LaunchEnv κ) (store : TrustStore) (mode : StreamMode) (bitrate vresHeight : Int)
    : Option Session :=
  let launch := hvLaunch ssl info appId draw.rikeyHex draw.rikeyid env store
  launch.sessionUrl.map fun sessionUrl =>
    ⟨launch.requests, sessionUrl, streamConfiguration draw mode bitrate vresHeight⟩

/-
The host.
-/

/- The value of a parameter in the query of a path. -/
def parameter (path name : List UInt8) : Option (List UInt8) :=
  (((path.dropWhile fun c => c != 63).drop 1).splitOn 38).findSome? fun field =>
    scanLiteral field (name ++ [61])

/- The number of a parameter that is nothing but a number. -/
def parameterNumber (path name : List UInt8) : Option Int := do
  let text ← parameter path name
  let ⟨number, rest⟩ ← scanNumber text
  guard rest.isEmpty
  return number

/- The request starts the session or takes it up again. -/
def IsLaunch (path : List UInt8) : Prop :=
  ascii "/resume?" <+: path ∨ ascii "/launch?" <+: path

/- The host gets the key from the request. -/
def KeyAgrees (config : StreamConfiguration) (path : List UInt8) : Prop :=
  ((parameter path (ascii "rikey")).bind fun rikey => decodeHex rikey 16)
    = some config.remoteInputAesKey

/- The host gets the base of the IVs from the request. -/
def IvAgrees (config : StreamConfiguration) (path : List UInt8) : Prop :=
  parameterNumber path (ascii "rikeyid") = some (avRiKeyId config : Int)

/-
The texts that the query is made of separate neither fields nor the query.
-/

/- Neither the end of a string nor one of the separators `?` and `&`. -/
def isPlain (c : UInt8) : Bool :=
  c != 0 && c != 38 && c != 63

def plain (text : List UInt8) : Bool :=
  text.all isPlain

theorem plain_append (first second : List UInt8)
    : plain (first ++ second) = (plain first && plain second) := by
  apply List.all_append

theorem isPlain_upperHexDigit : ∀ n, n < 16 → isPlain (upperHexDigit n) = true := by
  decide

theorem isPlain_lowerHexDigit : ∀ n, n < 16 → isPlain (lowerHexDigit n) = true := by
  decide

theorem plain_flatMap (digit : Nat → UInt8) (hdigit : ∀ n, n < 16 → isPlain (digit n) = true)
    (bin : List UInt8)
    : plain (bin.flatMap fun b => [digit (b.toNat / 16), digit (b.toNat % 16)]) = true := by
  unfold plain
  rw [List.all_eq_true]
  intro c hc
  obtain ⟨n, hn, hc⟩ := exists_digit_of_mem_flatMap hc
  rw [hc]
  exact hdigit n hn

theorem plain_binToHex (bin : List UInt8) : plain (binToHex bin) = true := by
  apply plain_flatMap upperHexDigit isPlain_upperHexDigit

theorem plain_binToLowerHex (bin : List UInt8) : plain (binToLowerHex bin) = true := by
  apply plain_flatMap lowerHexDigit isPlain_lowerHexDigit

theorem plain_generateUuidString (random : Random) : plain (generateUuidString random) = true := by
  unfold generateUuidString uuidUnparse
  have hdash : plain (ascii "-") = true := by
    decide
  simp only [plain_append, plain_binToLowerHex, hdash, Bool.and_true]

/- A class of characters without the separators has only plain ones. -/
theorem isPlain_of_class {p : UInt8 → Bool} (hp : p 0 = false ∧ p 38 = false ∧ p 63 = false)
    {c : UInt8} (h : p c = true)
    : isPlain c = true := by
  simp only [isPlain, Bool.and_eq_true, bne_iff_ne]
  refine ⟨⟨?_, ?_⟩, ?_⟩
  . intro hc
    simp [hc, hp.left] at h
  . intro hc
    simp [hc, hp.right.left] at h
  . intro hc
    simp [hc, hp.right.right] at h

theorem plain_signedText (n : Int) : plain (Decimal.signedText n) = true := by
  have htext : plain (Decimal.text n.natAbs) = true := by
    unfold plain
    rw [List.all_eq_true]
    intro c hc
    apply isPlain_of_class (by decide) (Decimal.isDigit_text _ c hc)
  unfold Decimal.signedText
  split
  . show (isPlain 45 && plain (Decimal.text n.natAbs)) = true
    rw [htext]
    rfl
  . exact htext

/- The characters that the position decides. -/
def uuidChar (i : Nat) (c : UInt8) : Bool :=
  if i = 8 ∨ i = 13 ∨ i = 18 ∨ i = 23 then c == 45 else isXdigit c

theorem uuidStringValid_eq (value : List UInt8)
    : uuidStringValid value
        =
      ((cstr value).length == 36 && value.zipIdx.all fun p => uuidChar p.snd p.fst) := by
  rfl

theorem uuidChar_of_mem {value : List UInt8} (h : uuidStringValid value = true) {c : UInt8}
    (hc : c ∈ value)
    : ∃ i, uuidChar i c = true := by
  rw [uuidStringValid_eq, Bool.and_eq_true, List.all_eq_true] at h
  obtain ⟨i, hi, hget⟩ := List.mem_iff_getElem.mp hc
  exact ⟨i, h.right ⟨c, i⟩ (by simp [List.mk_mem_zipIdx_iff_getElem?, hi, hget])⟩

/- An identifier has digits and hyphens only. -/
theorem mem_of_uuidStringValid {value : List UInt8} (h : uuidStringValid value = true) {c : UInt8}
    (hc : c ∈ value)
    : c = 45 ∨ isXdigit c = true := by
  obtain ⟨i, hi⟩ := uuidChar_of_mem h hc
  unfold uuidChar at hi
  split at hi
  . rw [beq_iff_eq] at hi
    exact Or.inl hi
  . exact Or.inr hi

theorem plain_of_uuidStringValid {value : List UInt8} (h : uuidStringValid value = true)
    : plain value = true := by
  unfold plain
  rw [List.all_eq_true]
  intro c hc
  cases mem_of_uuidStringValid h hc with
  | inl hdash => rw [hdash]; rfl
  | inr hdigit => exact isPlain_of_class (by decide) hdigit

/-
The request as the host takes it apart.
-/

def launchFields (info : HandshakeInfo) (uuid : Random) (mode : StreamMode) (appId : Int)
    (rikey : List UInt8) (rikeyid : Int) : List (List UInt8) :=
  [ascii "uniqueid=" ++ info.uniqueId,
    ascii "uuid=" ++ generateUuidString uuid,
    ascii "appid=" ++ Decimal.signedText appId,
    ascii "mode=" ++ (Decimal.signedText mode.width ++ (ascii "x" ++ (Decimal.signedText mode.height
      ++ (ascii "x" ++ Decimal.signedText mode.fps)))),
    ascii "additionalStates=1",
    ascii "sops=1",
    ascii "rikey=" ++ rikey,
    ascii "rikeyid=" ++ Decimal.signedText rikeyid,
    ascii "localAudioPlayMode=0",
    ascii "surroundAudioInfo=196610",
    ascii "remoteControllersBitmap=1",
    ascii "gcmap=1",
    ascii "corever=1"]

theorem launchText_eq (info : HandshakeInfo) (verb : List UInt8) (uuid : Random) (mode : StreamMode)
    (appId : Int) (rikey : List UInt8) (rikeyid : Int)
    : launchText info verb uuid mode appId rikey rikeyid
        =
      (ascii "/" ++ verb)
        ++ 63 :: [38].intercalate (launchFields info uuid mode appId rikey rikeyid) := by
  have huniqueid : ascii "?uniqueid=" = 63 :: ascii "uniqueid=" := by rfl
  have huuid : ascii "&uuid=" = 38 :: ascii "uuid=" := by rfl
  have happid : ascii "&appid=" = 38 :: ascii "appid=" := by rfl
  have hmode : ascii "&mode=" = 38 :: ascii "mode=" := by rfl
  have hstates : ascii "&additionalStates=1&sops=1"
      = 38 :: (ascii "additionalStates=1" ++ 38 :: ascii "sops=1") := by rfl
  have hrikey : ascii "&rikey=" = 38 :: ascii "rikey=" := by rfl
  have hrikeyid : ascii "&rikeyid=" = 38 :: ascii "rikeyid=" := by rfl
  have haudio : ascii "&localAudioPlayMode=0&surroundAudioInfo=196610"
      = 38 :: (ascii "localAudioPlayMode=0" ++ 38 :: ascii "surroundAudioInfo=196610") := by rfl
  have hrest : ascii "&remoteControllersBitmap=1&gcmap=1&corever=1"
      = 38 :: (ascii "remoteControllersBitmap=1" ++ 38 :: (ascii "gcmap=1"
        ++ 38 :: ascii "corever=1")) := by rfl
  unfold launchText launchFields
  simp only [huniqueid, huuid, happid, hmode, hstates, hrikey, hrikeyid, haudio, hrest,
    List.intercalate_cons_cons, List.intercalate_singleton, List.append_assoc, List.cons_append,
    List.nil_append]

theorem plain_launchFields {info : HandshakeInfo} (hid : plain info.uniqueId = true) (uuid : Random)
    (mode : StreamMode) (appId : Int) {rikey : List UInt8} (hrikey : plain rikey = true)
    (rikeyid : Int)
    : ∀ field, field ∈ launchFields info uuid mode appId rikey rikeyid → plain field = true := by
  unfold launchFields
  simp only [List.forall_mem_cons, List.not_mem_nil, false_implies, implies_true, and_true]
  simp only [plain_append, plain_generateUuidString, plain_signedText, hid, hrikey, Bool.and_true]
  decide

theorem parameter_launchText {info : HandshakeInfo} (hid : plain info.uniqueId = true)
    {verb : List UInt8} (hverb : plain verb = true) (uuid : Random) (mode : StreamMode) (appId : Int)
    {rikey : List UInt8} (hrikey : plain rikey = true) (rikeyid : Int) (name : List UInt8)
    : parameter (launchText info verb uuid mode appId rikey rikeyid) name
        =
      (launchFields info uuid mode appId rikey rikeyid).findSome? fun field =>
        scanLiteral field (name ++ [61]) := by
  unfold parameter
  have hpath : plain (ascii "/" ++ verb) = true := by
    rw [plain_append, hverb]
    rfl
  rw [launchText_eq, List.dropWhile_append_of_pos, List.dropWhile_cons_of_neg, List.drop_one,
    List.tail_cons, List.splitOn_intercalate]
  . intro field hfield hmem
    have hplain := plain_launchFields hid uuid mode appId hrikey rikeyid field hfield
    have hc := List.all_eq_true.mp hplain 38 hmem
    contradiction
  . unfold launchFields
    simp
  . simp
  . intro c hc
    have hplain := List.all_eq_true.mp hpath c hc
    simp only [isPlain, Bool.and_eq_true] at hplain
    exact hplain.right

theorem findSome_rikey (info : HandshakeInfo) (uuid : Random) (mode : StreamMode) (appId : Int)
    (rikey : List UInt8) (rikeyid : Int)
    : ((launchFields info uuid mode appId rikey rikeyid).findSome? fun field =>
        scanLiteral field (ascii "rikey" ++ [61]))
        = some rikey := by
  rfl

theorem findSome_rikeyid (info : HandshakeInfo) (uuid : Random) (mode : StreamMode) (appId : Int)
    (rikey : List UInt8) (rikeyid : Int)
    : ((launchFields info uuid mode appId rikey rikeyid).findSome? fun field =>
        scanLiteral field (ascii "rikeyid" ++ [61]))
        = some (Decimal.signedText rikeyid) := by
  rfl

theorem parameterNumber_rikeyid {info : HandshakeInfo} (hid : plain info.uniqueId = true)
    {verb : List UInt8} (hverb : plain verb = true) (uuid : Random) (mode : StreamMode) (appId : Int)
    {rikey : List UInt8} (hrikey : plain rikey = true) (n : Nat)
    : parameterNumber (launchText info verb uuid mode appId rikey n) (ascii "rikeyid")
        = some (n : Int) := by
  have hscan : scanNumber (Decimal.text n ++ []) = some ⟨n, []⟩ := by
    apply scanNumber_text
    simp
  have hsigned : Decimal.signedText n = Decimal.text n := by
    unfold Decimal.signedText
    rw [if_neg (by omega)]
    simp
  unfold parameterNumber
  rw [parameter_launchText hid hverb uuid mode appId hrikey, findSome_rikeyid, hsigned]
  rw [List.append_nil] at hscan
  simp [hscan]

/-
What `hv_launch` sends.
-/

theorem buildLaunchParams_eq_some {info : HandshakeInfo} {verb path : List UInt8}
    {request : LaunchRequest κ} {appId : Int} {rikey : List UInt8} {rikeyid : Int}
    (h : buildLaunchParams info verb request appId rikey rikeyid = some path)
    : ∃ uuid, path = launchText info verb uuid request.mode appId rikey rikeyid := by
  unfold buildLaunchParams at h
  simp only [Option.bind_eq_bind, Option.bind_eq_some_iff, Option.pure_def, Option.some.injEq] at h
  have ⟨uuid, _, _, _, hpath⟩ := h
  exact ⟨uuid, hpath.symm⟩

/- The request for a session with these keys. -/
def Asks (info : HandshakeInfo) (appId : Int) (rikey : List UInt8) (rikeyid : Int)
    (path : List UInt8) : Prop :=
  ∃ verb uuid mode, plain verb = true
    ∧ path = launchText info verb uuid mode appId rikey rikeyid

def Cancels (info : HandshakeInfo) (path : List UInt8) : Prop :=
  ∃ uuid, path = cancelPath info uuid

theorem mem_hvLaunchFresh {ssl : PolarSsl κ} {info : HandshakeInfo} {appId : Int}
    {rikey : List UInt8} {rikeyid : Int} {env : LaunchEnv κ} {store : TrustStore}
    {sent : List (List UInt8)} {path : List UInt8}
    (h : path ∈ (hvLaunchFresh ssl info appId rikey rikeyid env store sent).requests)
    : path ∈ sent ∨ Asks info appId rikey rikeyid path := by
  unfold hvLaunchFresh at h
  split at h
  . exact Or.inl h
  . next launchPath hbuild =>
    have ⟨uuid, hlaunchPath⟩ := buildLaunchParams_eq_some hbuild
    have hmem : path ∈ sent ++ [launchPath] := by
      dsimp only at h
      split at h
      . exact h
      . split at h
        . exact h
        . exact h
    rw [List.mem_append, List.mem_singleton] at hmem
    cases hmem with
    | inl hsent => exact Or.inl hsent
    | inr hlast =>
      right
      exact ⟨ascii "launch", uuid, env.launch.mode, by decide, hlast.trans hlaunchPath⟩

theorem mem_hvLaunch {ssl : PolarSsl κ} {info : HandshakeInfo} {appId : Int} {rikey : List UInt8}
    {rikeyid : Int} {env : LaunchEnv κ} {store : TrustStore} {path : List UInt8}
    (h : path ∈ (hvLaunch ssl info appId rikey rikeyid env store).requests)
    : Asks info appId rikey rikeyid path ∨ Cancels info path := by
  unfold hvLaunch at h
  split at h
  . simp at h
  . next resumePath hbuild =>
    have ⟨uuid, hresumePath⟩ := buildLaunchParams_eq_some hbuild
    have hasks : Asks info appId rikey rikeyid resumePath := by
      exact ⟨ascii "resume", uuid, env.resume.mode, by decide, hresumePath⟩
    have hfresh : path ∈ (hvLaunchFresh ssl info appId rikey rikeyid env store
          (resumePath :: cancelRequests info env.cancelUuid)).requests
        → Asks info appId rikey rikeyid path ∨ Cancels info path := by
      intro hmem
      cases mem_hvLaunchFresh hmem with
      | inr hlaunch => exact Or.inl hlaunch
      | inl hsent =>
        rw [List.mem_cons] at hsent
        cases hsent with
        | inl hresume =>
          rw [hresume]
          exact Or.inl hasks
        | inr hcancel =>
          right
          unfold cancelRequests at hcancel
          split at hcancel
          . simp at hcancel
          . next cancelUuid _ =>
            rw [List.mem_singleton] at hcancel
            exact ⟨cancelUuid, hcancel⟩
    dsimp only at h
    split at h
    . apply hfresh h
    . split at h
      . rw [List.mem_singleton] at h
        rw [h]
        exact Or.inl hasks
      . apply hfresh h

theorem subset_hvLaunchFresh {ssl : PolarSsl κ} {info : HandshakeInfo} {appId : Int}
    {rikey : List UInt8} {rikeyid : Int} {env : LaunchEnv κ} {store : TrustStore}
    {sent : List (List UInt8)} {path : List UInt8} (h : path ∈ sent)
    : path ∈ (hvLaunchFresh ssl info appId rikey rikeyid env store sent).requests := by
  unfold hvLaunchFresh
  split
  . exact h
  . dsimp only
    split
    . apply List.mem_append_left _ h
    . split
      . apply List.mem_append_left _ h
      . apply List.mem_append_left _ h

/- Whatever comes of it, the first request asks to take the session up again. -/
theorem exists_resume_mem {ssl : PolarSsl κ} {info : HandshakeInfo} {appId : Int}
    {rikey : List UInt8} {rikeyid : Int} {env : LaunchEnv κ} {store : TrustStore}
    {sessionUrl : List UInt8}
    (h : (hvLaunch ssl info appId rikey rikeyid env store).sessionUrl = some sessionUrl)
    : ∃ uuid, launchText info (ascii "resume") uuid env.resume.mode appId rikey rikeyid
        ∈ (hvLaunch ssl info appId rikey rikeyid env store).requests := by
  unfold hvLaunch at h ⊢
  cases hbuild : buildLaunchParams info (ascii "resume") env.resume appId rikey rikeyid with
  | none => simp [hbuild] at h
  | some resumePath =>
    have ⟨uuid, hresumePath⟩ := buildLaunchParams_eq_some hbuild
    refine ⟨uuid, ?_⟩
    rw [← hresumePath]
    dsimp only
    split
    . apply subset_hvLaunchFresh
      simp
    . split
      . simp
      . apply subset_hvLaunchFresh
        simp

theorem not_isLaunch_of_cancels {info : HandshakeInfo} {path : List UInt8}
    (h : Cancels info path)
    : ¬ IsLaunch path := by
  have ⟨uuid, hpath⟩ := h
  have hcancel : path.take 8 = ascii "/cancel?" := by
    rw [hpath]
    rfl
  intro hlaunch
  cases hlaunch with
  | inl hresume =>
    have htake := List.prefix_iff_eq_take.mp hresume
    have heq : ascii "/resume?" = ascii "/cancel?" := htake.trans hcancel
    revert heq
    decide
  | inr hlaunch =>
    have htake := List.prefix_iff_eq_take.mp hlaunch
    have heq : ascii "/launch?" = ascii "/cancel?" := htake.trans hcancel
    revert heq
    decide

theorem isLaunch_resume (info : HandshakeInfo) (uuid : Random) (mode : StreamMode) (appId : Int)
    (rikey : List UInt8) (rikeyid : Int)
    : IsLaunch (launchText info (ascii "resume") uuid mode appId rikey rikeyid) := by
  left
  rw [launchText_eq]
  exact ⟨_, rfl⟩

theorem plain_initUniqueId (idFile : Option (List UInt8)) (random : Random)
    : plain (initUniqueId idFile random) = true := by
  unfold initUniqueId
  dsimp only
  split
  . next hvalid => exact plain_of_uuidStringValid hvalid
  . apply plain_generateUuidString

theorem plain_uniqueId_hvInit (address : List UInt8) (idFile : Option (List UInt8)) (random : Random)
    : plain (hvInit address idFile random).uniqueId = true := by
  apply plain_initUniqueId

/- The key is handed over as it was drawn, in every request. -/
theorem keyAgrees_of_asks {info : HandshakeInfo} (hid : plain info.uniqueId = true) {appId : Int}
    {draw : Draw} {path : List UInt8} (h : Asks info appId draw.rikeyHex draw.rikeyid path)
    (mode : StreamMode) (bitrate vresHeight : Int)
    : KeyAgrees (streamConfiguration draw mode bitrate vresHeight) path := by
  have ⟨verb, uuid, requestMode, hverb, hpath⟩ := h
  have hlength : draw.rikeyBin.val.length ≤ 16 := by
    rw [draw.rikeyBin.property]
  have hrikey : plain draw.rikeyHex = true := by
    apply plain_binToHex
  unfold KeyAgrees
  rw [hpath, parameter_launchText hid hverb _ _ _ hrikey, findSome_rikey, Option.bind_some]
  apply decodeHex_binToHex _ hlength

theorem parameterNumber_of_asks {info : HandshakeInfo} (hid : plain info.uniqueId = true)
    {appId : Int} {draw : Draw} {path : List UInt8}
    (h : Asks info appId draw.rikeyHex draw.rikeyid path)
    : parameterNumber path (ascii "rikeyid") = some draw.rikeyid := by
  have ⟨verb, uuid, mode, hverb, hpath⟩ := h
  rw [hpath]
  apply parameterNumber_rikeyid hid hverb _ _ _ (plain_binToHex _)

/- Nothing is copied to the IV of the configuration. -/
theorem avRiKeyId_streamConfiguration (draw : Draw) (mode : StreamMode) (bitrate vresHeight : Int)
    : avRiKeyId (streamConfiguration draw mode bitrate vresHeight) = 0 := by
  show Bytes.readBe32 (List.replicate 16 0) 0 = 0
  decide

theorem ivAgrees_iff_of_asks {info : HandshakeInfo} (hid : plain info.uniqueId = true)
    {appId : Int} {draw : Draw} {path : List UInt8}
    (h : Asks info appId draw.rikeyHex draw.rikeyid path) (mode : StreamMode)
    (bitrate vresHeight : Int)
    : IvAgrees (streamConfiguration draw mode bitrate vresHeight) path
        ↔
      draw.randomValue.toNat % 1000000 = 0 := by
  unfold IvAgrees
  rw [parameterNumber_of_asks hid h, avRiKeyId_streamConfiguration, Option.some.injEq]
  unfold Draw.rikeyid
  omega

/- If all the requests of a session agree, the first one does. -/
theorem randomValue_of_agreement {ssl : PolarSsl κ} {info : HandshakeInfo}
    (hid : plain info.uniqueId = true) {appId : Int} {draw : Draw} {env : LaunchEnv κ}
    {store : TrustStore} {mode : StreamMode} {bitrate vresHeight : Int} {session : Session}
    (h : launchSession ssl info appId draw env store mode bitrate vresHeight = some session)
    (hagree : ∀ path, path ∈ session.requests → IsLaunch path
      → IvAgrees session.streamConfig path)
    : draw.randomValue.toNat % 1000000 = 0 := by
  unfold launchSession at h
  simp only [Option.map_eq_some_iff] at h
  have ⟨sessionUrl, hurl, hsession⟩ := h
  rw [← hsession] at hagree
  have ⟨uuid, hmem⟩ := exists_resume_mem hurl
  have hasks : Asks info appId draw.rikeyHex draw.rikeyid
      (launchText info (ascii "resume") uuid env.resume.mode appId draw.rikeyHex draw.rikeyid) := by
    exact ⟨ascii "resume", uuid, env.resume.mode, by decide, rfl⟩
  have hiv := hagree _ hmem (isLaunch_resume _ _ _ _ _ _)
  exact (ivAgrees_iff_of_asks hid hasks mode bitrate vresHeight).mp hiv

/-
Host and client agree on the key of every session, and on the IV exactly if the number that was drawn
for it is a multiple of a million.
-/
theorem session_keys_agree_iff (ssl : PolarSsl κ) (address : List UInt8)
    (idFile : Option (List UInt8)) (random : Random) (appId : Int) (draw : Draw) (env : LaunchEnv κ)
    (store : TrustStore) (mode : StreamMode) (bitrate vresHeight : Int) (session : Session)
    (h : launchSession ssl (hvInit address idFile random) appId draw env store mode bitrate
        vresHeight
      = some session)
    : (∀ path, path ∈ session.requests → IsLaunch path
          → KeyAgrees session.streamConfig path ∧ IvAgrees session.streamConfig path)
        ↔
      draw.randomValue.toNat % 1000000 = 0 := by
  have hid := plain_uniqueId_hvInit address idFile random
  constructor
  . intro hagree
    apply randomValue_of_agreement hid h
    intro path hmem hlaunch
    exact (hagree path hmem hlaunch).right
  . intro hrandom path hmem hlaunch
    unfold launchSession at h
    simp only [Option.map_eq_some_iff] at h
    obtain ⟨sessionUrl, _, hsession⟩ := h
    rw [← hsession] at hmem ⊢
    cases mem_hvLaunch hmem with
    | inl hasks =>
      constructor
      . apply keyAgrees_of_asks hid hasks
      . apply (ivAgrees_iff_of_asks hid hasks mode bitrate vresHeight).mpr hrandom
    | inr hcancels => exact absurd hlaunch (not_isLaunch_of_cancels hcancels)

/- A host that is pinned and takes up the session again. -/
def resumingEnv : LaunchEnv (List UInt8) where
  resume :=
    { uuid := some (sixteen 1)
      mode := ⟨1280, 720, 60⟩
      io :=
        { exampleEnv.step5 with
          sslWrite := [374]
          sslRead := [.data (ascii "HTTP/1.1 200 OK\r\n\r\n<resume>1</resume>") true, .close] } }
  cancelUuid := none
  cancel := exampleEnv.step5
  launch :=
    { uuid := none
      mode := ⟨1280, 720, 60⟩
      io := exampleEnv.step5 }

def pinnedStore : TrustStore :=
  some (plainSsl.sha256 (ascii "AB"))

theorem session_keys_agree_iff_two_million
    : ∃ session,
        launchSession plainSsl (hvInit (ascii "192.168.1.10") none (sixteen 2)) 5
            ⟨sixteen 7, 2000000⟩ resumingEnv pinnedStore ⟨1280, 720, 60⟩ 10000 1080
          = some session
          ∧
        ∀ path, path ∈ session.requests → IsLaunch path
          → KeyAgrees session.streamConfig path ∧ IvAgrees session.streamConfig path := by
  obtain ⟨session, h⟩ : ∃ session,
      launchSession plainSsl (hvInit (ascii "192.168.1.10") none (sixteen 2)) 5
          ⟨sixteen 7, 2000000⟩ resumingEnv pinnedStore ⟨1280, 720, 60⟩ 10000 1080
        = some session := by
    apply Option.isSome_iff_exists.mp
    decide +kernel
  refine ⟨session, h, ?_⟩
  apply (session_keys_agree_iff plainSsl (ascii "192.168.1.10") none (sixteen 2) 5
    ⟨sixteen 7, 2000000⟩ resumingEnv pinnedStore ⟨1280, 720, 60⟩ 10000 1080 session h).mpr
  decide

/-
The host is told 1, the client starts from 0.
-/
theorem iv_of_one_differs
    : ¬ ∀ (κ : Type) (ssl : PolarSsl κ) (address : List UInt8) (idFile : Option (List UInt8))
          (random : Random) (appId : Int) (draw : Draw) (env : LaunchEnv κ) (store : TrustStore)
          (mode : StreamMode) (bitrate vresHeight : Int) (session : Session),
        launchSession ssl (hvInit address idFile random) appId draw env store mode bitrate
            vresHeight
          = some session
          → ∀ path, path ∈ session.requests → IsLaunch path
              → KeyAgrees session.streamConfig path ∧ IvAgrees session.streamConfig path := by
  intro hclaim
  obtain ⟨session, h⟩ : ∃ session,
      launchSession plainSsl (hvInit (ascii "192.168.1.10") none (sixteen 2)) 5 ⟨sixteen 7, 1⟩
          resumingEnv pinnedStore ⟨1280, 720, 60⟩ 10000 1080
        = some session := by
    apply Option.isSome_iff_exists.mp
    decide +kernel
  have hagree := hclaim _ _ _ _ _ _ _ _ _ _ _ _ session h
  have hrandom := randomValue_of_agreement (plain_uniqueId_hvInit _ _ _) h
    (fun path hmem hlaunch => (hagree path hmem hlaunch).right)
  revert hrandom
  decide

end Handshake
